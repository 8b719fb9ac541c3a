import EarlyConfig.Proofs.Collecting
import EarlyConfig.Proofs.EarlyComplaints

/-! Texts of which the first counts. Sources and versions are merged alike (`keepFirst`): the first
text that is not empty is kept, and each later one that differs from it is reported. A run of such
steps does the same with all of its texts (`Diagnosed.KeepsFirst`). -/
namespace EarlyConfig

/-- How many texts after the first are different from it. -/
def disagreements : List String → Nat
  | [] => 0
  | x :: rest => rest.countP (· ≠ x)

theorem disagreements_append (xs ys : List String) :
    disagreements (xs ++ ys) = disagreements xs + disagreements (xs.head?.toList ++ ys) := by
  cases xs with
  | nil => simp [disagreements]
  | cons x rest => simp [disagreements, List.countP_append]

def nonEmpty (texts : List String) : List String :=
  texts.filter (· ≠ "")

theorem flatMap_nonEmpty {α : Type} (text : α → String) (xs : List α) :
    xs.flatMap (fun x => nonEmpty [text x]) = nonEmpty (xs.map text) := by
  induction xs with
  | nil => rfl
  | cons x rest ih =>
    rw [List.flatMap_cons, ih]
    by_cases h : text x = "" <;> simp [nonEmpty, h]

namespace Diagnosed

variable {ρ α : Type}

/-- A step that keeps the first text it is given and reports each later one that is different. -/
structure KeepsFirst (step : ρ → α → Diagnosed ρ) (kept : ρ → Option String)
    (texts : α → List String) (summary : String) : Prop where
  value : ∀ r x, kept (step r x).value = ((kept r).toList ++ texts x).head?
  reports : ∀ r x, (step r x).diagnostics.countP (·.summary = summary) =
    disagreements ((kept r).toList ++ texts x)

/-- So does a run of such steps. -/
theorem KeepsFirst.foldlM {step : ρ → α → Diagnosed ρ} {kept : ρ → Option String}
    {texts : α → List String} {summary : String} (h : KeepsFirst step kept texts summary) :
    KeepsFirst (fun r xs => List.foldlM step r xs) kept (fun xs => xs.flatMap texts) summary := by
  -- What is kept stands for all texts so far, of which it is the first.
  constructor
  · intro r xs
    induction xs generalizing r with
    | nil => cases hr : kept r <;> simp [hr]
    | cons x rest ih =>
      simp only [List.foldlM_cons, value_bind, ih, h.value, List.flatMap_cons]
      cases hr : (kept r).toList ++ texts x <;> simp [← List.append_assoc, hr]
  · intro r xs
    induction xs generalizing r with
    | nil => cases kept r <;> simp [disagreements]
    | cons x rest ih =>
      simp only [List.foldlM_cons, diagnostics_bind, List.countP_append, ih, h.value, h.reports,
        List.flatMap_cons]
      rw [← List.append_assoc, disagreements_append (_ ++ _)]

theorem Reports.countP_eq_zero {x : Diagnosed α} {summary other : String}
    (h : Reports (·.summary = summary) x) (hne : summary ≠ other) :
    x.diagnostics.countP (·.summary = other) = 0 := by
  rw [List.countP_eq_zero]
  intro d hd
  rw [h d hd]
  simpa using hne

end Diagnosed

namespace RequiredProvider

open Diagnosed

section

variable (known : Option (Placed String)) (given : Placed String)
  (complaint : Placed String → Diagnostic)

theorem value_keepFirst : (keepFirst known given complaint).value =
    known.or (if given.value.isEmpty then none else some given) := by
  unfold keepFirst
  cases known with
  | none => by_cases h : given.value.isEmpty <;> simp [h]
  | some k =>
    by_cases h : given.value.isEmpty
    · simp [h]
    · by_cases hk : k.value = given.value <;> simp [h, hk]

theorem diagnostics_keepFirst : (keepFirst known given complaint).diagnostics =
    if given.value.isEmpty then []
    else (known.toList.filter (·.value ≠ given.value)).map complaint := by
  unfold keepFirst
  cases known with
  | none => by_cases h : given.value.isEmpty <;> simp [h]
  | some k =>
    by_cases h : given.value.isEmpty
    · simp [h]
    · by_cases hk : k.value = given.value <;> simp [h, hk, report]

end

theorem keepFirst_reports (known : Option (Placed String)) (given : Placed String)
    (complaint : Placed String → Diagnostic) {summary : String}
    (h : ∀ k, (complaint k).summary = summary) :
    Reports (·.summary = summary) (keepFirst known given complaint) := by
  intro d hd
  rw [diagnostics_keepFirst] at hd
  split at hd
  · cases hd
  · obtain ⟨k, -, rfl⟩ := List.mem_map.1 hd
    exact h k

theorem keepFirst_keepsFirst {α : Type} (given : α → Placed String)
    (complaint : α → Placed String → Diagnostic) {summary : String}
    (h : ∀ x k, (complaint x k).summary = summary) :
    KeepsFirst (fun known x => keepFirst known (given x) (complaint x)) (·.map (·.value))
      (fun x => nonEmpty [(given x).value]) summary where
  value known x := by
    rw [value_keepFirst]
    by_cases hempty : (given x).value = "" <;> cases known <;> simp [nonEmpty, hempty]
  reports known x := by
    rw [diagnostics_keepFirst]
    by_cases hempty : (given x).value = ""
    · cases known <;> simp [nonEmpty, hempty, disagreements]
    · cases known with
      | none => simp [nonEmpty, hempty, disagreements]
      | some k =>
        by_cases hk : k.value = (given x).value
        · simp [nonEmpty, hempty, hk, disagreements]
        · simp [nonEmpty, hempty, hk, Ne.symm hk, disagreements, h]

/-! ### Sources -/

def sourceSummary : String := "Multiple provider source attributes"

/-- The complaint of an entry about a source known before. -/
def complainSource (p : RequiredProvider) (known : Placed String) : Diagnostic :=
  multipleSources p.name known.value p.source p.range

theorem mergeSource_reports (known : Option (Placed String)) (p : RequiredProvider) :
    Reports (·.summary = sourceSummary) (p.mergeSource known) :=
  keepFirst_reports known ⟨p.source, p.range⟩ p.complainSource fun _ => rfl

theorem mergeSource_keepsFirst :
    KeepsFirst (fun known p => mergeSource known p) (·.map (·.value))
      (fun p => nonEmpty [p.source]) sourceSummary :=
  keepFirst_keepsFirst (fun p : RequiredProvider => ⟨p.source, p.range⟩) complainSource
    fun _ _ => rfl

end RequiredProvider

end EarlyConfig
