import EarlyConfig.Dialect.Module.Draft
import EarlyConfig.Dialect.Stack.Resolve
import EarlyConfig.Proofs.FirstTexts

/-! How entries about the same provider are merged. Under each local name the first text that is
not empty counts, for the source and in a stack also for the version, and each later one that is not
the same is reported. This holds of whole runs over entries of all names, in a module and in a
stack, and what is said about other names plays no role in it (`RequiredProvider.merge_rules`). -/
namespace EarlyConfig

/-! ### Runs step by step -/

namespace Diagnosed

variable {σ ρ α : Type}

/-- The complaints of each step of a run, beside what the step takes up. -/
def trace (f : σ → α → Diagnosed σ) : σ → List α → List (α × Diagnostics)
  | _, [] => []
  | s, x :: rest => (x, (f s x).diagnostics) :: trace f (f s x).value rest

theorem diagnostics_foldlM_trace (f : σ → α → Diagnosed σ) (s : σ) (xs : List α) :
    (xs.foldlM f s).diagnostics = (trace f s xs).flatMap (·.2) := by
  induction xs generalizing s with
  | nil => rfl
  | cons x rest ih => rw [List.foldlM_cons, diagnostics_bind, ih, trace, List.flatMap_cons]

theorem mem_of_mem_trace {f : σ → α → Diagnosed σ} {s : σ} {xs : List α} {e : α × Diagnostics}
    (h : e ∈ trace f s xs) : e.1 ∈ xs := by
  induction xs generalizing s with
  | nil => cases h
  | cons x rest ih =>
    rcases List.mem_cons.1 h with rfl | h
    · exact List.mem_cons_self
    · exact List.mem_cons_of_mem _ (ih h)

/-- Each step changes what is kept under the name of the element, and looks at nothing else. -/
structure ByName (f : σ → α → Diagnosed σ) (name : α → String) (get : σ → String → ρ)
    (step : ρ → α → Diagnosed ρ) : Prop where
  diagnostics : ∀ s x, (f s x).diagnostics = (step (get s (name x)) x).diagnostics
  value : ∀ s x n,
    get (f s x).value n = if name x = n then (step (get s n) x).value else get s n

section
variable {f : σ → α → Diagnosed σ} {name : α → String} {get : σ → String → ρ}
  {step : ρ → α → Diagnosed ρ} (h : ByName f name get step)
include h

theorem ByName.get_foldlM (s : σ) (xs : List α) (n : String) :
    get (xs.foldlM f s).value n =
      ((xs.filter fun x => name x = n).foldlM step (get s n)).value := by
  induction xs generalizing s with
  | nil => rfl
  | cons x rest ih =>
    rw [List.foldlM_cons, value_bind, ih, h.value]
    by_cases hx : name x = n <;> simp [hx]

theorem ByName.trace_filter (s : σ) (xs : List α) (n : String) :
    (trace f s xs).filter (fun e => name e.1 = n) =
      trace step (get s n) (xs.filter fun x => name x = n) := by
  induction xs generalizing s with
  | nil => rfl
  | cons x rest ih =>
    by_cases hx : name x = n
    · subst hx
      simp [trace, ih, h.value, h.diagnostics]
    · simp [trace, hx, ih, h.value]

end

end Diagnosed

open Diagnosed RequiredProvider

/-! ### Modules -/

namespace ModuleConfig

/-- What an entry adds to what is said about its name. -/
def Requirement.add (r : Requirement) (p : RequiredProvider) : Diagnosed Requirement := do
  let source ← p.mergeSource r.source
  return ⟨source, r.versions ++ p.versions, r.aliases ++ p.aliases⟩

theorem Draft.addRequired_byName :
    ByName addRequired (·.name) requirement Requirement.add where
  diagnostics d p := by simp [addRequired, Requirement.add]
  value d p name := by
    by_cases h : p.name = name
    · subst h
      simp [addRequired, setRequirement, requirement, Requirement.add]
    · simp [addRequired, setRequirement, requirement, h]

theorem Requirement.add_keepsSource :
    KeepsFirst add (·.source.map (·.value)) (fun p => nonEmpty [p.source]) sourceSummary where
  value r p := mergeSource_keepsFirst.value r.source p
  reports r p := by
    rw [add, diagnostics_bind, diagnostics_pure, List.append_nil]
    exact mergeSource_keepsFirst.reports r.source p

end ModuleConfig

/-! ### Stacks -/

namespace StackConfig

def Draft.requirement (d : Draft) (name : String) : Requirement :=
  (Entries.get? name d.requirements).getD {}

/-- What an entry adds to what is said about its name. -/
def Requirement.add (r : Requirement) (p : RequiredProvider) : Diagnosed Requirement := do
  let source ← p.mergeSource r.source
  let version ← p.versions.foldlM (Draft.mergeVersion p.name) r.version
  return ⟨source, version⟩

namespace Draft

theorem addRequired_byName :
    ByName addRequired (·.name) requirement Requirement.add where
  diagnostics d p := by simp [addRequired, Requirement.add, requirement]
  value d p name := by
    by_cases h : p.name = name
    · subst h
      simp [addRequired, requirement, Requirement.add]
    · simp [addRequired, requirement, h]

def versionSummary : String := "Multiple provider version attributes"

theorem mergeVersion_reports (name : String) (known : Option (Placed String))
    (given : Placed String) :
    Reports (·.summary = versionSummary) (mergeVersion name known given) :=
  keepFirst_reports known given (fun k => multipleVersions name k.value given) fun _ => rfl

theorem mergeVersion_keepsFirst (name : String) :
    KeepsFirst (mergeVersion name) (·.map (·.value)) (fun v => nonEmpty [v.value])
      versionSummary :=
  keepFirst_keepsFirst id (fun given k => multipleVersions name k.value given) fun _ _ => rfl

end Draft

namespace Requirement

theorem diagnostics_add (r : Requirement) (p : RequiredProvider) :
    (r.add p).diagnostics = (p.mergeSource r.source).diagnostics ++
      (p.versions.foldlM (Draft.mergeVersion p.name) r.version).diagnostics := by
  rw [add, diagnostics_bind, diagnostics_bind, diagnostics_pure, List.append_nil]

theorem add_keepsSource :
    KeepsFirst add (·.source.map (·.value)) (fun p => nonEmpty [p.source]) sourceSummary where
  value r p := mergeSource_keepsFirst.value r.source p
  reports r p := by
    have hversions : Reports (·.summary = Draft.versionSummary)
        (p.versions.foldlM (Draft.mergeVersion p.name) r.version) :=
      .foldlM (Draft.mergeVersion_reports p.name) p.versions r.version
    rw [diagnostics_add, List.countP_append, hversions.countP_eq_zero (by decide), Nat.add_zero]
    exact mergeSource_keepsFirst.reports r.source p

theorem add_keepsVersion :
    KeepsFirst add (·.version.map (·.value)) (fun p => nonEmpty (p.versions.map (·.value)))
      Draft.versionSummary where
  value r p := by
    rw [← flatMap_nonEmpty]
    exact (Draft.mergeVersion_keepsFirst p.name).foldlM.value r.version p.versions
  reports r p := by
    rw [diagnostics_add, List.countP_append, (mergeSource_reports _ p).countP_eq_zero (by decide),
      Nat.zero_add, ← flatMap_nonEmpty]
    exact (Draft.mergeVersion_keepsFirst p.name).foldlM.reports r.version p.versions

end Requirement

end StackConfig

/-! ### Whole runs -/

namespace RequiredProvider

def own (name : String) (entries : List RequiredProvider) : List RequiredProvider :=
  entries.filter fun p => p.name = name

/-- What a run of merges does about one kind of text, whatever the entries are. -/
structure MergeRule {σ : Type} (merge : σ → RequiredProvider → Diagnosed σ) (start : σ)
    (kept : σ → String → Option String) (texts : RequiredProvider → List String)
    (summary : String) : Prop where
  /-- The first text given for a name counts. -/
  first : ∀ entries name,
    kept (entries.foldlM merge start).value name = ((own name entries).flatMap texts).head?
  /-- Among the complaints that come up with the entries of a name, there is one for each later text
  that differs from the first. -/
  reported : ∀ entries name,
    (((trace merge start entries).filter fun e => e.1.name = name).flatMap (·.2)).countP
      (·.summary = summary) = disagreements ((own name entries).flatMap texts)
  /-- There are no other complaints than those that come up with an entry. -/
  all : ∀ entries, (entries.foldlM merge start).diagnostics =
    (trace merge start entries).flatMap (·.2)
  /-- Entries of other names might as well not be there. -/
  alone : ∀ entries name, (trace merge start entries).filter (fun e => e.1.name = name) =
    trace merge start (own name entries)

theorem mergeRule_of {σ ρ : Type} {merge : σ → RequiredProvider → Diagnosed σ} (start : σ)
    {get : σ → String → ρ} {step : ρ → RequiredProvider → Diagnosed ρ} {kept : ρ → Option String}
    {texts : RequiredProvider → List String} {summary : String}
    (hby : ByName merge (·.name) get step) (hfirst : KeepsFirst step kept texts summary)
    (hstart : ∀ name, kept (get start name) = none) :
    MergeRule merge start (fun s name => kept (get s name)) texts summary where
  first entries name := by
    have hrun := hfirst.foldlM.value (get start name) (own name entries)
    rw [hstart] at hrun
    rw [hby.get_foldlM]
    exact hrun
  reported entries name := by
    have hrun := hfirst.foldlM.reports (get start name) (own name entries)
    rw [hstart, diagnostics_foldlM_trace] at hrun
    rw [hby.trace_filter]
    exact hrun
  all entries := diagnostics_foldlM_trace merge start entries
  alone entries name := by
    -- Both come down to the run of `step` over the entries of the name.
    have hown : (own name entries).filter (fun p => p.name = name) = own name entries := by
      simp [own, List.filter_filter]
    have hall : (trace merge start (own name entries)).filter (fun e => e.1.name = name) =
        trace merge start (own name entries) := by
      refine List.filter_eq_self.2 fun e he => ?_
      exact (List.mem_filter.1 (mem_of_mem_trace he)).2
    rw [← hall, hby.trace_filter, hby.trace_filter, hown]
    rfl

/-- **The first source given for a name counts, and in a stack the first version.** Each later one
that is different is reported once, and the entries of other names do not matter. -/
theorem merge_rules :
    MergeRule ModuleConfig.Draft.addRequired {}
        (fun d name => (d.requirement name).source.map (·.value))
        (fun p => nonEmpty [p.source]) "Multiple provider source attributes" ∧
      MergeRule StackConfig.Draft.addRequired {}
        (fun d name => (d.requirement name).source.map (·.value))
        (fun p => nonEmpty [p.source]) "Multiple provider source attributes" ∧
      MergeRule StackConfig.Draft.addRequired {}
        (fun d name => (d.requirement name).version.map (·.value))
        (fun p => nonEmpty (p.versions.map (·.value))) "Multiple provider version attributes" := by
  have hmodule := mergeRule_of {} ModuleConfig.Draft.addRequired_byName
    ModuleConfig.Requirement.add_keepsSource fun _ => rfl
  have hstack := StackConfig.Draft.addRequired_byName
  have hsource := mergeRule_of {} hstack StackConfig.Requirement.add_keepsSource fun _ => rfl
  have hversion := mergeRule_of {} hstack StackConfig.Requirement.add_keepsVersion fun _ => rfl
  exact ⟨hmodule, hsource, hversion⟩

end RequiredProvider

end EarlyConfig
