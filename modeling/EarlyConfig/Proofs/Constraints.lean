import EarlyConfig.Proofs.Results
import EarlyConfig.Proofs.Text
import EarlyConfig.Version.Constraint
import Mathlib.Data.List.Forall2

/-! The text of a set of constraints. A set is read piece by piece, so two texts with a comma
between them say what each of them says (`read_join`), and the first piece that makes no sense is
the one complained about (`read_eq_error`). The text of a set that was read, or put together from
such sets, is read back as the same set (`Built.read_text`). -/
namespace EarlyConfig

namespace Constraint

/-- Blanks around a constraint do not count. -/
theorem read_trim (s : String) : read (Text.trim s) = read s := by
  unfold read
  rw [Text.trim_trim]

theorem text_of_read {s : String} {c : Constraint} (h : read s = .ok c) :
    c.text = Text.trim s := by
  unfold read at h
  dsimp only at h
  split at h
  · rw [← Except.ok.inj h]
  · cases h

/-- The text of the constraint is one piece, and the constraint is what it says. -/
structure Spelled (c : Constraint) : Prop where
  bare : ',' ∉ c.text.toList
  read : Constraint.read c.text = .ok c

theorem spelled_of_read {s : String} {c : Constraint} (hs : ',' ∉ s.toList) (h : read s = .ok c) :
    c.Spelled := by
  have htext := text_of_read h
  refine ⟨?_, ?_⟩
  · rw [htext]
    exact Text.not_mem_trim hs
  · rw [htext, read_trim, h]

end Constraint

namespace Constraints

/-! ### Pieces -/

/-- The text is made of these pieces, with a comma between each two of them. -/
structure Written (s : String) (ps : List String) : Prop where
  text : ",".intercalate ps = s
  some : ps ≠ []
  bare : ∀ p ∈ ps, ',' ∉ p.toList

/-- There is one way to cut a text at its commas. -/
theorem written_iff {s : String} {ps : List String} : Written s ps ↔ Text.pieces ',' s = ps := by
  constructor
  · intro h
    rw [← h.text]
    exact Text.pieces_intercalate h.some h.bare
  · rintro rfl
    refine ⟨Text.intercalate_pieces ',' s, Text.pieces_ne_nil ',' s, fun p hp => ?_⟩
    exact Text.not_mem_of_mem_pieces hp

theorem pieces_join (s t : String) :
    Text.pieces ',' (s ++ "," ++ t) = Text.pieces ',' s ++ Text.pieces ',' t :=
  Text.pieces_append ',' s t

/-! ### Reading -/

theorem read_eq_ok {s : String} {cs : Constraints} :
    read s = .ok cs ↔
      List.Forall₂ (fun p c => Constraint.read p = .ok c) (Text.pieces ',' s) cs := by
  rw [read]
  generalize Text.pieces ',' s = ps
  induction ps generalizing cs with
  | nil => simp [pure, Except.pure, eq_comm]
  | cons p rest ih =>
    rw [List.mapM_cons, List.forall₂_cons_left_iff]
    simp only [← ih]
    cases hp : Constraint.read p with
    | error e => simp [bind, Except.bind]
    | ok c =>
      cases rest.mapM Constraint.read with
      | error e => simp [bind, Except.bind]
      | ok cs' => simp [bind, Except.bind, pure, Except.pure, eq_comm]

/-- The first piece that makes no sense is the one that is complained about. -/
theorem read_eq_error {s : String} {e : VersionError} :
    read s = .error e ↔
      ∃ before p after, Text.pieces ',' s = before ++ p :: after ∧
        (∀ q ∈ before, ∃ c, Constraint.read q = .ok c) ∧ Constraint.read p = .error e := by
  rw [read, Except.mapM_eq_error]

theorem read_join {s t : String} {cs : Constraints} :
    read (s ++ "," ++ t) = .ok cs ↔
      ∃ as bs, read s = .ok as ∧ read t = .ok bs ∧ cs = as ++ bs := by
  have hjoin : read (s ++ "," ++ t) = do
      let as ← read s
      let bs ← read t
      return as ++ bs := by
    rw [read, pieces_join, List.mapM_append]
    rfl
  rw [hjoin]
  cases read s <;> cases read t <;> simp [bind, Except.bind, pure, Except.pure, eq_comm]

/-! ### Writing -/

/-- The sets of constraints that come from texts, by themselves or put together. -/
inductive Built : Constraints → Prop
  | none : Built []
  | read {s : String} {cs : Constraints} (h : Constraints.read s = .ok cs) : Built cs
  | extend {as bs : Constraints} (first : Built as) (second : Built bs) : Built (as ++ bs)

theorem spelled_of_read {s : String} {cs : Constraints} (h : read s = .ok cs) :
    ∀ c ∈ cs, c.Spelled := by
  have hbare : ∀ p ∈ Text.pieces ',' s, ',' ∉ p.toList :=
    fun p hp => Text.not_mem_of_mem_pieces hp
  replace h := read_eq_ok.1 h
  generalize Text.pieces ',' s = ps at h hbare
  induction h with
  | nil => simp
  | cons hp _ ih =>
    obtain ⟨hfirst, hrest⟩ := List.forall_mem_cons.1 hbare
    exact List.forall_mem_cons.2 ⟨Constraint.spelled_of_read hfirst hp, ih hrest⟩

theorem Built.spelled {cs : Constraints} (h : Built cs) : ∀ c ∈ cs, c.Spelled := by
  induction h with
  | none => simp
  | read h => exact spelled_of_read h
  | extend _ _ ihas ihbs => exact List.forall_mem_append.2 ⟨ihas, ihbs⟩

theorem Built.read_text {cs : Constraints} (h : Built cs) (hne : cs ≠ []) :
    Constraints.read cs.text = .ok cs := by
  have hspelled := h.spelled
  have hpieces : Text.pieces ',' cs.text = cs.map (·.text) :=
    written_iff.1 ⟨rfl, by simpa using hne, by simpa using fun c hc => (hspelled c hc).bare⟩
  rw [read_eq_ok, hpieces, List.forall₂_map_left_iff, List.forall₂_same]
  exact fun c hc => (hspelled c hc).read

theorem accepts_append (as bs : Constraints) (v : Version) :
    accepts (as ++ bs) v = (as.accepts v && bs.accepts v) :=
  List.all_append

/-- **Constraints are a faithful text format.** Two texts with a comma between them say what they
say by themselves, one after the other, and nothing if one of them makes no sense; the error is then
that of the first piece between commas that makes none. A set with constraints in it that was built
from texts is read back from its own text, in every part of every constraint. A set that is put
together accepts what both of its parts accept. -/
theorem text_faithful :
    (∀ s t cs, read (s ++ "," ++ t) = .ok cs ↔
      ∃ as bs, read s = .ok as ∧ read t = .ok bs ∧ cs = as ++ bs) ∧
    (∀ s t e, read (s ++ "," ++ t) = .error e ↔
      ∃ before p after, Written (s ++ "," ++ t) (before ++ p :: after) ∧
        (∀ q ∈ before, ∃ c, Constraint.read q = .ok c) ∧ Constraint.read p = .error e) ∧
    (∀ cs, Built cs → cs ≠ [] → read cs.text = .ok cs) ∧
    ∀ as bs v, accepts (as ++ bs) v = (as.accepts v && bs.accepts v) := by
  refine ⟨fun s t cs => read_join, fun s t e => ?_, fun cs => Built.read_text, accepts_append⟩
  simp only [written_iff]
  exact read_eq_error

/-- Blanks around a constraint are gone from the text of the set, and the rest is as written. -/
theorem text_faithful_joined :
    let lower : Constraint := ⟨.greaterEqual, ⟨1, 0, 0, [], []⟩, 3, ">= 1.0.0"⟩
    let exact : Constraint := ⟨.equal, ⟨1, 1, 0, ["beta"], []⟩, 2, "v1.1-beta"⟩
    let pessimistic : Constraint := ⟨.pessimistic, ⟨2, 0, 0, [], []⟩, 1, "~>2"⟩
    read ">= 1.0.0, v1.1-beta " = .ok [lower, exact] ∧ read "~>2" = .ok [pessimistic] ∧
      read ">= 1.0.0,v1.1-beta,~>2" = .ok [lower, exact, pessimistic] := by
  intro lower exact pessimistic
  have hfirst : read ">= 1.0.0, v1.1-beta " = .ok [lower, exact] := by with_unfolding_all rfl
  have hsecond : read "~>2" = .ok [pessimistic] := by with_unfolding_all rfl
  obtain ⟨-, -, hback, -⟩ := text_faithful
  have hboth : read (text ([lower, exact] ++ [pessimistic])) = .ok [lower, exact, pessimistic] :=
    hback _ (.extend (.read hfirst) (.read hsecond)) (by simp)
  have htext : text ([lower, exact] ++ [pessimistic]) = ">= 1.0.0,v1.1-beta,~>2" := by decide
  rw [htext] at hboth
  exact ⟨hfirst, hsecond, hboth⟩

end Constraints

end EarlyConfig
