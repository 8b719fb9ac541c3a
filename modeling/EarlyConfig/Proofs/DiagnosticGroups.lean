import EarlyConfig.Diagnostic
import EarlyConfig.Proofs.ByteOrder
import Mathlib.Algebra.GroupWithZero.Nat
import Mathlib.Data.List.Induction

/-! Diagnostics by file. Adding a diagnostic to its group changes no other group
(`Diagnostics.get?_addToFile`) and adds nothing but the diagnostic to the groups as a whole
(`Diagnostics.flatten_addToFile`). So the groups of a list are the list taken apart by file, each in
the order of the list (`Diagnostics.GroupedAs`), and there is no other way to take it apart
(`Diagnostics.GroupedAs.eq_byFile`). This holds of whatever list edits come to
(`Diagnostics.byFile_ofEdits`). -/
namespace EarlyConfig

/-- The file of the subject, or else of the context, or else the one without a name. -/
def Diagnostic.file (d : Diagnostic) : String :=
  match d.subject, d.context with
  | some subject, _ => subject.filename
  | none, some context => context.filename
  | none, none => ""

theorem Diagnostic.getD_filename? (d : Diagnostic) : d.filename?.getD "" = d.file := by
  unfold filename? file
  cases d.subject <;> cases d.context <;> rfl

namespace Diagnostics

/-! ### Edits -/

namespace Edit

def isReset : Edit → Bool
  | .reset _ => true
  | _ => false

/-- What the edit puts at the end of the list. -/
def recorded : Edit → List Diagnostic
  | .push d => [d]
  | .extend more => more
  | .reset d => [d]

/-- The edits from the last reset on, or all of them if there is none. -/
def sinceReset : List Edit → List Edit
  | [] => []
  | e :: rest => if rest.any isReset then sinceReset rest else e :: rest

theorem sinceReset_eq_self {edits : List Edit} (h : ¬edits.any isReset) :
    sinceReset edits = edits := by
  cases edits with
  | nil => rfl
  | cons e rest =>
    have hrest : ¬rest.any isReset := fun hr => h (by simp [hr])
    rw [sinceReset, if_neg hrest]

end Edit

theorem extend_eq (ds : Diagnostics) (more : List Diagnostic) : ds.extend more = ds ++ more := by
  rw [extend]
  induction more generalizing ds with
  | nil => simp
  | cons d rest ih => rw [List.foldl_cons, ih, push, List.append_assoc, List.singleton_append]

theorem edit_eq (ds : Diagnostics) (e : Edit) :
    ds.edit e = (if e.isReset then [] else ds) ++ e.recorded := by
  cases e with
  | push d => rfl
  | extend more => exact extend_eq ds more
  | reset d => rfl

theorem foldl_edit (ds : Diagnostics) (edits : List Edit) :
    edits.foldl edit ds =
      (if edits.any Edit.isReset then [] else ds) ++
        (Edit.sinceReset edits).flatMap Edit.recorded := by
  induction edits generalizing ds with
  | nil => simp [Edit.sinceReset]
  | cons e rest ih =>
    rw [List.foldl_cons, ih, Edit.sinceReset, List.any_cons]
    -- Only if nothing resets the list later does it matter what this edit leaves of it.
    by_cases hrest : rest.any Edit.isReset
    · simp [hrest]
    · rw [if_neg hrest, if_neg hrest, Edit.sinceReset_eq_self hrest, edit_eq]
      simp [hrest]

theorem ofEdits_eq (edits : List Edit) :
    ofEdits edits = (Edit.sinceReset edits).flatMap Edit.recorded := by
  rw [ofEdits, foldl_edit, ite_self, List.nil_append]

/-! ### One file -/

/-- The diagnostics of a file, in their order. -/
def ofFile (ds : Diagnostics) (file : String) : Diagnostics :=
  ds.filter fun d => d.file = file

theorem mem_ofFile {ds : Diagnostics} {file : String} {d : Diagnostic} :
    d ∈ ds.ofFile file ↔ d ∈ ds ∧ d.file = file := by
  simp [ofFile]

theorem ofFile_ne_nil {ds : Diagnostics} {file : String} :
    ds.ofFile file ≠ [] ↔ ∃ d ∈ ds, d.file = file := by
  simp [ofFile]

theorem ofFile_append_singleton (ds : Diagnostics) (d : Diagnostic) (file : String) :
    ofFile (ds ++ [d]) file = if d.file = file then ds.ofFile file ++ [d] else ds.ofFile file := by
  by_cases h : d.file = file <;> simp [ofFile, h]

theorem get?_addToFile (groups : SortedMap String Diagnostics) (d : Diagnostic) (file : String) :
    (addToFile groups d).get? file =
      if d.file = file then some ((groups.get? file).getD [] ++ [d]) else groups.get? file := by
  rw [addToFile, Diagnostic.getD_filename?, SortedMap.get?_insert]
  by_cases h : d.file = file <;> simp [h]

theorem byFile_append_singleton (ds : Diagnostics) (d : Diagnostic) :
    byFile (ds ++ [d]) = addToFile ds.byFile d := by
  rw [byFile, List.foldl_append]
  rfl

theorem get?_byFile (ds : Diagnostics) (file : String) :
    ds.byFile.get? file = if ds.ofFile file = [] then none else some (ds.ofFile file) := by
  induction ds using List.reverseRecOn with
  | nil => rfl
  | append_singleton ds d ih =>
    rw [byFile_append_singleton, get?_addToFile, ofFile_append_singleton, ih]
    by_cases hd : d.file = file
    · by_cases hnone : ofFile ds file = [] <;> simp [hd, hnone]
    · simp [hd]

theorem mem_entries_byFile {ds : Diagnostics} {file : String} {group : Diagnostics} :
    (file, group) ∈ ds.byFile.entries ↔ group = ds.ofFile file ∧ group ≠ [] := by
  rw [SortedMap.mem_entries, get?_byFile]
  by_cases hnone : ds.ofFile file = []
  · simp [hnone]
  · rw [if_neg hnone, Option.some.injEq, eq_comm]
    constructor
    · intro h
      exact ⟨h, h ▸ hnone⟩
    · exact fun h => h.1

/-! ### All files -/

theorem flatten_addToFile (groups : SortedMap String Diagnostics) (d : Diagnostic) :
    (addToFile groups d).values.flatten.Perm (groups.values.flatten ++ [d]) := by
  rw [addToFile]
  generalize d.filename?.getD "" = file
  obtain ⟨before, after, hold, hnew⟩ :=
    groups.values_insert file ((groups.get? file).getD [] ++ [d])
  have hgroup : (groups.get? file).toList.flatten = (groups.get? file).getD [] := by
    cases groups.get? file <;> simp
  have hlast : (d :: after.flatten).Perm (after.flatten ++ [d]) :=
    (List.perm_append_singleton d after.flatten).symm
  simp only [hold, hnew, List.flatten_append, List.flatten_cons, hgroup, List.append_assoc,
    List.singleton_append]
  exact (hlast.append_left _).append_left _

/-- Grouping loses nothing and repeats nothing. -/
theorem flatten_byFile (ds : Diagnostics) : ds.byFile.values.flatten.Perm ds := by
  induction ds using List.reverseRecOn with
  | nil => exact .nil
  | append_singleton ds d ih =>
    rw [byFile_append_singleton]
    exact (flatten_addToFile (byFile ds) d).trans (ih.append_right [d])

theorem hasErrors_iff {ds : Diagnostics} : ds.hasErrors ↔ ∃ d ∈ ds, d.severity = .error := by
  simp [hasErrors, Diagnostic.isError]

theorem hasErrors_eq_any (ds : Diagnostics) : ds.hasErrors = ds.byFile.values.any hasErrors := by
  rw [hasErrors, ← (flatten_byFile ds).any_eq, List.any_flatten]
  rfl

/-! ### Groups of a list -/

/-- The groups are the list taken apart by file. -/
structure GroupedAs (ds : Diagnostics) (groups : SortedMap String Diagnostics) : Prop where
  /-- There is a group for each file that a diagnostic is about, and no other. -/
  keys : Text.Enumerates groups.keys fun file => ∃ d ∈ ds, d.file = file
  group_ne_nil : ∀ file group, (file, group) ∈ groups.entries → group ≠ []
  /-- A group has all diagnostics of its file, in the order of the list. -/
  group_eq : ∀ file group, (file, group) ∈ groups.entries → group = ds.ofFile file
  length_eq : (groups.values.map List.length).sum = ds.length
  group_hasErrors : ∀ file group, (file, group) ∈ groups.entries →
    (group.hasErrors ↔ ∃ d ∈ ds, d.file = file ∧ d.severity = .error)
  hasErrors : ds.hasErrors ↔ ∃ group ∈ groups.values, group.hasErrors

theorem groupedAs_byFile (ds : Diagnostics) : GroupedAs ds ds.byFile where
  keys := ds.byFile.enumerates_keys.congr fun file => by
    simp only [← SortedMap.mem_entries, mem_entries_byFile, ← ofFile_ne_nil, exists_eq_left]
  group_ne_nil _ _ h := (mem_entries_byFile.1 h).2
  group_eq _ _ h := (mem_entries_byFile.1 h).1
  length_eq := by rw [← List.length_flatten, (flatten_byFile ds).length_eq]
  group_hasErrors file group h := by
    rw [(mem_entries_byFile.1 h).1, hasErrors_iff]
    simp only [mem_ofFile, and_assoc]
  hasErrors := by rw [hasErrors_eq_any, List.any_eq_true]

/-- There is one way to group a list. -/
theorem GroupedAs.eq_byFile {ds : Diagnostics} {groups : SortedMap String Diagnostics}
    (h : GroupedAs ds groups) : groups = ds.byFile := by
  apply SortedMap.ext
  intro file
  rw [get?_byFile]
  cases hgroup : groups.get? file with
  | none =>
    have hnot : file ∉ groups.keys := by simp [SortedMap.mem_keys, hgroup]
    rw [h.keys.mem_iff, ← ofFile_ne_nil, not_not] at hnot
    rw [if_pos hnot]
  | some group =>
    have hentry := SortedMap.mem_entries.2 hgroup
    have hne := h.group_ne_nil file group hentry
    rw [h.group_eq file group hentry] at hne ⊢
    rw [if_neg hne]

/-- **Grouping is a stable partition.** Edits come to what was recorded since the last reset, in
that order. The groups of this list are the one way to take it apart by file: the keys are the files
of its diagnostics, each group is the part of the list that is about its file, in order and never
empty, the lengths add up, and there are errors in the list exactly if there are in a group. -/
theorem byFile_ofEdits (edits : List Edit) :
    ofEdits edits = (Edit.sinceReset edits).flatMap Edit.recorded ∧
      ∀ groups, (ofEdits edits).byFile = groups ↔ GroupedAs (ofEdits edits) groups := by
  constructor
  · exact ofEdits_eq edits
  · intro groups
    constructor
    · intro h
      subst h
      exact groupedAs_byFile _
    · intro h
      exact h.eq_byFile.symm

/-- A subject counts before a context. -/
example :
    let range := fun file => some (SourceRange.mk file 0 1)
    let ds := ofEdits [
      .push ⟨.error, "zero", "", none, none⟩,
      .reset ⟨.error, "one", "", range "b.tf", range "c.tf"⟩,
      .extend [⟨.warning, "two", "", none, none⟩, ⟨.error, "three", "", none, range "a.tf"⟩],
      .push ⟨.warning, "four", "", range "b.tf", none⟩]
    ds.byFile.entries.map (fun e => (e.1, e.2.summaries)) =
      [("", ["two"]), ("a.tf", ["three"]), ("b.tf", ["one", "four"])] := by
  decide

end Diagnostics

end EarlyConfig
