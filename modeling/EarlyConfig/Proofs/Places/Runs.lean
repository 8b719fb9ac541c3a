import EarlyConfig.Proofs.Places.Decoding

/-! Runs without places. A dialect none of whose steps looks at places (`Dialect.Placeless`) makes
the same of its files as of all their bodies in one file, so neither the names of the files nor
where one ends and the next begins can matter (`Dialect.Placeless.load_alike`). -/
namespace EarlyConfig

open Diagnosed (ErasesTo)

/-- All bodies as that of one file, without places. -/
def FileSet.merged (files : FileSet) : FileSet :=
  [("", Hcl.Body.unplaced (files.flatMap (·.2)))]

/-- Results that differ in places at most, with the same complaints in some order. -/
structure Diagnosed.Alike (f : α → β) (x y : Diagnosed α) : Prop where
  value : f x.value = f y.value
  messages : x.diagnostics.messages.Perm y.diagnostics.messages

/-- What is left of the declarations, the drafts and the results of a dialect without places. -/
structure Erasure (δ σ μ : Type) where
  declaration : δ → δ
  draft : σ → σ
  result : μ → μ

namespace Dialect

variable {δ σ μ : Type}

/-- No step of a dialect looks at places. The root lists no attributes, so nothing can be missing
from one file that is in another. -/
structure Placeless (d : Dialect δ σ μ) (e : Erasure δ σ μ) : Prop where
  root : d.root.attributes = []
  start : e.draft d.start = d.start
  declare : ∀ file b, List.Forall₂ (ErasesTo (Option.map e.declaration)) (d.declare file b)
    (d.declare "" b.unplaced)
  absorb : ∀ s a, (d.absorb s a).ErasesTo e.draft (d.absorb (e.draft s) (e.declaration a))
  resolve : ∀ path filenames s,
    (d.resolve path filenames s).ErasesTo e.result (d.resolve path [] (e.draft s))

namespace Placeless

variable {d : Dialect δ σ μ} {e : Erasure δ σ μ} (h : d.Placeless e)
include h

/-! ### Blocks -/

theorem values_declare (file : String) (b : Hcl.Block) :
    ((d.declare file b).filterMap (·.value)).map e.declaration =
      (d.declare "" b.unplaced).filterMap (·.value) := by
  have hdeclare := h.declare file b
  generalize d.declare file b = xs, d.declare "" b.unplaced = ys at hdeclare
  induction hdeclare with
  | nil => rfl
  | @cons x y xs ys hxy _ ih =>
    simp only [List.filterMap_cons, ← hxy.value]
    cases x.value with
    | none => exact ih
    | some a => exact congrArg _ ih

theorem messages_declare (file : String) (b : Hcl.Block) :
    ((d.declare file b).flatMap (·.diagnostics)).map Diagnostic.message =
      ((d.declare "" b.unplaced).flatMap (·.diagnostics)).map Diagnostic.message := by
  have hdeclare := h.declare file b
  generalize d.declare file b = xs, d.declare "" b.unplaced = ys at hdeclare
  induction hdeclare with
  | nil => rfl
  | @cons x y xs ys hxy _ ih =>
    have hmessages : x.diagnostics.map Diagnostic.message = y.diagnostics.map Diagnostic.message :=
      hxy.messages
    rw [List.flatMap_cons, List.flatMap_cons, List.map_append, List.map_append, hmessages, ih]

/-! ### Files -/

omit h in
theorem blocks_merged (files : FileSet) :
    (Hcl.Body.unplaced (files.flatMap (·.2))).blocks.filter d.root.admitsBlock =
      (files.flatMap fun f => f.2.blocks.filter d.root.admitsBlock).map Hcl.Block.unplaced := by
  have hfilter : (d.root.admitsBlock ∘ Hcl.Block.unplaced) = d.root.admitsBlock :=
    funext d.root.admitsBlock_unplaced
  rw [Hcl.Body.blocks_unplaced, List.filter_map, hfilter, Hcl.Body.blocks,
    List.filterMap_flatMap, List.filter_flatMap]
  rfl

theorem declared_merged (files : FileSet) :
    (d.declared files).map e.declaration = d.declared files.merged := by
  simp only [d.declared_eq, FileSet.merged, List.flatMap_singleton, blocks_merged, List.flatMap_map,
    List.map_flatMap, h.values_declare, List.flatMap_assoc]

theorem collected_merged (files : FileSet) :
    e.draft (d.collected files) = d.collected files.merged := by
  have hrun := ErasesTo.foldlM h.absorb d.start (d.declared files)
  have hvalue := hrun.value
  rw [Diagnosed.value_foldlM, Diagnosed.value_foldlM, h.declared_merged, h.start] at hvalue
  rw [d.collected_eq_foldl, d.collected_eq_foldl, hvalue]

theorem messages_takeUp (files : FileSet) :
    ((d.declared files).foldlM d.absorb d.start).diagnostics.messages =
      ((d.declared files.merged).foldlM d.absorb d.start).diagnostics.messages := by
  have hrun := (ErasesTo.foldlM h.absorb d.start (d.declared files)).messages
  rwa [h.declared_merged, h.start] at hrun

theorem messages_select (file : String) (body : Hcl.Body) :
    (d.root.select file body).diagnostics.messages =
      body.filterMap fun item => (d.root.problem file item).map Diagnostic.message := by
  have hmissing : d.root.missing body = [] := by
    rw [Schema.missing, h.root]
    rfl
  simp only [Schema.select, hmissing, Diagnostics.messages, List.map_nil, List.append_nil,
    List.map_filterMap]

/-- The complaints about the root of each file come before those about its blocks, which in one file
are those about all blocks. -/
theorem complaints_merged (files : FileSet) :
    (d.complaints files).messages.Perm (d.complaints files.merged).messages := by
  have hroot : (d.root.select "" (Hcl.Body.unplaced (files.flatMap (·.2)))).diagnostics.messages =
      files.flatMap fun f => (d.root.select f.1 f.2).diagnostics.messages := by
    simp only [h.messages_select, Hcl.Body.unplaced_eq_map, List.filterMap_map,
      List.filterMap_flatMap]
    exact List.flatMap_congr fun f _ => List.filterMap_congr fun item _ =>
      d.root.message_problem f.1 item
  let about (b : Hcl.Block) : List (Severity × String × String) :=
    ((d.declare "" b.unplaced).flatMap (·.diagnostics)).map Diagnostic.message
  have hfiles : (d.complaints files).messages =
      files.flatMap fun f => (d.root.select f.1 f.2).diagnostics.messages ++
        (f.2.blocks.filter d.root.admitsBlock).flatMap about := by
    rw [d.complaints_eq, Diagnostics.messages, List.map_flatMap]
    refine List.flatMap_congr fun f _ => ?_
    rw [List.map_append, List.map_flatMap]
    exact congrArg _ (List.flatMap_congr fun b _ => h.messages_declare f.1 b)
  have hmerged : (d.complaints files.merged).messages =
      (files.flatMap fun f => (d.root.select f.1 f.2).diagnostics.messages) ++
        files.flatMap fun f => (f.2.blocks.filter d.root.admitsBlock).flatMap about := by
    rw [d.complaints_eq, FileSet.merged, List.flatMap_singleton, Diagnostics.messages_append, hroot,
      blocks_merged, List.flatMap_map, Diagnostics.messages, List.map_flatMap, List.flatMap_assoc]
  rw [hfiles, hmerged]
  exact (List.flatMap_append_perm files _ _).symm

/-! ### Results -/

theorem load_merged (path : String) (files : FileSet) :
    e.result (d.load path files).value = (d.resolve path [] (d.collected files.merged)).value ∧
      (d.load path files).diagnostics.messages.Perm
        ((d.complaints files.merged).messages ++
          ((d.declared files.merged).foldlM d.absorb d.start).diagnostics.messages ++
          (d.resolve path [] (d.collected files.merged)).diagnostics.messages) := by
  have hresolve := h.resolve path files.sortedNames (d.collected files)
  rw [h.collected_merged] at hresolve
  refine ⟨hresolve.value, (d.messages_load_perm path files).trans ?_⟩
  rw [h.messages_takeUp, hresolve.messages]
  exact ((h.complaints_merged files).append_right _).append_right _

theorem load_alike (path : String) {files files' : FileSet}
    (hmerged : files.merged = files'.merged) :
    (d.load path files).Alike e.result (d.load path files') := by
  obtain ⟨hvalue, hmessages⟩ := h.load_merged path files
  obtain ⟨hvalue', hmessages'⟩ := h.load_merged path files'
  rw [hmerged] at hvalue hmessages
  exact ⟨hvalue.trans hvalue'.symm, hmessages.trans hmessages'.symm⟩

/-! ### Files one by one -/

theorem declarations_erase (file : String) (body : Hcl.Body) :
    List.Forall₂ (ErasesTo (Option.map e.declaration)) (d.declarations file body)
      (d.declarations "" body.unplaced) := by
  have hselect := d.root.select_erases file body
  have hblocks := congrArg Hcl.Body.blocks hselect.value
  rw [Hcl.Body.blocks_unplaced] at hblocks
  refine .cons ⟨rfl, hselect.messages⟩ ?_
  rw [← hblocks]
  induction (d.root.select file body).value.blocks with
  | nil => exact .nil
  | cons b rest ih => exact List.rel_append (h.declare file b) ih

theorem collect_erases {xs ys : List (Diagnosed (Option δ))}
    (hxs : List.Forall₂ (ErasesTo (Option.map e.declaration)) xs ys) (s : σ) :
    (d.collect s xs).ErasesTo e.draft (d.collect (e.draft s) ys) := by
  rw [collect, collect]
  induction hxs generalizing s with
  | nil => exact .pure rfl
  | cons hxy _ ih =>
    rw [List.foldlM_cons, List.foldlM_cons]
    refine .bind (hxy.bind fun a => ?_) ih
    cases a with
    | none => exact .pure rfl
    | some a => exact h.absorb s a

/-- The same body in another file, with other places: the complaints come in the same order. -/
theorem load_single (path file file' : String) {body body' : Hcl.Body}
    (hbody : body.unplaced = body'.unplaced) :
    e.result (d.load path [(file, body)]).value = e.result (d.load path [(file', body')]).value ∧
      (d.load path [(file, body)]).diagnostics.messages =
        (d.load path [(file', body')]).diagnostics.messages := by
  have hload : ∀ file body, (d.load path [(file, body)]).ErasesTo e.result
      (d.collect d.start (d.declarations "" body.unplaced) >>= d.resolve path []) := by
    intro file body
    have hcollect := h.collect_erases (h.declarations_erase file body) d.start
    rw [h.start, ← List.append_nil (d.declarations file body)] at hcollect
    exact hcollect.bind fun s => h.resolve path _ s
  have hfirst := hload file body
  have hsecond := hload file' body'
  rw [hbody] at hfirst
  exact ⟨hfirst.value.trans hsecond.value.symm, hfirst.messages.trans hsecond.messages.symm⟩

end Placeless

end Dialect

end EarlyConfig
