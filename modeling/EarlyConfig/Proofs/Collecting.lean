import EarlyConfig.Dialect.Basic
import EarlyConfig.Proofs.Selection
import Mathlib.Data.List.Perm.Basic

/-! What a run over declarations keeps. A dialect takes up the declarations of all files one after
another, so whatever holds at the start and survives each of them holds of what is collected
(`Dialect.collected`). Complaints come up in three rounds, about declarations on their own, when
they are taken up and when all is resolved; up to their order the rounds can be told apart
(`Dialect.messages_load_perm`). -/
namespace EarlyConfig

/-- Going through some elements of a list is going through all of them, with nothing to do at the
others. -/
theorem flatMap_filter {α β : Type} (p : α → Bool) (f : α → List β) (xs : List α) :
    (xs.filter p).flatMap f = xs.flatMap fun x => if p x then f x else [] := by
  induction xs with
  | nil => rfl
  | cons x rest ih => by_cases h : p x <;> simp [h, ih]

/-- What a diagnostic says, without the places it is about. -/
def Diagnostic.message (d : Diagnostic) : Severity × String × String :=
  (d.severity, d.summary, d.detail)

def Diagnostics.messages (ds : Diagnostics) : List (Severity × String × String) :=
  ds.map Diagnostic.message

@[simp] theorem Diagnostics.messages_append (ds es : Diagnostics) :
    messages (ds ++ es) = ds.messages ++ es.messages :=
  List.map_append

namespace Diagnosed

@[simp] theorem value_report (d : Diagnostic) : (report d).value = () := rfl

@[simp] theorem value_reject (d : Diagnostic) : (reject d : Diagnosed (Option α)).value = none :=
  rfl

@[simp] theorem value_map (f : α → β) (x : Diagnosed α) : (f <$> x).value = f x.value := rfl

@[simp] theorem diagnostics_map (f : α → β) (x : Diagnosed α) :
    (f <$> x).diagnostics = x.diagnostics :=
  List.append_nil _

/-- A run has the value of the run of the values. -/
@[simp] theorem value_foldlM (f : σ → α → Diagnosed σ) (s : σ) (xs : List α) :
    (xs.foldlM f s).value = xs.foldl (fun s x => (f s x).value) s := by
  induction xs generalizing s with
  | nil => rfl
  | cons x rest ih => rw [List.foldlM_cons, value_bind, ih, List.foldl_cons]

@[simp] theorem value_mapM (f : α → Diagnosed β) (xs : List α) :
    (xs.mapM f).value = xs.map fun x => (f x).value := by
  induction xs with
  | nil => rfl
  | cons x rest ih => rw [List.mapM_cons, value_bind, value_bind, value_pure, ih, List.map_cons]

@[simp] theorem diagnostics_mapM (f : α → Diagnosed β) (xs : List α) :
    (xs.mapM f).diagnostics = xs.flatMap fun x => (f x).diagnostics := by
  induction xs with
  | nil => rfl
  | cons x rest ih =>
    rw [List.mapM_cons, diagnostics_bind, diagnostics_bind, diagnostics_pure, List.append_nil, ih,
      List.flatMap_cons]

/-- Steps that complain about the same things whatever came before. -/
theorem diagnostics_foldlM {f : σ → α → Diagnosed σ} {g : α → Diagnostics}
    (h : ∀ s x, (f s x).diagnostics = g x) (s : σ) (xs : List α) :
    (xs.foldlM f s).diagnostics = xs.flatMap g := by
  induction xs generalizing s with
  | nil => rfl
  | cons x rest ih => rw [List.foldlM_cons, diagnostics_bind, h, ih, List.flatMap_cons]

end Diagnosed

namespace Dialect

variable {δ σ μ : Type} (d : Dialect δ σ μ) {P : δ → Prop} {Inv : σ → Prop}

theorem take_preserves (hstep : ∀ s a, Inv s → P a → Inv (d.absorb s a).value) {s : σ}
    (hs : Inv s) (x : Diagnosed (Option δ)) (hx : ∀ a, x.value = some a → P a) :
    Inv (d.take s x).value := by
  rw [take, Diagnosed.value_bind]
  cases h : x.value with
  | none => exact hs
  | some a => exact hstep s a hs (hx a h)

theorem collect_preserves (hstep : ∀ s a, Inv s → P a → Inv (d.absorb s a).value) {s : σ}
    (hs : Inv s) (xs : List (Diagnosed (Option δ)))
    (hxs : ∀ x ∈ xs, ∀ a, x.value = some a → P a) : Inv (d.collect s xs).value := by
  rw [collect, Diagnosed.value_foldlM]
  exact List.foldlRecOn xs _ hs fun s hs x hx => d.take_preserves hstep hs x (hxs x hx)

/-- What is collected from the files before it is resolved. -/
def collected (files : FileSet) : σ :=
  (d.collect d.start (files.flatMap fun (file, body) => d.declarations file body)).value

/-! ### Declarations in a row -/

/-- What the files declare, in the order in which it is taken up. -/
def declared (files : FileSet) : List δ :=
  (files.flatMap fun (file, body) => d.declarations file body).filterMap (·.value)

theorem declared_eq (files : FileSet) :
    d.declared files = files.flatMap fun f =>
      (f.2.blocks.filter d.root.admitsBlock).flatMap fun b =>
        (d.declare f.1 b).filterMap (·.value) := by
  simp only [declared, declarations, Schema.blocks_select, List.filterMap_flatMap,
    List.filterMap_cons_none]

theorem mem_declared {files : FileSet} {a : δ} :
    a ∈ d.declared files ↔ ∃ f ∈ files, ∃ b ∈ f.2.blocks, d.root.admitsBlock b ∧
      ∃ x ∈ d.declare f.1 b, x.value = some a := by
  simp only [declared_eq, List.mem_flatMap, List.mem_filterMap, List.mem_filter, and_assoc]

theorem value_collect (s : σ) (xs : List (Diagnosed (Option δ))) :
    (d.collect s xs).value =
      (xs.filterMap (·.value)).foldl (fun s a => (d.absorb s a).value) s := by
  rw [collect, Diagnosed.value_foldlM]
  induction xs generalizing s with
  | nil => rfl
  | cons x rest ih =>
    rw [List.foldl_cons, ih, take, Diagnosed.value_bind]
    cases h : x.value with
    | none => rw [List.filterMap_cons_none h, Diagnosed.value_pure]
    | some a => rw [List.filterMap_cons_some h, List.foldl_cons]

theorem collected_eq_foldl (files : FileSet) :
    d.collected files = (d.declared files).foldl (fun s a => (d.absorb s a).value) d.start :=
  d.value_collect d.start _

/-- A part of what is collected is built from what the declarations hold for that part. -/
theorem collected_part {τ ε : Type} (part : σ → τ) (pick : δ → List ε) (step : τ → ε → τ)
    (h : ∀ s a, part (d.absorb s a).value = (pick a).foldl step (part s)) (files : FileSet) :
    part (d.collected files) = ((d.declared files).flatMap pick).foldl step (part d.start) := by
  rw [collected_eq_foldl]
  generalize d.declared files = declarations
  generalize d.start = s
  induction declarations generalizing s with
  | nil => rfl
  | cons a rest ih => rw [List.foldl_cons, ih, h, List.flatMap_cons, List.foldl_append]

theorem flatMap_declared_files {ε : Type} (pick : δ → List ε) (files : FileSet) :
    (d.declared files).flatMap pick = files.flatMap fun f => (d.declared [f]).flatMap pick := by
  simp [declared, List.filterMap_flatMap, List.flatMap_assoc]

/-- What a block holds for a part. A block that the root does not admit holds nothing. -/
def found {ε : Type} (pick : δ → List ε) (file : String) (b : Hcl.Block) : List ε :=
  if d.root.admitsBlock b then ((d.declare file b).filterMap (·.value)).flatMap pick else []

/-- A block holds something for a part only if it is of the right type, with as many labels as that
type has. -/
theorem found_eq {ε : Type} {pick : δ → List ε} {kind : String} {expected : BlockSchema}
    (hroot : d.root.block? kind = some expected) {file : String} {b : Hcl.Block} {held : List ε}
    (hkind : b.kind = kind → ((d.declare file b).filterMap (·.value)).flatMap pick = held)
    (hother : b.kind ≠ kind → ((d.declare file b).filterMap (·.value)).flatMap pick = []) :
    d.found pick file b =
      if b.kind = kind ∧ b.labels.length = expected.labels.length then held else [] := by
  rw [found]
  by_cases h : b.kind = kind
  · rw [hkind h, Schema.admitsBlock_of_block? (h ▸ hroot)]
    by_cases hlabels : b.labels.length = expected.labels.length <;> simp [h, hlabels]
  · rw [hother h, ite_self, if_neg fun hand => h hand.1]

theorem flatMap_declared {ε : Type} (pick : δ → List ε) (files : FileSet) :
    (d.declared files).flatMap pick =
      files.flatMap fun (file, body) => body.blocks.flatMap (d.found pick file) := by
  simp only [declared_eq, List.flatMap_assoc]
  simp only [flatMap_filter]
  rfl

/-! ### Complaints -/

/-- The complaints about declarations on their own. -/
def complaints (files : FileSet) : Diagnostics :=
  files.flatMap fun (file, body) => (d.declarations file body).flatMap (·.diagnostics)

theorem complaints_eq (files : FileSet) :
    d.complaints files = files.flatMap fun f => (d.root.select f.1 f.2).diagnostics ++
      (f.2.blocks.filter d.root.admitsBlock).flatMap fun b =>
        (d.declare f.1 b).flatMap (·.diagnostics) := by
  simp only [complaints, declarations, Schema.blocks_select, List.flatMap_cons, List.flatMap_assoc]

theorem diagnostics_collect_perm (s : σ) (xs : List (Diagnosed (Option δ))) :
    (d.collect s xs).diagnostics.Perm
      (xs.flatMap (·.diagnostics) ++ ((xs.filterMap (·.value)).foldlM d.absorb s).diagnostics) := by
  rw [collect]
  induction xs generalizing s with
  | nil => exact .refl _
  | cons x rest ih =>
    rw [List.foldlM_cons, take, Diagnosed.diagnostics_bind, Diagnosed.diagnostics_bind,
      Diagnosed.value_bind, List.flatMap_cons, List.append_assoc, List.append_assoc]
    refine .append_left _ ?_
    cases h : x.value with
    | none =>
      rw [List.filterMap_cons_none h]
      exact ih s
    | some a =>
      rw [List.filterMap_cons_some h, List.foldlM_cons, Diagnosed.diagnostics_bind]
      exact ((ih _).append_left _).trans (List.perm_append_comm_assoc ..)

/-- The complaints of a run: about declarations on their own, about taking them up and about what
they come to. -/
theorem messages_load_perm (path : String) (files : FileSet) :
    (d.load path files).diagnostics.messages.Perm
      ((d.complaints files).messages ++
        ((d.declared files).foldlM d.absorb d.start).diagnostics.messages ++
        (d.resolve path files.sortedNames (d.collected files)).diagnostics.messages) := by
  have hcollect := d.diagnostics_collect_perm d.start
    (files.flatMap fun (file, body) => d.declarations file body)
  rw [List.flatMap_assoc] at hcollect
  rw [← Diagnostics.messages_append, ← Diagnostics.messages_append]
  exact (hcollect.append_right _).map _

/-- Where nothing is complained about when declarations are taken up, the complaints are about
declarations on their own. -/
theorem diagnostics_collect {s : σ} {xs : List (Diagnosed (Option δ))}
    (h : ((xs.filterMap (·.value)).foldlM d.absorb s).diagnostics = []) :
    (d.collect s xs).diagnostics = xs.flatMap (·.diagnostics) := by
  rw [collect]
  induction xs generalizing s with
  | nil => rfl
  | cons x rest ih =>
    rw [List.foldlM_cons, take, Diagnosed.diagnostics_bind, Diagnosed.diagnostics_bind,
      Diagnosed.value_bind, List.flatMap_cons, List.append_assoc]
    cases hx : x.value with
    | none =>
      rw [List.filterMap_cons_none hx] at h
      rw [Diagnosed.value_pure, ih h]
      rfl
    | some a =>
      rw [List.filterMap_cons_some hx, List.foldlM_cons, Diagnosed.diagnostics_bind] at h
      obtain ⟨hstep, hrest⟩ := List.append_eq_nil_iff.1 h
      rw [hstep, ih hrest, List.nil_append]

/-- Complaints of a kind that none of the declarations makes on its own come up when they are taken
up. -/
theorem filter_diagnostics_collect {p : Diagnostic → Bool} {xs : List (Diagnosed (Option δ))}
    (h : ∀ x ∈ xs, ∀ e ∈ x.diagnostics, p e = false) (s : σ) :
    (d.collect s xs).diagnostics.filter p =
      ((xs.filterMap (·.value)).foldlM d.absorb s).diagnostics.filter p := by
  rw [collect]
  induction xs generalizing s with
  | nil => rfl
  | cons x rest ih =>
    obtain ⟨hx, hrest⟩ := List.forall_mem_cons.1 h
    have hquiet : x.diagnostics.filter p = [] :=
      List.filter_eq_nil_iff.2 fun e he => Bool.eq_false_iff.1 (hx e he)
    rw [List.foldlM_cons, take, Diagnosed.diagnostics_bind, Diagnosed.diagnostics_bind,
      List.filter_append, List.filter_append, hquiet, List.nil_append, ih hrest,
      Diagnosed.value_bind]
    cases hvalue : x.value with
    | none =>
      rw [List.filterMap_cons_none hvalue]
      rfl
    | some a =>
      rw [List.filterMap_cons_some hvalue, List.foldlM_cons, Diagnosed.diagnostics_bind,
        List.filter_append]

theorem load_of_takeUp {files : FileSet} {s : σ}
    (h : (d.declared files).foldlM d.absorb d.start = pure s) (path : String) :
    d.collected files = s ∧ (d.load path files).diagnostics =
      d.complaints files ++ (d.resolve path files.sortedNames s).diagnostics := by
  have hcollected : d.collected files = s := by
    rw [collected_eq_foldl, ← Diagnosed.value_foldlM, h, Diagnosed.value_pure]
  have hquiet : ((d.declared files).foldlM d.absorb d.start).diagnostics = [] := by
    rw [h, Diagnosed.diagnostics_pure]
  refine ⟨hcollected, ?_⟩
  rw [load, Diagnosed.diagnostics_bind, d.diagnostics_collect hquiet, List.flatMap_assoc]
  show d.complaints files ++ (d.resolve path files.sortedNames (d.collected files)).diagnostics = _
  rw [hcollected]

/-! ### Invariants -/

/-- An invariant of single declarations is one of whole sets of files, if every block declares only
what the invariant can take. -/
theorem collected_induction (P : δ → Prop) (Inv : σ → Prop) (hstart : Inv d.start)
    (hdeclare : ∀ file b, ∀ x ∈ d.declare file b, ∀ a, x.value = some a → P a)
    (hstep : ∀ s a, Inv s → P a → Inv (d.absorb s a).value) (files : FileSet) :
    Inv (d.collected files) := by
  refine d.collect_preserves hstep hstart _ fun x hx a ha => ?_
  obtain ⟨⟨file, body⟩, -, hx⟩ := List.mem_flatMap.1 hx
  rcases List.mem_cons.1 hx with rfl | hx
  · cases ha
  · obtain ⟨b, -, hx⟩ := List.mem_flatMap.1 hx
    exact hdeclare file b x hx a ha

end Dialect

end EarlyConfig
