import EarlyConfig.Proofs.LookUps
import EarlyConfig.Proofs.NumberEquality
import EarlyConfig.Proofs.Types
import EarlyConfig.Value
import Mathlib.Data.List.Perm.Subperm

/-! Equality of types and values. It looks up attributes and entries by name and does not look at
their order, at any depth; on types and values in which no name is repeated it is reflexive and
symmetric, and on types it is transitive. Whether it is transitive on values hangs on numbers alone
(`Value.same_trans`). -/
namespace EarlyConfig

/-! ### Lists -/

section

variable {α : Type} {R : α → α → Prop} {xs ys zs : List α}

theorem forall₂_symm_of_mem (h : List.Forall₂ R xs ys)
    (hR : ∀ x ∈ xs, ∀ y ∈ ys, R x y → R y x) : List.Forall₂ R ys xs := by
  induction h with
  | nil => exact .nil
  | cons hxy _ ih =>
    refine .cons (hR _ List.mem_cons_self _ List.mem_cons_self hxy) (ih fun x hx y hy => ?_)
    exact hR x (List.mem_cons_of_mem _ hx) y (List.mem_cons_of_mem _ hy)

theorem forall₂_trans_of_mem (hxy : List.Forall₂ R xs ys) (hyz : List.Forall₂ R ys zs)
    (hR : ∀ x ∈ xs, ∀ y ∈ ys, ∀ z ∈ zs, R x y → R y z → R x z) : List.Forall₂ R xs zs := by
  induction hxy generalizing zs with
  | nil => exact hyz
  | cons hab _ ih =>
    cases hyz with
    | cons hbc hrest =>
      refine .cons (hR _ List.mem_cons_self _ List.mem_cons_self _ List.mem_cons_self hab hbc)
        (ih hrest fun x hx y hy z hz => ?_)
      exact hR x (List.mem_cons_of_mem _ hx) y (List.mem_cons_of_mem _ hy) z
        (List.mem_cons_of_mem _ hz)

end

/-- Each thing has a partner of its name, and there are as many partners. -/
structure Paired {α : Type} (name : α → String) (R : α → α → Prop) (xs ys : List α) : Prop where
  length : xs.length = ys.length
  partner : ∀ x ∈ xs, ∃ y ∈ ys, name y = name x ∧ R x y

namespace Paired

variable {α : Type} {name : α → String} {R : α → α → Prop} {xs ys zs : List α}

theorem refl (h : ∀ x ∈ xs, R x x) : Paired name R xs xs :=
  ⟨rfl, fun x hx => ⟨x, hx, rfl, h x hx⟩⟩

theorem symm (h : Paired name R xs ys) (hxs : (xs.map name).Nodup) (hys : (ys.map name).Nodup)
    (hR : ∀ x ∈ xs, ∀ y ∈ ys, R x y → R y x) : Paired name R ys xs := by
  have hsubset : xs.map name ⊆ ys.map name := by
    intro k hk
    obtain ⟨x, hx, rfl⟩ := List.mem_map.1 hk
    obtain ⟨y, hy, hname, -⟩ := h.partner x hx
    exact List.mem_map.2 ⟨y, hy, hname⟩
  -- There are as many names on both sides, so no name is left without a partner.
  have hperm : (xs.map name).Perm (ys.map name) :=
    (hxs.subperm hsubset).perm_of_length_le (by simp [h.length])
  refine ⟨h.length.symm, fun y hy => ?_⟩
  obtain ⟨x, hx, hname⟩ := List.mem_map.1 (hperm.mem_iff.2 (List.mem_map_of_mem hy))
  obtain ⟨z, hz, hzname, hxz⟩ := h.partner x hx
  have hzy : z = y := List.inj_on_of_nodup_map hys hz hy (hzname.trans hname)
  exact ⟨x, hx, hname, hR x hx y hy (hzy ▸ hxz)⟩

theorem trans (hxy : Paired name R xs ys) (hyz : Paired name R ys zs)
    (hR : ∀ x ∈ xs, ∀ y ∈ ys, ∀ z ∈ zs, R x y → R y z → R x z) : Paired name R xs zs := by
  refine ⟨hxy.length.trans hyz.length, fun x hx => ?_⟩
  obtain ⟨y, hy, hyname, hRxy⟩ := hxy.partner x hx
  obtain ⟨z, hz, hzname, hRyz⟩ := hyz.partner y hy
  exact ⟨z, hz, hzname.trans hyname, hR x hx y hy z hz hRxy hRyz⟩

end Paired

/-! ### Types -/

namespace Ty

/-- Two attributes that differ in their names at most. -/
def SameField (f g : Field Ty) : Prop :=
  f.optional = g.optional ∧ f.type.same g.type = true

/-- Attributes that are the same by name, whatever their order. -/
structure FieldsMatch (fs gs : List (Field Ty)) : Prop where
  length : fs.length = gs.length
  fields : ∀ f ∈ fs, ∃ g, field? f.name gs = some g ∧ SameField f g

/-- Types of one form whose parts are the same. -/
inductive Alike : Ty → Ty → Prop
  | any : Alike .any .any
  | string : Alike .string .string
  | number : Alike .number .number
  | bool : Alike .bool .bool
  | list {s t : Ty} (element : s.same t = true) : Alike (.list s) (.list t)
  | set {s t : Ty} (element : s.same t = true) : Alike (.set s) (.set t)
  | map {s t : Ty} (element : s.same t = true) : Alike (.map s) (.map t)
  | tuple {ss ts : List Ty} (elements : List.Forall₂ (fun s t => s.same t = true) ss ts) :
      Alike (.tuple ss) (.tuple ts)
  | object {fs gs : List (Field Ty)} (fields : FieldsMatch fs gs) :
      Alike (.object fs) (.object gs)

theorem sameElements_iff {ss ts : List Ty} :
    sameElements ss ts = true ↔ List.Forall₂ (fun s t => s.same t = true) ss ts := by
  induction ss generalizing ts with
  | nil =>
    cases ts with
    | nil => exact ⟨fun _ => .nil, fun _ => rfl⟩
    | cons t ts => exact ⟨fun h => (Bool.false_ne_true h).elim, nofun⟩
  | cons s ss ih =>
    cases ts with
    | nil => exact ⟨fun h => (Bool.false_ne_true h).elim, nofun⟩
    | cons t ts =>
      rw [List.forall₂_cons, ← ih, ← Bool.and_eq_true]
      exact Iff.rfl

theorem sameFields_iff {fs gs : List (Field Ty)} :
    sameFields fs gs = true ↔ ∀ f ∈ fs, ∃ g, field? f.name gs = some g ∧ SameField f g := by
  induction fs with
  | nil => exact ⟨nofun, fun _ => rfl⟩
  | cons f rest ih =>
    rw [List.forall_mem_cons, ← ih]
    cases hg : field? f.name gs with
    | none => simp [sameFields, hg]
    | some g => simp [sameFields, hg, SameField, and_assoc]

theorem same_iff {s t : Ty} : s.same t = true ↔ Alike s t := by
  cases s <;> cases t
  case any.any => exact ⟨fun _ => .any, fun _ => rfl⟩
  case string.string => exact ⟨fun _ => .string, fun _ => rfl⟩
  case number.number => exact ⟨fun _ => .number, fun _ => rfl⟩
  case bool.bool => exact ⟨fun _ => .bool, fun _ => rfl⟩
  case list.list s t => exact ⟨fun h => .list h, fun h => by cases h; assumption⟩
  case set.set s t => exact ⟨fun h => .set h, fun h => by cases h; assumption⟩
  case map.map s t => exact ⟨fun h => .map h, fun h => by cases h; assumption⟩
  case tuple.tuple ss ts =>
    refine ⟨fun h => .tuple (sameElements_iff.1 h), fun h => ?_⟩
    cases h with
    | tuple elements => exact sameElements_iff.2 elements
  case object.object fs gs =>
    have hobject : (Ty.object fs).same (.object gs) =
        (decide (fs.length = gs.length) && sameFields fs gs) := rfl
    rw [hobject, Bool.and_eq_true, decide_eq_true_iff, sameFields_iff]
    refine ⟨fun h => .object ⟨h.1, h.2⟩, fun h => ?_⟩
    cases h with
    | object fields => exact ⟨fields.length, fields.fields⟩
  all_goals exact ⟨fun h => (Bool.false_ne_true h).elim, nofun⟩

theorem paired_iff {fs gs : List (Field Ty)} (hgs : (gs.map (·.name)).Nodup) :
    Paired Field.name SameField fs gs ↔ FieldsMatch fs gs := by
  constructor
  · intro h
    refine ⟨h.length, fun f hf => ?_⟩
    obtain ⟨g, hg, hname, hsame⟩ := h.partner f hf
    exact ⟨g, (find?_eq_some_of_nodup hgs).2 ⟨hg, hname⟩, hsame⟩
  · intro h
    refine ⟨h.length, fun f hf => ?_⟩
    obtain ⟨g, hg, hsame⟩ := h.fields f hf
    obtain ⟨hmem, hname⟩ := (find?_eq_some_of_nodup hgs).1 hg
    exact ⟨g, hmem, hname, hsame⟩

theorem same_refl {t : Ty} (h : t.WellFormed) : t.same t = true := by
  induction h with
  | any => rfl
  | string => rfl
  | number => rfl
  | bool => rfl
  | list _ ih => exact ih
  | set _ ih => exact ih
  | map _ ih => exact ih
  | tuple _ ih => exact same_iff.2 (.tuple (List.forall₂_same.2 ih))
  | object names _ ih =>
    exact same_iff.2 (.object ((paired_iff names).1 (.refl fun f hf => ⟨rfl, ih f hf⟩)))

theorem same_symm {s t : Ty} (hs : s.WellFormed) (ht : t.WellFormed) (h : s.same t = true) :
    t.same s = true := by
  induction hs generalizing t with
  | any | string | number | bool =>
    cases same_iff.1 h
    rfl
  | list _ ih =>
    cases same_iff.1 h with
    | list h => cases ht with
      | list ht => exact ih ht h
  | set _ ih =>
    cases same_iff.1 h with
    | set h => cases ht with
      | set ht => exact ih ht h
  | map _ ih =>
    cases same_iff.1 h with
    | map h => cases ht with
      | map ht => exact ih ht h
  | tuple _ ih =>
    cases same_iff.1 h with
    | tuple elements => cases ht with
      | tuple hts =>
        refine same_iff.2 (.tuple (forall₂_symm_of_mem elements fun s hs t ht => ?_))
        exact ih s hs (hts t ht)
  | object names _ ih =>
    cases same_iff.1 h with
    | object fields => cases ht with
      | object hnames htypes =>
        have hpaired := ((paired_iff hnames).2 fields).symm names hnames
          fun f hf g hg hfg => ⟨hfg.1.symm, ih f hf (htypes g hg) hfg.2⟩
        exact same_iff.2 (.object ((paired_iff names).1 hpaired))

theorem same_trans {s t u : Ty} (hs : s.WellFormed) (ht : t.WellFormed) (hu : u.WellFormed)
    (hst : s.same t = true) (htu : t.same u = true) : s.same u = true := by
  induction hs generalizing t u with
  | any | string | number | bool =>
    cases same_iff.1 hst
    exact htu
  | list _ ih =>
    cases same_iff.1 hst with
    | list hst => cases same_iff.1 htu with
      | list htu => cases ht with
        | list ht => cases hu with
          | list hu => exact ih ht hu hst htu
  | set _ ih =>
    cases same_iff.1 hst with
    | set hst => cases same_iff.1 htu with
      | set htu => cases ht with
        | set ht => cases hu with
          | set hu => exact ih ht hu hst htu
  | map _ ih =>
    cases same_iff.1 hst with
    | map hst => cases same_iff.1 htu with
      | map htu => cases ht with
        | map ht => cases hu with
          | map hu => exact ih ht hu hst htu
  | tuple _ ih =>
    cases same_iff.1 hst with
    | tuple hsts => cases same_iff.1 htu with
      | tuple htus => cases ht with
        | tuple hts => cases hu with
          | tuple hus =>
            refine same_iff.2 (.tuple (forall₂_trans_of_mem hsts htus fun s hs t ht u hu => ?_))
            exact ih s hs (hts t ht) (hus u hu)
  | object names _ ih =>
    cases same_iff.1 hst with
    | object hsts => cases same_iff.1 htu with
      | object htus => cases ht with
        | object htnames httypes => cases hu with
          | object hunames hutypes =>
            have hpaired := ((paired_iff htnames).2 hsts).trans ((paired_iff hunames).2 htus)
              fun f hf g hg k hk hfg hgk =>
                ⟨hfg.1.trans hgk.1, ih f hf (httypes g hg) (hutypes k hk) hfg.2 hgk.2⟩
            exact same_iff.2 (.object ((paired_iff hunames).1 hpaired))

end Ty

/-! ### Values -/

namespace Value

/-- Entries that are the same by key, whatever their order. -/
structure EntriesMatch (es fs : List (String × Value)) : Prop where
  length : es.length = fs.length
  entries : ∀ e ∈ es, ∃ w, Entries.get? e.1 fs = some w ∧ e.2.same w = true

/-- Values of one form whose parts are the same. -/
inductive Alike : Value → Value → Prop
  | null : Alike .null .null
  | unknown {s t : Ty} (type : s.same t = true) : Alike (.unknown s) (.unknown t)
  | bool {b : Bool} : Alike (.bool b) (.bool b)
  | number {m n : Number} (number : m.same n = true) : Alike (.number m) (.number n)
  | text {s : String} : Alike (.text s) (.text s)
  | list {vs ws : List Value} (elements : List.Forall₂ (fun v w => v.same w = true) vs ws) :
      Alike (.list vs) (.list ws)
  | set {vs ws : List Value} (elements : List.Forall₂ (fun v w => v.same w = true) vs ws) :
      Alike (.set vs) (.set ws)
  | tuple {vs ws : List Value} (elements : List.Forall₂ (fun v w => v.same w = true) vs ws) :
      Alike (.tuple vs) (.tuple ws)
  | map {es fs : List (String × Value)} (entries : EntriesMatch es fs) :
      Alike (.map es) (.map fs)
  | object {es fs : List (String × Value)} (entries : EntriesMatch es fs) :
      Alike (.object es) (.object fs)

theorem sameElements_iff {vs ws : List Value} :
    sameElements vs ws = true ↔ List.Forall₂ (fun v w => v.same w = true) vs ws := by
  induction vs generalizing ws with
  | nil =>
    cases ws with
    | nil => exact ⟨fun _ => .nil, fun _ => rfl⟩
    | cons w ws => exact ⟨fun h => (Bool.false_ne_true h).elim, nofun⟩
  | cons v vs ih =>
    cases ws with
    | nil => exact ⟨fun h => (Bool.false_ne_true h).elim, nofun⟩
    | cons w ws =>
      rw [List.forall₂_cons, ← ih, ← Bool.and_eq_true]
      exact Iff.rfl

theorem sameEntries_iff {es fs : List (String × Value)} :
    sameEntries es fs = true ↔
      ∀ e ∈ es, ∃ w, Entries.get? e.1 fs = some w ∧ e.2.same w = true := by
  induction es with
  | nil => exact ⟨nofun, fun _ => rfl⟩
  | cons e rest ih =>
    rw [List.forall_mem_cons, ← ih]
    cases hw : Entries.get? e.1 fs with
    | none => simp [sameEntries, hw]
    | some w => simp [sameEntries, hw]

theorem same_iff {v w : Value} : v.same w = true ↔ Alike v w := by
  cases v <;> cases w
  case null.null => exact ⟨fun _ => .null, fun _ => rfl⟩
  case unknown.unknown s t => exact ⟨fun h => .unknown h, fun h => by cases h; assumption⟩
  case bool.bool b c =>
    refine ⟨fun h => ?_, fun h => ?_⟩
    · cases of_decide_eq_true h
      exact .bool
    · cases h
      exact decide_eq_true rfl
  case number.number m n => exact ⟨fun h => .number h, fun h => by cases h; assumption⟩
  case text.text s t =>
    refine ⟨fun h => ?_, fun h => ?_⟩
    · cases of_decide_eq_true h
      exact .text
    · cases h
      exact decide_eq_true rfl
  case list.list vs ws =>
    refine ⟨fun h => .list (sameElements_iff.1 h), fun h => ?_⟩
    cases h with
    | list elements => exact sameElements_iff.2 elements
  case set.set vs ws =>
    refine ⟨fun h => .set (sameElements_iff.1 h), fun h => ?_⟩
    cases h with
    | set elements => exact sameElements_iff.2 elements
  case tuple.tuple vs ws =>
    refine ⟨fun h => .tuple (sameElements_iff.1 h), fun h => ?_⟩
    cases h with
    | tuple elements => exact sameElements_iff.2 elements
  case map.map es fs =>
    have hmap : (Value.map es).same (.map fs) =
        (decide (es.length = fs.length) && sameEntries es fs) := rfl
    rw [hmap, Bool.and_eq_true, decide_eq_true_iff, sameEntries_iff]
    refine ⟨fun h => .map ⟨h.1, h.2⟩, fun h => ?_⟩
    cases h with
    | map entries => exact ⟨entries.length, entries.entries⟩
  case object.object es fs =>
    have hobject : (Value.object es).same (.object fs) =
        (decide (es.length = fs.length) && sameEntries es fs) := rfl
    rw [hobject, Bool.and_eq_true, decide_eq_true_iff, sameEntries_iff]
    refine ⟨fun h => .object ⟨h.1, h.2⟩, fun h => ?_⟩
    cases h with
    | object entries => exact ⟨entries.length, entries.entries⟩
  all_goals exact ⟨fun h => (Bool.false_ne_true h).elim, nofun⟩

/-- A value in which no name is repeated, at any depth, and whose numbers are of a class. -/
inductive Over (N : Number → Prop) : Value → Prop
  | null : Over N .null
  | unknown {t : Ty} (type : t.WellFormed) : Over N (.unknown t)
  | bool {b : Bool} : Over N (.bool b)
  | number {n : Number} (number : N n) : Over N (.number n)
  | text {s : String} : Over N (.text s)
  | list {vs : List Value} (elements : ∀ v ∈ vs, Over N v) : Over N (.list vs)
  | set {vs : List Value} (elements : ∀ v ∈ vs, Over N v) : Over N (.set vs)
  | tuple {vs : List Value} (elements : ∀ v ∈ vs, Over N v) : Over N (.tuple vs)
  | map {es : List (String × Value)} (keys : (Entries.keys es).Nodup)
      (values : ∀ e ∈ es, Over N e.2) : Over N (.map es)
  | object {es : List (String × Value)} (keys : (Entries.keys es).Nodup)
      (values : ∀ e ∈ es, Over N e.2) : Over N (.object es)

theorem paired_iff {es fs : List (String × Value)} (hfs : (Entries.keys fs).Nodup) :
    Paired Prod.fst (fun e f => e.2.same f.2 = true) es fs ↔ EntriesMatch es fs := by
  constructor
  · intro h
    refine ⟨h.length, fun e he => ?_⟩
    obtain ⟨f, hf, hkey, hsame⟩ := h.partner e he
    exact ⟨f.2, Entries.get?_of_mem hfs (hkey ▸ hf), hsame⟩
  · intro h
    refine ⟨h.length, fun e he => ?_⟩
    obtain ⟨w, hw, hsame⟩ := h.entries e he
    exact ⟨(e.1, w), Entries.mem_of_get? hw, rfl, hsame⟩

variable {N : Number → Prop}

theorem same_refl {v : Value} (h : v.Over N) : v.same v = true := by
  refine same_iff.2 ?_
  induction h with
  | null => exact .null
  | unknown type => exact .unknown (Ty.same_refl type)
  | bool => exact .bool
  | number _ => exact .number (Number.same_refl _)
  | text => exact .text
  | list _ ih => exact .list (List.forall₂_same.2 fun v hv => same_iff.2 (ih v hv))
  | set _ ih => exact .set (List.forall₂_same.2 fun v hv => same_iff.2 (ih v hv))
  | tuple _ ih => exact .tuple (List.forall₂_same.2 fun v hv => same_iff.2 (ih v hv))
  | map keys _ ih => exact .map ((paired_iff keys).1 (.refl fun e he => same_iff.2 (ih e he)))
  | object keys _ ih => exact .object ((paired_iff keys).1 (.refl fun e he => same_iff.2 (ih e he)))

theorem elements_symm {vs ws : List Value} (hws : ∀ w ∈ ws, w.Over N)
    (ih : ∀ v ∈ vs, ∀ {w : Value}, w.Over N → v.same w = true → w.same v = true)
    (h : List.Forall₂ (fun v w => v.same w = true) vs ws) :
    List.Forall₂ (fun v w => v.same w = true) ws vs :=
  forall₂_symm_of_mem h fun v hv w hw => ih v hv (hws w hw)

theorem entries_symm {es fs : List (String × Value)} (hes : (Entries.keys es).Nodup)
    (hfs : (Entries.keys fs).Nodup) (hvalues : ∀ f ∈ fs, f.2.Over N)
    (ih : ∀ e ∈ es, ∀ {w : Value}, w.Over N → e.2.same w = true → w.same e.2 = true)
    (h : EntriesMatch es fs) : EntriesMatch fs es := by
  have hpaired := ((paired_iff hfs).2 h).symm hes hfs fun e he f hf => ih e he (hvalues f hf)
  exact (paired_iff hes).1 hpaired

theorem same_symm {v w : Value} (hv : v.Over N) (hw : w.Over N) (h : v.same w = true) :
    w.same v = true := by
  induction hv generalizing w with
  | null | bool | text =>
    cases same_iff.1 h
    exact h
  | unknown type =>
    cases same_iff.1 h with
    | unknown hst => cases hw with
      | unknown ht => exact same_iff.2 (.unknown (Ty.same_symm type ht hst))
  | number _ =>
    cases same_iff.1 h with
    | number hmn => exact same_iff.2 (.number (Number.same_comm _ _ ▸ hmn))
  | list _ ih =>
    cases same_iff.1 h with
    | list helements => cases hw with
      | list hws => exact same_iff.2 (.list (elements_symm hws ih helements))
  | set _ ih =>
    cases same_iff.1 h with
    | set helements => cases hw with
      | set hws => exact same_iff.2 (.set (elements_symm hws ih helements))
  | tuple _ ih =>
    cases same_iff.1 h with
    | tuple helements => cases hw with
      | tuple hws => exact same_iff.2 (.tuple (elements_symm hws ih helements))
  | map hes _ ih =>
    cases same_iff.1 h with
    | map hentries => cases hw with
      | map hfs hvalues =>
        exact same_iff.2 (.map (entries_symm hes hfs hvalues ih hentries))
  | object hes _ ih =>
    cases same_iff.1 h with
    | object hentries => cases hw with
      | object hfs hvalues =>
        exact same_iff.2 (.object (entries_symm hes hfs hvalues ih hentries))

/-- Equality carries over from a first value to a last by way of any value in between. -/
def Passes (N : Number → Prop) (u : Value) : Prop :=
  ∀ {v w : Value}, v.Over N → w.Over N → u.same v = true → v.same w = true → u.same w = true

theorem elements_trans {us vs ws : List Value} (ih : ∀ u ∈ us, Passes N u)
    (hvs : ∀ v ∈ vs, v.Over N) (hws : ∀ w ∈ ws, w.Over N)
    (huv : List.Forall₂ (fun v w => v.same w = true) us vs)
    (hvw : List.Forall₂ (fun v w => v.same w = true) vs ws) :
    List.Forall₂ (fun v w => v.same w = true) us ws :=
  forall₂_trans_of_mem huv hvw fun u hu v hv w hw => ih u hu (hvs v hv) (hws w hw)

theorem entries_trans {ds es fs : List (String × Value)} (ih : ∀ d ∈ ds, Passes N d.2)
    (hes : (Entries.keys es).Nodup) (hfs : (Entries.keys fs).Nodup)
    (hvs : ∀ e ∈ es, e.2.Over N) (hws : ∀ f ∈ fs, f.2.Over N) (hde : EntriesMatch ds es)
    (hef : EntriesMatch es fs) : EntriesMatch ds fs := by
  have hpaired := ((paired_iff hes).2 hde).trans ((paired_iff hfs).2 hef)
    fun d hd e he f hf => ih d hd (hvs e he) (hws f hf)
  exact (paired_iff hfs).1 hpaired

/-- Where numbers do not clash, equality of values is transitive. -/
theorem same_trans (hN : ∀ n, N n → n.InRange) (hclash : ¬Number.Clash N) {u : Value}
    (hu : u.Over N) : Passes N u := by
  induction hu with
  | null | bool | text =>
    intro v w _ _ huv hvw
    cases same_iff.1 huv
    exact hvw
  | unknown type =>
    intro v w hv hw huv hvw
    cases same_iff.1 huv with
    | unknown hst => cases same_iff.1 hvw with
      | unknown htu => cases hv with
        | unknown ht => cases hw with
          | unknown hu => exact same_iff.2 (.unknown (Ty.same_trans type ht hu hst htu))
  | number ha =>
    intro v w hv hw huv hvw
    cases same_iff.1 huv with
    | number hab => cases same_iff.1 hvw with
      | number hbc => cases hv with
        | number hb => cases hw with
          | number hc =>
            exact same_iff.2 (.number (Number.same_trans hN hclash ha hb hc hab hbc))
  | list _ ih =>
    intro v w hv hw huv hvw
    cases same_iff.1 huv with
    | list huvs => cases same_iff.1 hvw with
      | list hvws => cases hv with
        | list hvs => cases hw with
          | list hws => exact same_iff.2 (.list (elements_trans ih hvs hws huvs hvws))
  | set _ ih =>
    intro v w hv hw huv hvw
    cases same_iff.1 huv with
    | set huvs => cases same_iff.1 hvw with
      | set hvws => cases hv with
        | set hvs => cases hw with
          | set hws => exact same_iff.2 (.set (elements_trans ih hvs hws huvs hvws))
  | tuple _ ih =>
    intro v w hv hw huv hvw
    cases same_iff.1 huv with
    | tuple huvs => cases same_iff.1 hvw with
      | tuple hvws => cases hv with
        | tuple hvs => cases hw with
          | tuple hws => exact same_iff.2 (.tuple (elements_trans ih hvs hws huvs hvws))
  | map _ _ ih =>
    intro v w hv hw huv hvw
    cases same_iff.1 huv with
    | map huvs => cases same_iff.1 hvw with
      | map hvws => cases hv with
        | map hes hvs => cases hw with
          | map hfs hws =>
            exact same_iff.2 (.map (entries_trans ih hes hfs hvs hws huvs hvws))
  | object _ _ ih =>
    intro v w hv hw huv hvw
    cases same_iff.1 huv with
    | object huvs => cases same_iff.1 hvw with
      | object hvws => cases hv with
        | object hes hvs => cases hw with
          | object hfs hws =>
            exact same_iff.2 (.object (entries_trans ih hes hfs hvs hws huvs hvws))

end Value

end EarlyConfig
