import EarlyConfig.Proofs.TypeExpressions

/-! The defaults that come with a type. A type expression has defaults exactly if one of its
attributes is given one, and then they fit the type at every depth: they say nothing about anything
that the type does not declare, and the default of an attribute is already what filling in and
converting would make of it (`defaults_fit`). -/
namespace EarlyConfig

/-! ### Calls in an expression -/

namespace Hcl

mutual

/-- What is called in an expression, at every depth, with the number of arguments. -/
def Expr.calls : Expr → List (String × Nat)
  | .list items => itemCalls items
  | .object items => entryCalls items
  | .template parts => partCalls parts
  | .traversal root steps => root.calls ++ stepCalls steps
  | .call name args _ => (name, args.length) :: exprCalls args
  | .paren inner => inner.calls
  | .unary _ arg => arg.calls
  | .binary left _ right => left.calls ++ right.calls
  | .conditional cond yes no => cond.calls ++ yes.calls ++ no.calls
  | .forList _ _ source body guard => source.calls ++ body.calls ++ guardCalls guard
  | .forObject _ _ source name body _ guard =>
    source.calls ++ name.calls ++ body.calls ++ guardCalls guard
  | _ => []
termination_by structural e => e

def guardCalls : Option Expr → List (String × Nat)
  | none => []
  | some e => e.calls
termination_by structural g => g

def exprCalls : List Expr → List (String × Nat)
  | [] => []
  | e :: rest => e.calls ++ exprCalls rest
termination_by structural es => es

def itemCalls : List (Located Expr) → List (String × Nat)
  | [] => []
  | ⟨e, _⟩ :: rest => e.calls ++ itemCalls rest
termination_by structural items => items

def entryCalls : List (Located Expr × Located Expr) → List (String × Nat)
  | [] => []
  | (⟨k, _⟩, ⟨e, _⟩) :: rest => k.calls ++ e.calls ++ entryCalls rest
termination_by structural items => items

def partCalls : List Part → List (String × Nat)
  | [] => []
  | p :: rest => p.calls ++ partCalls rest
termination_by structural parts => parts

def stepCalls : List Step → List (String × Nat)
  | [] => []
  | s :: rest => s.calls ++ stepCalls rest
termination_by structural steps => steps

def Part.calls : Part → List (String × Nat)
  | .literal _ => []
  | .interpolation e _ => e.calls
  | .choice cond _ yes _ no _ => cond.calls ++ partCalls yes ++ partCalls no
  | .loop _ _ source _ body _ => source.calls ++ partCalls body
termination_by structural p => p

def Step.calls : Step → List (String × Nat)
  | .index e => e.calls
  | _ => []
termination_by structural s => s

end

theorem itemCalls_eq (items : List (Located Expr)) :
    itemCalls items = items.flatMap (·.value.calls) := by
  induction items with
  | nil => rfl
  | cons item rest ih => rw [itemCalls, ih, List.flatMap_cons]

theorem entryCalls_eq (entries : List (Located Expr × Located Expr)) :
    entryCalls entries = entries.flatMap fun e => e.1.value.calls ++ e.2.value.calls := by
  induction entries with
  | nil => rfl
  | cons entry rest ih => rw [entryCalls, ih, List.flatMap_cons]

theorem calls_of_keyName? {e : Expr} {name : String} (h : e.keyName? = some name) :
    e.calls = [] := by
  unfold Expr.keyName? at h
  split at h
  · rfl
  · rfl
  · cases h

end Hcl

/-! ### Types inside a type -/

namespace Ty

/-- The types directly inside a type. -/
def parts : Ty → List Ty
  | .list t => [t]
  | .set t => [t]
  | .map t => [t]
  | .tuple ts => ts
  | .object fields => fields.map (·.type)
  | _ => []

/-- The first type stands in the second, at any depth, or is it. -/
def Inside (u t : Ty) : Prop :=
  Relation.ReflTransGen (fun a b => b ∈ parts a) t u

def optionalNames (fields : List (Field Ty)) : List String :=
  (fields.filter (·.optional)).map (·.name)

/-- What a list, set or map consists of. -/
def element? : Ty → Option Ty
  | .list t => some t
  | .set t => some t
  | .map t => some t
  | _ => none

theorem WellFormed.of_mem_parts {t u : Ty} (h : t.WellFormed) (hu : u ∈ parts t) :
    u.WellFormed := by
  cases h with
  | any | string | number | bool => cases hu
  | list element | set element | map element =>
    rw [List.mem_singleton.1 hu]
    exact element
  | tuple elements => exact elements u hu
  | object _ types =>
    obtain ⟨f, hf, rfl⟩ := List.mem_map.1 hu
    exact types f hf

theorem WellFormed.of_inside {t u : Ty} (h : t.WellFormed) (hu : u.Inside t) : u.WellFormed := by
  induction hu with
  | refl => exact h
  | tail _ hpart ih => exact ih.of_mem_parts hpart

theorem optionalNames_sublist (fields : List (Field Ty)) :
    (optionalNames fields).Sublist (fields.map (·.name)) :=
  List.filter_sublist.map _

end Ty

/-! ### Defaults that fit a type -/

namespace Defaults

/-- The defaults are about this type, with nothing left over and nothing empty at any depth. Only
objects have default values, for optional attributes, and these values are as filling in and
converting leave them. -/
inductive Fits : Ty → Defaults → Prop
  | collection {u t : Ty} {children : List (String × Defaults)} (type : u.element? = some t)
      (nonempty : (Defaults.mk u [] children).isEmpty = false)
      (once : (Entries.keys children).Nodup) (keys : ∀ c ∈ children, c.1 = "")
      (inner : ∀ c ∈ children, Fits t c.2) : Fits u ⟨u, [], children⟩
  | tuple {ts : List Ty} {children : List (String × Defaults)}
      (nonempty : (Defaults.mk (.tuple ts) [] children).isEmpty = false)
      (once : (Entries.keys children).Nodup)
      (keys : ∀ c ∈ children, ∃ i < ts.length, c.1 = Decimal.natText i)
      (inner : ∀ c ∈ children, ∀ i t, ts[i]? = some t → c.1 = Decimal.natText i → Fits t c.2) :
      Fits (.tuple ts) ⟨.tuple ts, [], children⟩
  | object {fields : List (Field Ty)} {values : List (String × Value)}
      {children : List (String × Defaults)}
      (nonempty : (Defaults.mk (.object fields) values children).isEmpty = false)
      (once : (Entries.keys values).Nodup ∧ (Entries.keys children).Nodup)
      (optional : ∀ d ∈ values, ∃ f ∈ fields, f.name = d.1 ∧ f.optional = true ∧
        d.2.convert f.type = .ok d.2 ∧ applyTo (Entries.get? d.1 children) d.2 = d.2)
      (keys : ∀ c ∈ children, c.1 ∈ fields.map (·.name))
      (inner : ∀ c ∈ children, ∀ f ∈ fields, f.name = c.1 → Fits f.type c.2) :
      Fits (.object fields) ⟨.object fields, values, children⟩

theorem Fits.type_eq {t : Ty} {d : Defaults} (h : Fits t d) : d.type = t := by
  cases h <;> rfl

theorem orNone_eq_some {d c : Defaults} : d.orNone = some c ↔ d.isEmpty = false ∧ d = c := by
  unfold orNone
  cases d.isEmpty <;> simp

theorem isSome_orNone (d : Defaults) :
    d.orNone.isSome = true ↔ ¬ (d.values = [] ∧ d.children = []) := by
  unfold orNone isEmpty
  rw [← List.isEmpty_iff, ← List.isEmpty_iff, ← Bool.and_eq_true]
  split <;> simp_all

end Defaults

namespace TypeExpr

open Hcl Defaults

/-! ### Collections -/

theorem fits_ofElement {u t : Ty} {d : Option Defaults} (hu : u.element? = some t)
    (hd : ∀ c, d = some c → Fits t c) {c : Defaults} (h : ofElement u d = some c) : Fits u c := by
  obtain ⟨child, hchild, rfl⟩ := Option.map_eq_some_iff.1 h
  refine .collection hu rfl (List.nodup_singleton _) (fun c hc => ?_) (fun c hc => ?_)
  · rw [List.mem_singleton.1 hc]
  · rw [List.mem_singleton.1 hc]
    exact hd child hchild

theorem isSome_ofElement (u : Ty) (d : Option Defaults) : (ofElement u d).isSome = d.isSome :=
  Option.isSome_map ..

/-! ### Tuples -/

theorem mem_positions {i : Nat} {rs : List (Ty × Option Defaults)} {k : String} {c : Defaults}
    (h : (k, c) ∈ positions i rs) :
    ∃ j r, rs[j]? = some r ∧ r.2 = some c ∧ k = Decimal.natText (i + j) := by
  obtain ⟨⟨r, n⟩, hmem, hr⟩ := List.mem_filterMap.1 h
  obtain ⟨c', hc, heq⟩ := Option.map_eq_some_iff.1 hr
  cases heq
  obtain ⟨hle, hget⟩ := List.mk_mem_zipIdx_iff_le_and_getElem?_sub.1 hmem
  exact ⟨n - i, r, hget, hc, by rw [Nat.add_sub_cancel' hle]⟩

theorem nodup_keys_positions (i : Nat) (rs : List (Ty × Option Defaults)) :
    (Entries.keys (positions i rs)).Nodup := by
  induction rs generalizing i with
  | nil => exact .nil
  | cons r rs ih =>
    rw [positions_cons]
    cases r.2 with
    | none => exact ih (i + 1)
    | some d =>
      have hnew := Entries.get?_eq_none.1 (get?_positions_of_lt (Nat.lt_succ_self i) rs)
      exact List.nodup_cons.2 ⟨hnew, ih (i + 1)⟩

theorem positions_eq_nil {i : Nat} {rs : List (Ty × Option Defaults)} :
    positions i rs = [] ↔ ∀ r ∈ rs, r.2 = none := by
  induction rs generalizing i with
  | nil => simp [positions]
  | cons r rs ih => simp [positions_cons, ih]

theorem fits_tupleOf {rs : List (Ty × Option Defaults)}
    (hrs : ∀ r ∈ rs, ∀ c, r.2 = some c → Fits r.1 c) {c : Defaults}
    (h : (tupleOf rs).2 = some c) : Fits (tupleOf rs).1 c := by
  obtain ⟨hnonempty, rfl⟩ := orNone_eq_some.1 h
  refine .tuple hnonempty (nodup_keys_positions 0 rs) (fun c hc => ?_) (fun c hc i t ht hkey => ?_)
  · obtain ⟨j, r, hr, -, hkey⟩ := mem_positions hc
    have hj : j < rs.length := (List.getElem?_eq_some_iff.1 hr).1
    exact ⟨j, by rwa [List.length_map], by rw [hkey, Nat.zero_add]⟩
  · obtain ⟨j, r, hr, hchild, hkey'⟩ := mem_positions hc
    -- a position is spelled in one way, so the child stands at the place of this type
    have hij : i = 0 + j := natText_injective (hkey.symm.trans hkey')
    have hr' : rs[i]? = some r := by rw [hij, Nat.zero_add, hr]
    rw [List.getElem?_map, hr', Option.map_some] at ht
    rw [← Option.some.inj ht]
    exact hrs r (List.mem_of_getElem? hr) c.2 hchild

theorem isSome_tupleOf (rs : List (Ty × Option Defaults)) :
    (tupleOf rs).2.isSome = true ↔ ∃ r ∈ rs, r.2.isSome = true := by
  unfold tupleOf
  rw [isSome_orNone, positions_eq_nil]
  simp [Option.isSome_iff_ne_none]

/-! ### Objects -/

/-- An attribute whose default value and child fit its type. -/
structure Attribute.Fits (a : Attribute) : Prop where
  value : ∀ v, a.value = some v →
    a.optional = true ∧ v.convert a.type = .ok v ∧ applyTo a.child v = v
  child : ∀ c, a.child = some c → Defaults.Fits a.type c

theorem fits_finish {as : List Attribute} (honce : (as.map (·.name)).Nodup)
    (has : ∀ a ∈ as, a.Fits) {c : Defaults} (h : (attributes as).finish.2 = some c) :
    Defaults.Fits (attributes as).finish.1 c := by
  rw [attributes_eq honce] at h ⊢
  obtain ⟨hnonempty, rfl⟩ := orNone_eq_some.1 h
  refine .object hnonempty
    ⟨honce.sublist (keys_given_sublist as), honce.sublist (keys_given_sublist as)⟩
    (fun d hd => ?_) (fun c hc => ?_) (fun c hc f hf hname => ?_)
  · obtain ⟨a, ha, hname, hvalue⟩ := mem_given.1 hd
    obtain ⟨hoptional, hconvert, hfilled⟩ := (has a ha).value d.2 hvalue
    refine ⟨a.field, List.mem_map_of_mem ha, hname, hoptional, hconvert, ?_⟩
    rw [← hname, get?_given honce ha]
    exact hfilled
  · obtain ⟨a, ha, hname, -⟩ := mem_given.1 hc
    exact List.mem_map.2 ⟨a.field, List.mem_map_of_mem ha, hname⟩
  · obtain ⟨a, ha, hname', hchild⟩ := mem_given.1 hc
    obtain ⟨b, hb, rfl⟩ := List.mem_map.1 hf
    have hba : b = a := List.inj_on_of_nodup_map honce hb ha (hname.trans hname'.symm)
    rw [hba]
    exact (has a ha).child c.2 hchild

theorem isSome_finish {as : List Attribute} (honce : (as.map (·.name)).Nodup) :
    (attributes as).finish.2.isSome = true ↔
      ∃ a ∈ as, a.value.isSome = true ∨ a.child.isSome = true := by
  rw [attributes_eq honce, Attributes.finish, isSome_orNone, given_eq_nil, given_eq_nil]
  simp only [Option.isSome_iff_ne_none]
  grind

theorem optional_of_default {e x : Expr} (h : (marked e).default = some x) :
    (marked e).optional = true := by
  unfold marked at h ⊢
  split at h
  · rfl
  · rfl
  · cases h

/-- The default of an attribute was filled in by the child and converted to the type. -/
theorem Declares.filled {entry : Located Expr × Located Expr} {a : Attribute}
    (h : Declares entry a) {v : Value} (hv : a.value = some v) :
    a.optional = true ∧ ∃ w, (applyTo a.child w).convert a.type = .ok v := by
  have hvalue := h.value
  rw [hv, Option.map_some] at hvalue
  obtain ⟨x, hx, hdefault⟩ := Option.map_eq_some_iff.1 hvalue
  refine ⟨by rw [h.optional, optional_of_default hx], ?_⟩
  unfold defaultValue at hdefault
  split at hdefault
  · cases hdefault
  · rename_i w _
    exact ⟨w, Except.mapError_eq_ok.1 hdefault⟩

theorem Declares.fits {entry : Located Expr × Located Expr} {a : Attribute} (h : Declares entry a)
    (hmeans : Says (marked entry.2.value).type (a.type, a.child))
    (hnames : NamesOnce (marked entry.2.value).type)
    (hchild : ∀ c, a.child = some c → Defaults.Fits a.type c) : a.Fits := by
  refine ⟨fun v hv => ?_, hchild⟩
  obtain ⟨hoptional, w, hw⟩ := h.filled hv
  have hconforms := Value.convert_conforms _ v hw
  exact ⟨hoptional, Value.convert_of_conforms hconforms hmeans.wellFormed,
    (hmeans.along hnames).stable w v hw⟩

/-! ### Type expressions -/

theorem Says.fits {e : Expr} {r : Ty × Option Defaults} (h : Says e r) (hnames : NamesOnce e) :
    ∀ c, r.2 = some c → Defaults.Fits r.1 c := by
  induction h with
  | keyword _ => exact fun _ hc => nomatch hc
  | paren _ ih => exact ih (hnames.part .paren)
  | list _ ih => exact fun _ => fits_ofElement rfl (ih (hnames.part .list))
  | set _ ih => exact fun _ => fits_ofElement rfl (ih (hnames.part .set))
  | map _ ih => exact fun _ => fits_ofElement rfl (ih (hnames.part .map))
  | @tuple items rs spread length _ ih =>
    refine fun _ => fits_tupleOf fun r hr => ?_
    obtain ⟨item, hitem⟩ := exists_mem_zip length hr
    exact ih _ hitem (hnames.part (.item (List.of_mem_zip hitem).1))
  | @object entries as spread length declared types ih =>
    refine fun _ => fits_finish (names_nodup length declared hnames) fun a ha => ?_
    obtain ⟨entry, hentry⟩ := exists_mem_zip length ha
    have hpart := hnames.part (.entry (List.of_mem_zip hentry).1)
    exact (declared _ hentry).fits (types _ hentry) hpart (ih _ hentry hpart)

/-- An entry of an object gives a default to its own attribute or inside the type of it. -/
theorem mem_calls_marked (e : Expr) :
    ("optional", 2) ∈ e.calls ↔
      (marked e).default.isSome = true ∨ ("optional", 2) ∈ (marked e).type.calls := by
  unfold marked
  split
  · simp [Expr.calls, exprCalls]
  · simp [Expr.calls]
  · simp

theorem Declares.isSome_value {entry : Located Expr × Located Expr} {a : Attribute}
    (h : Declares entry a) :
    a.value.isSome = (marked entry.2.value).default.isSome := by
  have hvalue := congrArg Option.isSome h.value
  rw [Option.isSome_map, Option.isSome_map] at hvalue
  exact hvalue.symm

theorem exists_mem_of_forall₂ {α β : Type} {p : α → Prop} {q : β → Prop} {xs : List α} {ys : List β}
    (h : List.Forall₂ (fun x y => q y ↔ p x) xs ys) : (∃ y ∈ ys, q y) ↔ ∃ x ∈ xs, p x := by
  induction h with
  | nil => simp
  | cons hxy _ ih => simp [hxy, ih]

theorem Says.isSome_iff {e : Expr} {r : Ty × Option Defaults} (h : Says e r)
    (hnames : NamesOnce e) : r.2.isSome = true ↔ ("optional", 2) ∈ e.calls := by
  induction h with
  | keyword _ => simp [Expr.calls]
  | paren _ ih =>
    rw [Expr.calls]
    exact ih (hnames.part .paren)
  | list _ ih =>
    rw [isSome_ofElement, ih (hnames.part .list)]
    simp [Expr.calls, exprCalls]
  | set _ ih =>
    rw [isSome_ofElement, ih (hnames.part .set)]
    simp [Expr.calls, exprCalls]
  | map _ ih =>
    rw [isSome_ofElement, ih (hnames.part .map)]
    simp [Expr.calls, exprCalls]
  | @tuple items rs spread length _ ih =>
    have hinner : List.Forall₂ (fun item r => r.2.isSome = true ↔
        ("optional", 2) ∈ (Located.value item).calls) items rs :=
      List.forall₂_iff_zip.2 ⟨length, fun {item r} hp =>
        ih (item, r) hp (hnames.part (.item (List.of_mem_zip hp).1))⟩
    rw [isSome_tupleOf, exists_mem_of_forall₂ hinner]
    simp [Expr.calls, exprCalls, itemCalls_eq]
  | @object entries as spread length declared _ ih =>
    have hinner : List.Forall₂ (fun entry a => (a.value.isSome = true ∨ a.child.isSome = true) ↔
        ("optional", 2) ∈ entry.1.value.calls ++ entry.2.value.calls) entries as :=
      List.forall₂_iff_zip.2 ⟨length, fun {entry a} hp => by
        have hd := declared (entry, a) hp
        have hchild := ih (entry, a) hp (hnames.part (.entry (List.of_mem_zip hp).1))
        rw [calls_of_keyName? hd.name, List.nil_append, mem_calls_marked, hd.isSome_value, hchild]⟩
    rw [isSome_finish (names_nodup length declared hnames), exists_mem_of_forall₂ hinner]
    simp [Expr.calls, exprCalls, entryCalls_eq]

/-- What is read has defaults exactly if some attribute is given one, they fit the type, and the
object types inside the type declare what they have as optional. -/
theorem defaults_fit {e : Expr} {t : Ty} {d : Option Defaults} (hnames : NamesOnce e)
    (hread : TypeExpr.read e = .ok (t, d)) :
    (∀ fields, (Ty.object fields).Inside t → (fields.map (·.name)).Nodup ∧
        (Ty.optionalNames fields).Sublist (fields.map (·.name))) ∧
      (d.isSome = true ↔ ("optional", 2) ∈ e.calls) ∧
      ∀ c, d = some c → c.type = t ∧ Defaults.Fits t c := by
  have hmeans := says_of_read hread
  refine ⟨fun fields hin => ?_, hmeans.isSome_iff hnames, fun c hc => ?_⟩
  · have hobject : (Ty.object fields).WellFormed := hmeans.wellFormed.of_inside hin
    cases hobject with
    | object names _ => exact ⟨names, Ty.optionalNames_sublist fields⟩
  · have hfits : Defaults.Fits t c := hmeans.fits hnames c hc
    exact ⟨hfits.type_eq, hfits⟩

/-- A pair of a text and an object whose attribute has a default, and so does the attribute inside
of that. -/
def diskExpr : Expr :=
  .call "tuple" [.list [⟨.variable "string", ⟨7, 13⟩⟩, ⟨.call "object" [.object [
    (⟨.variable "disk", ⟨24, 28⟩⟩, ⟨.call "optional" [.call "object" [.object [
      (⟨.text "size", ⟨49, 55⟩⟩,
        ⟨.call "optional" [.variable "number", .number (.int 80)] false, ⟨58, 78⟩⟩)]] false,
      .object []] false, ⟨31, 86⟩⟩)]] false, ⟨15, 89⟩⟩]] false

theorem diskExpr_namesOnce : NamesOnce diskExpr := by
  refine .intro (fun entries spread h => ?_) fun e' hpart => ?_
  · simp [diskExpr] at h
  obtain ⟨item, hitem, rfl⟩ := List.mem_map.1 hpart
  rcases List.mem_cons.1 hitem with rfl | hitem
  · exact .variable "string"
  rw [List.mem_singleton.1 hitem]
  refine .object (by decide) fun disk hdisk => ?_
  rw [List.mem_singleton.1 hdisk]
  refine .object (by decide) fun size hsize => ?_
  rw [List.mem_singleton.1 hsize]
  exact .variable "number"

theorem defaults_fit_disk :
    let disk : Ty := .object [⟨"size", true, .number⟩]
    let host : Ty := .object [⟨"disk", true, disk⟩]
    let size : String × Value := ("size", .number (.int 80))
    let d : Defaults := ⟨.tuple [.string, host], [], [("1", ⟨host, [("disk", .object [size])],
      [("disk", ⟨disk, [size], []⟩)]⟩)]⟩
    TypeExpr.read diskExpr = .ok (.tuple [.string, host], some d) ∧
      ("optional", 2) ∈ diskExpr.calls ∧ Defaults.Fits (.tuple [.string, host]) d := by
  intro disk host size d
  have hread : TypeExpr.read diskExpr = .ok (.tuple [.string, host], some d) := by
    with_unfolding_all rfl
  have h := defaults_fit diskExpr_namesOnce hread
  exact ⟨hread, h.2.1.1 rfl, (h.2.2 d rfl).2⟩

end TypeExpr

end EarlyConfig
