import EarlyConfig.Proofs.TypeExpressions

/-! Types as expressions. Every type can be spelled (`spells_spelling`): by a keyword, by a call of
its constructor, or by a call over the list or the object of what is inside. Spellings differ in
nothing but places and parentheses, and whichever is chosen, it reads as the type with no defaults
(`Spells.read_eq`). -/
namespace EarlyConfig.TypeExpr

open Hcl

/-! ### Spellings -/

/-- What stands in an entry for an attribute of the type that the expression spells. -/
def entryValue (optional : Bool) (e : Expr) : Expr :=
  if optional then .call "optional" [e] false else e

/-- The expression spells the type. Parentheses may stand around each type in it, but not around the
list of a tuple, the object of an object type or the mark of an optional attribute. -/
inductive Spells : Expr → Ty → Prop
  | any : Spells (.variable "any") .any
  | string : Spells (.variable "string") .string
  | number : Spells (.variable "number") .number
  | bool : Spells (.variable "bool") .bool
  | list {e : Expr} {t : Ty} (element : Spells e t) : Spells (.call "list" [e] false) (.list t)
  | set {e : Expr} {t : Ty} (element : Spells e t) : Spells (.call "set" [e] false) (.set t)
  | map {e : Expr} {t : Ty} (element : Spells e t) : Spells (.call "map" [e] false) (.map t)
  | tuple {items : List (Located Expr)} {ts : List Ty} (length : items.length = ts.length)
      (elements : ∀ p ∈ items.zip ts, Spells p.1.value p.2) :
      Spells (.call "tuple" [.list items] false) (.tuple ts)
  | object {entries : List (Located Expr × Located Expr)} {types : List Expr}
      {fields : List (Field Ty)} (length : types.length = fields.length)
      (written : entries.map (fun entry => (entry.1.value, entry.2.value)) =
        (types.zip fields).map fun p => (.variable p.2.name, entryValue p.2.optional p.1))
      (attributes : ∀ p ∈ types.zip fields, Spells p.1 p.2.type) :
      Spells (.call "object" [.object entries] false) (.object fields)
  | paren {e : Expr} {t : Ty} (inner : Spells e t) : Spells (.paren e) t

/-! ### Reading -/

theorem readAttribute_entryValue {e : Expr} {t : Ty} (h : Spells e t)
    (hread : TypeExpr.read e = .ok (t, none)) (name : String) (optional : Bool) (span : Span) :
    readAttribute name ⟨entryValue optional e, span⟩ = .ok ⟨name, optional, t, none, none⟩ := by
  cases optional with
  | true =>
    show readAttribute name ⟨.call "optional" [e] false, span⟩ = _
    rw [readAttribute, hread]
    rfl
  | false =>
    -- None of the spellings is a call of the mark.
    show readAttribute name ⟨e, span⟩ = _
    cases h <;> rw [readAttribute, hread] <;> first | rfl | simp

/-- An attribute without defaults. -/
def Attribute.ofField (f : Field Ty) : Attribute :=
  ⟨f.name, f.optional, f.type, none, none⟩

/-- Attributes of different names and without defaults are the fields of the type. -/
theorem finish_ofField {fields : List (Field Ty)} (h : (fields.map (·.name)).Nodup) :
    (attributes (fields.map Attribute.ofField)).finish = (.object fields, none) := by
  have hnames : ((fields.map Attribute.ofField).map (·.name)).Nodup := by
    rw [List.map_map]
    exact h
  have hfields : (fields.map Attribute.ofField).map (·.field) = fields := by
    rw [List.map_map]
    exact List.map_id fields
  have hvalues : given (·.value) (fields.map Attribute.ofField) = [] :=
    given_eq_nil.2 fun a ha => by
      obtain ⟨f, -, rfl⟩ := List.mem_map.1 ha
      rfl
  have hchildren : given (·.child) (fields.map Attribute.ofField) = [] :=
    given_eq_nil.2 fun a ha => by
      obtain ⟨f, -, rfl⟩ := List.mem_map.1 ha
      rfl
  rw [attributes_eq hnames, hfields, hvalues, hchildren]
  rfl

/-- Elements without defaults leave a tuple without defaults. -/
theorem tupleOf_without (ts : List Ty) : tupleOf (ts.map (·, none)) = (.tuple ts, none) := by
  have htypes : (ts.map fun t => ((t, none) : Ty × Option Defaults)).map (·.1) = ts := by
    rw [List.map_map]
    exact List.map_id ts
  have hpositions : positions 0 (ts.map (·, none)) = [] := by
    apply List.filterMap_eq_nil_iff.2
    intro p hp
    obtain ⟨t, -, ht⟩ := List.mem_map.1 (List.fst_mem_of_mem_zipIdx hp)
    rw [← ht]
    rfl
  rw [tupleOf, htypes, hpositions]
  rfl

/-- The entries that are written for attributes read as these. -/
theorem reads_of_written {entries : List (Located Expr × Located Expr)} {types : List Expr}
    {fields : List (Field Ty)} (length : types.length = fields.length)
    (written : entries.map (fun entry => (entry.1.value, entry.2.value)) =
      (types.zip fields).map fun p => (.variable p.2.name, entryValue p.2.optional p.1))
    (hread : ∀ p ∈ types.zip fields, ∀ span,
      readAttribute p.2.name ⟨entryValue p.2.optional p.1, span⟩ = .ok (.ofField p.2)) :
    List.Forall₂ Reads entries (fields.map .ofField) := by
  have hfields : fields.map Attribute.ofField =
      (types.zip fields).map fun p => Attribute.ofField p.2 := by
    conv_lhs => rw [← List.map_snd_zip (Nat.le_of_eq length.symm), List.map_map]
    rfl
  have hsame : List.Forall₂ (· = ·)
      ((types.zip fields).map fun p => (Expr.variable p.2.name, entryValue p.2.optional p.1))
      (entries.map fun entry => (entry.1.value, entry.2.value)) := by
    rw [written]
    exact List.forall₂_same.2 fun _ _ => rfl
  rw [List.forall₂_map_left_iff, List.forall₂_map_right_iff] at hsame
  rw [hfields, List.forall₂_map_right_iff]
  apply List.Forall₂.flip
  apply ((List.forall₂_and_left _ _).2 ⟨fun p hp => hp, hsame⟩).imp
  intro p entry hp
  obtain ⟨hmem, hentry⟩ := hp
  obtain ⟨hkey, hvalue⟩ := Prod.mk.inj hentry
  obtain ⟨key, value, span⟩ := entry
  exact ⟨by rw [← hkey]; rfl, by rw [← hread p hmem span, hvalue]; rfl⟩

/-- A spelling reads as the type, and there are no defaults in it. -/
theorem Spells.read_eq {e : Expr} {t : Ty} (h : Spells e t) (ht : t.WellFormed) :
    TypeExpr.read e = .ok (t, none) := by
  induction h with
  | any | string | number | bool => rfl
  | list _ ih =>
    cases ht with | list ht =>
    rw [TypeExpr.read, ih ht]
    rfl
  | set _ ih =>
    cases ht with | set ht =>
    rw [TypeExpr.read, ih ht]
    rfl
  | map _ ih =>
    cases ht with | map ht =>
    rw [TypeExpr.read, ih ht]
    rfl
  | @tuple items ts length _ ih =>
    cases ht with | tuple ht =>
    have hitems : List.Forall₂ (fun item r => TypeExpr.read item.value = .ok r) items
        (ts.map (·, none)) := by
      rw [List.forall₂_map_right_iff, List.forall₂_iff_zip]
      exact ⟨length, fun {item t} hp => ih (item, t) hp (ht t (List.of_mem_zip hp).2)⟩
    rw [TypeExpr.read, readElements_eq_ok.2 ⟨_, hitems, rfl⟩]
    show Except.ok (_, _) = _
    rw [types_zipIdx, defaults_zipIdx]
    exact congrArg Except.ok (tupleOf_without ts)
  | @object entries types fields length written attributes ih =>
    cases ht with | object hnames htypes =>
    have hentries := reads_of_written length written fun p hp => by
      have htype := htypes p.2 (List.of_mem_zip hp).2
      exact fun span => readAttribute_entryValue (attributes p hp) (ih p hp htype) _ _ span
    rw [TypeExpr.read, readAttributes_of_reads hentries]
    exact congrArg Except.ok (finish_ofField hnames)
  | paren _ ih =>
    rw [TypeExpr.read]
    exact ih ht

/-! ### Every type has a spelling -/

/-- A place for what was not read from a text. -/
def nowhere (e : Expr) : Located Expr :=
  ⟨e, ⟨0, 0⟩⟩

mutual

/-- The type spelled without parentheses. -/
def spelling : Ty → Expr
  | .any => .variable "any"
  | .string => .variable "string"
  | .number => .variable "number"
  | .bool => .variable "bool"
  | .list t => .call "list" [spelling t] false
  | .set t => .call "set" [spelling t] false
  | .map t => .call "map" [spelling t] false
  | .tuple ts => .call "tuple" [.list (spellings ts)] false
  | .object fields => .call "object" [.object (fieldSpellings fields)] false
termination_by structural t => t

def spellings : List Ty → List (Located Expr)
  | [] => []
  | t :: rest => nowhere (spelling t) :: spellings rest
termination_by structural ts => ts

def fieldSpellings : List (Field Ty) → List (Located Expr × Located Expr)
  | [] => []
  | ⟨name, optional, type⟩ :: rest =>
    (nowhere (.variable name), nowhere (entryValue optional (spelling type))) ::
      fieldSpellings rest
termination_by structural fields => fields

end

theorem spellings_eq (ts : List Ty) : spellings ts = ts.map fun t => nowhere (spelling t) := by
  induction ts with
  | nil => rfl
  | cons t ts ih => exact congrArg (nowhere (spelling t) :: ·) ih

theorem fieldSpellings_eq (fields : List (Field Ty)) :
    fieldSpellings fields = fields.map fun f =>
      (nowhere (.variable f.name), nowhere (entryValue f.optional (spelling f.type))) := by
  induction fields with
  | nil => rfl
  | cons f fields ih =>
    rw [List.map_cons, ← ih]
    rfl

theorem spells_spelling (t : Ty) : Spells (spelling t) t := by
  induction t with
  | any => exact .any
  | string => exact .string
  | number => exact .number
  | bool => exact .bool
  | list t ih => exact .list ih
  | set t ih => exact .set ih
  | map t ih => exact .map ih
  | tuple ts ih =>
    show Spells (.call "tuple" [.list (spellings ts)] false) _
    rw [spellings_eq]
    apply Spells.tuple (by simp)
    rw [← List.map_prod_right_eq_zip]
    intro p hp
    obtain ⟨t, ht, rfl⟩ := List.mem_map.1 hp
    exact ih t ht
  | object fields ih =>
    show Spells (.call "object" [.object (fieldSpellings fields)] false) _
    rw [fieldSpellings_eq]
    have hzip : (fields.map fun f => spelling f.type).zip fields =
        fields.map fun f => (spelling f.type, f) :=
      (List.map_prod_right_eq_zip ..).symm
    have hlength : (fields.map fun f => spelling f.type).length = fields.length :=
      List.length_map _
    refine .object hlength ?_ ?_
    · rw [hzip, List.map_map, List.map_map]
      rfl
    · rw [hzip]
      intro p hp
      obtain ⟨f, hf, rfl⟩ := List.mem_map.1 hp
      exact ih f hf

end EarlyConfig.TypeExpr
