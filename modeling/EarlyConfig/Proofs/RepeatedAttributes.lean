import EarlyConfig.Proofs.Reordering
import EarlyConfig.Proofs.TypeExpressions

/-! Attributes that an object type names more than once. The type of the last entry counts, but the
mark of an optional attribute, a default and what is inside of the type are kept from earlier
entries as long as no later one has its own. So an earlier entry is as good as absent exactly if the
others make up for all that it has (`repeated_attribute_iff`). -/
namespace EarlyConfig

namespace TypeExpr

open Hcl

/-! ### What is kept of the attributes of a name -/

section
variable {α : Type} {part : Attribute → Option α}

/-- What the attributes of a name have of one kind. The last that has it counts. -/
def lastGiven (part : Attribute → Option α) (name : String) (as : List Attribute) : Option α :=
  (Entries.under name (given part as)).getLast?

theorem lastGiven_append (name : String) (as bs : List Attribute) :
    lastGiven part name (as ++ bs) = (lastGiven part name bs).or (lastGiven part name as) := by
  rw [lastGiven, given_append, Entries.under_append, List.getLast?_append, lastGiven, lastGiven]

theorem lastGiven_cons (name : String) (a : Attribute) (as : List Attribute) :
    lastGiven part name (a :: as) =
      (lastGiven part name as).or (if a.name = name then part a else none) := by
  have hone : lastGiven part name [a] = if a.name = name then part a else none := by
    rw [lastGiven, given_singleton]
    cases part a <;> by_cases h : a.name = name <;> simp [Entries.under, h]
  rw [← hone, ← lastGiven_append, List.singleton_append]

theorem isSome_lastGiven {name : String} {as : List Attribute} :
    (lastGiven part name as).isSome = true ↔
      ∃ a ∈ as, a.name = name ∧ (part a).isSome = true := by
  induction as with
  | nil => simp [lastGiven, given, Entries.under]
  | cons a rest ih =>
    rw [lastGiven_cons, Option.isSome_or, Bool.or_eq_true, ih]
    by_cases h : a.name = name <;> simp [h, or_comm]

/-- Nothing of the kind is left of an attribute between others: a later one of the name has it too,
or those before it had the same. -/
def MadeUp (part : Attribute → Option α) (as : List Attribute) (a : Attribute)
    (bs : List Attribute) : Prop :=
  ∀ x, part a = some x →
    (∃ b ∈ bs, b.name = a.name ∧ (part b).isSome = true) ∨ lastGiven part a.name as = some x

theorem lastGiven_without {as bs : List Attribute} {a : Attribute} :
    (∀ name, lastGiven part name (as ++ a :: bs) = lastGiven part name (as ++ bs)) ↔
      MadeUp part as a bs := by
  simp only [lastGiven_append, lastGiven_cons, MadeUp, ← isSome_lastGiven]
  constructor
  · intro h x hx
    have hname := h a.name
    rw [if_pos rfl, hx] at hname
    cases hbs : lastGiven part a.name bs with
    | some y => exact .inl rfl
    | none =>
      rw [hbs] at hname
      exact .inr hname.symm
  · intro h name
    by_cases hname : a.name = name
    · subst hname
      rw [if_pos rfl]
      cases hbs : lastGiven part a.name bs with
      | some y => rfl
      | none =>
        cases hx : part a with
        | none => rfl
        | some x =>
          rcases h x hx with hlater | hbefore
          · rw [hbs] at hlater
            cases hlater
          · rw [hbefore]
            rfl
    · rw [if_neg hname, Option.or_none]

theorem perm_given_iff {as bs : List Attribute} {a : Attribute} :
    (Entries.ofList (given part (as ++ a :: bs))).Perm (Entries.ofList (given part (as ++ bs))) ↔
      MadeUp part as a bs := by
  rw [Entries.perm_iff_get? (Entries.nodup_keys_ofList _) (Entries.nodup_keys_ofList _),
    ← lastGiven_without]
  simp only [Entries.get?_ofList, lastGiven]

end

/-! ### What the attributes come to -/

theorem attributes_concat (as : List Attribute) (a : Attribute) :
    attributes (as ++ [a]) = (attributes as).add a :=
  List.foldl_concat ..

/-- Entries that each attribute with a part of its own puts its part into. -/
theorem attributes_part {α : Type} {part : Attribute → Option α}
    {entries : Attributes → List (String × α)} (hnone : entries ⟨[], [], []⟩ = [])
    (hadd : ∀ as a, entries (as.add a) =
      (part a).elim (entries as) fun x => Entries.put a.name x (entries as))
    (as : List Attribute) : entries (attributes as) = Entries.ofList (given part as) := by
  induction as using List.reverseRecOn with
  | nil => exact hnone
  | append_singleton as a ih =>
    rw [attributes_concat, hadd, ih, given_append, given_singleton, Entries.ofList, Entries.ofList,
      List.foldl_append]
    cases part a <;> rfl

theorem attributes_values (as : List Attribute) :
    (attributes as).values = Entries.ofList (given (·.value) as) :=
  attributes_part rfl (fun as a => by rw [Attributes.add]; cases a.value <;> rfl) as

theorem attributes_children (as : List Attribute) :
    (attributes as).children = Entries.ofList (given (·.child) as) :=
  attributes_part rfl (fun as a => by rw [Attributes.add]; cases a.child <;> rfl) as

/-- The attributes of a name, in order. -/
def named (name : String) (as : List Attribute) : List Attribute :=
  as.filter fun a => a.name = name

/-- Fields by name. -/
def byName (fields : List (Field Ty)) : List (String × Field Ty) :=
  fields.map fun f => (f.name, f)

theorem get?_putField (name name' : String) (optional : Bool) (type : Ty)
    (fields : List (Field Ty)) :
    Entries.get? name' (byName (putField name optional type fields)) =
      if name = name' then
        some ⟨name, (Entries.get? name (byName fields)).any (·.optional) || optional, type⟩
      else Entries.get? name' (byName fields) := by
  induction fields with
  | nil => simp [byName, putField, Entries.get?]
  | cons f rest ih =>
    simp only [byName] at ih ⊢
    by_cases h : f.name = name
    · by_cases h' : name = name' <;> simp [putField, Entries.get?, h, h']
    · by_cases h' : f.name = name'
      · subst h'
        simp [putField, Entries.get?, h, Ne.symm h]
      · simp [putField, Entries.get?, h, h', ih]

/-- A name is declared as the last entry has it, and is optional if any entry says so. -/
theorem get?_fields (name : String) (as : List Attribute) :
    Entries.get? name (byName (attributes as).fields) =
      (named name as).getLast?.map fun a =>
        ⟨name, (named name as).any (·.optional), a.type⟩ := by
  induction as using List.reverseRecOn with
  | nil => rfl
  | append_singleton as a ih =>
    rw [attributes_concat, Attributes.add, get?_putField]
    by_cases h : a.name = name
    · subst h
      have hconcat : named a.name (as ++ [a]) = named a.name as ++ [a] := by simp [named]
      rw [if_pos rfl, ih, hconcat, List.getLast?_concat, Option.map_some, List.any_append]
      cases hlast : (named a.name as).getLast? with
      | none => simp [List.getLast?_eq_none_iff.1 hlast]
      | some b => simp
    · simp [h, ih, named]

theorem nodup_fields (as : List Attribute) :
    (Entries.keys (byName (attributes as).fields)).Nodup := by
  have hnames : ∀ fields : List (Field Ty), Entries.keys (byName fields) = fields.map (·.name) :=
    fun fields => List.map_map ..
  rw [hnames]
  exact List.foldlRecOn as Attributes.add (b := ⟨[], [], []⟩)
    (motive := fun bs => (bs.fields.map (·.name)).Nodup) .nil fun _ h _ _ => nodup_putField h

theorem getLast?_named {name : String} {bs : List Attribute} (h : ∃ b ∈ bs, b.name = name) :
    ∃ c, ∀ as, (named name (as ++ bs)).getLast? = some c := by
  obtain ⟨b, hb, hname⟩ := h
  have hmem : b ∈ named name bs := List.mem_filter.2 ⟨hb, by simpa using hname⟩
  obtain ⟨c, hc⟩ := Option.isSome_iff_exists.1 (List.getLast?_isSome.2 (List.ne_nil_of_mem hmem))
  refine ⟨c, fun as => ?_⟩
  have hsplit : named name (as ++ bs) = named name as ++ named name bs := List.filter_append ..
  rw [hsplit, List.getLast?_append, hc, Option.some_or]

/-- An entry before another one of its name decides at most whether the attribute is optional. -/
theorem perm_fields_iff {as bs : List Attribute} {a : Attribute}
    (hagain : ∃ b ∈ bs, b.name = a.name) :
    (attributes (as ++ a :: bs)).fields.Perm (attributes (as ++ bs)).fields ↔
      (a.optional = true → ∃ b ∈ as ++ bs, b.name = a.name ∧ b.optional = true) := by
  have hinj : Function.Injective fun f : Field Ty => (f.name, f) := fun f g h => congrArg Prod.snd h
  have hperm : (attributes (as ++ a :: bs)).fields.Perm (attributes (as ++ bs)).fields ↔
      (byName (attributes (as ++ a :: bs)).fields).Perm (byName (attributes (as ++ bs)).fields) :=
    (List.map_perm_map_iff hinj).symm
  rw [hperm, Entries.perm_iff_get? (nodup_fields _) (nodup_fields _)]
  simp only [get?_fields]
  -- The last entry of the name is the same with and without `a`, so only the mark is in question.
  obtain ⟨c, hlast⟩ := getLast?_named hagain
  have hwith : (named a.name (as ++ a :: bs)).getLast? = some c := by
    rw [List.append_cons]
    exact hlast (as ++ [a])
  constructor
  · intro h hoptional
    have hname := h a.name
    rw [hwith, hlast, Option.map_some, Option.map_some, Option.some.injEq, Field.mk.injEq] at hname
    have hany : (named a.name (as ++ bs)).any (·.optional) = true := by
      rw [← hname.2.1]
      simp [named, hoptional]
    obtain ⟨d, hd, hmark⟩ := List.any_eq_true.1 hany
    obtain ⟨hmem, hdname⟩ := List.mem_filter.1 hd
    exact ⟨d, hmem, by simpa using hdname, hmark⟩
  · intro h name
    by_cases hname : a.name = name
    · subst hname
      have hany : (named a.name (as ++ a :: bs)).any (·.optional) =
          (named a.name (as ++ bs)).any (·.optional) := by
        rw [Bool.eq_iff_iff]
        simp only [named, List.any_eq_true, List.mem_filter, List.mem_append, List.mem_cons,
          decide_eq_true_eq] at h ⊢
        grind
      rw [hwith, hlast, hany]
    · simp [named, hname]

/-! ### Object types -/

/-- The default values among defaults that may be absent. -/
def valuesOf (d : Option Defaults) : List (String × Value) :=
  d.elim [] (·.values)

def childrenOf (d : Option Defaults) : List (String × Defaults) :=
  d.elim [] (·.children)

/-- Object types with the same attributes and the same defaults, each in some order. -/
def SameAttributes : Ty × Option Defaults → Ty × Option Defaults → Prop
  | (.object fields, c), (.object fields', d) =>
    fields.Perm fields' ∧ (valuesOf c).Perm (valuesOf d) ∧ (childrenOf c).Perm (childrenOf d)
  | _, _ => False

theorem elim_orNone {α : Type} {part : Defaults → List α} {d : Defaults}
    (h : d.isEmpty = true → part d = []) : d.orNone.elim [] part = part d := by
  unfold Defaults.orNone
  split
  · rename_i hempty
    exact (h hempty).symm
  · rfl

theorem valuesOf_orNone (d : Defaults) : valuesOf d.orNone = d.values :=
  elim_orNone fun h => List.isEmpty_iff.1 (Bool.and_eq_true_iff.1 h).1

theorem childrenOf_orNone (d : Defaults) : childrenOf d.orNone = d.children :=
  elim_orNone fun h => List.isEmpty_iff.1 (Bool.and_eq_true_iff.1 h).2

theorem sameAttributes_finish (as bs : Attributes) :
    SameAttributes as.finish bs.finish ↔
      as.fields.Perm bs.fields ∧ as.values.Perm bs.values ∧ as.children.Perm bs.children := by
  simp only [Attributes.finish, SameAttributes, valuesOf_orNone, childrenOf_orNone]

/-- The others make up for all that an attribute between them has. -/
structure Superseded (as : List Attribute) (a : Attribute) (bs : List Attribute) : Prop where
  optional : a.optional = true → ∃ b ∈ as ++ bs, b.name = a.name ∧ b.optional = true
  value : MadeUp (·.value) as a bs
  child : MadeUp (·.child) as a bs

theorem sameAttributes_iff {as bs : List Attribute} {a : Attribute}
    (hagain : ∃ b ∈ bs, b.name = a.name) :
    SameAttributes (attributes (as ++ a :: bs)).finish (attributes (as ++ bs)).finish ↔
      Superseded as a bs := by
  rw [sameAttributes_finish, perm_fields_iff hagain, attributes_values, attributes_values,
    attributes_children, attributes_children, perm_given_iff, perm_given_iff]
  exact ⟨fun h => ⟨h.1, h.2.1, h.2.2⟩, fun h => ⟨h.optional, h.value, h.child⟩⟩

theorem forall₂_append_left {α β : Type} {R : α → β → Prop} {xs xs' : List α} {ys : List β}
    (h : List.Forall₂ R (xs ++ xs') ys) :
    ∃ zs zs', List.Forall₂ R xs zs ∧ List.Forall₂ R xs' zs' ∧ ys = zs ++ zs' := by
  induction xs generalizing ys with
  | nil => exact ⟨[], ys, .nil, h, rfl⟩
  | cons x xs ih =>
    cases h with
    | cons hx hrest =>
      obtain ⟨zs, zs', hzs, hzs', rfl⟩ := ih hrest
      exact ⟨_ :: zs, zs', .cons hx hzs, hzs', rfl⟩

theorem Reads.unique {entry : Located Expr × Located Expr} {a b : Attribute} (ha : Reads entry a)
    (hb : Reads entry b) : a = b := by
  have hname : a.name = b.name := Option.some.inj (ha.1.symm.trans hb.1)
  have hread := ha.2
  rw [hname, hb.2] at hread
  exact (Except.ok.inj hread).symm

theorem read_object_eq_ok {entries : List (Located Expr × Located Expr)} {spread : Bool}
    {r : Ty × Option Defaults} :
    TypeExpr.read (.call "object" [.object entries] spread) = .ok r ↔
      ∃ as, List.Forall₂ Reads entries as ∧ r = (attributes as).finish := by
  rw [TypeExpr.read, Except.bind_eq_ok]
  constructor
  · rintro ⟨bs, hbs, hr⟩
    cases hr
    obtain ⟨as, has, rfl⟩ := readAttributes_ok hbs
    exact ⟨as, has, rfl⟩
  · rintro ⟨as, has, rfl⟩
    exact ⟨_, readAttributes_of_reads has _, rfl⟩

/-- **An attribute that is named again is replaced only in part.** Without the earlier entry the
object type is read as well, and it is the same up to order exactly if the other entries make up for
the mark, the default and the defaults inside the type of that entry. -/
theorem repeated_attribute_iff {before after : List (Located Expr × Located Expr)}
    {entry : Located Expr × Located Expr} {spread : Bool} {r : Ty × Option Defaults}
    (hread : TypeExpr.read (.call "object" [.object (before ++ entry :: after)] spread) = .ok r)
    (hagain : ∃ later ∈ after, later.1.value.keyName? = entry.1.value.keyName?) :
    ∃ s as a bs, TypeExpr.read (.call "object" [.object (before ++ after)] spread) = .ok s ∧
      List.Forall₂ Reads before as ∧ Reads entry a ∧ List.Forall₂ Reads after bs ∧
      (SameAttributes r s ↔ Superseded as a bs) := by
  obtain ⟨all, hall, rfl⟩ := read_object_eq_ok.1 hread
  obtain ⟨as, rest, has, hrest, rfl⟩ := forall₂_append_left hall
  obtain ⟨a, bs, ha, hbs, rfl⟩ := List.forall₂_cons_left_iff.1 hrest
  have hname : ∃ b ∈ bs, b.name = a.name := by
    obtain ⟨later, hlater, hkey⟩ := hagain
    obtain ⟨b, hb, hreads⟩ := Value.exists_of_forall₂ hbs.flip hlater
    exact ⟨b, hb, Option.some.inj (by rw [← hreads.1, hkey, ha.1])⟩
  have hboth : List.Forall₂ Reads (before ++ after) (as ++ bs) := List.rel_append has hbs
  exact ⟨_, as, a, bs, read_object_eq_ok.2 ⟨_, hboth, rfl⟩, has, ha, hbs, sameAttributes_iff hname⟩

/-- A size as a number, with a default. -/
def sizeNumber : Located Expr × Located Expr :=
  (⟨.variable "size", ⟨9, 13⟩⟩,
    ⟨.call "optional" [.variable "number", .number (.int 80)] false, ⟨16, 36⟩⟩)

/-- A size as a text, with another default. -/
def sizeText : Located Expr × Located Expr :=
  (⟨.text "size", ⟨38, 44⟩⟩,
    ⟨.call "optional" [.variable "string", .text "big"] false, ⟨47, 70⟩⟩)

theorem repeated_attribute_iff_sizes :
    let first : Attribute := ⟨"size", true, .number, some (.number (.int 80)), none⟩
    let second : Attribute := ⟨"size", true, .string, some (.text "big"), none⟩
    TypeExpr.read (.call "object" [.object [sizeNumber, sizeText]] false) =
        .ok (attributes [first, second]).finish ∧
      ∃ s, TypeExpr.read (.call "object" [.object [sizeText]] false) = .ok s ∧
        SameAttributes (attributes [first, second]).finish s := by
  intro first second
  have hfirst : Reads sizeNumber first := ⟨rfl, by with_unfolding_all rfl⟩
  have hsecond : Reads sizeText second := ⟨rfl, by with_unfolding_all rfl⟩
  have hread : TypeExpr.read (.call "object" [.object ([] ++ sizeNumber :: [sizeText])] false) =
      .ok (attributes [first, second]).finish :=
    read_object_eq_ok.2 ⟨_, .cons hfirst (.cons hsecond .nil), rfl⟩
  obtain ⟨s, as, a, bs, hs, has, ha, hbs, hsame⟩ :=
    repeated_attribute_iff hread ⟨sizeText, List.mem_singleton_self _, rfl⟩
  obtain ⟨b, _, hb, -, rfl⟩ := List.forall₂_cons_left_iff.1 hbs
  obtain rfl := ha.unique hfirst
  obtain rfl := hb.unique hsecond
  refine ⟨hread, s, hs, hsame.2 ⟨fun _ => ?_, fun _ _ => ?_, nofun⟩⟩
  · exact ⟨second, List.mem_append_right _ List.mem_cons_self, rfl, rfl⟩
  · exact .inl ⟨second, List.mem_cons_self, rfl, rfl⟩

/-- The mark and the default of the first entry stay, though the second one has neither. -/
theorem repeated_attribute_stays :
    let second : Located Expr × Located Expr :=
      (⟨.text "size", ⟨38, 44⟩⟩, ⟨.variable "string", ⟨47, 53⟩⟩)
    ∃ r s, TypeExpr.read (.call "object" [.object [sizeNumber, second]] false) = .ok r ∧
      TypeExpr.read (.call "object" [.object [second]] false) = .ok s ∧ ¬SameAttributes r s := by
  intro second
  refine ⟨(.object [⟨"size", true, .string⟩], some ⟨.object [⟨"size", true, .string⟩],
      [("size", .number (.int 80))], []⟩), (.object [⟨"size", false, .string⟩], none),
    by with_unfolding_all rfl, by with_unfolding_all rfl, fun h => ?_⟩
  exact absurd h.2.1.length_eq (by decide)

end TypeExpr

end EarlyConfig
