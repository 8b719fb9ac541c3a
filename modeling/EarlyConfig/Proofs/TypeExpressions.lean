import EarlyConfig.TypeExpr
import EarlyConfig.Proofs.Defaults
import Mathlib.Data.List.Induction
import Mathlib.Data.List.Nodup
import Mathlib.Logic.Relation

/-! What type expressions say. `Says` gives the grammar of type expressions with the type and the
defaults that each stands for; an expression that is read says what was read (`says_of_read`). The
types are well formed (`Says.wellFormed`), and unless an object names an attribute twice, the
defaults lie along the type (`Says.along`). -/
namespace EarlyConfig.TypeExpr

open Hcl

/-! ### The grammar -/

/-- What an entry of an object constructor says about its attribute before any of it is read. -/
structure Marked where
  type : Expr
  optional : Bool
  default : Option Expr

/-- An entry without the mark of an optional attribute is a type as it stands. -/
def marked : Expr → Marked
  | .call "optional" [e] _ => ⟨e, true, none⟩
  | .call "optional" [e, default] _ => ⟨e, true, some default⟩
  | e => ⟨e, false, none⟩

/-- An attribute as an entry declares it, given the type and the defaults of that. -/
structure Declares (entry : Located Expr × Located Expr) (a : Attribute) : Prop where
  name : entry.1.value.keyName? = some a.name
  optional : a.optional = (marked entry.2.value).optional
  value : (marked entry.2.value).default.map (defaultValue a.name a.type a.child) = a.value.map .ok

/-- The attributes of an object, taken up one after another. -/
def attributes (as : List Attribute) : Attributes :=
  as.foldl Attributes.add ⟨[], [], []⟩

/-- The defaults of the positions of a tuple, the first of them at this index. -/
def positions (i : Nat) (rs : List (Ty × Option Defaults)) : List (String × Defaults) :=
  (rs.zipIdx i).filterMap fun p => p.1.2.map (Decimal.natText p.2, ·)

def tupleOf (rs : List (Ty × Option Defaults)) : Ty × Option Defaults :=
  (.tuple (rs.map (·.1)), (Defaults.mk (.tuple (rs.map (·.1))) [] (positions 0 rs)).orNone)

/-- The expression is a type expression for the type and the defaults. -/
inductive Says : Expr → Ty × Option Defaults → Prop
  | keyword {name : String} {t : Ty} (h : keyword name = .ok t) : Says (.variable name) (t, none)
  | paren {e : Expr} {r : Ty × Option Defaults} (inner : Says e r) : Says (.paren e) r
  | list {e : Expr} {t : Ty} {d : Option Defaults} {spread : Bool} (element : Says e (t, d)) :
      Says (.call "list" [e] spread) (.list t, ofElement (.list t) d)
  | set {e : Expr} {t : Ty} {d : Option Defaults} {spread : Bool} (element : Says e (t, d)) :
      Says (.call "set" [e] spread) (.set t, ofElement (.set t) d)
  | map {e : Expr} {t : Ty} {d : Option Defaults} {spread : Bool} (element : Says e (t, d)) :
      Says (.call "map" [e] spread) (.map t, ofElement (.map t) d)
  | tuple {items : List (Located Expr)} {rs : List (Ty × Option Defaults)} {spread : Bool}
      (length : items.length = rs.length) (elements : ∀ p ∈ items.zip rs, Says p.1.value p.2) :
      Says (.call "tuple" [.list items] spread) (tupleOf rs)
  | object {entries : List (Located Expr × Located Expr)} {as : List Attribute} {spread : Bool}
      (length : entries.length = as.length) (declared : ∀ p ∈ entries.zip as, Declares p.1 p.2)
      (types : ∀ p ∈ entries.zip as, Says (marked p.1.2.value).type (p.2.type, p.2.child)) :
      Says (.call "object" [.object entries] spread) (attributes as).finish

/-! ### Parts -/

/-- The type expressions directly inside a type expression. -/
def parts : Expr → List Expr
  | .paren e => [e]
  | .call "tuple" [.list items] _ => items.map (·.value)
  | .call "object" [.object entries] _ => entries.map fun entry => (marked entry.2.value).type
  | .call _ [e] _ => [e]
  | _ => []

def Part (e e' : Expr) : Prop :=
  e' ∈ parts e

theorem Part.paren {e : Expr} : Part (.paren e) e := by
  simp [Part, parts]

theorem Part.list {e : Expr} {spread : Bool} : Part (.call "list" [e] spread) e := by
  simp [Part, parts]

theorem Part.set {e : Expr} {spread : Bool} : Part (.call "set" [e] spread) e := by
  simp [Part, parts]

theorem Part.map {e : Expr} {spread : Bool} : Part (.call "map" [e] spread) e := by
  simp [Part, parts]

theorem Part.item {items : List (Located Expr)} {item : Located Expr} {spread : Bool}
    (h : item ∈ items) : Part (.call "tuple" [.list items] spread) item.value :=
  List.mem_map_of_mem h

theorem Part.entry {entries : List (Located Expr × Located Expr)}
    {entry : Located Expr × Located Expr} {spread : Bool} (h : entry ∈ entries) :
    Part (.call "object" [.object entries] spread) (marked entry.2.value).type :=
  List.mem_map.2 ⟨entry, h, rfl⟩

theorem sizeOf_marked (e : Expr) : sizeOf (marked e).type ≤ sizeOf e := by
  unfold marked
  split
  · simp
    omega
  · simp
    omega
  · exact Nat.le_refl _

theorem Part.sizeOf_lt {e e' : Expr} (h : Part e e') : sizeOf e' < sizeOf e := by
  unfold Part parts at h
  split at h
  · rw [List.mem_singleton.1 h]
    simp
  · obtain ⟨⟨value, span⟩, hmem, rfl⟩ := List.mem_map.1 h
    have hsize := List.sizeOf_lt_of_mem hmem
    simp at hsize ⊢
    omega
  · obtain ⟨⟨⟨k, kspan⟩, ⟨value, span⟩⟩, hmem, rfl⟩ := List.mem_map.1 h
    have hsize := List.sizeOf_lt_of_mem hmem
    have hvalue := sizeOf_marked value
    simp at hsize ⊢
    omega
  · rw [List.mem_singleton.1 h]
    simp
    omega
  · cases h

/-- No object constructor inside names an attribute twice, however the names are spelled. -/
def NamesOnce (e : Expr) : Prop :=
  ∀ entries spread, Relation.ReflTransGen Part e (.call "object" [.object entries] spread) →
    (entries.filterMap fun entry => entry.1.value.keyName?).Nodup

theorem NamesOnce.part {e e' : Expr} (h : NamesOnce e) (hp : Part e e') : NamesOnce e' :=
  fun entries spread hin => h entries spread (.head hp hin)

/-- An object constructor counts as well as what is inside. -/
theorem NamesOnce.intro {e : Expr}
    (hown : ∀ entries spread, e = .call "object" [.object entries] spread →
      (entries.filterMap fun entry => entry.1.value.keyName?).Nodup)
    (hparts : ∀ e', Part e e' → NamesOnce e') : NamesOnce e := by
  intro entries spread hin
  rcases Relation.ReflTransGen.cases_head hin with heq | ⟨e', hpart, hin⟩
  · exact hown entries spread heq
  · exact hparts e' hpart entries spread hin

theorem NamesOnce.variable (name : String) : NamesOnce (.variable name) :=
  .intro (fun _ _ h => nomatch h) fun _ hpart => nomatch hpart

theorem NamesOnce.object {entries : List (Located Expr × Located Expr)} {spread : Bool}
    (hown : (entries.filterMap fun entry => entry.1.value.keyName?).Nodup)
    (hentries : ∀ entry ∈ entries, NamesOnce (marked entry.2.value).type) :
    NamesOnce (.call "object" [.object entries] spread) := by
  refine .intro (fun entries' spread' h => ?_) fun e' hpart => ?_
  · cases h
    exact hown
  · obtain ⟨entry, hentry, rfl⟩ := List.mem_map.1 hpart
    exact hentries entry hentry

/-! ### Reading -/

theorem readElements_eq_ok {i : Nat} {items : List (Located Expr)}
    {xs : List (Ty × Option (String × Defaults))} :
    readElements i items = .ok xs ↔
      ∃ rs, List.Forall₂ (fun item r => TypeExpr.read item.value = .ok r) items rs ∧
        xs = (rs.zipIdx i).map fun p => (p.1.1, p.1.2.map (Decimal.natText p.2, ·)) := by
  induction items generalizing i xs with
  | nil => simp [readElements, eq_comm]
  | cons item rest ih =>
    simp only [readElements, Except.bind_eq_ok, Except.pure_eq_ok, ih, List.forall₂_cons_left_iff]
    constructor
    · rintro ⟨⟨t, d⟩, hr, _, ⟨rs, hrs, rfl⟩, rfl⟩
      exact ⟨(t, d) :: rs, ⟨(t, d), rs, hr, hrs, rfl⟩, by simp⟩
    · rintro ⟨_, ⟨⟨t, d⟩, rs, hr, hrs, rfl⟩, rfl⟩
      exact ⟨(t, d), hr, _, ⟨rs, hrs, rfl⟩, by simp⟩

theorem types_zipIdx (i : Nat) (rs : List (Ty × Option Defaults)) :
    ((rs.zipIdx i).map fun p => (p.1.1, p.1.2.map (Decimal.natText p.2, ·))).map (·.1) =
      rs.map (·.1) := by
  have hfst : (rs.zipIdx i).map Prod.fst = rs := List.zipIdx_map_fst i rs
  rw [List.map_map]
  conv_rhs => rw [← hfst, List.map_map]
  rfl

theorem defaults_zipIdx (i : Nat) (rs : List (Ty × Option Defaults)) :
    ((rs.zipIdx i).map fun p => (p.1.1, p.1.2.map (Decimal.natText p.2, ·))).filterMap (·.2) =
      positions i rs := by
  rw [List.filterMap_map]
  rfl

/-- An attribute is read from the type in its entry and, if it has one, the default. -/
theorem readAttribute_ok {name : String} {e : Located Expr} {a : Attribute}
    (h : readAttribute name e = .ok a) :
    a.name = name ∧ TypeExpr.read (marked e.value).type = .ok (a.type, a.child) ∧
      a.optional = (marked e.value).optional ∧
      (marked e.value).default.map (defaultValue a.name a.type a.child) = a.value.map .ok := by
  unfold readAttribute at h
  split at h
  · simp only [Except.bind_eq_ok, Except.pure_eq_ok] at h
    obtain ⟨⟨t, d⟩, hr, rfl⟩ := h
    exact ⟨rfl, hr, rfl, rfl⟩
  · simp only [Except.bind_eq_ok, Except.pure_eq_ok] at h
    obtain ⟨⟨t, d⟩, hr, v, hv, rfl⟩ := h
    exact ⟨rfl, hr, rfl, congrArg some hv⟩
  · cases h
  · rename_i hone htwo _
    simp only [Except.bind_eq_ok, Except.pure_eq_ok] at h
    obtain ⟨⟨t, d⟩, hr, rfl⟩ := h
    rw [marked]
    · exact ⟨rfl, hr, rfl, rfl⟩
    · exact hone
    · exact htwo

/-- The attribute that an entry is read as. -/
def Reads (entry : Located Expr × Located Expr) (a : Attribute) : Prop :=
  entry.1.value.keyName? = some a.name ∧ readAttribute a.name entry.2 = .ok a

theorem readAttributes_of_reads {entries : List (Located Expr × Located Expr)} {as : List Attribute}
    (h : List.Forall₂ Reads entries as) (start : Attributes) :
    readAttributes start entries = .ok (as.foldl Attributes.add start) := by
  induction h generalizing start with
  | nil => rfl
  | @cons entry a entries as hentry _ ih =>
    rw [readAttributes, hentry.1]
    simp only [hentry.2, List.foldl_cons, ← ih]
    rfl

theorem readAttributes_ok {as bs : Attributes} {entries : List (Located Expr × Located Expr)}
    (h : readAttributes as entries = .ok bs) :
    ∃ xs, List.Forall₂ Reads entries xs ∧ bs = xs.foldl Attributes.add as := by
  induction entries generalizing as with
  | nil =>
    rw [readAttributes] at h
    cases h
    exact ⟨[], .nil, rfl⟩
  | cons entry rest ih =>
    rw [readAttributes] at h
    split at h
    · cases h
    · rename_i name hname
      obtain ⟨a, ha, hrest⟩ := Except.bind_eq_ok.1 h
      obtain ⟨xs, hxs, rfl⟩ := ih hrest
      have hown := (readAttribute_ok ha).1
      subst hown
      exact ⟨a :: xs, .cons ⟨hname, ha⟩ hxs, rfl⟩

/-- What is read is what the expression says. The induction is on the size of the expression. -/
theorem says_of_read {e : Expr} {r : Ty × Option Defaults} (h : TypeExpr.read e = .ok r) :
    Says e r := by
  induction hsize : sizeOf e using Nat.strongRecOn generalizing e r with
  | ind n ih =>
    subst hsize
    have inner : ∀ e' r', Part e e' → TypeExpr.read e' = .ok r' → Says e' r' :=
      fun e' r' hp hr => ih _ hp.sizeOf_lt hr rfl
    unfold TypeExpr.read at h
    split at h
    · obtain ⟨t, ht, hr⟩ := Except.bind_eq_ok.1 h
      cases hr
      exact .keyword ht
    · exact .paren (inner _ _ .paren h)
    · obtain ⟨⟨t, d⟩, ht, hr⟩ := Except.bind_eq_ok.1 h
      cases hr
      exact .list (inner _ _ .list ht)
    · obtain ⟨⟨t, d⟩, ht, hr⟩ := Except.bind_eq_ok.1 h
      cases hr
      exact .set (inner _ _ .set ht)
    · obtain ⟨⟨t, d⟩, ht, hr⟩ := Except.bind_eq_ok.1 h
      cases hr
      exact .map (inner _ _ .map ht)
    · obtain ⟨xs, hxs, hr⟩ := Except.bind_eq_ok.1 h
      obtain ⟨rs, hrs, rfl⟩ := readElements_eq_ok.1 hxs
      rw [Except.pure_eq_ok, types_zipIdx, defaults_zipIdx] at hr
      subst hr
      exact .tuple hrs.length_eq fun p hp =>
        inner _ _ (.item (List.of_mem_zip hp).1) (List.forall₂_zip hrs hp)
    · obtain ⟨bs, hbs, hr⟩ := Except.bind_eq_ok.1 h
      cases hr
      obtain ⟨as, has, rfl⟩ := readAttributes_ok hbs
      refine .object has.length_eq (fun p hp => ?_) (fun p hp => ?_)
      · obtain ⟨hname, ha⟩ := List.forall₂_zip has hp
        obtain ⟨-, -, hoptional, hvalue⟩ := readAttribute_ok ha
        exact ⟨hname, hoptional, hvalue⟩
      · obtain ⟨-, ha⟩ := List.forall₂_zip has hp
        exact inner _ _ (.entry (List.of_mem_zip hp).1) (readAttribute_ok ha).2.1
    · cases h
    · cases h

/-! ### Types -/

theorem exists_mem_zip {α β : Type} {xs : List α} {ys : List β} (h : xs.length = ys.length) {y : β}
    (hy : y ∈ ys) : ∃ x, (x, y) ∈ xs.zip ys := by
  rw [← List.map_snd_zip (Nat.le_of_eq h.symm)] at hy
  obtain ⟨⟨x, _⟩, hp, rfl⟩ := List.mem_map.1 hy
  exact ⟨x, hp⟩

theorem names_putField (name : String) (optional : Bool) (type : Ty) (fields : List (Field Ty)) :
    (putField name optional type fields).map (·.name) =
      if name ∈ fields.map (·.name) then fields.map (·.name)
      else fields.map (·.name) ++ [name] := by
  induction fields with
  | nil => simp [putField]
  | cons f rest ih =>
    by_cases h : f.name = name
    · simp [putField, h]
    · have hcons : name ∈ (f :: rest).map (·.name) ↔ name ∈ rest.map (·.name) := by
        simp [Ne.symm h]
      simp only [putField, if_neg h, List.map_cons, ih] at hcons ⊢
      simp only [hcons]
      split <;> rfl

theorem nodup_putField {name : String} {optional : Bool} {type : Ty} {fields : List (Field Ty)}
    (h : (fields.map (·.name)).Nodup) :
    ((putField name optional type fields).map (·.name)).Nodup := by
  rw [names_putField]
  split
  · exact h
  · rename_i hnew
    refine List.nodup_append.2 ⟨h, by simp, fun a ha b hb => ?_⟩
    rw [List.mem_singleton.1 hb]
    exact fun heq => hnew (heq ▸ ha)

theorem mem_putField {name : String} {optional : Bool} {type : Ty} {fields : List (Field Ty)}
    {f : Field Ty} (h : f ∈ putField name optional type fields) : f.type = type ∨ f ∈ fields := by
  induction fields with
  | nil =>
    rw [putField, List.mem_singleton] at h
    exact .inl (by rw [h])
  | cons g rest ih =>
    rw [putField] at h
    split at h
    · rcases List.mem_cons.1 h with rfl | h
      · exact .inl rfl
      · exact .inr (List.mem_cons_of_mem _ h)
    · rcases List.mem_cons.1 h with rfl | h
      · exact .inr (List.mem_cons_self ..)
      · exact (ih h).imp_right (List.mem_cons_of_mem _)

theorem attributes_wellFormed {as : List Attribute} (h : ∀ a ∈ as, a.type.WellFormed) :
    (Ty.object (attributes as).fields).WellFormed := by
  have hstart : (Ty.object []).WellFormed := .object .nil fun _ hf => nomatch hf
  refine List.foldlRecOn as Attributes.add (b := ⟨[], [], []⟩)
    (motive := fun bs => (Ty.object bs.fields).WellFormed) hstart fun bs hbs a ha => ?_
  cases hbs with
  | object names types =>
    refine .object (nodup_putField names) fun f hf => ?_
    rcases mem_putField hf with htype | hf
    · rw [htype]
      exact h a ha
    · exact types f hf

theorem keyword_wellFormed {name : String} {t : Ty} (h : keyword name = .ok t) : t.WellFormed := by
  unfold keyword at h
  split at h <;> cases h <;> constructor

/-- Object types that are read declare no attribute twice, since a name that comes again takes the
place of the first. -/
theorem Says.wellFormed {e : Expr} {r : Ty × Option Defaults} (h : Says e r) : r.1.WellFormed := by
  induction h with
  | keyword h => exact keyword_wellFormed h
  | paren _ ih => exact ih
  | list _ ih => exact .list ih
  | set _ ih => exact .set ih
  | map _ ih => exact .map ih
  | @tuple items rs spread length _ ih =>
    refine .tuple fun t ht => ?_
    obtain ⟨r, hr, rfl⟩ := List.mem_map.1 ht
    obtain ⟨item, hitem⟩ := exists_mem_zip length hr
    exact ih _ hitem
  | @object entries as spread length _ _ ih =>
    refine attributes_wellFormed fun a ha => ?_
    obtain ⟨entry, hentry⟩ := exists_mem_zip length ha
    exact ih _ hentry

/-! ### Defaults -/

open Defaults (Along)

theorem along_orNone {t : Ty} {d : Defaults} (h : Along t (some d)) : Along t d.orNone := by
  unfold Defaults.orNone
  split
  · exact .none
  · exact h

theorem natText_injective {m n : Nat} (h : Decimal.natText m = Decimal.natText n) : m = n := by
  have hdigits := congrArg String.toList h
  rw [Decimal.natText, Decimal.natText, String.toList_ofList, String.toList_ofList] at hdigits
  rw [← Nat.ofDigitChars_ten_toDigits (n := m), hdigits, Nat.ofDigitChars_ten_toDigits]

theorem positions_cons (i : Nat) (r : Ty × Option Defaults) (rs : List (Ty × Option Defaults)) :
    positions i (r :: rs) = (r.2.map (Decimal.natText i, ·)).toList ++ positions (i + 1) rs := by
  unfold positions
  rw [List.zipIdx_cons, List.filterMap_cons]
  cases r.2 <;> rfl

theorem get?_positions_of_lt {i j : Nat} (h : i < j) (rs : List (Ty × Option Defaults)) :
    Entries.get? (Decimal.natText i) (positions j rs) = none := by
  induction rs generalizing j with
  | nil => rfl
  | cons r rs ih =>
    have hne : Decimal.natText j ≠ Decimal.natText i :=
      fun heq => Nat.ne_of_lt h (natText_injective heq).symm
    rw [positions_cons]
    cases r.2 with
    | none => exact ih (Nat.lt_succ_of_lt h)
    | some d =>
      rw [Option.map_some, Option.toList_some, List.singleton_append, Entries.get?, if_neg hne]
      exact ih (Nat.lt_succ_of_lt h)

/-- The defaults of a position are those of its type. -/
theorem get?_positions (i k : Nat) (rs : List (Ty × Option Defaults)) :
    Entries.get? (Decimal.natText (i + k)) (positions i rs) = rs[k]?.bind (·.2) := by
  induction rs generalizing i k with
  | nil => rfl
  | cons r rs ih =>
    rw [positions_cons]
    cases k with
    | zero =>
      cases hd : r.2 with
      | none => simpa [hd] using get?_positions_of_lt (Nat.lt_succ_self i) rs
      | some d => simp [Entries.get?, hd]
    | succ k =>
      have hrest := ih (i + 1) k
      rw [Nat.add_assoc, Nat.add_comm 1 k] at hrest
      cases r.2 with
      | none => exact hrest
      | some d =>
        have hne : Decimal.natText i ≠ Decimal.natText (i + (k + 1)) := fun heq => by
          have := natText_injective heq
          omega
        rw [Option.map_some, Option.toList_some, List.singleton_append, Entries.get?, if_neg hne]
        exact hrest

/-! ### Attributes side by side -/

theorem putField_of_new {name : String} {optional : Bool} {type : Ty} {fields : List (Field Ty)}
    (h : name ∉ fields.map (·.name)) :
    putField name optional type fields = fields ++ [⟨name, optional, type⟩] := by
  induction fields with
  | nil => rfl
  | cons f rest ih =>
    rw [List.map_cons, List.mem_cons, not_or] at h
    rw [putField, if_neg (Ne.symm h.1), ih h.2]
    rfl

def Attribute.field (a : Attribute) : Field Ty :=
  ⟨a.name, a.optional, a.type⟩

/-- What the attributes have of one kind, by name. -/
def given {α : Type} (part : Attribute → Option α) (as : List Attribute) : List (String × α) :=
  as.filterMap fun a => (part a).map (a.name, ·)

section

variable {α : Type} {part : Attribute → Option α}

theorem given_append (as bs : List Attribute) :
    given part (as ++ bs) = given part as ++ given part bs :=
  List.filterMap_append

theorem given_singleton (a : Attribute) :
    given part [a] = ((part a).map (a.name, ·)).toList := by
  unfold given
  rw [List.filterMap_cons, List.filterMap_nil]
  cases part a <;> rfl

theorem mem_given {as : List Attribute} {k : String} {x : α} :
    (k, x) ∈ given part as ↔ ∃ a ∈ as, a.name = k ∧ part a = some x := by
  simp only [given, List.mem_filterMap, Option.map_eq_some_iff, Prod.mk.injEq]
  grind

theorem given_eq_nil {as : List Attribute} : given part as = [] ↔ ∀ a ∈ as, part a = none := by
  simp [given, List.filterMap_eq_nil_iff]

theorem keys_given_sublist (as : List Attribute) :
    (Entries.keys (given part as)).Sublist (as.map (·.name)) := by
  induction as with
  | nil => exact .slnil
  | cons a rest ih =>
    rw [given, List.filterMap_cons]
    cases part a with
    | none => exact ih.cons _
    | some x => exact ih.cons_cons _

theorem get?_given {as : List Attribute} (h : (as.map (·.name)).Nodup) {a : Attribute}
    (ha : a ∈ as) : Entries.get? a.name (given part as) = part a := by
  cases hx : part a with
  | some x =>
    have hkeys : (Entries.keys (given part as)).Nodup := h.sublist (keys_given_sublist as)
    exact Entries.get?_of_mem hkeys (mem_given.2 ⟨a, ha, rfl, hx⟩)
  | none =>
    refine Entries.get?_eq_none.2 fun hkey => ?_
    obtain ⟨⟨k, x⟩, hmem, hk⟩ := List.mem_map.1 hkey
    obtain ⟨b, hb, hname, hbx⟩ := mem_given.1 hmem
    have hba : b = a := List.inj_on_of_nodup_map h hb ha (hname.trans hk)
    rw [hba, hx] at hbx
    cases hbx

end

/-- Attributes of different names stand beside each other as they were declared. -/
theorem attributes_eq {as : List Attribute} (h : (as.map (·.name)).Nodup) :
    attributes as = ⟨as.map (·.field), given (·.value) as, given (·.child) as⟩ := by
  induction as using List.reverseRecOn with
  | nil => rfl
  | append_singleton as a ih =>
    rw [List.map_append, List.nodup_append] at h
    obtain ⟨hfront, -, hdistinct⟩ := h
    have hnew : a.name ∉ as.map (·.name) := fun hmem =>
      hdistinct _ hmem _ (List.mem_singleton_self _) rfl
    have hfields : a.name ∉ (as.map (·.field)).map (·.name) := by
      rwa [List.map_map]
    have hvalues : a.name ∉ Entries.keys (given (·.value) as) := fun hk =>
      hnew ((keys_given_sublist as).subset hk)
    have hchildren : a.name ∉ Entries.keys (given (·.child) as) := fun hk =>
      hnew ((keys_given_sublist as).subset hk)
    have hstep : attributes (as ++ [a]) = (attributes as).add a := List.foldl_concat ..
    rw [hstep, ih hfront, given_append, given_append, given_singleton, given_singleton,
      List.map_append, Attributes.add]
    congr 1
    · exact putField_of_new hfields
    · cases a.value with
      | none => exact (List.append_nil _).symm
      | some v => exact Entries.put_of_new v hvalues
    · cases a.child with
      | none => exact (List.append_nil _).symm
      | some d => exact Entries.put_of_new d hchildren

theorem names_of_declares {entries : List (Located Expr × Located Expr)} {as : List Attribute}
    (h : List.Forall₂ Declares entries as) :
    entries.filterMap (fun entry => entry.1.value.keyName?) = as.map (·.name) := by
  induction h with
  | nil => rfl
  | cons hd _ ih => rw [List.filterMap_cons, hd.name, List.map_cons, ih]

theorem names_nodup {entries : List (Located Expr × Located Expr)} {as : List Attribute}
    {spread : Bool} (length : entries.length = as.length)
    (declared : ∀ p ∈ entries.zip as, Declares p.1 p.2)
    (hnames : NamesOnce (.call "object" [.object entries] spread)) :
    (as.map (·.name)).Nodup := by
  have hdeclared := List.forall₂_iff_zip.2 ⟨length, fun {entry a} => declared (entry, a)⟩
  rw [← names_of_declares hdeclared]
  exact hnames entries spread .refl

/-- Unless an object names an attribute twice, the defaults of a type expression lie along its
type. -/
theorem Says.along {e : Expr} {r : Ty × Option Defaults} (h : Says e r) (hnames : NamesOnce e) :
    Along r.1 r.2 := by
  induction h with
  | keyword _ => exact .none
  | paren _ ih => exact ih (hnames.part .paren)
  | @list e t d _ _ ih =>
    have hd := ih (hnames.part .list)
    cases d with
    | none => exact .none
    | some c => exact .list hd
  | @set e t d _ _ ih =>
    have hd := ih (hnames.part .set)
    cases d with
    | none => exact .none
    | some c => exact .set hd
  | @map e t d _ _ ih =>
    have hd := ih (hnames.part .map)
    cases d with
    | none => exact .none
    | some c => exact .map hd
  | @tuple items rs spread length _ ih =>
    refine along_orNone (.tuple fun i t ht => ?_)
    rw [List.getElem?_map] at ht
    obtain ⟨r, hr, rfl⟩ := Option.map_eq_some_iff.1 ht
    have hget := get?_positions 0 i rs
    rw [Nat.zero_add, hr] at hget
    rw [hget]
    obtain ⟨item, hitem⟩ := exists_mem_zip length (List.mem_of_getElem? hr)
    exact ih _ hitem (hnames.part (.item (List.of_mem_zip hitem).1))
  | @object entries as spread length declared _ ih =>
    have honce := names_nodup length declared hnames
    rw [attributes_eq honce]
    refine along_orNone (.object (fun k hk => ?_) fun f hf => ?_)
    · rw [List.map_map]
      exact (keys_given_sublist as).subset hk
    · obtain ⟨a, ha, rfl⟩ := List.mem_map.1 hf
      obtain ⟨entry, hentry⟩ := exists_mem_zip length ha
      have hchild : Along a.type a.child :=
        ih _ hentry (hnames.part (.entry (List.of_mem_zip hentry).1))
      rwa [Attribute.field, get?_given honce ha]

end EarlyConfig.TypeExpr
