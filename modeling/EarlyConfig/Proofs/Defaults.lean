import EarlyConfig.Defaults
import EarlyConfig.Proofs.Conformance

/-! What filling in defaults does to values that were converted to the type of the defaults.
Defaults lie along a type (`Along`) when every level of them is about the type at its place.
Filling in and then converting gives a value that filling in leaves alone (`Along.stable`), and a
value that it leaves alone has every default that says something, at every depth
(`complete_of_stable`). -/
namespace EarlyConfig

/-! ### Entries -/

namespace Entries

variable {κ α : Type} [DecidableEq κ]

/-- Putting what is there already changes nothing. -/
theorem put_of_get? {k : κ} {a : α} {es : List (κ × α)} (h : get? k es = some a) :
    put k a es = es := by
  induction es with
  | nil => cases h
  | cons e rest ih =>
    obtain ⟨k', b⟩ := e
    by_cases hk : k' = k
    · rw [get?, if_pos hk] at h
      cases h
      rw [put, if_pos hk]
    · rw [get?, if_neg hk] at h
      rw [put, if_neg hk, ih h]

end Entries

theorem Value.isNull_iff {v : Value} : v.isNull = true ↔ v = .null := by
  cases v <;> simp [isNull]

namespace Defaults

/-- Induction over defaults: a property of a level may assume it of all its children. -/
@[elab_as_elim]
theorem induction {motive : Defaults → Prop}
    (step : ∀ type values children, (∀ e ∈ children, motive e.2) → motive ⟨type, values, children⟩)
    (d : Defaults) : motive d := by
  refine @Defaults.rec motive (fun ds => ∀ e ∈ ds, motive e.2) (fun e => motive e.2) step ?_ ?_ ?_ d
  · exact fun e h => nomatch h
  · exact fun e ds he hds => List.forall_mem_cons.2 ⟨he, hds⟩
  · exact fun name d h => h

/-! ### Filling in one level -/

theorem get?_applyAll (k : String) (children : List (String × Defaults)) :
    Entries.get? k (applyAll children) = (Entries.get? k children).map apply := by
  induction children with
  | nil => simp [applyAll, Entries.get?]
  | cons c rest ih =>
    obtain ⟨k', d⟩ := c
    by_cases h : k' = k
    · simp [applyAll, Entries.get?, h]
    · simp [applyAll, Entries.get?, h, ih]

theorem childAt_applyAll (children : List (String × Defaults)) (k : String) (v : Value) :
    childAt (applyAll children) k v = applyTo (Entries.get? k children) v := by
  rw [childAt, get?_applyAll]
  cases Entries.get? k children <;> rfl

theorem apply_eq_fill (d : Defaults) (v : Value) :
    d.apply v = fill d.type d.values (applyAll d.children) v := by
  cases d
  rw [apply]

theorem applyTo_null (d : Option Defaults) : applyTo d .null = .null := by
  cases d with
  | none => rfl
  | some d =>
    rw [applyTo, apply_eq_fill]
    rfl

theorem elements?_apply (d : Defaults) (v : Value) :
    (d.apply v).elements? = v.elements?.map (fillElements d.type (applyAll d.children)) := by
  rw [apply_eq_fill]
  cases v <;> rfl

theorem entries?_apply (d : Defaults) (v : Value) :
    (d.apply v).entries? = v.entries?.map (fillEntries d.type d.values (applyAll d.children)) := by
  rw [apply_eq_fill]
  cases v <;> rfl

theorem isNull_applyTo (d : Option Defaults) (v : Value) : (applyTo d v).isNull = v.isNull := by
  cases d with
  | none => rfl
  | some d =>
    rw [applyTo, apply_eq_fill]
    cases v <;> rfl

theorem eq_null_of_applyTo {d : Option Defaults} {v : Value} (h : applyTo d v = .null) :
    v = .null := by
  rw [← Value.isNull_iff, ← isNull_applyTo d v, h]
  rfl

theorem isGiven_apply (d : Defaults) (v : Value) : (d.apply v).isGiven = v.isGiven := by
  rw [apply_eq_fill]
  cases v <;> rfl

/-! ### Missing attributes -/

/-- One default, put where nothing but null stands. -/
def putMissing (es : List (String × Value)) (d : String × Value) : List (String × Value) :=
  if ((Entries.get? d.1 es).getD .null).isNull then Entries.put d.1 d.2 es else es

theorem fillMissing_eq_foldl (values es : List (String × Value)) :
    fillMissing values es = values.foldl putMissing es := rfl

theorem get?_putMissing_of_present {es : List (String × Value)} {k : String} {v : Value}
    (h : Entries.get? k es = some v) (hv : v.isNull = false) (d : String × Value) :
    Entries.get? k (putMissing es d) = some v := by
  unfold putMissing
  split
  · rename_i hmissing
    have hne : d.1 ≠ k := by
      rintro rfl
      simp [h, hv] at hmissing
    rw [Entries.get?_put, if_neg hne, h]
  · exact h

theorem get?_fillMissing_of_present {es : List (String × Value)} {k : String} {v : Value}
    (h : Entries.get? k es = some v) (hv : v.isNull = false) (values : List (String × Value)) :
    Entries.get? k (fillMissing values es) = some v :=
  List.foldlRecOn values putMissing (motive := fun es => Entries.get? k es = some v) h
    fun _ h d _ => get?_putMissing_of_present h hv d

theorem present_putMissing (es : List (String × Value)) {d : String × Value}
    (hd : d.2.isNull = false) :
    ∃ v, Entries.get? d.1 (putMissing es d) = some v ∧ v.isNull = false := by
  unfold putMissing
  split
  · exact ⟨d.2, by simp, hd⟩
  · rename_i hpresent
    cases hv : Entries.get? d.1 es with
    | none => simp [hv, Value.isNull] at hpresent
    | some v => exact ⟨v, rfl, by simpa [hv] using hpresent⟩

/-- After filling in, an attribute with a default that says something is there. -/
theorem present_fillMissing {values : List (String × Value)} {d : String × Value}
    (hmem : d ∈ values) (hd : d.2.isNull = false) (es : List (String × Value)) :
    ∃ v, Entries.get? d.1 (fillMissing values es) = some v ∧ v.isNull = false := by
  obtain ⟨before, after, rfl⟩ := List.append_of_mem hmem
  rw [fillMissing_eq_foldl, List.foldl_append, List.foldl_cons]
  obtain ⟨v, hv, hnull⟩ := present_putMissing (before.foldl putMissing es) hd
  exact ⟨v, get?_fillMissing_of_present hv hnull after, hnull⟩

/-- Nothing is put where every attribute with a default is there, unless the default is null too. -/
theorem fillMissing_eq_self {values es : List (String × Value)}
    (h : ∀ d ∈ values, ∃ v, Entries.get? d.1 es = some v ∧ (v = .null → d.2 = .null)) :
    fillMissing values es = es := by
  refine List.foldlRecOn values putMissing (motive := (· = es)) rfl fun es' hes d hd => ?_
  subst hes
  obtain ⟨v, hv, hnull⟩ := h d hd
  unfold putMissing
  split
  · rename_i hmissing
    have hv' : v = .null := by
      rw [hv] at hmissing
      exact Value.isNull_iff.1 hmissing
    rw [hnull hv', Entries.put_of_get? (hv' ▸ hv)]
  · rfl

/-! ### Defaults along a type -/

/-- Each level of the defaults is about the type at its place: the children of a collection are
about its elements, those of a tuple about its positions and those of an object about its declared
attributes, and only declared attributes have default values. -/
inductive Along : Ty → Option Defaults → Prop
  | none {t : Ty} : Along t none
  | list {t : Ty} {values : List (String × Value)} {children : List (String × Defaults)}
      (element : Along t (Entries.get? "" children)) :
      Along (.list t) (some ⟨.list t, values, children⟩)
  | set {t : Ty} {values : List (String × Value)} {children : List (String × Defaults)}
      (element : Along t (Entries.get? "" children)) :
      Along (.set t) (some ⟨.set t, values, children⟩)
  | map {t : Ty} {values : List (String × Value)} {children : List (String × Defaults)}
      (element : Along t (Entries.get? "" children)) :
      Along (.map t) (some ⟨.map t, values, children⟩)
  | tuple {ts : List Ty} {values : List (String × Value)} {children : List (String × Defaults)}
      (elements : ∀ i t, ts[i]? = some t → Along t (Entries.get? (Decimal.natText i) children)) :
      Along (.tuple ts) (some ⟨.tuple ts, values, children⟩)
  | object {fields : List (Field Ty)} {values : List (String × Value)}
      {children : List (String × Defaults)}
      (names : ∀ k ∈ Entries.keys values, k ∈ fields.map (·.name))
      (attributes : ∀ f ∈ fields, Along f.type (Entries.get? f.name children)) :
      Along (.object fields) (some ⟨.object fields, values, children⟩)

/-! ### Stability -/

theorem apply_unknown (d : Defaults) (s : Ty) : d.apply (.unknown s) = .unknown s := by
  rw [apply_eq_fill]
  rfl

/-- Null and unknown values stay as they are, so only the others need a look. -/
theorem stable_of_given {t : Ty} {d : Defaults}
    (h : ∀ v w, v.isGiven = true → (d.apply v).convert t = .ok w → d.apply w = w) (v w : Value)
    (hw : (d.apply v).convert t = .ok w) : d.apply w = w := by
  rcases v.null_or_unknown_or_given with rfl | ⟨s, rfl⟩ | hv
  · have hnull : d.apply .null = .null := applyTo_null (some d)
    rw [hnull, Value.convert_null] at hw
    cases hw
    exact hnull
  · rw [apply_unknown, Value.convert_unknown] at hw
    cases hw
    exact apply_unknown d t
  · exact h v w hv hw

/-- A collection that was filled in element by element has elements that stay. -/
theorem childAt_of_mem {t : Ty} {children : List (String × Defaults)} {k : String}
    (ih : ∀ v w, (applyTo (Entries.get? k children) v).convert t = .ok w →
      applyTo (Entries.get? k children) w = w)
    {vs ws : List Value}
    (h : List.Forall₂ (fun u w => Value.convert t u = .ok w)
      (vs.map (childAt (applyAll children) k)) ws) :
    ∀ w ∈ ws, childAt (applyAll children) k w = w := by
  intro w hw
  obtain ⟨v, -, hv⟩ := Value.exists_of_forall₂ (List.forall₂_map_left_iff.1 h) hw
  rw [childAt_applyAll] at hv ⊢
  exact ih v w hv

theorem map_eq_self {α : Type} {f : α → α} {xs : List α} :
    xs.map f = xs ↔ ∀ x ∈ xs, f x = x := by
  conv_lhs => rw [← List.map_id' xs, List.map_map, List.map_inj_left]
  rfl

/-- An attribute after filling in: what stands there or its default, with the attribute's child
applied. -/
theorem get?_fillEntries (fields : List (Field Ty)) (values : List (String × Value))
    (children : List (String × Defaults)) (es : List (String × Value)) (k : String) :
    Entries.get? k (fillEntries (.object fields) values (applyAll children) es) =
      (Entries.get? k (fillMissing values es)).map (applyTo (Entries.get? k children)) := by
  rw [fillEntries, Entries.get?_mapValues (childAt (applyAll children))]
  exact congrArg (Option.map · _) (funext (childAt_applyAll children k))

/-- What an object gives for an attribute after filling in: something that the attribute's child
was applied to, and null only if no default says otherwise. -/
theorem given?_fillEntries {fields : List (Field Ty)} {values : List (String × Value)}
    {children : List (String × Defaults)} {es : List (String × Value)} {f : Field Ty} {u : Value}
    (h : Value.given? f (fillEntries (.object fields) values (applyAll children) es) = some u) :
    ∃ v, u = applyTo (Entries.get? f.name children) v ∧
      (v = .null → ∀ d ∈ values, d.1 = f.name → d.2 = .null) := by
  have hdefault : ∀ v, (Entries.get? f.name (fillMissing values es)).getD .null = v → v = .null →
      ∀ d ∈ values, d.1 = f.name → d.2 = .null := by
    rintro _ rfl hnull d hd hname
    by_contra habsent
    rw [← Value.isNull_iff, Bool.not_eq_true] at habsent
    obtain ⟨v, hv, hv'⟩ := present_fillMissing hd habsent es
    rw [hname] at hv
    rw [hv] at hnull
    cases hnull
    cases hv'
  rw [Value.given?, get?_fillEntries] at h
  cases hv : Entries.get? f.name (fillMissing values es) with
  | some v =>
    rw [hv] at h
    cases h
    exact ⟨v, rfl, hdefault v (by rw [hv]; rfl)⟩
  | none =>
    refine ⟨.null, ?_, hdefault .null (by rw [hv]; rfl)⟩
    rw [hv, Option.map_none, Option.none_or] at h
    rw [applyTo_null]
    split at h
    · exact (Option.some.inj h).symm
    · cases h

theorem Along.stable {t : Ty} {d : Option Defaults} (h : Along t d) :
    ∀ v w, (applyTo d v).convert t = .ok w → applyTo d w = w := by
  induction h with
  | none => exact fun _ _ _ => rfl
  | @list t values children _ ih =>
    refine stable_of_given fun v w hv h => ?_
    obtain ⟨us, ws, hus, hws, rfl⟩ := (Value.convert_list_eq_ok (by rwa [isGiven_apply])).1 h
    rw [elements?_apply] at hus
    obtain ⟨vs, -, rfl⟩ := Option.map_eq_some_iff.1 hus
    rw [apply_eq_fill]
    exact congrArg Value.list (map_eq_self.2 (childAt_of_mem ih hws))
  | @set t values children _ ih =>
    refine stable_of_given fun v w hv h => ?_
    obtain ⟨us, ws, hus, hws, rfl⟩ := (Value.convert_set_eq_ok (by rwa [isGiven_apply])).1 h
    rw [elements?_apply] at hus
    obtain ⟨vs, -, rfl⟩ := Option.map_eq_some_iff.1 hus
    rw [apply_eq_fill]
    have hstay := childAt_of_mem ih hws
    exact congrArg Value.set (map_eq_self.2 fun w hw => hstay w (Value.mem_distinct hw))
  | @map t values children _ ih =>
    refine stable_of_given fun v w hv h => ?_
    obtain ⟨us, fs, hus, hfs, rfl⟩ := (Value.convert_map_eq_ok (by rwa [isGiven_apply])).1 h
    rw [entries?_apply] at hus
    obtain ⟨es, -, rfl⟩ := Option.map_eq_some_iff.1 hus
    rw [apply_eq_fill]
    refine congrArg Value.map (map_eq_self.2 fun e he => ?_)
    obtain ⟨d, -, -, hd⟩ := Value.exists_of_forall₂ (List.forall₂_map_left_iff.1 hfs) he
    rw [childAt_applyAll] at hd ⊢
    rw [ih d.2 e.2 hd]
  | @tuple ts values children _ ih =>
    refine stable_of_given fun v w hv h => ?_
    obtain ⟨us, ws, hus, -, hws, rfl⟩ := (Value.convert_tuple_eq_ok (by rwa [isGiven_apply])).1 h
    rw [elements?_apply] at hus
    obtain ⟨vs, -, rfl⟩ := Option.map_eq_some_iff.1 hus
    rw [apply_eq_fill]
    refine congrArg Value.tuple (List.ext_getElem? fun i => ?_)
    rw [fillElements, List.getElem?_mapIdx]
    cases hw : ws[i]? with
    | none => rfl
    | some w =>
      obtain ⟨⟨t, u⟩, hp, htu⟩ := Value.getElem?_of_forall₂ hws hw
      obtain ⟨ht, hu⟩ := List.getElem?_zip_eq_some.1 hp
      rw [fillElements, List.getElem?_mapIdx] at hu
      obtain ⟨v, -, rfl⟩ := Option.map_eq_some_iff.1 hu
      rw [childAt_applyAll] at htu
      rw [Option.map_some, childAt_applyAll, ih i t ht v w htu]
  | @object fields values children names _ ih =>
    refine stable_of_given fun v w hv h => ?_
    obtain ⟨us, fs, hus, hfs, rfl⟩ := (Value.convert_object_eq_ok (by rwa [isGiven_apply])).1 h
    rw [entries?_apply] at hus
    obtain ⟨es, -, rfl⟩ := Option.map_eq_some_iff.1 hus
    rw [apply_eq_fill]
    refine congrArg Value.object ?_
    have hkeys := Value.names_eq_keys.2 (hfs.imp fun f e h => h.1)
    -- Every attribute of the result comes from its declared type, child and default.
    have hattr : ∀ e ∈ fs, applyTo (Entries.get? e.1 children) e.2 = e.2 ∧
        (e.2 = .null → ∀ d ∈ values, d.1 = e.1 → d.2 = .null) := by
      intro e he
      obtain ⟨f, hf, hname, u, hu, hconv⟩ := Value.exists_of_forall₂ hfs he
      obtain ⟨v, rfl, hdefault⟩ := given?_fillEntries hu
      rw [hname]
      refine ⟨ih f hf v e.2 hconv, fun hnull => hdefault ?_⟩
      exact eq_null_of_applyTo (Value.eq_null_of_convert (hnull ▸ hconv))
    have hfill : fillMissing values fs = fs := by
      refine fillMissing_eq_self fun d hd => ?_
      have hmem : d.1 ∈ Entries.keys fs := hkeys ▸ names d.1 (List.mem_map.2 ⟨d, hd, rfl⟩)
      obtain ⟨x, hx⟩ := Entries.mem_keys.1 hmem
      exact ⟨x, hx, fun hnull => (hattr (d.1, x) (Entries.mem_of_get? hx)).2 hnull d hd rfl⟩
    rw [fillEntries, hfill]
    refine map_eq_self.2 fun e he => ?_
    rw [childAt_applyAll, (hattr e he).1]

/-! ### Completeness -/

/-- The levels of defaults and value that meet: from a collection to its elements, from a tuple to
its positions, and from an object to its attributes. -/
inductive Reaches : Defaults → Value → Defaults → Value → Prop
  | here {d : Defaults} {v : Value} : Reaches d v d v
  | element {d c d' : Defaults} {v x v' : Value} {t : Ty} {vs : List Value}
      (type : d.type = .list t ∨ d.type = .set t) (elements : v.elements? = some vs) (mem : x ∈ vs)
      (child : Entries.get? "" d.children = some c) (inner : Reaches c x d' v') :
      Reaches d v d' v'
  | position {d c d' : Defaults} {v x v' : Value} {ts : List Ty} {vs : List Value} {i : Nat}
      (type : d.type = .tuple ts) (elements : v.elements? = some vs) (mem : vs[i]? = some x)
      (child : Entries.get? (Decimal.natText i) d.children = some c) (inner : Reaches c x d' v') :
      Reaches d v d' v'
  | entry {d c d' : Defaults} {v x v' : Value} {t : Ty} {es : List (String × Value)} {k : String}
      (type : d.type = .map t) (entries : v.entries? = some es) (mem : (k, x) ∈ es)
      (child : Entries.get? "" d.children = some c) (inner : Reaches c x d' v') :
      Reaches d v d' v'
  | field {d c d' : Defaults} {v x v' : Value} {fields : List (Field Ty)}
      {es : List (String × Value)} {k : String} (type : d.type = .object fields)
      (entries : v.entries? = some es) (mem : Entries.get? k es = some x)
      (child : Entries.get? k d.children = some c) (inner : Reaches c x d' v') :
      Reaches d v d' v'

/-- At every level that is reached, each attribute with a default other than null is there and is
not null. -/
def Complete (d : Defaults) (v : Value) : Prop :=
  ∀ d' v' fields es, Reaches d v d' v' → d'.type = .object fields → v'.entries? = some es →
    ∀ k x, (k, x) ∈ d'.values → x ≠ .null → ∃ y, Entries.get? k es = some y ∧ y ≠ .null

theorem fillElements_of_stable {d : Defaults} {v : Value} {vs : List Value} (h : d.apply v = v)
    (hvs : v.elements? = some vs) : fillElements d.type (applyAll d.children) vs = vs := by
  have := elements?_apply d v
  rw [h, hvs] at this
  exact (Option.some.inj this).symm

theorem fillEntries_of_stable {d : Defaults} {v : Value} {es : List (String × Value)}
    (h : d.apply v = v) (hes : v.entries? = some es) :
    fillEntries d.type d.values (applyAll d.children) es = es := by
  have := entries?_apply d v
  rw [h, hes] at this
  exact (Option.some.inj this).symm

theorem apply_of_childAt {children : List (String × Defaults)} {k : String} {c : Defaults}
    {x : Value} (hc : Entries.get? k children = some c)
    (h : childAt (applyAll children) k x = x) : c.apply x = x := by
  rwa [childAt_applyAll, hc] at h

theorem apply_attribute_of_stable {d c : Defaults} {v x : Value} {fields : List (Field Ty)}
    {es : List (String × Value)} {k : String} (h : d.apply v = v) (htype : d.type = .object fields)
    (hes : v.entries? = some es) (hx : Entries.get? k es = some x)
    (hc : Entries.get? k d.children = some c) : c.apply x = x := by
  by_cases hnull : x = .null
  · rw [hnull]
    exact applyTo_null (some c)
  · rw [← Value.isNull_iff, Bool.not_eq_true] at hnull
    have hget := get?_fillEntries fields d.values d.children es k
    rw [← htype, fillEntries_of_stable h hes, get?_fillMissing_of_present hx hnull, hx, hc] at hget
    exact (Option.some.inj hget).symm

/-- Filling in leaves a value alone only if it leaves alone all that is reached in it. -/
theorem Reaches.stable {d d' : Defaults} {v v' : Value} (h : Reaches d v d' v')
    (hv : d.apply v = v) : d'.apply v' = v' := by
  induction h with
  | here => exact hv
  | element type elements mem child _ ih =>
    have hfill := fillElements_of_stable hv elements
    refine ih (apply_of_childAt child ?_)
    rcases type with type | type <;> rw [type] at hfill <;> exact map_eq_self.1 hfill _ mem
  | @position d _ _ _ _ _ _ vs i type elements mem child _ ih =>
    have hfill := fillElements_of_stable hv elements
    rw [type] at hfill
    have hi : (vs.mapIdx fun i v => childAt (applyAll d.children) (Decimal.natText i) v)[i]? =
        vs[i]? := congrArg (·[i]?) hfill
    rw [List.getElem?_mapIdx, mem] at hi
    exact ih (apply_of_childAt child (Option.some.inj hi))
  | entry type entries mem child _ ih =>
    have hfill := fillEntries_of_stable hv entries
    rw [type] at hfill
    have hentry := map_eq_self.1 hfill _ mem
    exact ih (apply_of_childAt child (congrArg Prod.snd hentry))
  | field type entries mem child _ ih =>
    exact ih (apply_attribute_of_stable hv type entries mem child)

theorem complete_of_stable {d : Defaults} {v : Value} (h : d.apply v = v) : d.Complete v := by
  intro d' v' fields es hreach htype hes k x hx hne
  rw [ne_eq, ← Value.isNull_iff, Bool.not_eq_true] at hne
  obtain ⟨y, hy, hnull⟩ := present_fillMissing hx hne es
  have hget := get?_fillEntries fields d'.values d'.children es k
  rw [← htype, fillEntries_of_stable (hreach.stable h) hes, hy] at hget
  refine ⟨_, hget, fun hz => ?_⟩
  rw [eq_null_of_applyTo hz] at hnull
  cases hnull

end Defaults

end EarlyConfig
