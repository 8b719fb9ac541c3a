import EarlyConfig.Proofs.Defaults

/-! Filling in defaults, whatever the defaults and the value are. Neither has to come from a type
expression, and they need not fit each other. Filling in a second time does nothing (`apply_apply`),
since a level that was filled in lacks nothing that it could be given (`fillMissing_stays`). And it
is conservative: the value stays of its kind, a sequence keeps its length, and the entries that are
there stay where they are, with nothing but null replaced (`Filled`). -/
namespace EarlyConfig

namespace Entries

variable {κ α : Type} [DecidableEq κ]

/-- Putting changes no entry but the one that its key looks up. -/
theorem getElem?_put (k : κ) (a : α) {es : List (κ × α)} {i : Nat} {k' : κ} {b : α}
    (h : es[i]? = some (k', b)) :
    (put k a es)[i]? = some (k', b) ∨
      k' = k ∧ get? k es = some b ∧ (put k a es)[i]? = some (k', a) := by
  induction es generalizing i with
  | nil => cases h
  | cons e rest ih =>
    obtain ⟨k₀, c⟩ := e
    by_cases hk : k₀ = k
    · rw [put, if_pos hk, get?, if_pos hk]
      cases i with
      | zero =>
        cases h
        exact .inr ⟨hk, rfl, rfl⟩
      | succ i => exact .inl h
    · rw [put, if_neg hk, get?, if_neg hk]
      cases i with
      | zero => exact .inl h
      | succ i => exact ih h

end Entries

namespace Defaults

/-! ### Missing attributes -/

theorem keys_putMissing (es : List (String × Value)) (d : String × Value) :
    Entries.keys (putMissing es d) =
      if d.1 ∈ Entries.keys es then Entries.keys es else Entries.keys es ++ [d.1] := by
  unfold putMissing
  split
  · exact Entries.keys_put ..
  · rename_i hpresent
    have hmem : d.1 ∈ Entries.keys es := by
      apply Decidable.by_contra
      intro habsent
      rw [Entries.get?_eq_none.2 habsent] at hpresent
      exact hpresent rfl
    rw [if_pos hmem]

theorem mem_keys_putMissing {es : List (String × Value)} {d : String × Value} {k : String} :
    k ∈ Entries.keys (putMissing es d) ↔ k ∈ Entries.keys es ∨ k = d.1 := by
  rw [keys_putMissing]
  split <;> simp_all

/-- The keys that are there stay in front, in their order. -/
theorem keys_prefix_fillMissing (values es : List (String × Value)) :
    Entries.keys es <+: Entries.keys (fillMissing values es) := by
  apply List.foldlRecOn values putMissing (motive := fun fs => Entries.keys es <+: Entries.keys fs)
  · exact List.prefix_rfl
  · intro fs hfs d _
    rw [keys_putMissing]
    split
    · exact hfs
    · exact hfs.trans (List.prefix_append ..)

/-- Every attribute with a default is there afterwards, if only as null. -/
theorem mem_keys_fillMissing {values : List (String × Value)} {d : String × Value}
    (hd : d ∈ values) (es : List (String × Value)) :
    d.1 ∈ Entries.keys (fillMissing values es) := by
  obtain ⟨before, after, rfl⟩ := List.append_of_mem hd
  rw [fillMissing_eq_foldl, List.foldl_append, List.foldl_cons]
  have hput : d.1 ∈ Entries.keys (putMissing (before.foldl putMissing es) d) :=
    mem_keys_putMissing.2 (.inr rfl)
  exact (keys_prefix_fillMissing after _).subset hput

theorem of_mem_keys_fillMissing {values es : List (String × Value)} {k : String}
    (h : k ∈ Entries.keys (fillMissing values es)) :
    k ∈ Entries.keys es ∨ k ∈ Entries.keys values := by
  revert h
  apply List.foldlRecOn values putMissing (motive := fun fs =>
    k ∈ Entries.keys fs → k ∈ Entries.keys es ∨ k ∈ Entries.keys values)
  · exact .inl
  · intro fs hfs d hd hk
    rcases mem_keys_putMissing.1 hk with hk | hk
    · exact hfs hk
    · exact .inr (hk ▸ List.mem_map_of_mem hd)

/-- Nothing is missing any more where defaults were filled in, whatever was then made of the values
that are not null. -/
theorem fillMissing_stays {f : String → Value → Value} (hf : ∀ k v, (f k v).isNull = v.isNull)
    (values es : List (String × Value)) :
    let fs := (fillMissing values es).map fun e => (e.1, f e.1 e.2)
    fillMissing values fs = fs := by
  intro fs
  apply fillMissing_eq_self
  intro d hd
  have hget : ∀ k, Entries.get? k fs = (Entries.get? k (fillMissing values es)).map (f k) :=
    fun k => Entries.get?_mapValues f k _
  obtain ⟨v, hv⟩ := Entries.mem_keys.1 (mem_keys_fillMissing hd es)
  refine ⟨f d.1 v, by rw [hget, hv, Option.map_some], fun hnull => ?_⟩
  have hvnull : v.isNull = true := by
    rw [← hf d.1 v, hnull]
    rfl
  -- a default other than null would have been put in the place of the null
  by_contra hother
  rw [← Value.isNull_iff, Bool.not_eq_true] at hother
  obtain ⟨w, hw, hwnull⟩ := present_fillMissing hd hother es
  rw [hv] at hw
  cases hw
  rw [hvnull] at hwnull
  cases hwnull

/-! ### Once is enough -/

theorem isNull_childAt (children : List (String × Defaults)) (k : String) (v : Value) :
    (childAt (applyAll children) k v).isNull = v.isNull := by
  rw [childAt_applyAll, isNull_applyTo]

section Again

variable {children : List (String × Defaults)}
  (h : ∀ k v, childAt (applyAll children) k (childAt (applyAll children) k v) =
    childAt (applyAll children) k v)
include h

theorem fillElements_again (type : Ty) (vs : List Value) :
    fillElements type (applyAll children) (fillElements type (applyAll children) vs) =
      fillElements type (applyAll children) vs := by
  cases type with
  | list t =>
    show (vs.map (childAt (applyAll children) "")).map (childAt (applyAll children) "") = _
    rw [List.map_map]
    exact List.map_congr_left fun v _ => h "" v
  | set t =>
    show (vs.map (childAt (applyAll children) "")).map (childAt (applyAll children) "") = _
    rw [List.map_map]
    exact List.map_congr_left fun v _ => h "" v
  | tuple ts =>
    apply List.ext_getElem?
    intro i
    simp only [fillElements, List.getElem?_mapIdx]
    cases vs[i]? with
    | none => rfl
    | some v => exact congrArg some (h _ v)
  | _ => rfl

theorem fillEntries_again (type : Ty) (values es : List (String × Value)) :
    fillEntries type values (applyAll children) (fillEntries type values (applyAll children) es) =
      fillEntries type values (applyAll children) es := by
  cases type with
  | map t =>
    simp only [fillEntries, List.map_map]
    exact List.map_congr_left fun e _ => congrArg (e.1, ·) (h "" e.2)
  | object fields =>
    simp only [fillEntries]
    rw [fillMissing_stays (isNull_childAt children), List.map_map]
    exact List.map_congr_left fun e _ => congrArg (e.1, ·) (h e.1 e.2)
  | _ => rfl

end Again

theorem apply_apply (d : Defaults) (v : Value) : d.apply (d.apply v) = d.apply v := by
  induction d using induction generalizing v with
  | step type values children ih =>
    have hchild : ∀ k v, childAt (applyAll children) k (childAt (applyAll children) k v) =
        childAt (applyAll children) k v := by
      intro k v
      simp only [childAt_applyAll]
      cases hc : Entries.get? k children with
      | none => rfl
      | some c => exact ih (k, c) (Entries.mem_of_get? hc) v
    simp only [apply_eq_fill]
    cases v with
    | object es => exact congrArg Value.object (fillEntries_again hchild type values es)
    | map es => exact congrArg Value.map (fillEntries_again hchild type values es)
    | tuple vs => exact congrArg Value.tuple (fillElements_again hchild type vs)
    | list vs => exact congrArg Value.list (fillElements_again hchild type vs)
    | set vs => exact congrArg Value.set (fillElements_again hchild type vs)
    | _ => rfl

/-! ### What stays -/

theorem kind_apply (d : Defaults) (v : Value) : (d.apply v).kind = v.kind := by
  rw [apply_eq_fill]
  cases v <;> rfl

theorem length_fillElements (type : Ty) (children : List (String × (Value → Value)))
    (vs : List Value) : (fillElements type children vs).length = vs.length := by
  unfold fillElements
  split <;> simp

/-- The defaults that the entry of a key is filled in with: those of its own in an object, those of
all elements in a map. -/
def entryChild (d : Defaults) (k : String) : Option Defaults :=
  match d.type with
  | .object _ => Entries.get? k d.children
  | .map _ => Entries.get? "" d.children
  | _ => none

/-- What entries may become. -/
structure Filled (d : Defaults) (es fs : List (String × Value)) : Prop where
  /-- No key is lost, and the keys that are there keep their order. -/
  keys : Entries.keys es <+: Entries.keys fs
  /-- An entry becomes what its own defaults make of it, or of the default of its name if it was
  null. -/
  kept : ∀ (i : Nat) k x, es[i]? = some (k, x) → ∃ y, (y = x ∨ x = .null ∧ (k, y) ∈ d.values) ∧
    fs[i]? = some (k, applyTo (d.entryChild k) y)
  /-- Keys that are new have a default. -/
  added : ∀ k ∈ Entries.keys fs, k ∈ Entries.keys es ∨ k ∈ Entries.keys d.values

theorem getElem?_putMissing {es : List (String × Value)} {i : Nat} {k : String} {x : Value}
    (h : es[i]? = some (k, x)) (d : String × Value) :
    ∃ y, (y = x ∨ x = .null ∧ (k, y) = d) ∧ (putMissing es d)[i]? = some (k, y) := by
  unfold putMissing
  split
  · rename_i hmissing
    rcases Entries.getElem?_put d.1 d.2 h with hput | ⟨hk, hget, hput⟩
    · exact ⟨x, .inl rfl, hput⟩
    · rw [hget] at hmissing
      exact ⟨d.2, .inr ⟨Value.isNull_iff.1 hmissing, by rw [hk]⟩, hput⟩
  · exact ⟨x, .inl rfl, h⟩

theorem getElem?_fillMissing (values : List (String × Value)) {es : List (String × Value)} {i : Nat}
    {k : String} {x : Value} (h : es[i]? = some (k, x)) :
    ∃ y, (y = x ∨ x = .null ∧ (k, y) ∈ values) ∧ (fillMissing values es)[i]? = some (k, y) := by
  apply List.foldlRecOn values putMissing (motive := fun fs =>
    ∃ y, (y = x ∨ x = .null ∧ (k, y) ∈ values) ∧ fs[i]? = some (k, y))
  · exact ⟨x, .inl rfl, h⟩
  · intro fs hfs d hd
    obtain ⟨y, hy, hat⟩ := hfs
    obtain ⟨z, hz, hput⟩ := getElem?_putMissing hat d
    refine ⟨z, ?_, hput⟩
    rcases hz with hz | ⟨hnull, hz⟩
    · rwa [hz]
    · rcases hy with hy | hy
      · exact .inr ⟨hy ▸ hnull, hz ▸ hd⟩
      · exact .inr ⟨hy.1, hz ▸ hd⟩

/-- Each level of entries is first completed, in an object, and then filled in entry by entry. -/
theorem fillEntries_eq (d : Defaults) (es : List (String × Value)) :
    ∃ gs, (gs = es ∨ gs = fillMissing d.values es) ∧
      fillEntries d.type d.values (applyAll d.children) es =
        gs.map fun e => (e.1, applyTo (d.entryChild e.1) e.2) := by
  unfold fillEntries entryChild
  cases d.type with
  | object fields => exact ⟨_, .inr rfl, by simp only [childAt_applyAll]⟩
  | map t => exact ⟨es, .inl rfl, by simp only [childAt_applyAll]⟩
  | _ => exact ⟨es, .inl rfl, (List.map_id' es).symm⟩

theorem filled_fillEntries (d : Defaults) (es : List (String × Value)) :
    d.Filled es (fillEntries d.type d.values (applyAll d.children) es) := by
  obtain ⟨gs, hgs, heq⟩ := fillEntries_eq d es
  have hkeys : Entries.keys (gs.map fun e => (e.1, applyTo (d.entryChild e.1) e.2)) =
      Entries.keys gs := by simp [Entries.keys]
  rw [heq]
  constructor
  · rw [hkeys]
    rcases hgs with rfl | rfl
    · exact List.prefix_rfl
    · exact keys_prefix_fillMissing d.values es
  · intro i k x h
    have hcompleted : ∃ y, (y = x ∨ x = .null ∧ (k, y) ∈ d.values) ∧ gs[i]? = some (k, y) := by
      rcases hgs with rfl | rfl
      · exact ⟨x, .inl rfl, h⟩
      · exact getElem?_fillMissing d.values h
    obtain ⟨y, hy, hat⟩ := hcompleted
    exact ⟨y, hy, by rw [List.getElem?_map, hat, Option.map_some]⟩
  · rw [hkeys]
    intro k hk
    rcases hgs with rfl | rfl
    · exact .inl hk
    · exact of_mem_keys_fillMissing hk

/-- **Filling in defaults is idempotent and conservative.** It does nothing to a value that it was
done to before. It never changes the kind of a value, the length of a sequence or the keys under a
map type. Entries stay where they are under their keys, and one that is not null is changed by its
own defaults only. -/
theorem apply_conservative (d : Defaults) (v : Value) :
    d.apply (d.apply v) = d.apply v ∧
    (d.apply v).kind = v.kind ∧
    (d.apply v).elements?.map List.length = v.elements?.map List.length ∧
    (∀ t, d.type = .map t →
      (d.apply v).entries?.map Entries.keys = v.entries?.map Entries.keys) ∧
    ∀ es, v.entries? = some es → ∃ fs, (d.apply v).entries? = some fs ∧ d.Filled es fs := by
  refine ⟨apply_apply d v, kind_apply d v, ?_, fun t htype => ?_, fun es hes => ?_⟩
  · rw [elements?_apply, Option.map_map]
    exact congrArg (Option.map · _) (funext (length_fillElements d.type _))
  · rw [entries?_apply, Option.map_map]
    apply congrArg (Option.map · _)
    funext es
    simp [htype, fillEntries, Entries.keys]
  · exact ⟨_, by rw [entries?_apply, hes, Option.map_some], filled_fillEntries d es⟩

/-- Servers by name. A server has a note that is null by default, and a disk with a default inside.
-/
def servers : Defaults where
  type := .map .any
  values := []
  children := [("", {
    type := .object []
    values := [("note", .null), ("disk", .object [])]
    children := [("disk", ⟨.object [], [("size", .number (.int 80))], []⟩)] })]

theorem apply_conservative_servers :
    let given := [("a", Value.object [("disk", .null), ("name", .text "a")])]
    let filled := [("a", Value.object [("disk", .object [("size", .number (.int 80))]),
      ("name", .text "a"), ("note", .null)])]
    servers.type = .map .any ∧ (Value.map given).entries? = some given ∧
    servers.apply (.map given) = .map filled ∧ servers.apply (.map filled) = .map filled ∧
    Entries.keys filled = Entries.keys given ∧ servers.Filled given filled := by
  intro given filled
  have hfill : servers.apply (.map given) = .map filled := rfl
  obtain ⟨hagain, -, -, hkeys, hentries⟩ := apply_conservative servers (.map given)
  rw [hfill] at hagain hkeys hentries
  obtain ⟨fs, hfs, hfilled⟩ := hentries given rfl
  cases hfs
  exact ⟨rfl, rfl, hfill, hagain, Option.some.inj (hkeys .any rfl), hfilled⟩

end Defaults

end EarlyConfig
