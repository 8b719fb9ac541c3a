import EarlyConfig.Entries
import EarlyConfig.SortedMap
import Mathlib.Data.List.Nodup

/-! What the look-ups of a container say about its entries. For a sorted map the two are the same
thing (`SortedMap.mem_entries`); a list of entries also keeps each key once under `put`
(`Entries.nodup_keys_put`). A container that was filled from a list of entries says about a key what
the values under that key come to: the last of them (`SortedMap.get?_ofList`,
`Entries.get?_ofList`), or all of them taken together (`Entries.get?_foldl_update`). -/
namespace EarlyConfig

/-- Where keys are not repeated, a search for a key finds whatever has it. -/
theorem find?_eq_some_of_nodup {α κ : Type} [DecidableEq κ] {f : α → κ} {xs : List α}
    (h : (xs.map f).Nodup) {k : κ} {x : α} :
    xs.find? (fun x => f x = k) = some x ↔ x ∈ xs ∧ f x = k := by
  constructor
  · intro hx
    exact ⟨List.mem_of_find?_eq_some hx, by simpa using List.find?_some hx⟩
  · rintro ⟨hx, rfl⟩
    obtain ⟨y, hy⟩ := Option.isSome_iff_exists.1
      (List.find?_isSome.2 ⟨x, hx, by simp⟩ : (xs.find? fun y => f y = f x).isSome)
    have hkey : f y = f x := by simpa using List.find?_some hy
    rw [hy, List.inj_on_of_nodup_map h (List.mem_of_find?_eq_some hy) hx hkey]

namespace Entries

variable {κ α : Type} [DecidableEq κ]

theorem mem_of_get? {k : κ} {a : α} {es : List (κ × α)} (h : get? k es = some a) :
    (k, a) ∈ es := by
  induction es with
  | nil => simp [get?] at h
  | cons e rest ih =>
    obtain ⟨k', b⟩ := e
    by_cases hk : k' = k
    · simp only [get?, if_pos hk, Option.some.injEq] at h
      simp [hk, h]
    · simp only [get?, if_neg hk] at h
      exact List.mem_cons_of_mem _ (ih h)

/-- An entry is what its key looks up, if no other entry has that key. -/
theorem get?_of_mem {k : κ} {a : α} {es : List (κ × α)} (hes : (keys es).Nodup)
    (h : (k, a) ∈ es) : get? k es = some a := by
  induction es with
  | nil => cases h
  | cons e rest ih =>
    obtain ⟨hnew, hrest⟩ := List.nodup_cons.1 hes
    rcases List.mem_cons.1 h with rfl | h
    · simp [get?]
    · have hne : e.1 ≠ k := by
        rintro rfl
        exact hnew (List.mem_map.2 ⟨_, h, rfl⟩)
      rw [get?, if_neg hne]
      exact ih hrest h

theorem get?_eq_none {k : κ} {es : List (κ × α)} : get? k es = none ↔ k ∉ keys es := by
  induction es with
  | nil => simp [get?, keys]
  | cons e rest ih =>
    obtain ⟨k', b⟩ := e
    by_cases hk : k' = k
    · simp [get?, keys, hk]
    · simp only [get?, if_neg hk, ih]
      simp [keys, Ne.symm hk]

theorem mem_keys {k : κ} {es : List (κ × α)} : k ∈ keys es ↔ ∃ a, get? k es = some a := by
  rw [← Option.ne_none_iff_exists', ne_eq, get?_eq_none, Decidable.not_not]

theorem mem_put {k : κ} {a : α} {e : κ × α} {es : List (κ × α)} (h : e ∈ put k a es) :
    e = (k, a) ∨ e ∈ es := by
  induction es with
  | nil => simpa [put] using h
  | cons d rest ih =>
    obtain ⟨k', b⟩ := d
    by_cases hk : k' = k
    · subst hk
      rw [put, if_pos rfl] at h
      rcases List.mem_cons.1 h with h | h
      · exact .inl h
      · exact .inr (List.mem_cons_of_mem _ h)
    · rw [put, if_neg hk] at h
      rcases List.mem_cons.1 h with h | h
      · exact .inr (by simp [h])
      · exact (ih h).imp_right (List.mem_cons_of_mem _)

theorem mem_keys_put {k k' : κ} {a : α} {es : List (κ × α)} :
    k' ∈ keys (put k a es) ↔ k' = k ∨ k' ∈ keys es := by
  rw [keys_put]
  split
  · rename_i hk
    exact ⟨.inr, fun h => h.elim (fun heq => heq ▸ hk) id⟩
  · rw [List.mem_append, List.mem_singleton, or_comm]

theorem put_of_new {k : κ} (a : α) {es : List (κ × α)} (h : k ∉ keys es) :
    put k a es = es ++ [(k, a)] := by
  induction es with
  | nil => rfl
  | cons e rest ih =>
    have hne : e.1 ≠ k := fun heq => h (heq ▸ List.mem_cons_self)
    have hrest : k ∉ keys rest := fun hmem => h (List.mem_cons_of_mem _ hmem)
    rw [put, if_neg hne, ih hrest, List.cons_append]

/-- No key comes to stand twice. -/
theorem nodup_keys_put (k : κ) (a : α) {es : List (κ × α)} (h : (keys es).Nodup) :
    (keys (put k a es)).Nodup := by
  rw [keys_put]
  split
  · exact h
  · rename_i hk
    exact List.nodup_append.2 ⟨h, by simp, by
      intro x hx y hy
      rw [List.mem_singleton.1 hy]
      exact fun hxk => hk (hxk ▸ hx)⟩

/-! ### All values of a key -/

variable {β : Type}

/-- All values under a key, in order. -/
def under (k : κ) (es : List (κ × α)) : List α :=
  es.filterMap fun e => if e.1 = k then some e.2 else none

theorem under_cons (k k' : κ) (a : α) (es : List (κ × α)) :
    under k ((k', a) :: es) = if k' = k then a :: under k es else under k es := by
  by_cases h : k' = k <;> simp [under, h]

theorem under_append (k : κ) (es fs : List (κ × α)) :
    under k (es ++ fs) = under k es ++ under k fs :=
  List.filterMap_append

theorem mem_under {k : κ} {a : α} {es : List (κ × α)} : a ∈ under k es ↔ (k, a) ∈ es := by
  simp [under]

omit [DecidableEq κ] in
theorem keys_cons (e : κ × α) (es : List (κ × α)) : keys (e :: es) = e.1 :: keys es := rfl

theorem under_eq_nil {k : κ} {es : List (κ × α)} : under k es = [] ↔ k ∉ keys es := by
  induction es with
  | nil => simp [under, keys]
  | cons e rest ih =>
    obtain ⟨k', a⟩ := e
    by_cases hk : k' = k
    · simp [under_cons, keys_cons, hk]
    · simp [under_cons, keys_cons, hk, Ne.symm hk, ih]

theorem nodup_keys_ofList (es : List (κ × α)) : (keys (ofList es)).Nodup :=
  List.foldlRecOn es _ (motive := fun acc => (keys acc).Nodup) .nil fun _ h e _ =>
    nodup_keys_put e.1 e.2 h

/-- Of the entries of one key the last counts. -/
theorem get?_ofList (k : κ) (es : List (κ × α)) : get? k (ofList es) = (under k es).getLast? := by
  have hfold : ∀ acc : List (κ × α), get? k (es.foldl (fun acc e => put e.1 e.2 acc) acc) =
      (under k es).getLast?.or (get? k acc) := by
    induction es with
    | nil => simp [under]
    | cons e rest ih =>
      intro acc
      obtain ⟨k', a⟩ := e
      rw [List.foldl_cons, ih, get?_put, under_cons]
      by_cases hk : k' = k
      · simp [hk, List.getLast?_cons]
      · simp [hk]
  rw [ofList, hfold, get?, Option.or_none]

/-- Values that are gathered one after another come together under their keys. -/
theorem get?_foldl_update (f : α → β → α) (a : α) (es : List (κ × β)) (acc : List (κ × α)) (k : κ) :
    get? k (es.foldl (fun acc e => update e.1 a (f · e.2) acc) acc) =
      if k ∈ keys es then some ((under k es).foldl f ((get? k acc).getD a)) else get? k acc := by
  induction es generalizing acc with
  | nil => simp [keys]
  | cons e rest ih =>
    obtain ⟨k', b⟩ := e
    rw [List.foldl_cons, ih, under_cons, update, get?_put]
    by_cases hk : k' = k
    · subst hk
      by_cases hrest : k' ∈ keys rest
      · simp [hrest, keys_cons]
      · simp [hrest, under_eq_nil.2 hrest, keys_cons]
    · simp [hk, Ne.symm hk, keys_cons]

/-- A value that counts: the last under some key. -/
def Counts (es : List (κ × α)) (a : α) : Prop :=
  ∃ k, (under k es).getLast? = some a

theorem under_map {ι : Type} [DecidableEq ι] {g : κ → ι} (hg : ∀ k k', g k = g k' → k = k')
    (f : α → β) (k : κ) (es : List (κ × α)) :
    under (g k) (es.map fun e => (g e.1, f e.2)) = (under k es).map f := by
  induction es with
  | nil => rfl
  | cons e rest ih =>
    obtain ⟨k', a⟩ := e
    rw [List.map_cons, under_cons, under_cons, ih]
    by_cases hk : k' = k
    · simp [hk]
    · simp [hk, mt (hg k' k) hk]

/-- What counts is the same under keys that can be told apart as well. -/
theorem counts_map {ι : Type} [DecidableEq ι] {g : κ → ι} (hg : ∀ k k', g k = g k' → k = k')
    (f : α → β) {es : List (κ × α)} {b : β} :
    Counts (es.map fun e => (g e.1, f e.2)) b ↔ ∃ a, Counts es a ∧ f a = b := by
  constructor
  · rintro ⟨i, hi⟩
    have hkey : i ∈ keys (es.map fun e => (g e.1, f e.2)) := by
      refine Decidable.not_not.1 fun hnot => ?_
      rw [under_eq_nil.2 hnot] at hi
      cases hi
    obtain ⟨e, he, rfl⟩ := List.mem_map.1 hkey
    obtain ⟨d, -, rfl⟩ := List.mem_map.1 he
    rw [under_map hg, List.getLast?_map, Option.map_eq_some_iff] at hi
    obtain ⟨a, ha, hb⟩ := hi
    exact ⟨a, ⟨d.1, ha⟩, hb⟩
  · rintro ⟨a, ⟨k, hk⟩, rfl⟩
    exact ⟨g k, by rw [under_map hg, List.getLast?_map, hk, Option.map_some]⟩

theorem under_self (f : α → κ) (k : κ) (as : List α) :
    under k (as.map fun a => (f a, a)) = as.filter fun a => f a = k := by
  induction as with
  | nil => rfl
  | cons a rest ih => by_cases h : f a = k <;> simp [under_cons, h, ih]

/-- Of values that are kept by what they go by, the last that goes by it counts. -/
theorem counts_self {f : α → κ} {as : List α} {a : α} :
    Counts (as.map fun a => (f a, a)) a ↔ (as.filter fun b => f b = f a).getLast? = some a := by
  constructor
  · rintro ⟨k, hk⟩
    rw [under_self] at hk
    have hkey : f a = k := by simpa using (List.mem_filter.1 (List.mem_of_getLast? hk)).2
    rwa [hkey]
  · intro h
    exact ⟨f a, by rwa [under_self]⟩

/-- A value that nothing else can be taken for counts. -/
theorem getLast?_filter_of_inj {f : α → κ} {as : List α} {a : α} (ha : a ∈ as)
    (hf : ∀ b ∈ as, f b = f a → b = a) :
    (as.filter fun b => f b = f a).getLast? = some a := by
  have hne : as.filter (fun b => f b = f a) ≠ [] :=
    List.ne_nil_of_mem (List.mem_filter.2 ⟨ha, by simp⟩)
  obtain ⟨hb, hkey⟩ := List.mem_filter.1 (List.getLast_mem hne)
  rw [List.getLast?_eq_some_getLast hne, hf _ hb (by simpa using hkey)]

/-- Values with keys of their own all count. -/
theorem counts_of_inj {f : α → κ} {as : List α} (hf : ∀ a ∈ as, ∀ b ∈ as, f a = f b → a = b)
    {a : α} : Counts (as.map fun a => (f a, a)) a ↔ a ∈ as := by
  rw [counts_self]
  constructor
  · intro h
    exact (List.mem_filter.1 (List.mem_of_getLast? h)).1
  · intro ha
    exact getLast?_filter_of_inj ha fun b hb => hf b hb a ha

theorem counts_mapKeys {ι : Type} [DecidableEq ι] {g : κ → ι} (hg : ∀ k k', g k = g k' → k = k')
    {es : List (κ × α)} {a : α} : Counts (es.map fun e => (g e.1, e.2)) a ↔ Counts es a := by
  rw [counts_map hg (fun a => a)]
  simp only [exists_eq_right]

theorem counts_mapValues (f : α → β) {es : List (κ × α)} {b : β} :
    Counts (es.map fun e => (e.1, f e.2)) b ↔ ∃ a, Counts es a ∧ f a = b :=
  counts_map (fun _ _ h => h) f

/-! ### Other values -/

/-- Things with keys of their own. -/
theorem get?_map (f : α → κ) (g : α → β) (k : κ) (as : List α) :
    get? k (as.map fun a => (f a, g a)) = (as.find? fun a => f a = k).map g := by
  induction as with
  | nil => rfl
  | cons a rest ih =>
    by_cases h : f a = k
    · simp [get?, h]
    · simp [get?, h, ih]

/-- Values change by key, keys stay. -/
theorem get?_mapValues (f : κ → α → β) (k : κ) (es : List (κ × α)) :
    get? k (es.map fun e => (e.1, f e.1 e.2)) = (get? k es).map (f k) := by
  induction es with
  | nil => rfl
  | cons e rest ih =>
    by_cases h : e.1 = k
    · simp [get?, h]
    · simp [get?, h, ih]

theorem put_mapValues (f : α → β) (k : κ) (a : α) (es : List (κ × α)) :
    put k (f a) (es.map fun e => (e.1, f e.2)) = (put k a es).map fun e => (e.1, f e.2) := by
  induction es with
  | nil => rfl
  | cons e rest ih => by_cases hk : e.1 = k <;> simp_all [put]

end Entries

namespace SortedMap

variable {κ α : Type} [Ord κ] [Std.LawfulEqOrd κ]

theorem mem_of_lookup {k : κ} {a : α} {es : List (κ × α)} (h : lookup k es = some a) :
    (k, a) ∈ es := by
  induction es with
  | nil => simp [lookup] at h
  | cons e rest ih =>
    obtain ⟨k', b⟩ := e
    by_cases hk : k' = k
    · subst hk
      simp only [lookup, Std.ReflCmp.compare_self, if_true, Option.some.injEq] at h
      simp [h]
    · have hne : compare k' k ≠ .eq := fun he => hk (Std.LawfulEqCmp.eq_of_compare he)
      simp only [lookup, if_neg hne] at h
      exact List.mem_cons_of_mem _ (ih h)

/-- An entry is what its key looks up, since no other entry has that key. -/
theorem lookup_of_mem {k : κ} {a : α} {es : List (κ × α)}
    (hs : es.Pairwise fun a b => compare a.1 b.1 = .lt) (h : (k, a) ∈ es) :
    lookup k es = some a := by
  induction es with
  | nil => simp at h
  | cons e rest ih =>
    rw [List.pairwise_cons] at hs
    rcases List.mem_cons.1 h with rfl | h
    · simp [lookup]
    · have hlt := hs.1 _ h
      have hne : compare e.1 k ≠ .eq := by
        rw [hlt]
        decide
      simp only [lookup, if_neg hne]
      exact ih hs.2 h

theorem mem_entries {m : SortedMap κ α} {k : κ} {a : α} :
    (k, a) ∈ m.entries ↔ m.get? k = some a :=
  ⟨lookup_of_mem m.sorted, mem_of_lookup⟩

theorem mem_keys {m : SortedMap κ α} {k : κ} : k ∈ m.keys ↔ ∃ a, m.get? k = some a := by
  simp [keys, ← mem_entries]

theorem mem_values {m : SortedMap κ α} {a : α} : a ∈ m.values ↔ ∃ k, m.get? k = some a := by
  simp [values, ← mem_entries]

/-- An entry goes in at one place, where it replaces the one of the same key. -/
theorem place_split [Std.TransOrd κ] (k : κ) (a : α) {es : List (κ × α)}
    (h : es.Pairwise fun a b => compare a.1 b.1 = .lt) :
    ∃ before after, es = before ++ ((lookup k es).map (k, ·)).toList ++ after ∧
      place k a es = before ++ (k, a) :: after := by
  induction es with
  | nil => exact ⟨[], [], rfl, rfl⟩
  | cons e rest ih =>
    obtain ⟨k', b⟩ := e
    rw [List.pairwise_cons] at h
    cases hk : compare k k' with
    | lt =>
      have hnone : lookup k ((k', b) :: rest) = none := by
        apply lookup_eq_none
        intro d hd
        rcases List.mem_cons.1 hd with rfl | hd
        · exact hk
        · exact Std.TransCmp.lt_trans hk (h.1 d hd)
      exact ⟨[], (k', b) :: rest, by simp [hnone], by simp [place, hk]⟩
    | eq =>
      have hkey := Std.LawfulEqCmp.eq_of_compare hk
      subst hkey
      exact ⟨[], rest, by simp [lookup], by simp [place]⟩
    | gt =>
      obtain ⟨before, after, hes, hplace⟩ := ih h.2
      have hlookup : lookup k ((k', b) :: rest) = lookup k rest := by
        simp [lookup, Std.OrientedCmp.lt_of_gt hk]
      refine ⟨(k', b) :: before, after, ?_, by simp [place, hk, hplace]⟩
      rw [hlookup, List.cons_append, List.cons_append, ← hes]

/-- The same for the values. -/
theorem values_insert [Std.TransOrd κ] (m : SortedMap κ α) (k : κ) (a : α) :
    ∃ before after, m.values = before ++ (m.get? k).toList ++ after ∧
      (m.insert k a).values = before ++ a :: after := by
  obtain ⟨before, after, hes, hplace⟩ := place_split k a m.sorted
  refine ⟨before.map (·.2), after.map (·.2), ?_, ?_⟩
  · have hvalues : m.values = _ := congrArg (List.map Prod.snd) hes
    rw [hvalues, get?, List.map_append, List.map_append]
    cases lookup k m.entries <;> rfl
  · have hvalues : (m.insert k a).values = _ := congrArg (List.map Prod.snd) hplace
    rw [hvalues, List.map_append, List.map_cons]

/-- Putting one value under several keys. -/
theorem get?_foldl_insert [Std.TransOrd κ] [DecidableEq κ] (m : SortedMap κ α) (ks : List κ) (a : α)
    (k : κ) :
    (ks.foldl (fun m k => m.insert k a) m).get? k = if k ∈ ks then some a else m.get? k := by
  induction ks generalizing m with
  | nil => simp
  | cons k' rest ih =>
    rw [List.foldl_cons, ih, get?_insert]
    by_cases hr : k ∈ rest
    · simp [hr]
    · by_cases hk : k' = k
      · simp [hk]
      · simp [hr, hk, Ne.symm hk]

/-- Of the entries of one key the last counts. -/
theorem get?_ofList [Std.TransOrd κ] [DecidableEq κ] (es : List (κ × α)) (k : κ) :
    (ofList es).get? k = (Entries.under k es).getLast? := by
  have hfold : ∀ m : SortedMap κ α, (es.foldl (fun m e => m.insert e.1 e.2) m).get? k =
      (Entries.under k es).getLast?.or (m.get? k) := by
    induction es with
    | nil => simp [Entries.under]
    | cons e rest ih =>
      intro m
      obtain ⟨k', a⟩ := e
      rw [List.foldl_cons, ih, get?_insert, Entries.under_cons]
      by_cases hk : k' = k
      · simp [hk, List.getLast?_cons]
      · simp [hk]
  rw [ofList, hfold, get?_empty, Option.or_none]

theorem mem_values_ofList [Std.TransOrd κ] [DecidableEq κ] {es : List (κ × α)} {a : α} :
    a ∈ (ofList es).values ↔ Entries.Counts es a := by
  simp only [mem_values, get?_ofList, Entries.Counts]

/-! ### Other values -/

variable {β : Type}

omit [Std.LawfulEqOrd κ] in
theorem pairwise_map_values (f : α → β) {es : List (κ × α)}
    (h : es.Pairwise fun a b => compare a.1 b.1 = .lt) :
    (es.map fun e => (e.1, f e.2)).Pairwise fun a b => compare a.1 b.1 = .lt :=
  List.pairwise_map.2 h

/-- The same keys with other values. -/
def mapValues (f : α → β) (m : SortedMap κ α) : SortedMap κ β :=
  ⟨m.entries.map fun e => (e.1, f e.2), pairwise_map_values f m.sorted⟩

omit [Std.LawfulEqOrd κ] in
theorem values_mapValues (f : α → β) (m : SortedMap κ α) :
    (m.mapValues f).values = m.values.map f := by
  simp [values, mapValues]

omit [Std.LawfulEqOrd κ] in
theorem get?_mapValues (f : α → β) (m : SortedMap κ α) (k : κ) :
    (m.mapValues f).get? k = (m.get? k).map f := by
  have hlookup : ∀ es : List (κ × α),
      lookup k (es.map fun e => (e.1, f e.2)) = (lookup k es).map f := by
    intro es
    induction es with
    | nil => rfl
    | cons e rest ih => by_cases hk : compare e.1 k = .eq <;> simp_all [lookup]
  exact hlookup m.entries

theorem mapValues_insert [Std.TransOrd κ] (f : α → β) (m : SortedMap κ α) (k : κ) (a : α) :
    (m.insert k a).mapValues f = (m.mapValues f).insert k (f a) := by
  refine ext fun k' => ?_
  rw [get?_mapValues, get?_insert, get?_insert, get?_mapValues]
  split <;> rfl

end SortedMap

end EarlyConfig
