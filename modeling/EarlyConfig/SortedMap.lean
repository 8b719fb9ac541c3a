/-! Finite maps as lists sorted by key. Two maps with the same look-ups are equal (`ext`), so a map
says nothing about the order in which it was filled. -/
namespace EarlyConfig

/-- Keys with values, each key once and in ascending order. -/
structure SortedMap (κ α : Type) [Ord κ] where
  entries : List (κ × α)
  sorted : entries.Pairwise fun a b => compare a.1 b.1 = .lt

namespace SortedMap

variable {κ α : Type} [Ord κ]

def empty : SortedMap κ α :=
  ⟨[], .nil⟩

instance : Inhabited (SortedMap κ α) := ⟨empty⟩

def keys (m : SortedMap κ α) : List κ :=
  m.entries.map (·.1)

def values (m : SortedMap κ α) : List α :=
  m.entries.map (·.2)

def lookup (k : κ) : List (κ × α) → Option α
  | [] => none
  | (k', a) :: rest => if compare k' k = .eq then some a else lookup k rest

def get? (m : SortedMap κ α) (k : κ) : Option α :=
  lookup k m.entries

def contains (m : SortedMap κ α) (k : κ) : Bool :=
  (m.get? k).isSome

/-- Puts an entry at its place, over one of the same key. -/
def place (k : κ) (a : α) : List (κ × α) → List (κ × α)
  | [] => [(k, a)]
  | (k', b) :: rest =>
    match compare k k' with
    | .lt => (k, a) :: (k', b) :: rest
    | .eq => (k, a) :: rest
    | .gt => (k', b) :: place k a rest

theorem mem_place {k : κ} {a : α} {e : κ × α} {es : List (κ × α)} (h : e ∈ place k a es) :
    e = (k, a) ∨ e ∈ es := by
  induction es with
  | nil => simpa [place] using h
  | cons d rest ih =>
    obtain ⟨k', b⟩ := d
    simp only [place] at h
    split at h
    · simpa using h
    · rcases List.mem_cons.1 h with h | h
      · exact .inl h
      · exact .inr (List.mem_cons_of_mem _ h)
    · rcases List.mem_cons.1 h with h | h
      · exact .inr (by simp [h])
      · exact (ih h).imp_right (List.mem_cons_of_mem _)

theorem place_sorted [Std.TransOrd κ] (k : κ) (a : α) {es : List (κ × α)}
    (h : es.Pairwise fun a b => compare a.1 b.1 = .lt) :
    (place k a es).Pairwise fun a b => compare a.1 b.1 = .lt := by
  induction es with
  | nil => simp [place]
  | cons d rest ih =>
    obtain ⟨k', b⟩ := d
    rw [List.pairwise_cons] at h
    simp only [place]
    split
    · rename_i hlt
      refine List.pairwise_cons.2 ⟨?_, List.pairwise_cons.2 h⟩
      intro e he
      rcases List.mem_cons.1 he with rfl | he
      · exact hlt
      · exact Std.TransCmp.lt_trans hlt (h.1 e he)
    · rename_i heq
      refine List.pairwise_cons.2 ⟨?_, h.2⟩
      intro e he
      exact Std.TransCmp.lt_of_eq_of_lt heq (h.1 e he)
    · rename_i hgt
      refine List.pairwise_cons.2 ⟨?_, ih h.2⟩
      intro e he
      rcases mem_place he with rfl | he
      · exact Std.OrientedCmp.lt_of_gt hgt
      · exact h.1 e he

/-- Puts an entry, over one of the same key. -/
def insert [Std.TransOrd κ] (m : SortedMap κ α) (k : κ) (a : α) : SortedMap κ α :=
  ⟨place k a m.entries, place_sorted k a m.sorted⟩

/-- Puts the entries one after another, so that of one key the last counts. -/
def ofList [Std.TransOrd κ] (es : List (κ × α)) : SortedMap κ α :=
  es.foldl (fun m e => m.insert e.1 e.2) empty

/-- Puts an entry unless the key is there. -/
def insertNew [Std.TransOrd κ] (m : SortedMap κ α) (k : κ) (a : α) : SortedMap κ α :=
  if m.contains k then m else m.insert k a

theorem lookup_place [Std.LawfulEqOrd κ] (k k' : κ) (a : α) (es : List (κ × α)) :
    lookup k' (place k a es) = if compare k k' = .eq then some a else lookup k' es := by
  induction es with
  | nil => simp [place, lookup]
  | cons d rest ih =>
    obtain ⟨k'', b⟩ := d
    simp only [place]
    split
    · simp [lookup]
    · rename_i heq
      have := Std.LawfulEqCmp.eq_of_compare heq
      subst this
      by_cases h : compare k k' = .eq <;> simp [lookup, h]
    · rename_i hgt
      simp only [lookup, ih]
      by_cases h : compare k'' k' = .eq
      · have hk := Std.LawfulEqCmp.eq_of_compare h
        subst hk
        simp [hgt]
      · simp [h]

@[simp] theorem get?_insert [Std.TransOrd κ] [Std.LawfulEqOrd κ] (m : SortedMap κ α) (k k' : κ)
    (a : α) :
    (m.insert k a).get? k' = if compare k k' = .eq then some a else m.get? k' :=
  lookup_place k k' a m.entries

@[simp] theorem get?_empty (k : κ) : (empty : SortedMap κ α).get? k = none := rfl

/-! ### Equality by look-ups -/

theorem lookup_eq_none [Std.LawfulEqOrd κ] {k : κ} {es : List (κ × α)}
    (h : ∀ e ∈ es, compare k e.1 = .lt) : lookup k es = none := by
  induction es with
  | nil => rfl
  | cons d rest ih =>
    have hd := h d (by simp)
    have : compare d.1 k ≠ .eq := by
      intro he
      have hk := Std.LawfulEqCmp.eq_of_compare he
      subst hk
      simp at hd
    simp [lookup, this, ih fun e he => h e (by simp [he])]

variable [Std.TransOrd κ] [Std.LawfulEqOrd κ]

theorem eq_of_lookup {es fs : List (κ × α)} (hes : es.Pairwise fun a b => compare a.1 b.1 = .lt)
    (hfs : fs.Pairwise fun a b => compare a.1 b.1 = .lt) (h : ∀ k, lookup k es = lookup k fs) :
    es = fs := by
  induction es generalizing fs with
  | nil =>
    cases fs with
    | nil => rfl
    | cons f fs => simpa [lookup] using h f.1
  | cons e es ih =>
    cases fs with
    | nil => simpa [lookup] using h e.1
    | cons f fs =>
      rw [List.pairwise_cons] at hes hfs
      have hkey : e.1 = f.1 := by
        rcases hc : compare e.1 f.1 with _ | _ | _
        · have := h e.1
          rw [show lookup e.1 (f :: fs) = none from lookup_eq_none fun g hg => by
            rcases List.mem_cons.1 hg with rfl | hg
            · exact hc
            · exact Std.TransCmp.lt_trans hc (hfs.1 g hg)] at this
          simp [lookup] at this
        · exact Std.LawfulEqCmp.eq_of_compare hc
        · have hc' := Std.OrientedCmp.lt_of_gt hc
          have := h f.1
          rw [show lookup f.1 (e :: es) = none from lookup_eq_none fun g hg => by
            rcases List.mem_cons.1 hg with rfl | hg
            · exact hc'
            · exact Std.TransCmp.lt_trans hc' (hes.1 g hg)] at this
          simp [lookup] at this
      have hvalue : e.2 = f.2 := by
        have := h e.1
        simpa [lookup, hkey] using this
      have hrest : es = fs := ih hes.2 hfs.2 fun k => by
        rcases hk : compare e.1 k with _ | _ | _
        · have := h k
          have hf : compare f.1 k = .lt := by rw [← hkey]; exact hk
          simpa [lookup, hk, hf] using this
        · have hek := Std.LawfulEqCmp.eq_of_compare hk
          subst hek
          rw [lookup_eq_none hes.1, lookup_eq_none (by rw [hkey]; exact hfs.1)]
        · have := h k
          have hf : compare f.1 k = .gt := by rw [← hkey]; exact hk
          simpa [lookup, hk, hf] using this
      rw [hrest, show e = f from Prod.ext hkey hvalue]

theorem ext {m n : SortedMap κ α} (h : ∀ k, m.get? k = n.get? k) : m = n := by
  obtain ⟨es, hes⟩ := m
  obtain ⟨fs, hfs⟩ := n
  have := eq_of_lookup hes hfs h
  subst this
  rfl

end SortedMap

/-- The elements of a list, each once and in ascending order. -/
abbrev SortedSet (κ : Type) [Ord κ] := SortedMap κ Unit

namespace SortedSet

variable {κ : Type} [Ord κ]

def toList (s : SortedSet κ) : List κ :=
  s.keys

def add [Std.TransOrd κ] (s : SortedSet κ) (k : κ) : SortedSet κ :=
  s.insert k ()

def addAll [Std.TransOrd κ] (s : SortedSet κ) (ks : List κ) : SortedSet κ :=
  ks.foldl add s

def ofList [Std.TransOrd κ] (ks : List κ) : SortedSet κ :=
  addAll .empty ks

end SortedSet

end EarlyConfig
