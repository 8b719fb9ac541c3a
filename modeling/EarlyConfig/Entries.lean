/-! Lists of keys with values in the order in which the keys were first put. -/
namespace EarlyConfig.Entries

variable {κ α : Type} [DecidableEq κ]

def get? (k : κ) : List (κ × α) → Option α
  | [] => none
  | (k', a) :: rest => if k' = k then some a else get? k rest

def contains (k : κ) (es : List (κ × α)) : Bool :=
  (get? k es).isSome

/-- A key that is there keeps its place and gets the new value; any other comes last. -/
def put (k : κ) (a : α) : List (κ × α) → List (κ × α)
  | [] => [(k, a)]
  | (k', b) :: rest => if k' = k then (k', a) :: rest else (k', b) :: put k a rest

/-- Changes the value of a key, which starts from `a` if it is not there. -/
def update (k : κ) (a : α) (f : α → α) (es : List (κ × α)) : List (κ × α) :=
  put k (f ((get? k es).getD a)) es

/-- Puts the entries one after another. -/
def ofList (es : List (κ × α)) : List (κ × α) :=
  es.foldl (fun acc e => put e.1 e.2 acc) []

def keys (es : List (κ × α)) : List κ :=
  es.map (·.1)

def values (es : List (κ × α)) : List α :=
  es.map (·.2)

@[simp] theorem get?_put (k k' : κ) (a : α) (es : List (κ × α)) :
    get? k' (put k a es) = if k = k' then some a else get? k' es := by
  induction es with
  | nil => simp [put, get?]
  | cons e rest ih =>
    obtain ⟨k'', b⟩ := e
    by_cases h : k'' = k
    · subst h
      by_cases h' : k'' = k' <;> simp [put, get?, h']
    · by_cases h' : k'' = k'
      · subst h'
        simp [put, get?, h, Ne.symm h]
      · simp [put, get?, h, h', ih]

/-- Putting adds no key but the one put, and that one only if it is new. -/
theorem keys_put (k : κ) (a : α) (es : List (κ × α)) :
    keys (put k a es) = if k ∈ keys es then keys es else keys es ++ [k] := by
  induction es with
  | nil => simp [put, keys]
  | cons e rest ih =>
    obtain ⟨k', b⟩ := e
    by_cases h : k' = k
    · subst h
      simp [put, keys]
    · simp only [keys] at ih
      by_cases h' : k ∈ rest.map (·.1) <;> simp [put, keys, h, Ne.symm h, ih, h']

end EarlyConfig.Entries
