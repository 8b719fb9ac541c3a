import EarlyConfig.Conversion
import EarlyConfig.Proofs.Results
import Mathlib.Data.List.Forall2

/-! What conversion comes to, type by type. A collection converts exactly if each part of it does,
so the loops over elements, entries, positions and attributes are each stated as a relation between
what goes in and what comes out; error paths play no role in it. Later proofs use these statements
and do not open `convert`. -/
namespace EarlyConfig.Value

open Except (bind_eq_ok mapError_eq_ok pure_eq_ok)

/-! ### Loops -/

theorem convertElements_eq_ok {f : Value → Converted Value} {i : Nat} {vs ws : List Value} :
    convertElements f i vs = .ok ws ↔ List.Forall₂ (fun v w => f v = .ok w) vs ws := by
  induction vs generalizing i ws with
  | nil => simp [convertElements, eq_comm]
  | cons v rest ih =>
    simp only [convertElements, bind_eq_ok, mapError_eq_ok, pure_eq_ok, ih,
      List.forall₂_cons_left_iff]
    constructor
    · rintro ⟨w, hw, us, hus, rfl⟩
      exact ⟨w, us, hw, hus, rfl⟩
    · rintro ⟨w, us, hw, hus, rfl⟩
      exact ⟨w, hw, us, hus, rfl⟩

/-- Keys stay as they are. -/
theorem convertEntries_eq_ok {f : Value → Converted Value} {es fs : List (String × Value)} :
    convertEntries f es = .ok fs ↔
      List.Forall₂ (fun e e' => e'.1 = e.1 ∧ f e.2 = .ok e'.2) es fs := by
  induction es generalizing fs with
  | nil => simp [convertEntries, eq_comm]
  | cons e rest ih =>
    obtain ⟨k, v⟩ := e
    simp only [convertEntries, bind_eq_ok, mapError_eq_ok, pure_eq_ok, ih,
      List.forall₂_cons_left_iff]
    constructor
    · rintro ⟨w, hw, us, hus, rfl⟩
      exact ⟨(k, w), us, ⟨rfl, hw⟩, hus, rfl⟩
    · rintro ⟨⟨k', w⟩, us, ⟨rfl, hw⟩, hus, rfl⟩
      exact ⟨w, hw, us, hus, rfl⟩

theorem convertTuple_eq_ok {i : Nat} {ts : List Ty} {vs ws : List Value} :
    convertTuple i ts vs = .ok ws ↔
      List.Forall₂ (fun p w => convert p.1 p.2 = .ok w) (ts.zip vs) ws := by
  induction ts generalizing i vs ws with
  | nil => simp [convertTuple, eq_comm]
  | cons t ts ih =>
    cases vs with
    | nil => simp [convertTuple, eq_comm]
    | cons v vs =>
      simp only [convertTuple, bind_eq_ok, mapError_eq_ok, pure_eq_ok, ih, List.zip_cons_cons,
        List.forall₂_cons_left_iff]
      constructor
      · rintro ⟨w, hw, us, hus, rfl⟩
        exact ⟨w, us, hw, hus, rfl⟩
      · rintro ⟨w, us, hw, hus, rfl⟩
        exact ⟨w, hw, us, hus, rfl⟩

/-- What an object gives for a declared attribute: its value, or null for an optional one that is
missing. -/
def given? (f : Field Ty) (es : List (String × Value)) : Option Value :=
  (Entries.get? f.name es).or (if f.optional then some .null else none)

theorem convert_null (t : Ty) : convert t .null = .ok .null := by
  cases t <;> rfl

theorem convert_unknown (t s : Ty) : convert t (.unknown s) = .ok (.unknown t) := by
  cases t <;> rfl

theorem convertFields_eq_ok {fields : List (Field Ty)} {es fs : List (String × Value)} :
    convertFields fields es = .ok fs ↔
      List.Forall₂ (fun f e => e.1 = f.name ∧
        ∃ v, given? f es = some v ∧ convert f.type v = .ok e.2) fields fs := by
  induction fields generalizing fs with
  | nil => simp [convertFields, eq_comm]
  | cons f rest ih =>
    obtain ⟨name, optional, type⟩ := f
    rw [convertFields, List.forall₂_cons_left_iff]
    cases hv : Entries.get? name es with
    | some v =>
      simp only [bind_eq_ok, mapError_eq_ok, pure_eq_ok, ih, given?, hv, Option.some_or,
        Option.some.injEq]
      constructor
      · rintro ⟨w, hw, us, hus, rfl⟩
        exact ⟨(name, w), us, ⟨rfl, v, rfl, hw⟩, hus, rfl⟩
      · rintro ⟨⟨_, w⟩, us, ⟨rfl, _, rfl, hw⟩, hus, rfl⟩
        exact ⟨w, hw, us, hus, rfl⟩
    | none =>
      cases optional with
      | true =>
        simp only [if_true, bind_eq_ok, pure_eq_ok, ih, given?, hv, Option.none_or,
          Option.some.injEq]
        constructor
        · rintro ⟨us, hus, rfl⟩
          exact ⟨(name, .null), us, ⟨rfl, .null, rfl, convert_null type⟩, hus, rfl⟩
        · rintro ⟨⟨_, w⟩, us, ⟨rfl, _, rfl, hw⟩, hus, rfl⟩
          rw [convert_null, Except.ok.injEq] at hw
          subst hw
          exact ⟨us, hus, rfl⟩
      | false => simp [given?, hv, mismatch]

/-! ### Types -/

/-- Neither null nor unknown, so that conversion looks at what it is. -/
def isGiven : Value → Bool
  | .null => false
  | .unknown _ => false
  | _ => true

theorem null_or_unknown_or_given (v : Value) :
    v = .null ∨ (∃ s, v = .unknown s) ∨ v.isGiven = true := by
  cases v <;> simp [isGiven]

section
variable {v w : Value} (hv : v.isGiven = true)
include hv

/-- How a value that is there converts, by the form of the type. -/
theorem convert_given (t : Ty) : convert t v = match t with
    | .any => .ok v
    | .string => v.toText
    | .number => v.toNumber
    | .bool => v.toBool
    | .list t => match v.elements? with
      | some vs => return .list (← convertElements (fun w => convert t w) 0 vs)
      | none => mismatch (.listRequired t)
    | .set t => match v.elements? with
      | some vs => return .set (distinct (← convertElements (fun w => convert t w) 0 vs))
      | none => mismatch (.setRequired t)
    | .map t => match v.entries? with
      | some es => return .map (← convertEntries (fun w => convert t w) es)
      | none => mismatch (.mapRequired t)
    | .tuple ts => match v.elements? with
      | some vs => if vs.length = ts.length then return .tuple (← convertTuple 0 ts vs)
        else mismatch (.tupleLength ts.length)
      | none => mismatch .tupleRequired
    | .object fields => match v.entries? with
      | some es => return .object (← convertFields fields es)
      | none => mismatch .objectRequired := by
  cases v with
  | null => cases hv
  | unknown s => cases hv
  | _ => cases t <;> rfl

theorem convert_any : convert .any v = .ok v :=
  convert_given hv .any

theorem convert_string : convert .string v = v.toText :=
  convert_given hv .string

theorem convert_number : convert .number v = v.toNumber :=
  convert_given hv .number

theorem convert_bool : convert .bool v = v.toBool :=
  convert_given hv .bool

theorem convert_list_eq_ok {t : Ty} :
    convert (.list t) v = .ok w ↔ ∃ vs ws, v.elements? = some vs ∧
      List.Forall₂ (fun v w => convert t v = .ok w) vs ws ∧ w = .list ws := by
  rw [convert_given hv]
  cases v.elements? with
  | none => simp [mismatch]
  | some vs => simp only [bind_eq_ok, pure_eq_ok, convertElements_eq_ok, Option.some.injEq,
      exists_eq_left', exists_and_left]

theorem convert_set_eq_ok {t : Ty} :
    convert (.set t) v = .ok w ↔ ∃ vs ws, v.elements? = some vs ∧
      List.Forall₂ (fun v w => convert t v = .ok w) vs ws ∧ w = .set (distinct ws) := by
  rw [convert_given hv]
  cases v.elements? with
  | none => simp [mismatch]
  | some vs => simp only [bind_eq_ok, pure_eq_ok, convertElements_eq_ok, Option.some.injEq,
      exists_eq_left', exists_and_left]

theorem convert_map_eq_ok {t : Ty} :
    convert (.map t) v = .ok w ↔ ∃ es fs, v.entries? = some es ∧
      List.Forall₂ (fun e e' => e'.1 = e.1 ∧ convert t e.2 = .ok e'.2) es fs ∧ w = .map fs := by
  rw [convert_given hv]
  cases v.entries? with
  | none => simp [mismatch]
  | some es => simp only [bind_eq_ok, pure_eq_ok, convertEntries_eq_ok, Option.some.injEq,
      exists_eq_left', exists_and_left]

theorem convert_tuple_eq_ok {ts : List Ty} :
    convert (.tuple ts) v = .ok w ↔ ∃ vs ws, v.elements? = some vs ∧ vs.length = ts.length ∧
      List.Forall₂ (fun p w => convert p.1 p.2 = .ok w) (ts.zip vs) ws ∧ w = .tuple ws := by
  rw [convert_given hv]
  cases v.elements? with
  | none => simp [mismatch]
  | some vs =>
    by_cases hlen : vs.length = ts.length
    · simp only [hlen, if_true, bind_eq_ok, pure_eq_ok, convertTuple_eq_ok, Option.some.injEq,
        exists_eq_left', exists_and_left, true_and]
    · simp [hlen, mismatch]

theorem convert_object_eq_ok {fields : List (Field Ty)} :
    convert (.object fields) v = .ok w ↔ ∃ es fs, v.entries? = some es ∧
      List.Forall₂ (fun f e => e.1 = f.name ∧
        ∃ v, given? f es = some v ∧ convert f.type v = .ok e.2) fields fs ∧ w = .object fs := by
  rw [convert_given hv]
  cases v.entries? with
  | none => simp [mismatch]
  | some es => simp only [bind_eq_ok, pure_eq_ok, convertFields_eq_ok, Option.some.injEq,
      exists_eq_left', exists_and_left]

end

end EarlyConfig.Value
