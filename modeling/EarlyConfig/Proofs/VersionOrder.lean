import EarlyConfig.Version.Order
import Mathlib.Data.List.Induction

/-! The order of versions, part by part. `Before` says which of two versions comes first in words
that do not depend on a comparison: the numbers decide, then the pre-release, then the build. The
comparison agrees with it (`lt_iff`, `le_iff`), and the order is linear. What lies between two
versions that agree on their first numbers agrees with them too (`Agree.between`). -/
namespace EarlyConfig

/-! ### Digits -/

namespace Decimal

theorem natOfDigits_concat (cs : List Char) (c : Char) :
    natOfDigits (cs ++ [c]) = 10 * natOfDigits cs + (c.toNat - '0'.toNat) := by
  rw [natOfDigits, Nat.ofDigitChars_append, Nat.ofDigitChars_cons, Nat.ofDigitChars_nil]
  rfl

/-- Digits of one width spell each number once. -/
theorem natOfDigits_inj {xs ys : List Char} (hlength : xs.length = ys.length)
    (hxs : ∀ c ∈ xs, c.isDigit) (hys : ∀ c ∈ ys, c.isDigit)
    (h : natOfDigits xs = natOfDigits ys) : xs = ys := by
  induction xs using List.reverseRecOn generalizing ys with
  | nil => exact (List.length_eq_zero_iff.1 hlength.symm).symm
  | append_singleton xs c ih =>
    rcases List.eq_nil_or_concat ys with rfl | ⟨ys, d, rfl⟩
    · simp at hlength
    · rw [List.concat_eq_append] at hlength hys h ⊢
      rw [List.forall_mem_append, List.forall_mem_singleton] at hxs hys
      rw [List.length_append, List.length_append] at hlength
      rw [natOfDigits_concat, natOfDigits_concat] at h
      -- The last digit is the remainder by ten, and what stands before it the quotient.
      have hc := Char.isDigit_iff_toNat.1 hxs.2
      have hd := Char.isDigit_iff_toNat.1 hys.2
      have hnine : '9'.toNat = '0'.toNat + 9 := rfl
      have hvalue : natOfDigits xs = natOfDigits ys := by omega
      have hdigit : c = d := Char.toNat_inj.1 (by omega)
      rw [ih (Nat.add_right_cancel hlength) hxs.1 hys.1 hvalue, hdigit]

end Decimal

namespace Version

/-! ### Identifiers -/

/-- The identifier is a number. -/
def IsDigits (id : String) : Prop :=
  ∀ c ∈ id.toList, c.isDigit

/-- One identifier comes before another. Numbers come before words. They go by value and, since
zeros in front count, by width; words go by their characters. -/
inductive Lower : String → String → Prop
  | kind {a b : String} (first : IsDigits a) (second : ¬IsDigits b) : Lower a b
  | value {a b : String} (first : IsDigits a) (second : IsDigits b)
      (lt : Decimal.natOfDigits a.toList < Decimal.natOfDigits b.toList) : Lower a b
  | width {a b : String} (first : IsDigits a) (second : IsDigits b)
      (value : Decimal.natOfDigits a.toList = Decimal.natOfDigits b.toList)
      (lt : a.length < b.length) : Lower a b
  | word {a b : String} (first : ¬IsDigits a) (second : ¬IsDigits b) (lt : a < b) : Lower a b

theorem isNumeric_eq_true {id : String} : isNumeric id = true ↔ IsDigits id :=
  List.all_eq_true

theorem isNumeric_eq_false {id : String} : isNumeric id = false ↔ ¬IsDigits id := by
  rw [← isNumeric_eq_true, Bool.not_eq_true]

theorem compare_text {a b : String} : compare a b = .lt ↔ a < b :=
  compareOfLessAndEq_eq_lt

/-- The text of two numbers has nothing left to decide. -/
theorem compareIdentifiers_digits {a b : String} (ha : IsDigits a) (hb : IsDigits b) :
    compareIdentifiers a b = .lt ↔
      Decimal.natOfDigits a.toList < Decimal.natOfDigits b.toList ∨
        Decimal.natOfDigits a.toList = Decimal.natOfDigits b.toList ∧ a.length < b.length := by
  have hsame : Decimal.natOfDigits a.toList = Decimal.natOfDigits b.toList →
      a.length = b.length → ¬a < b := by
    intro hvalue hwidth hlt
    have htext : a = b := String.toList_inj.1 (Decimal.natOfDigits_inj hwidth ha hb hvalue)
    exact String.lt_irrefl a (htext ▸ hlt)
  simp only [compareIdentifiers, compareLex, compareOn, numericValue, numericWidth,
    isNumeric_eq_true.2 ha, isNumeric_eq_true.2 hb, if_true, Ordering.then_eq_lt,
    Nat.compare_eq_lt, Nat.compare_eq_eq, compare_text, id]
  have hkind : compare (!true) (!true) = .eq := rfl
  simp only [hkind, reduceCtorEq, false_or, true_and]
  constructor
  · intro h
    rcases h with h | ⟨hvalue, h | ⟨hwidth, h⟩⟩
    · exact .inl h
    · exact .inr ⟨hvalue, h⟩
    · exact absurd h (hsame hvalue hwidth)
  · exact fun h => h.imp_right fun h => ⟨h.1, .inl h.2⟩

theorem compareIdentifiers_words {a b : String} (ha : ¬IsDigits a) (hb : ¬IsDigits b) :
    compareIdentifiers a b = .lt ↔ a < b := by
  simp [compareIdentifiers, compareLex, compareOn, numericValue, numericWidth,
    isNumeric_eq_false.2 ha, isNumeric_eq_false.2 hb, compare_text]

theorem compareIdentifiers_mixed {a b : String} (ha : IsDigits a) (hb : ¬IsDigits b) :
    compareIdentifiers a b = .lt := by
  rw [compareIdentifiers, compareLex, compareOn, isNumeric_eq_true.2 ha, isNumeric_eq_false.2 hb]
  rfl

theorem compareIdentifiers_eq_lt {a b : String} : compareIdentifiers a b = .lt ↔ Lower a b := by
  constructor
  · intro h
    by_cases ha : IsDigits a <;> by_cases hb : IsDigits b
    · rcases (compareIdentifiers_digits ha hb).1 h with hlt | ⟨hvalue, hlt⟩
      · exact .value ha hb hlt
      · exact .width ha hb hvalue hlt
    · exact .kind ha hb
    · have hgt := Std.OrientedCmp.gt_of_lt (compareIdentifiers_mixed hb ha)
      rw [hgt] at h
      cases h
    · exact .word ha hb ((compareIdentifiers_words ha hb).1 h)
  · intro h
    cases h with
    | kind ha hb => exact compareIdentifiers_mixed ha hb
    | value ha hb hlt => exact (compareIdentifiers_digits ha hb).2 (.inl hlt)
    | width ha hb hvalue hlt => exact (compareIdentifiers_digits ha hb).2 (.inr ⟨hvalue, hlt⟩)
    | word ha hb hlt => exact (compareIdentifiers_words ha hb).2 hlt

/-- Of two lists the first place at which they differ decides, and the end of a list comes before
everything. -/
theorem compareLex_eq_lt {xs ys : List String} :
    List.compareLex compareIdentifiers xs ys = .lt ↔ List.Lex Lower xs ys := by
  induction xs generalizing ys with
  | nil =>
    cases ys with
    | nil => simp [List.compareLex_nil_nil]
    | cons y ys => simp [List.compareLex_nil_cons]
  | cons x xs ih =>
    cases ys with
    | nil => simp [List.compareLex_cons_nil]
    | cons y ys =>
      rw [List.compareLex_cons_cons, Ordering.then_eq_lt, ih, compareIdentifiers_eq_lt,
        Std.LawfulEqCmp.compare_eq_iff_eq, List.cons_lex_cons_iff]

/-! ### Versions -/

/-- The three numbers, the most important first. -/
def numbers (v : Version) : List Nat :=
  [v.major, v.minor, v.patch]

/-- One version comes before another. The numbers decide. If they are the same, a pre-release comes
before its release and pre-releases go by their identifiers; versions with one pre-release go by the
identifiers of their builds. -/
inductive Before (v w : Version) : Prop
  | numbers (lt : List.Lex (· < ·) v.numbers w.numbers)
  | release (numbers : v.numbers = w.numbers) (first : v.pre ≠ []) (second : w.pre = [])
  | pre (numbers : v.numbers = w.numbers) (first : v.pre ≠ []) (lt : List.Lex Lower v.pre w.pre)
  | build (numbers : v.numbers = w.numbers) (pre : v.pre = w.pre)
      (lt : List.Lex Lower v.build w.build)

theorem numbers_eq {v w : Version} :
    v.numbers = w.numbers ↔ v.major = w.major ∧ v.minor = w.minor ∧ v.patch = w.patch := by
  simp [numbers]

theorem numbers_lex {v w : Version} : List.Lex (· < ·) v.numbers w.numbers ↔
    v.major < w.major ∨ v.major = w.major ∧
      (v.minor < w.minor ∨ v.minor = w.minor ∧ v.patch < w.patch) := by
  simp [numbers, List.cons_lex_cons_iff]

theorem compare_isEmpty_eq_lt {xs ys : List String} :
    compare xs.isEmpty ys.isEmpty = .lt ↔ xs ≠ [] ∧ ys = [] := by
  have hbool : ∀ a b : Bool, compare a b = .lt ↔ a = false ∧ b = true := by decide
  rw [hbool, List.isEmpty_eq_false_iff, List.isEmpty_iff]

/-- Nothing comes before the list without identifiers, so both lists have some if the first has. -/
theorem isEmpty_of_lex {xs ys : List String} (hxs : xs ≠ []) (h : List.Lex Lower xs ys) :
    xs.isEmpty = ys.isEmpty := by
  cases h with
  | nil => exact absurd rfl hxs
  | rel => rfl
  | cons => rfl

theorem lt_iff {v w : Version} : v < w ↔ v.Before w := by
  change Version.compare v w = .lt ↔ _
  simp only [Version.compare, compareLex, compareOn, Ordering.then_eq_lt, Nat.compare_eq_lt,
    compareLex_eq_lt, compare_isEmpty_eq_lt, Std.LawfulEqCmp.compare_eq_iff_eq]
  constructor
  · intro h
    rcases h with h | ⟨hmajor, h | ⟨hminor, h | ⟨hpatch, h⟩⟩⟩
    · exact .numbers (numbers_lex.2 (.inl h))
    · exact .numbers (numbers_lex.2 (.inr ⟨hmajor, .inl h⟩))
    · exact .numbers (numbers_lex.2 (.inr ⟨hmajor, .inr ⟨hminor, h⟩⟩))
    · have hnumbers := numbers_eq.2 ⟨hmajor, hminor, hpatch⟩
      rcases h with h | ⟨hkind, h | ⟨hpre, h⟩⟩
      · exact .release hnumbers h.1 h.2
      · have hfirst : v.pre ≠ [] := by
          intro hv
          have hw : w.pre = [] := by simpa [hv] using hkind.symm
          rw [hv, hw] at h
          exact List.not_lex_nil h
        exact .pre hnumbers hfirst h
      · exact .build hnumbers hpre h
  · intro h
    cases h with
    | numbers h =>
      rcases numbers_lex.1 h with h | ⟨hmajor, h | ⟨hminor, h⟩⟩
      · exact .inl h
      · exact .inr ⟨hmajor, .inl h⟩
      · exact .inr ⟨hmajor, .inr ⟨hminor, .inl h⟩⟩
    | release hnumbers hfirst hsecond =>
      obtain ⟨hmajor, hminor, hpatch⟩ := numbers_eq.1 hnumbers
      exact .inr ⟨hmajor, .inr ⟨hminor, .inr ⟨hpatch, .inl ⟨hfirst, hsecond⟩⟩⟩⟩
    | pre hnumbers hfirst h =>
      obtain ⟨hmajor, hminor, hpatch⟩ := numbers_eq.1 hnumbers
      have hkind := isEmpty_of_lex hfirst h
      exact .inr ⟨hmajor, .inr ⟨hminor, .inr ⟨hpatch, .inr ⟨hkind, .inl h⟩⟩⟩⟩
    | build hnumbers hpre h =>
      obtain ⟨hmajor, hminor, hpatch⟩ := numbers_eq.1 hnumbers
      exact .inr ⟨hmajor, .inr ⟨hminor, .inr ⟨hpatch, .inr ⟨by rw [hpre], .inr ⟨hpre, h⟩⟩⟩⟩⟩

/-! ### The order is linear -/

instance (f : Version → List String) :
    Std.TransCmp fun v w => List.compareLex compareIdentifiers (f v) (f w) where
  eq_swap := Std.OrientedCmp.eq_swap
  isLE_trans := Std.TransCmp.isLE_trans

instance : Std.TransOrd Version :=
  inferInstanceAs (Std.TransCmp (compareLex (compareOn major) _))

theorem le_trans {u v w : Version} (huv : u ≤ v) (hvw : v ≤ w) : u ≤ w :=
  Std.TransCmp.isLE_trans huv hvw

theorem le_iff {v w : Version} : v ≤ w ↔ v = w ∨ v.Before w := by
  have heq : compare v w = .eq ↔ v = w := Std.LawfulEqCmp.compare_eq_iff_eq
  have hlt : compare v w = .lt ↔ v.Before w := lt_iff
  rw [← heq, ← hlt]
  change (compare v w).isLE ↔ _
  cases compare v w <;> simp

theorem not_before {v w : Version} : ¬v.Before w ↔ w ≤ v := by
  have hswap : compare v w = (compare w v).swap := Std.OrientedCmp.eq_swap
  rw [← lt_iff]
  change ¬compare v w = .lt ↔ (compare w v).isLE
  rw [hswap]
  cases compare w v <;> simp

theorem before_irrefl (v : Version) : ¬v.Before v :=
  not_before.2 (le_iff.2 (.inl rfl))

theorem Before.asymm {v w : Version} (h : v.Before w) : ¬w.Before v :=
  not_before.2 (le_iff.2 (.inr h))

theorem le_antisymm {v w : Version} (hvw : v ≤ w) (hwv : w ≤ v) : v = w :=
  (le_iff.1 hvw).resolve_right (not_before.2 hwv)

theorem Before.trans_le {u v w : Version} (huv : u.Before v) (hvw : v ≤ w) : u.Before w := by
  by_contra h
  exact not_before.2 (le_trans hvw (not_before.1 h)) huv

theorem before_of_le_of_before {u v w : Version} (huv : u ≤ v) (hvw : v.Before w) :
    u.Before w := by
  by_contra h
  exact not_before.2 (le_trans (not_before.1 h) huv) hvw

theorem before_trichotomy (v w : Version) : v.Before w ∨ v = w ∨ w.Before v := by
  by_cases h : v.Before w
  · exact .inl h
  · exact .inr ((le_iff.1 (not_before.1 h)).imp_left Eq.symm)

/-! ### The numbers along the order -/

theorem le_numbers {v w : Version} (h : v ≤ w) :
    v.major < w.major ∨ v.major = w.major ∧
      (v.minor < w.minor ∨ v.minor = w.minor ∧ v.patch ≤ w.patch) := by
  have hnumbers : v.numbers = w.numbers ∨ List.Lex (· < ·) v.numbers w.numbers := by
    rcases le_iff.1 h with rfl | h
    · exact .inl rfl
    · cases h with
      | numbers h => exact .inr h
      | release h => exact .inl h
      | pre h => exact .inl h
      | build h => exact .inl h
  rw [numbers_eq, numbers_lex] at hnumbers
  omega

/-- The first `n` of the three numbers are the same. -/
def Agree (n : Nat) (v w : Version) : Prop :=
  v.numbers.take n = w.numbers.take n

instance (n : Nat) (v w : Version) : Decidable (Agree n v w) :=
  inferInstanceAs (Decidable (v.numbers.take n = w.numbers.take n))

theorem agree_one {v w : Version} : Agree 1 v w ↔ v.major = w.major := by
  simp [Agree, numbers]

theorem agree_two {v w : Version} : Agree 2 v w ↔ v.major = w.major ∧ v.minor = w.minor := by
  simp [Agree, numbers]

theorem agree_three_add {n : Nat} {v w : Version} : Agree (n + 3) v w ↔ v.numbers = w.numbers := by
  simp [Agree, numbers]

/-- Versions between two that agree agree with both. -/
theorem Agree.between {a b d : Version} {n : Nat} (h : Agree n a d) (hab : a ≤ b) (hbd : b ≤ d) :
    Agree n b a := by
  have hlow := le_numbers hab
  have hhigh := le_numbers hbd
  rcases n with _ | _ | _ | n
  · rfl
  · rw [agree_one] at h ⊢
    omega
  · rw [agree_two] at h ⊢
    omega
  · rw [agree_three_add, numbers_eq] at h ⊢
    omega

end Version

end EarlyConfig
