import EarlyConfig.Proofs.Conversion
import EarlyConfig.Proofs.Text
import Mathlib.Data.Rat.Floor
import Mathlib.Tactic.Linarith

/-! Integers that are turned into text and read again. The text has all digits of an integer, and
an integer of 63 bits and a sign is read as it stands. A larger one is read as a floating point
number, which has room for the first 53 of its 64 bits, so it comes back exactly if the other eleven
are zero (`Value.integer_text_iff`). -/
namespace EarlyConfig

/-! ### Rounding -/

namespace Binary64

theorem nearestInt_intCast (n : Int) : nearestInt n = n := by
  simp [nearestInt]

theorem nearestInt_le (q : Rat) : (nearestInt q : Rat) ≤ q + 1 := by
  have hnext : nearestInt q ≤ q.floor + 1 := by
    unfold nearestInt
    dsimp only
    split_ifs <;> omega
  have hcast : (nearestInt q : Rat) ≤ (q.floor : Rat) + 1 := by exact_mod_cast hnext
  have hfloor : (q.floor : Rat) ≤ q := Rat.floor_le q
  linarith

theorem floor_le_nearestInt (q : Rat) : q.floor ≤ nearestInt q := by
  unfold nearestInt
  dsimp only
  split_ifs <;> omega

theorem binaryExponent_natCast {n : Nat} (hn : n ≠ 0) : binaryExponent n = n.log2 := by
  have hone : Nat.log2 1 = 0 := by decide
  have hle : (2 : Rat) ^ n.log2 ≤ n := by exact_mod_cast Nat.log2_self_le hn
  simp [binaryExponent, hone, hle]

theorem unitExponent_natCast {n : Nat} (hn : n ≠ 0) : unitExponent n = n.log2 - 52 := by
  rw [unitExponent, binaryExponent_natCast hn]
  omega

/-- How many units an integer comes to when 53 bits are left of it. -/
def unitCount (n : Nat) : Int :=
  nearestInt (n * (2 : Rat) ^ (52 - n.log2 : Int))

/-- Rounding up adds one unit at most. -/
theorem unitCount_mul_le (n : Nat) :
    unitCount n * (2 : Rat) ^ (n.log2 - 52 : Int) ≤ n + 2 ^ (n.log2 - 52 : Int) := by
  have hcount := nearestInt_le (n * (2 : Rat) ^ (52 - n.log2 : Int))
  have hunit : (0 : Rat) < 2 ^ (n.log2 - 52 : Int) := zpow_pos two_pos _
  have hinverse : (2 : Rat) ^ (52 - n.log2 : Int) * 2 ^ (n.log2 - 52 : Int) = 1 := by
    rw [← zpow_add₀ two_ne_zero]
    simp
  calc unitCount n * (2 : Rat) ^ (n.log2 - 52 : Int)
      ≤ (n * (2 : Rat) ^ (52 - n.log2 : Int) + 1) * 2 ^ (n.log2 - 52 : Int) :=
        mul_le_mul_of_nonneg_right hcount hunit.le
    _ = n + 2 ^ (n.log2 - 52 : Int) := by rw [add_mul, mul_assoc, hinverse, mul_one, one_mul]

section
variable {n : Nat} (hn : n ≠ 0) (hbits : n.log2 ≤ 63)
include hn hbits

/-- An integer of up to 64 bits stays far below the largest number there is. -/
theorem unitCount_fits :
    ¬(2 : Rat) ^ (1024 : Int) ≤ unitCount n * (2 : Rat) ^ (n.log2 - 52 : Int) := by
  have hle := unitCount_mul_le n
  have hbound : (n : Rat) < 2 ^ (64 : Int) := by
    have hlt : n < 2 ^ 64 := (Nat.log2_lt hn).1 (by omega)
    exact_mod_cast hlt
  have hunit : (2 : Rat) ^ (n.log2 - 52 : Int) ≤ 2 ^ (64 : Int) :=
    zpow_le_zpow_right₀ (by norm_num) (by omega)
  have hlarge : (2 : Rat) ^ (65 : Int) ≤ 2 ^ (1024 : Int) :=
    zpow_le_zpow_right₀ (by norm_num) (by norm_num)
  refine not_le.2 (hle.trans_lt (lt_of_lt_of_le (add_lt_add_of_lt_of_le hbound hunit) ?_))
  refine le_trans (le_of_eq ?_) hlarge
  norm_num

theorem round_natCast :
    ∃ x, round n = some x ∧ x.toRat = unitCount n * (2 : Rat) ^ (n.log2 - 52 : Int) := by
  have hsize : ¬(n : Rat) < 0 := by simp
  have hscale : -(n.log2 - 52 : Int) = 52 - n.log2 := by omega
  have hcount : nearestInt (n * (2 : Rat) ^ (52 - n.log2 : Int)) = unitCount n := rfl
  rw [round]
  simp only [Nat.cast_eq_zero, hn, if_false, hsize, unitExponent_natCast hn, hscale, hcount,
    unitCount_fits hn hbits]
  refine ⟨_, rfl, ?_⟩
  rw [Dyadic.toRat_ofIntWithPrec_eq_mul_two_pow]
  congr 2
  omega

end

section
variable {n : Nat} (h : n.log2 = 63)
include h

theorem ne_zero_of_log2 : n ≠ 0 := by
  rintro rfl
  simp at h

/-- What is left of 64 bits is a multiple of the unit. -/
theorem round_of_log2 :
    ∃ x, round n = some x ∧ x.toRat = nearestInt (n / 2048 : Rat) * 2048 := by
  obtain ⟨x, hx, hvalue⟩ := round_natCast (ne_zero_of_log2 h) (Nat.le_of_eq h)
  refine ⟨x, hx, ?_⟩
  rw [hvalue, unitCount, h]
  norm_num [zpow_neg, div_eq_mul_inv]

/-- An integer of 64 bits is a floating point number just if its last eleven bits are zero. -/
theorem round_exact_iff : ∃ x, round n = some x ∧ (x.toRat = n ↔ 2048 ∣ n) := by
  obtain ⟨x, hx, hvalue⟩ := round_of_log2 h
  refine ⟨x, hx, ?_⟩
  rw [hvalue]
  constructor
  · intro heq
    have hint : nearestInt (n / 2048 : Rat) * 2048 = n := by exact_mod_cast heq
    exact_mod_cast (Dvd.intro_left _ hint : (2048 : Int) ∣ n)
  · rintro ⟨k, rfl⟩
    have hcount : ((2048 * k : Nat) : Rat) / 2048 = ((k : Int) : Rat) := by
      push_cast
      ring
    rw [hcount, nearestInt_intCast]
    push_cast
    ring

end

end Binary64

/-! ### Digits -/

namespace Decimal

theorem isDigit_of_mem {n : Nat} {c : Char} (h : c ∈ Nat.toDigits 10 n) : c.isDigit = true :=
  Nat.isDigit_of_mem_toDigits (by decide) (by decide) h

theorem splitSign_toDigits (n : Nat) :
    splitSign (Nat.toDigits 10 n) = (false, Nat.toDigits 10 n) := by
  unfold splitSign
  split
  · rename_i hcs
    have hsign : Char.isDigit '-' = true := isDigit_of_mem (n := n) (by rw [hcs]; simp)
    cases hsign
  · rename_i hcs
    have hsign : Char.isDigit '+' = true := isDigit_of_mem (n := n) (by rw [hcs]; simp)
    cases hsign
  · rfl

theorem ofText?_toDigits (n : Nat) : ofText? (Nat.toDigits 10 n) = some ⟨n, 0⟩ := by
  have hall : ∀ c ∈ Nat.toDigits 10 n, c.isDigit = true := fun c => isDigit_of_mem
  have hwhole : (Nat.toDigits 10 n).takeWhile Char.isDigit = Nat.toDigits 10 n :=
    List.takeWhile_eq_self_iff.2 hall
  have hrest : (Nat.toDigits 10 n).dropWhile Char.isDigit = [] := List.dropWhile_eq_nil_iff.2 hall
  simp [ofText?, hwhole, hrest, exponent?, natOfDigits, Nat.toDigits_ne_nil]

theorem round_natCast {n : Nat} (hn : n ≠ 0) (hlen : (Nat.toDigits 10 n).length ≤ 330) :
    Decimal.round ⟨n, 0⟩ = Binary64.round n := by
  have hlow : ¬(n = 0 ∨ ((Nat.toDigits 10 n).length : Int) + 0 < -330) := by omega
  have hhigh : ¬(330 < ((Nat.toDigits 10 n).length : Int) + 0) := by omega
  rw [Decimal.round]
  simp only [hlow, hhigh, if_false]
  simp [value]

end Decimal

/-! ### Text -/

namespace Number

theorem splitSign_intText (n : Int) :
    Decimal.splitSign (intText n) = (decide (n < 0), Nat.toDigits 10 n.natAbs) := by
  unfold intText
  by_cases h : n < 0
  · simp [h, Decimal.splitSign]
  · simp [h, Decimal.splitSign_toDigits]

theorem stripBoth_intText (n : Int) : Text.stripBoth Text.isBlank (intText n) = intText n := by
  refine Text.stripBoth_eq_self fun c hc => Text.not_isBlank ?_
  unfold intText at hc
  have hdigit : c ∈ Nat.toDigits 10 n.natAbs → c.isAlphanum = true := fun h => by
    simp [Char.isAlphanum, Decimal.isDigit_of_mem h]
  split at hc
  · rcases List.mem_cons.1 hc with rfl | hc
    · exact .inr rfl
    · exact .inl (hdigit hc)
  · exact .inl (hdigit hc)

theorem signedInt?_intText (n : Int) :
    signedInt? (intText n) = if -signedBound ≤ n ∧ n < signedBound then some n else none := by
  have hall : (Nat.toDigits 10 n.natAbs).all Char.isDigit = true :=
    List.all_eq_true.2 fun c => Decimal.isDigit_of_mem
  have hnonempty : (Nat.toDigits 10 n.natAbs).isEmpty = false := by simp [Nat.toDigits_ne_nil]
  have hsize : (Decimal.natOfDigits (Nat.toDigits 10 n.natAbs) : Int) = n.natAbs := by
    rw [Decimal.natOfDigits, Nat.ofDigitChars_ten_toDigits]
  have hvalue : (if n < 0 then -(n.natAbs : Int) else n.natAbs) = n := by omega
  simp only [signedInt?, splitSign_intText, hall, hnonempty, hsize, decide_eq_true_eq, hvalue]
  rfl

theorem signedReal?_toDigits {n : Nat} (hn : n.log2 = 63) :
    signedReal? (Nat.toDigits 10 n) = (Binary64.round n).map ofDyadic := by
  have hne := Binary64.ne_zero_of_log2 hn
  have hlen : (Nat.toDigits 10 n).length ≤ 20 := by
    rw [Nat.length_toDigits_le_iff (by decide) (by decide)]
    exact Nat.lt_trans ((Nat.log2_eq_iff hne).1 hn).2 (by decide)
  rw [signedReal?, Decimal.splitSign_toDigits]
  simp [Decimal.ofText?_toDigits, Decimal.round_natCast hne (by omega)]

theorem ofDyadic_eq_int {x : Dyadic} {n : Int} (hn : isExact n = true) :
    ofDyadic x = .int n ↔ x.toRat = n := by
  unfold ofDyadic
  constructor
  · intro h
    dsimp only at h
    split at h
    · rename_i hx
      cases h
      exact (Rat.den_eq_one_iff _).1 hx.1 |>.symm
    · cases h
  · intro h
    simp [h, hn]

/-- An integer is read back from its text exactly, unless it takes all 64 bits and more than 53 of
them count. -/
theorem ofText?_text {n : Int} (hn : isExact n = true) :
    ∃ m, ofText? (Number.int n).text = some m ∧ (m = .int n ↔ n < signedBound ∨ 2048 ∣ n) := by
  have hexact : -signedBound ≤ n ∧ n < wordBound := by simpa [isExact] using hn
  by_cases hsigned : n < signedBound
  · have hread : signedInt? (intText n) = some n := by
      rw [signedInt?_intText, if_pos ⟨hexact.1, hsigned⟩]
    refine ⟨.int n, ?_, by simp [hsigned]⟩
    simp [ofText?, text, render, stripBoth_intText, hread]
  · -- From `2 ^ 63` on the text is no signed integer, and is read as a floating point number.
    have hnone : signedInt? (intText n) = none := by
      rw [signedInt?_intText, if_neg fun h => hsigned h.2]
    simp only [signedBound, wordBound] at hsigned hexact
    obtain ⟨k, rfl⟩ : ∃ k : Nat, n = k := Int.eq_ofNat_of_zero_le (by omega)
    have hlog : k.log2 = 63 := (Nat.log2_eq_iff (by omega)).2 (by omega)
    have htext : intText k = Nat.toDigits 10 k := by simp [intText]
    obtain ⟨x, hx, hsame⟩ := Binary64.round_exact_iff hlog
    refine ⟨ofDyadic x, ?_, ?_⟩
    · have hreal := signedReal?_toDigits hlog
      rw [hx, ← htext] at hreal
      simp [ofText?, text, render, stripBoth_intText, hnone, hreal]
    · rw [ofDyadic_eq_int hn]
      simp only [signedBound, hsigned, false_or]
      exact_mod_cast hsame

end Number

/-! ### Conversion -/

namespace Value

/-- **Integers survive a detour through text up to 53 bits.** An integer becomes the text of all its
digits, which always converts back to a number. It is the same integer just if it is smaller than
`2 ^ 63` or a multiple of `2 ^ 11`. -/
theorem integer_text_iff {n : Int} (hn : Number.isExact n = true) :
    convert .string (.number (.int n)) = .ok (.text (Number.int n).text) ∧
      ∃ m, convert .number (.text (Number.int n).text) = .ok (.number m) ∧
        (m = .int n ↔ n < Number.signedBound ∨ 2048 ∣ n) := by
  obtain ⟨m, hm, hsame⟩ := Number.ofText?_text hn
  refine ⟨convert_string rfl, m, ?_, hsame⟩
  rw [convert_number rfl, toNumber, hm]

theorem integer_text_iff_largest :
    Number.isExact 18446744073709549568 = true ∧
      convert .number (.text "18446744073709549568") =
        .ok (.number (.int 18446744073709549568)) := by
  have hn : Number.isExact 18446744073709549568 = true := by decide
  obtain ⟨htext, m, hm, hsame⟩ := integer_text_iff hn
  have hback : m = .int 18446744073709549568 := hsame.2 (.inr (by decide))
  subst hback
  exact ⟨hn, hm⟩

/-- One more than `2 ^ 63` comes back as `2 ^ 63`. -/
theorem integer_text_rounds :
    convert .string (.number (.int 9223372036854775809)) = .ok (.text "9223372036854775809") ∧
      convert .number (.text "9223372036854775809") = .ok (.number (.int 9223372036854775808)) := by
  have hread : Number.ofText? "9223372036854775809" = some (.int 9223372036854775808) := by
    decide +kernel
  refine ⟨rfl, ?_⟩
  rw [convert_number rfl, toNumber, hread]

end Value

end EarlyConfig
