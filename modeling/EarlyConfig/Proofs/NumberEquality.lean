import EarlyConfig.Proofs.Integers

/-! Equality of numbers. Two integers are compared as they are, but an integer and a floating point
number compare as the latter, so a large integer is equal to what it rounds to. Equality is
reflexive and symmetric; it is transitive unless a floating point number stands beside two different
integers that both round to it (`Clash`), and nothing else goes wrong (`Number.same_trans`). -/
namespace EarlyConfig

/-! ### Rounding -/

namespace Binary64

theorem toRat_round_neg_of_pos {q : Rat} (hq : 0 < q) :
    ((round (-q)).getD 0).toRat = -((round q).getD 0).toRat := by
  have hpos : ¬q < 0 := not_lt.2 hq.le
  have hneg : -q < 0 := neg_neg_of_pos hq
  rw [round, round, if_neg hneg.ne, if_neg hq.ne']
  simp only [hpos, hneg, if_true, if_false, neg_neg]
  split
  · rfl
  · rw [Option.getD_some, Option.getD_some, Dyadic.toRat_ofIntWithPrec_eq_mul_two_pow,
      Dyadic.toRat_ofIntWithPrec_eq_mul_two_pow, Int.cast_neg, neg_mul]

/-- Rounding does not look at the sign. -/
theorem toRat_round_neg (q : Rat) :
    ((round (-q)).getD 0).toRat = -((round q).getD 0).toRat := by
  rcases lt_trichotomy q 0 with hq | rfl | hq
  · have hround := toRat_round_neg_of_pos (neg_pos.2 hq)
    rw [neg_neg] at hround
    rw [hround, neg_neg]
  · rfl
  · exact toRat_round_neg_of_pos hq

section

variable {n : Nat} (hn : n ≠ 0)
include hn

theorem unitCount_pos : 0 < unitCount n := by
  have hbits : (2 : Rat) ^ (n.log2 : Int) ≤ n := by exact_mod_cast Nat.log2_self_le hn
  have hscale : (0 : Rat) < 2 ^ (52 - n.log2 : Int) := zpow_pos two_pos _
  have hlarge : (1 : Rat) ≤ n * 2 ^ (52 - n.log2 : Int) := by
    calc (1 : Rat) ≤ 2 ^ (52 : Int) := by norm_num
      _ = 2 ^ (n.log2 : Int) * 2 ^ (52 - n.log2 : Int) := by
        rw [← zpow_add₀ two_ne_zero, add_sub_cancel]
      _ ≤ n * 2 ^ (52 - n.log2 : Int) := mul_le_mul_of_nonneg_right hbits hscale.le
  have hfloor : 1 ≤ (n * (2 : Rat) ^ (52 - n.log2 : Int)).floor :=
    Rat.le_floor_iff.2 (by exact_mod_cast hlarge)
  exact lt_of_lt_of_le (by omega) (hfloor.trans (floor_le_nearestInt _))

/-- Nothing is lost of an integer of 53 bits. -/
theorem round_of_lt (hsmall : n.log2 ≤ 52) : ∃ x, round n = some x ∧ x.toRat = n := by
  obtain ⟨x, hx, hvalue⟩ := round_natCast hn (by omega)
  refine ⟨x, hx, ?_⟩
  have hwhole : (n : Rat) * 2 ^ (52 - n.log2 : Int) = ((n * 2 ^ (52 - n.log2) : Nat) : Int) := by
    have hexponent : (52 - n.log2 : Int) = ((52 - n.log2 : Nat) : Int) := by omega
    rw [hexponent]
    push_cast
    rw [zpow_natCast]
  rw [hvalue, unitCount, hwhole, nearestInt_intCast, ← hwhole, mul_assoc,
    ← zpow_add₀ two_ne_zero]
  simp

end

end Binary64

/-! ### Numbers in range -/

namespace Number

/-- A number that can be represented: integers are those kept exactly. -/
def InRange : Number → Prop
  | .int n => isExact n = true
  | .real _ => True

theorem ofDyadic_inRange (x : Dyadic) : (ofDyadic x).InRange := by
  unfold ofDyadic
  dsimp only
  split
  · rename_i h
    exact h.2
  · trivial

theorem signedInt?_inRange {cs : List Char} {n : Int} (h : signedInt? cs = some n) :
    (Number.int n).InRange := by
  have hbounds : -signedBound ≤ n ∧ n < signedBound := by
    unfold signedInt? at h
    obtain ⟨-, h⟩ := Option.ite_none_left_eq_some.1 h
    obtain ⟨hbounds, hn⟩ := Option.ite_none_right_eq_some.1 h
    rwa [← Option.some.inj hn]
  show (decide (-signedBound ≤ n) && decide (n < wordBound)) = true
  rw [Bool.and_eq_true, decide_eq_true_iff, decide_eq_true_iff]
  simp only [signedBound, wordBound] at hbounds ⊢
  omega

theorem ofText?_inRange {s : String} {n : Number} (h : ofText? s = some n) : n.InRange := by
  unfold ofText? at h
  dsimp only at h
  split at h
  · rename_i m hm
    cases h
    exact signedInt?_inRange hm
  · unfold signedReal? at h
    obtain ⟨d, -, hd⟩ := Option.bind_eq_some_iff.1 h
    obtain ⟨x, -, rfl⟩ := Option.map_eq_some_iff.1 hd
    exact ofDyadic_inRange _

/-! ### Floating point values -/

theorem toReal_neg (n : Int) : toReal (.int (-n)) = -toReal (.int n) := by
  have hround := Binary64.toRat_round_neg n
  rw [← Int.cast_neg] at hround
  exact hround

theorem toReal_natCast {n : Nat} {x : Dyadic} (h : Binary64.round n = some x) :
    toReal (.int n) = x.toRat := by
  have hround : Binary64.round ((n : Int) : Rat) = some x := h
  rw [toReal, hround, Option.getD_some]

theorem toReal_natCast_pos {n : Nat} (hn : n ≠ 0) (hbits : n.log2 ≤ 63) :
    0 < toReal (.int n) := by
  obtain ⟨x, hx, hvalue⟩ := Binary64.round_natCast hn hbits
  have hcount : (0 : Rat) < Binary64.unitCount n := by
    exact_mod_cast Binary64.unitCount_pos hn
  rw [toReal_natCast hx, hvalue]
  exact mul_pos hcount (zpow_pos two_pos _)

theorem log2_natAbs_of_isExact {n : Int} (h : isExact n = true) : n.natAbs.log2 ≤ 63 := by
  by_cases hn : n.natAbs = 0
  · rw [hn]
    decide
  · have hrange : -signedBound ≤ n ∧ n < wordBound := by simpa [isExact] using h
    simp only [signedBound, wordBound] at hrange
    have hlt : n.natAbs.log2 < 64 := (Nat.log2_lt hn).2 (by omega)
    omega

/-- Rounding keeps the sign. -/
theorem toReal_pos {n : Int} (h : isExact n = true) (hn : 0 < n) : 0 < toReal (.int n) := by
  have hbits := log2_natAbs_of_isExact h
  obtain ⟨k, rfl⟩ := Int.eq_ofNat_of_zero_le hn.le
  exact toReal_natCast_pos (by omega) hbits

theorem toReal_neg_of_neg {n : Int} (h : isExact n = true) (hn : n < 0) :
    toReal (.int n) < 0 := by
  have hbits := log2_natAbs_of_isExact h
  obtain ⟨k, hk⟩ := Int.eq_ofNat_of_zero_le (neg_nonneg.2 hn.le)
  have hpos : 0 < toReal (.int (-n)) := by
    rw [hk]
    refine toReal_natCast_pos (by omega) ?_
    rwa [← Int.natAbs_neg, hk] at hbits
  rw [toReal_neg] at hpos
  linarith

theorem toReal_nonneg {n : Int} (h : isExact n = true) (hn : 0 ≤ n) : 0 ≤ toReal (.int n) := by
  rcases hn.eq_or_lt with rfl | hn
  · exact le_rfl
  · exact (toReal_pos h hn).le

/-- Integers of 53 bits are floating point numbers. -/
theorem toReal_of_natAbs_lt {n : Int} (h : n.natAbs < 2 ^ 53) : toReal (.int n) = n := by
  have hnat : ∀ k : Nat, k < 2 ^ 53 → toReal (.int k) = ((k : Int) : Rat) := by
    intro k hk
    by_cases hzero : k = 0
    · subst hzero
      rfl
    · have hbits : k.log2 < 53 := (Nat.log2_lt hzero).2 hk
      obtain ⟨x, hx, hvalue⟩ := Binary64.round_of_lt hzero (by omega)
      rw [toReal_natCast hx, hvalue, Int.cast_natCast]
  obtain ⟨k, rfl | rfl⟩ := Int.eq_nat_or_neg n
  · exact hnat k (by omega)
  · rw [toReal_neg, hnat k (by omega), Int.cast_neg]

/-! ### Equality -/

/-- Integers are compared as they are. -/
theorem same_int {m n : Int} (hm : isExact m = true) (hn : isExact n = true) :
    (Number.int m).same (.int n) = true ↔ m = n := by
  by_cases hsign : (m < 0) = (n < 0)
  · simp [same, alikeInts, hsign]
  · have hne : m ≠ n := fun heq => hsign (heq ▸ rfl)
    have hreal : toReal (.int m) ≠ toReal (.int n) := by
      by_cases hneg : m < 0
      · have hpos : 0 ≤ n := by
          refine not_lt.1 fun hlt => hsign ?_
          simp [hneg, hlt]
        exact ((toReal_neg_of_neg hm hneg).trans_le (toReal_nonneg hn hpos)).ne
      · have hlt : n < 0 := by
          refine not_le.1 fun hle => hsign ?_
          simp [hneg, not_lt.2 hle]
        exact ((toReal_neg_of_neg hn hlt).trans_le (toReal_nonneg hm (not_lt.1 hneg))).ne'
    simp [same, alikeInts, hsign, hne, hreal]

theorem same_int_real {m : Int} {x : Dyadic} :
    (Number.int m).same (.real x) = true ↔ toReal (.int m) = x.toRat :=
  decide_eq_true_iff

theorem same_real {x y : Dyadic} : (Number.real x).same (.real y) = true ↔ x.toRat = y.toRat :=
  decide_eq_true_iff

theorem same_refl (a : Number) : a.same a = true := by
  cases a <;> simp [same, alikeInts]

theorem same_comm (a b : Number) : a.same b = b.same a := by
  cases a with
  | int m =>
    cases b with
    | int n => by_cases hsign : (m < 0) = (n < 0) <;> simp [same, alikeInts, hsign, eq_comm]
    | real y => simp [same, alikeInts, eq_comm]
  | real x => cases b <;> simp [same, alikeInts, eq_comm]

/-- Two different integers that round to one floating point number, which is there as well. -/
def Clash (N : Number → Prop) : Prop :=
  ∃ m n x, m ≠ n ∧ N (.int m) ∧ N (.int n) ∧ N (.real x) ∧
    toReal (.int m) = x.toRat ∧ toReal (.int n) = x.toRat

/-- Integers of 53 bits do not clash. -/
theorem not_clash {N : Number → Prop} (hN : ∀ n, N (.int n) → n.natAbs < 2 ^ 53) : ¬Clash N := by
  rintro ⟨m, n, x, hne, hm, hn, -, hmx, hnx⟩
  rw [toReal_of_natAbs_lt (hN m hm)] at hmx
  rw [toReal_of_natAbs_lt (hN n hn)] at hnx
  exact hne (by exact_mod_cast hmx.trans hnx.symm)

/-- Without a clash, equality is transitive. -/
theorem same_trans {N : Number → Prop} (hN : ∀ n, N n → n.InRange) (hclash : ¬Clash N)
    {a b c : Number} (ha : N a) (hb : N b) (hc : N c) (hab : a.same b = true)
    (hbc : b.same c = true) : a.same c = true := by
  cases b with
  | int n =>
    -- An integer equals no other integer, so an equal one may stand in its place.
    cases a with
    | int m => rwa [(same_int (hN _ ha) (hN _ hb)).1 hab]
    | real x =>
      cases c with
      | int k => rwa [← (same_int (hN _ hb) (hN _ hc)).1 hbc]
      | real y =>
        rw [same_comm, same_int_real] at hab
        exact same_real.2 (hab.symm.trans (same_int_real.1 hbc))
  | real x =>
    cases a with
    | int m =>
      rw [same_int_real] at hab
      cases c with
      | int k =>
        rw [same_comm, same_int_real] at hbc
        by_cases heq : m = k
        · rw [heq]
          exact same_refl _
        · exact absurd ⟨m, k, x, heq, ha, hc, hb, hab, hbc⟩ hclash
      | real y => exact same_int_real.2 (hab.trans (same_real.1 hbc))
    | real w =>
      rw [same_real] at hab
      cases c with
      | int k =>
        rw [same_comm, same_int_real] at hbc ⊢
        exact hbc.trans hab.symm
      | real y => exact same_real.2 (hab.trans (same_real.1 hbc))

end Number

end EarlyConfig
