import Mathlib

/-!
# Rounding Whole Numbers

Why floats compute with whole numbers as if there were no rounding, up to `2 ^ 53`.

A float has a significand of fifty-three bits, the first of which is a one, and an exponent
that says how many places it is moved. A whole number that has no more bits than that fits,
and it is written with zeros behind its bits, so that the first one is in its place. This is
`unpacked`. It holds for `2 ^ 53` too, which has one bit more but ends with a zero.

An operation computes an exact result first, with as many bits as it takes, and rounds that.
The exact result has the bits of a whole number once more, but with a different number of
zeros behind them: a product of two significands has too many, a difference has too few. So
everything comes down to one statement about rounding. However many zeros stand behind a
whole number, what rounding makes of it is the whole number with its own zeros.

## Main definitions

* `Whole.significand`: The significand of a whole number.
* `Whole.unpacked`: A whole number as a sign, a significand and an exponent.

## Theorems

* `Whole.two_pow_mul_significand`: The significand holds all bits.
* `Whole.roundWithAccuracy_exact`: Rounding changes nothing if only zeros have to go.
* `Whole.round_whole`, `Whole.normalize_whole`: A whole number is rounded to itself.
* `Whole.neg_unpacked`, `Whole.mul_unpacked`, `Whole.exists_add_unpacked`: The operations
  are exact as long as the result is small enough.
-/

namespace LineCalc

namespace Whole

open Float.Model Float.Model.UnpackedFloat

/-- The significand of a whole number: its bits, with the first of them where floats have it. -/
def significand (n : Nat) : Nat :=
  n * 2 ^ 52 / 2 ^ n.log2

/-- A whole number with a sign, in the form in which floats are computed with. -/
def unpacked (s : Sign) (n : Nat) : UnpackedFloat :=
  if h : 0 < significand n then .finite s (significand n) (n.log2 - 52) h else .zero s

section

variable {n m k d : Nat} {e : Int} {s : Sign}

/-- The first bit of a significand is a one. -/
theorem le_significand (hn : n ≠ 0) : 2 ^ 52 ≤ significand n := by
  have hlow : 2 ^ n.log2 ≤ n := Nat.log2_self_le hn
  rw [significand, Nat.le_div_iff_mul_le (Nat.two_pow_pos _), Nat.mul_comm]
  exact Nat.mul_le_mul_right _ hlow

/-- There are at most fifty-two bits behind it. -/
theorem significand_lt (n : Nat) : significand n < 2 ^ 53 := by
  have hhigh : n < 2 ^ (n.log2 + 1) := Nat.lt_log2_self
  rw [significand, Nat.div_lt_iff_lt_mul (Nat.two_pow_pos _)]
  calc n * 2 ^ 52 < 2 ^ (n.log2 + 1) * 2 ^ 52 := Nat.mul_lt_mul_of_pos_right hhigh (by norm_num)
    _ = 2 ^ 53 * 2 ^ n.log2 := by ring

theorem log2_le_of_le (hn : n ≤ 2 ^ 53) : n.log2 ≤ 53 := by
  by_cases h0 : n = 0
  · subst h0
    exact Nat.zero_le _
  · exact Nat.lt_succ_iff.1 ((Nat.log2_lt h0).2 (by omega))

/-- The significand holds all bits of a whole number that is not larger than `2 ^ 53`. -/
theorem two_pow_mul_significand (hn : n ≤ 2 ^ 53) :
    2 ^ n.log2 * significand n = n * 2 ^ 52 := by
  refine Nat.mul_div_cancel' ?_
  rcases Nat.lt_or_eq_of_le (log2_le_of_le hn) with hlt | heq
  · exact Dvd.dvd.mul_left (pow_dvd_pow 2 (by omega)) n
  · -- Only `2 ^ 53` itself has so many bits.
    have h0 : n ≠ 0 := by
      rintro rfl
      cases heq
    have hlow : 2 ^ n.log2 ≤ n := Nat.log2_self_le h0
    rw [heq] at hlow ⊢
    rw [Nat.le_antisymm hn hlow]
    exact Nat.dvd_mul_right _ _

theorem significand_pos (hn : n ≠ 0) : 0 < significand n :=
  Nat.lt_of_lt_of_le (by norm_num) (le_significand hn)

theorem unpacked_of_ne_zero (hn : n ≠ 0) : unpacked s n =
    .finite s (significand n) (n.log2 - 52) (significand_pos hn) :=
  dif_pos (significand_pos hn)

theorem unpacked_zero : unpacked s 0 = .zero s :=
  rfl

/-- Shifting out zeros loses nothing. -/
theorem shiftRight_mul_two_pow (m k : Nat) :
    (⟨m * 2 ^ k, false, false⟩ : ExtendedMantissa) >>> k = ⟨m, false, false⟩ := by
  change Nat.repeat ExtendedMantissa.shiftRightOne k ⟨m * 2 ^ k, false, false⟩ = _
  induction k generalizing m with
  | zero => simp [Nat.repeat]
  | succ k ih =>
      have hsplit : m * 2 ^ (k + 1) = m * 2 * 2 ^ k := by ring
      rw [Nat.repeat, hsplit, ih]
      simp [ExtendedMantissa.shiftRightOne]

theorem log2_mul_two_pow (hn : n ≠ 0) (k : Nat) : (n * 2 ^ k).log2 = n.log2 + k := by
  rw [Nat.log2_eq_iff (by positivity)]
  constructor
  · rw [pow_add]
    exact Nat.mul_le_mul_right _ (Nat.log2_self_le hn)
  · have hpow : 2 ^ (n.log2 + k + 1) = 2 ^ (n.log2 + 1) * 2 ^ k := by ring
    rw [hpow]
    exact Nat.mul_lt_mul_of_pos_right Nat.lt_log2_self (Nat.two_pow_pos k)

theorem log2_of_significand (hm : 2 ^ 52 ≤ m) (hm' : m < 2 ^ 53) : m.log2 = 52 :=
  (Nat.log2_eq_iff (by omega)).2 ⟨hm, hm'⟩

/-- The target exponent is just so much larger as there are zeros to be moved out. -/
theorem shiftToTargetExponent_exact (hm : 2 ^ 52 ≤ m) (hm' : m < 2 ^ 53) (he : -1074 ≤ e + k) :
    shiftToTargetExponent .binary64 (m * 2 ^ k) e .exact = (⟨m, false, false⟩, e + k) := by
  have htarget : Format.binary64.targetExponent (totalExponent (m * 2 ^ k) e) = e + k := by
    rw [totalExponent, log2_mul_two_pow (by omega), log2_of_significand hm hm',
      Format.targetExponent]
    simp only [Format.mantissaBits, Format.minExponent]
    omega
  have hshift : (e + k - e).toNat = k := by omega
  rw [shiftToTargetExponent, htarget, shiftToExponent]
  simp only [hshift, ExtendedMantissa.ofMantissaAndAccuracy, shiftRight_mul_two_pow]

/-- Rounding changes nothing if the bits that have to go are zeros. -/
theorem roundWithAccuracy_exact (hm : 2 ^ 52 ≤ m) (hm' : m < 2 ^ 53) (he : -1074 ≤ e + k)
    (h : 0 < m) :
    roundWithAccuracy .binary64 s (m * 2 ^ k) e .exact = .finite s m (e + k) h := by
  have hfirst := shiftToTargetExponent_exact hm hm' he
  -- The second move finds the significand in its place.
  have hsecond : shiftToTargetExponent .binary64 m (e + k) .exact = (⟨m, false, false⟩, e + k) := by
    have hstay := shiftToTargetExponent_exact (e := e + k) (k := 0) hm hm' (by simpa using he)
    simpa using hstay
  have hne : m ≠ 0 := by omega
  simp only [roundWithAccuracy, hfirst, ExtendedMantissa.roundedMantissa,
    ExtendedMantissa.accuracy, Accuracy.roundToNearestEven, hsecond, hne, dite_false]

/-- A significand with zeros behind it is its number with zeros behind it. -/
theorem significand_mul_two_pow (hn : n ≤ 2 ^ 53) (hd : 52 ≤ n.log2 + d) :
    significand n * 2 ^ (n.log2 + d - 52) = n * 2 ^ d := by
  refine Nat.eq_of_mul_eq_mul_right (Nat.two_pow_pos 52) ?_
  calc significand n * 2 ^ (n.log2 + d - 52) * 2 ^ 52
      = significand n * 2 ^ (n.log2 + d) := by
        rw [mul_assoc, ← pow_add, Nat.sub_add_cancel hd]
    _ = 2 ^ n.log2 * significand n * 2 ^ d := by ring
    _ = n * 2 ^ 52 * 2 ^ d := by rw [two_pow_mul_significand hn]
    _ = n * 2 ^ d * 2 ^ 52 := by ring

/-- A whole number with enough zeros behind it is rounded to its own significand. -/
theorem roundWithAccuracy_whole (h0 : n ≠ 0) (hn : n ≤ 2 ^ 53) (hd : 52 ≤ n.log2 + d) :
    roundWithAccuracy .binary64 s (n * 2 ^ d) (-d) .exact = unpacked s n := by
  have hexponent : -(d : Int) + (n.log2 + d - 52 : Nat) = n.log2 - 52 := by omega
  rw [← significand_mul_two_pow hn hd, roundWithAccuracy_exact (le_significand h0)
    (significand_lt n) (by omega) (significand_pos h0), unpacked_of_ne_zero h0]
  simp only [hexponent]

/-- A whole number is rounded to itself, however many zeros stand behind its bits. -/
theorem round_whole (h0 : n ≠ 0) (hn : n ≤ 2 ^ 53) :
    UnpackedFloat.round .binary64 s (n * 2 ^ d) (-d) = unpacked s n := by
  have htarget : Format.binary64.targetExponent (totalExponent (n * 2 ^ d) (-d)) =
      n.log2 - 52 := by
    rw [totalExponent, log2_mul_two_pow h0, Format.targetExponent]
    simp only [Format.mantissaBits, Format.minExponent]
    omega
  -- Zeros are added if there are not yet enough bits for a significand.
  have hshift : (-(d : Int) - (n.log2 - 52)).toNat = 52 - (n.log2 + d) := by omega
  have hexponent : -(d : Int) - (52 - (n.log2 + d) : Nat) =
      -((d + (52 - (n.log2 + d)) : Nat) : Int) := by omega
  rw [UnpackedFloat.round, htarget]
  simp only [decreaseExponent, hshift, Nat.shiftLeft_eq, hexponent]
  rw [mul_assoc, ← pow_add]
  exact roundWithAccuracy_whole h0 hn (by omega)

/-- The sign of a whole number, positive for zero. -/
def signOf (z : Int) : Sign :=
  if z < 0 then .negative else .positive

theorem apply_signOf (z : Int) : (signOf z).apply z.natAbs = z := by
  unfold signOf
  split <;> simp only [Sign.apply] <;> omega

/-- An integer is rounded to its size, and keeps its sign. -/
theorem normalize_whole {z : Int} (hz : z.natAbs ≤ 2 ^ 53) :
    UnpackedFloat.normalize .binary64 (z * 2 ^ d) (-d) .positive =
      unpacked (signOf z) z.natAbs := by
  have hpow : (0 : Int) < 2 ^ d := by positivity
  -- The sign is taken off before rounding, and a zero is positive.
  rcases lt_trichotomy z 0 with hneg | rfl | hpos
  · have hlt : z * 2 ^ d < 0 := Int.mul_neg_of_neg_of_pos hneg hpow
    have hnat : (-(z * 2 ^ d)).toNat = z.natAbs * 2 ^ d := by
      zify
      rw [Int.toNat_of_nonneg (by omega), abs_of_neg hneg, neg_mul]
    rw [UnpackedFloat.normalize, compare_lt_iff_lt.2 hlt]
    simp only [hnat, signOf, if_pos hneg]
    exact round_whole (by omega) hz
  · rw [zero_mul]
    rfl
  · have hgt : 0 < z * 2 ^ d := Int.mul_pos hpos hpow
    have hnat : (z * 2 ^ d).toNat = z.natAbs * 2 ^ d := by
      zify
      rw [Int.toNat_of_nonneg (by omega), abs_of_pos hpos]
    rw [UnpackedFloat.normalize, compare_gt_iff_gt.2 hgt]
    simp only [hnat, signOf, if_neg (not_lt.2 hpos.le)]
    exact round_whole (by omega) hz

variable {a b : Nat} {t : Sign}

theorem neg_unpacked : (unpacked s n).neg = unpacked (-s) n := by
  by_cases h0 : n = 0
  · subst h0
    rfl
  · rw [unpacked_of_ne_zero h0, unpacked_of_ne_zero h0]
    rfl

/-- Products of whole numbers are exact, and the signs multiply. -/
theorem mul_unpacked (ha : a ≤ 2 ^ 53) (hb : b ≤ 2 ^ 53) (hab : a * b ≤ 2 ^ 53) :
    UnpackedFloat.mul .binary64 (unpacked s a) (unpacked t b) =
      unpacked (s * t) (a * b) := by
  rcases Nat.eq_zero_or_pos a with rfl | hapos
  · rw [Nat.zero_mul]
    by_cases hb0 : b = 0
    · subst hb0
      rfl
    · rw [unpacked_of_ne_zero hb0]
      rfl
  rcases Nat.eq_zero_or_pos b with rfl | hbpos
  · rw [Nat.mul_zero, unpacked_of_ne_zero hapos.ne']
    rfl
  -- The two significands and the two exponents are those of the product, up to zeros.
  have hne : a * b ≠ 0 := (Nat.mul_pos hapos hbpos).ne'
  have hlow : a.log2 + b.log2 ≤ (a * b).log2 := by
    rw [Nat.le_log2 hne, pow_add]
    exact Nat.mul_le_mul (Nat.log2_self_le hapos.ne') (Nat.log2_self_le hbpos.ne')
  have hlog := log2_le_of_le hab
  -- The product of the significands has the bits of `a * b`, and zeros behind them.
  have hmantissa : significand a * significand b =
      a * b * 2 ^ (104 - a.log2 - b.log2) := by
    refine Nat.eq_of_mul_eq_mul_left (Nat.two_pow_pos (a.log2 + b.log2)) ?_
    calc 2 ^ (a.log2 + b.log2) * (significand a * significand b)
        = 2 ^ a.log2 * significand a * (2 ^ b.log2 * significand b) := by ring
      _ = a * b * 2 ^ 104 := by
          rw [two_pow_mul_significand ha, two_pow_mul_significand hb]
          ring
      _ = a * b * 2 ^ (a.log2 + b.log2 + (104 - a.log2 - b.log2)) := by
          congr 2
          omega
      _ = 2 ^ (a.log2 + b.log2) * (a * b * 2 ^ (104 - a.log2 - b.log2)) := by ring
  have hexponent : (a.log2 : Int) - 52 + (b.log2 - 52) =
      -((104 - a.log2 - b.log2 : Nat) : Int) := by omega
  rw [unpacked_of_ne_zero hapos.ne', unpacked_of_ne_zero hbpos.ne', UnpackedFloat.mul,
    hmantissa, hexponent]
  exact roundWithAccuracy_whole hne hab (by omega)

/-- A smaller exponent means more zeros. -/
theorem decreaseExponent_whole (ha : a ≤ 2 ^ 53) (hd : 52 ≤ a.log2 + d) :
    decreaseExponent (significand a) (a.log2 - 52) (-(d : Int)) = (a * 2 ^ d, -(d : Int)) := by
  have hshift : ((a.log2 : Int) - 52 - -(d : Int)).toNat = a.log2 + d - 52 := by omega
  have hexponent : (a.log2 : Int) - 52 - (a.log2 + d - 52 : Nat) = -(d : Int) := by omega
  rw [decreaseExponent, hshift]
  simp only [Nat.shiftLeft_eq, significand_mul_two_pow ha hd, hexponent]

theorem apply_mul_two_pow (s : Sign) (a d : Nat) :
    s.apply (a * 2 ^ d : Nat) = s.apply a * 2 ^ d := by
  cases s <;> simp [Sign.apply]

theorem apply_zero (s : Sign) : s.apply 0 = 0 := by
  cases s <;> rfl

theorem apply_add_apply_neg (s : Sign) (z : Int) : s.apply z + (-s).apply z = 0 := by
  cases s
  · exact neg_add_cancel z
  · exact add_neg_cancel z

theorem natAbs_apply (s : Sign) (a : Nat) : (s.apply a).natAbs = a := by
  cases s <;> simp [Sign.apply]

section

variable {f : Format} (h : 0 < m)

theorem add_zero_finite :
    UnpackedFloat.add f (.zero s) (.finite t m e h) = .finite t m e h :=
  rfl

theorem add_finite_zero :
    UnpackedFloat.add f (.finite s m e h) (.zero t) = .finite s m e h :=
  rfl

theorem add_finite_neg :
    UnpackedFloat.add f (.finite s m e h) (.finite (-s) m e h) = .zero .positive := by
  simp [UnpackedFloat.add, decreaseExponent, apply_add_apply_neg, UnpackedFloat.normalize]

end

/-- Sums of whole numbers are exact. Which sign a zero gets is not said. -/
theorem exists_add_unpacked (ha : a ≤ 2 ^ 53) (hb : b ≤ 2 ^ 53)
    (hsum : (s.apply a + t.apply b).natAbs ≤ 2 ^ 53) :
    ∃ u, UnpackedFloat.add .binary64 (unpacked s a) (unpacked t b) =
        unpacked u (s.apply a + t.apply b).natAbs ∧
      u.apply (s.apply a + t.apply b).natAbs = s.apply a + t.apply b := by
  by_cases ha0 : a = 0
  · subst ha0
    rw [Nat.cast_zero, apply_zero, zero_add, natAbs_apply]
    by_cases hb0 : b = 0
    · -- Of two zeros, a negative one is not the sum unless both are negative.
      subst hb0
      refine ⟨if s == t then s else .positive, ?_, ?_⟩
      · rw [unpacked_zero, unpacked_zero, UnpackedFloat.add]
        split <;> rfl
      · rw [Nat.cast_zero, apply_zero, apply_zero]
    · refine ⟨t, ?_, rfl⟩
      rw [unpacked_zero, unpacked_of_ne_zero hb0, add_zero_finite]
  by_cases hb0 : b = 0
  · subst hb0
    rw [Nat.cast_zero, apply_zero, add_zero, natAbs_apply]
    refine ⟨s, ?_, rfl⟩
    rw [unpacked_zero, unpacked_of_ne_zero ha0, add_finite_zero]
  refine ⟨signOf (s.apply a + t.apply b), ?_, apply_signOf _⟩
  rw [unpacked_of_ne_zero ha0, unpacked_of_ne_zero hb0]
  have hloga := log2_le_of_le ha
  have hlogb := log2_le_of_le hb
  by_cases hsmall : min a.log2 b.log2 ≤ 52
  · -- Both numbers are written with the smaller of the two exponents.
    have hexponent : min ((a.log2 : Int) - 52) (b.log2 - 52) =
        -((52 - min a.log2 b.log2 : Nat) : Int) := by omega
    rw [UnpackedFloat.add, hexponent, decreaseExponent_whole ha (by omega),
      decreaseExponent_whole hb (by omega)]
    simp only [apply_mul_two_pow, ← add_mul]
    exact normalize_whole hsum
  · -- Both numbers are `2 ^ 53`, and only their difference is small enough.
    have ha' : 2 ^ 53 ≤ a := (Nat.le_log2 ha0).1 (by omega)
    have hb' : 2 ^ 53 ≤ b := (Nat.le_log2 hb0).1 (by omega)
    have hab : a = b := by omega
    subst hab
    have hopposite : t = -s := by
      cases s <;> cases t <;> simp only [Sign.apply] at hsum <;> first | rfl | omega
    rw [hopposite, add_finite_neg, apply_add_apply_neg]
    rfl

end

end Whole

end LineCalc
