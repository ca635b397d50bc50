import LineCalc.Proofs.Number.FloatBits

/-!
# Nearest Floats

A decimal is read as the float whose interval it lies in.

Reading a decimal means to multiply or to divide two whole numbers and to round the result. The
exact result is never written down. There is a significand that has enough bits, or more, and
two further bits say where between this significand and the next one the exact result is. They
are kept when the significand is moved to its place, one bit at a time, and they are enough to
decide which of the two neighbours is nearer.

So the float that comes out of rounding has the exact result in its interval, and there is only
one float that has.

## Main definitions

* `Nearest.Locates`: Where a number is, in terms of a significand and two further bits.
* `Dyadic.unpacked`: A float in the form in which floats are computed with.

## Theorems

* `Nearest.Locates.shiftRight`: Moving a significand does not lose track of the number.
* `Nearest.Locates.roundedMantissa`: The bits are enough to find the nearest significand.
* `Nearest.exists_roundWithAccuracy_eq`: The float that a number is rounded to covers it.
* `Nearest.exists_div_eq`, `Nearest.exists_mul_eq`: So do quotients and products.
* `Nearest.exists_ofScientific_eq`: So does what a decimal is read as.
-/

namespace LineCalc

open Float.Model Float.Model.UnpackedFloat

/-- A float in the form in which floats are computed with, where zero has a form of its own. -/
def Dyadic.unpacked (s : Sign) (d : Dyadic) : UnpackedFloat :=
  if h : 0 < d.significand then .finite s d.significand d.exponent h else .zero s

namespace Nearest

/-- Where a number is. It is at the significand or on the way to the next one. The round bit says
    whether it has come half of the way, the sticky bit whether it is neither at the beginning
    nor in the middle. -/
structure Locates (em : ExtendedMantissa) (x : ℚ) : Prop where
  le : em.mantissa ≤ x
  lt : x < em.mantissa + 1
  roundBit_iff : em.roundBit = true ↔ em.mantissa + 1 / 2 ≤ x
  stickyBit_iff : em.stickyBit = true ↔ x ≠ em.mantissa ∧ x ≠ em.mantissa + 1 / 2

section

variable {em : ExtendedMantissa} {x q : ℚ} {m a b : Nat} {e : Int} {s t : Sign} {acc : Accuracy}

/-- The two bits are empty only at the significand itself. -/
theorem Locates.bits_iff (h : Locates em x) :
    (em.roundBit || em.stickyBit) = true ↔ x ≠ em.mantissa := by
  rw [Bool.or_eq_true, h.roundBit_iff, h.stickyBit_iff]
  constructor
  · rintro (hhalf | ⟨hne, -⟩)
    · linarith
    · exact hne
  · intro hne
    by_cases hmiddle : x = em.mantissa + 1 / 2
    · exact Or.inl hmiddle.ge
    · exact Or.inr ⟨hne, hmiddle⟩

/-- Moving the significand by one bit. The bit that falls out says in which half the number is
    now, and the old bits say whether it is in the middle of something. -/
theorem Locates.shiftRightOne (h : Locates em x) : Locates em.shiftRightOne (x / 2) := by
  have hle := h.le
  have hlt := h.lt
  have hbits := h.bits_iff
  have hsplit : (em.mantissa : ℚ) = 2 * (em.mantissa / 2 : Nat) + (em.mantissa % 2 : Nat) := by
    exact_mod_cast (Nat.div_add_mod em.mantissa 2).symm
  -- By the bit that falls out, which says in which half the number is.
  rcases Nat.mod_two_eq_zero_or_one em.mantissa with hbit | hbit <;> rw [hbit] at hsplit <;>
    push_cast at hsplit
  · constructor <;> simp only [ExtendedMantissa.shiftRightOne, hbit, hbits]
    · linarith
    · linarith
    · refine iff_of_false (by decide) ?_
      linarith
    · refine ⟨fun hne => ⟨fun heq => hne ?_, ?_⟩, fun hne heq => hne.1 ?_⟩ <;> linarith
  · constructor <;> simp only [ExtendedMantissa.shiftRightOne, hbit, hbits]
    · linarith
    · linarith
    · refine iff_of_true (by decide) ?_
      linarith
    · refine ⟨fun hne => ⟨?_, fun heq => hne ?_⟩, fun hne heq => hne.2 ?_⟩ <;> linarith

/-- By induction on the number of bits that fall out. -/
theorem Locates.shiftRight (h : Locates em x) (k : Nat) : Locates (em >>> k) (x / 2 ^ k) := by
  change Locates (Nat.repeat ExtendedMantissa.shiftRightOne k em) _
  induction k with
  | zero => rwa [Nat.repeat, pow_zero, div_one]
  | succ k ih =>
      rw [Nat.repeat, pow_succ, ← div_div]
      exact ih.shiftRightOne

/-- A whole number is at its own significand. -/
theorem locates_exact (m : Nat) : Locates (.ofMantissaAndAccuracy m .exact) m where
  le := le_refl _
  lt := lt_add_one _
  roundBit_iff := iff_of_false Bool.false_ne_true (by
    change ¬ (m : ℚ) + 1 / 2 ≤ m
    linarith)
  stickyBit_iff := iff_of_false Bool.false_ne_true fun h => h.1 rfl

/-- The two bits that a remainder is turned into. -/
theorem ofMantissaAndAccuracy_fraction {r : Nat} (hb : 0 < b) :
    ExtendedMantissa.ofMantissaAndAccuracy m (accuracyOfFraction r b) =
      ⟨m, decide (b ≤ 2 * r), decide (r ≠ 0 ∧ 2 * r ≠ b)⟩ := by
  by_cases hzero : r = 0
  · rw [accuracyOfFraction, if_pos hzero, decide_eq_false (by omega), decide_eq_false (by omega)]
    rfl
  rw [accuracyOfFraction, if_neg hzero]
  -- Twice the remainder is compared with the divisor, as when rounding by hand.
  rcases Nat.lt_trichotomy (2 * r) b with hlt | heq | hgt
  · rw [Nat.compare_eq_lt.2 hlt, decide_eq_false (by omega), decide_eq_true (by omega)]
    rfl
  · rw [Nat.compare_eq_eq.2 heq, decide_eq_true (by omega), decide_eq_false (by omega)]
    rfl
  · rw [Nat.compare_eq_gt.2 hgt, decide_eq_true (by omega), decide_eq_true (by omega)]
    rfl

/-- The remainder of a division says where the quotient is. -/
theorem locates_quotient (hb : 0 < b) :
    Locates (.ofMantissaAndAccuracy (a / b) (accuracyOfFraction (a % b) b)) ((a : ℚ) / b) := by
  have hpos : (0 : ℚ) < b := Nat.cast_pos.2 hb
  have hquotient : (a : ℚ) / b = (a / b : Nat) + ((a % b : Nat) : ℚ) / b := by
    have hsplit : (a : ℚ) = b * (a / b : Nat) + (a % b : Nat) := by
      exact_mod_cast (Nat.div_add_mod a b).symm
    rw [div_eq_iff hpos.ne', add_mul, div_mul_cancel₀ _ hpos.ne', mul_comm]
    exact hsplit
  have hlt : ((a % b : Nat) : ℚ) / b < 1 := by
    rw [div_lt_one hpos]
    exact Nat.cast_lt.2 (Nat.mod_lt a hb)
  have hle : 0 ≤ ((a % b : Nat) : ℚ) / b := div_nonneg (Nat.cast_nonneg _) hpos.le
  -- The three comparisons of the remainder are those of the fraction behind the quotient.
  have hhalf : b ≤ 2 * (a % b) ↔ 1 / 2 ≤ ((a % b : Nat) : ℚ) / b := by
    rw [le_div_iff₀ hpos, ← Nat.cast_le (α := ℚ)]
    push_cast
    constructor <;> intro h <;> linarith
  have hmiddle : 2 * (a % b) = b ↔ ((a % b : Nat) : ℚ) / b = 1 / 2 := by
    rw [div_eq_iff hpos.ne', ← Nat.cast_inj (R := ℚ)]
    push_cast
    constructor <;> intro h <;> linarith
  have hzero : a % b = 0 ↔ ((a % b : Nat) : ℚ) / b = 0 := by
    rw [div_eq_zero_iff, Nat.cast_eq_zero, Nat.cast_eq_zero]
    omega
  rw [ofMantissaAndAccuracy_fraction hb, hquotient]
  refine ⟨le_add_of_nonneg_right hle, by simpa using hlt, ?_, ?_⟩
  · exact (decide_eq_true_iff.trans hhalf).trans (add_le_add_iff_left _).symm
  · refine decide_eq_true_iff.trans (and_congr (not_congr ?_) (not_congr ?_))
    · exact hzero.trans add_eq_left.symm
    · exact hmiddle.trans (add_right_inj _).symm

/-- The significand after rounding is nearest to the number, and even if the next one is just as
    near. -/
theorem Locates.roundedMantissa (h : Locates em x) :
    (em.roundedMantissa = em.mantissa ∨ em.roundedMantissa = em.mantissa + 1) ∧
      2 * em.roundedMantissa ≤ 2 * x + 1 ∧ 2 * x ≤ 2 * em.roundedMantissa + 1 ∧
      (em.roundedMantissa % 2 = 1 →
        2 * em.roundedMantissa ≠ 2 * x + 1 ∧ 2 * x ≠ 2 * em.roundedMantissa + 1) := by
  rcases h with ⟨hle, hlt, hround, hsticky⟩
  rcases em with ⟨m, _ | _, _ | _⟩ <;> simp only at hle hlt hround hsticky
  · -- The number is the significand itself.
    have hnot := hround.not.1 Bool.false_ne_true
    have hx : x = m := by
      by_contra hne
      exact Bool.false_ne_true (hsticky.2 ⟨hne, fun heq => hnot heq.ge⟩)
    have hrounded : ExtendedMantissa.roundedMantissa ⟨m, false, false⟩ = m := rfl
    rw [hrounded, hx]
    refine ⟨Or.inl rfl, by linarith, by linarith, fun _ => ⟨fun heq => ?_, fun heq => ?_⟩⟩ <;>
      linarith
  · -- It is in the first half of the way.
    have hnot := hround.not.1 Bool.false_ne_true
    have hrounded : ExtendedMantissa.roundedMantissa ⟨m, false, true⟩ = m := rfl
    rw [hrounded]
    refine ⟨Or.inl rfl, by linarith, by linarith, fun _ => ⟨fun heq => ?_, fun heq => ?_⟩⟩ <;>
      linarith
  · -- It is in the middle, and the even one of the two significands is taken.
    have hhalf := hround.1 trivial
    have hx : x = m + 1 / 2 := by
      by_contra hne
      exact Bool.false_ne_true (hsticky.2 ⟨fun heq => by linarith, hne⟩)
    have hrounded : ExtendedMantissa.roundedMantissa ⟨m, true, false⟩ = m + m % 2 := rfl
    rw [hrounded, hx]
    rcases Nat.mod_two_eq_zero_or_one m with hbit | hbit <;> rw [hbit] <;> push_cast
    · refine ⟨Or.inl rfl, by linarith, by linarith, fun hodd => ?_⟩
      omega
    · refine ⟨Or.inr rfl, by linarith, by linarith, fun hodd => ?_⟩
      omega
  · -- It is in the second half of the way.
    have hhalf := hround.1 trivial
    have hne := (hsticky.1 trivial).2
    have hgt := lt_of_le_of_ne hhalf (Ne.symm hne)
    have hrounded : ExtendedMantissa.roundedMantissa ⟨m, true, true⟩ = m + 1 := rfl
    rw [hrounded]
    push_cast
    refine ⟨Or.inr rfl, by linarith, by linarith, fun _ => ⟨fun heq => ?_, fun heq => ?_⟩⟩ <;>
      linarith

/-- Where a significand with enough bits is moved to. It keeps its first bit, if the exponent is
    not the smallest one. -/
theorem target_bounds (hbits : 2 ^ 52 ≤ m ∨ e ≤ -1074) {t : Int}
    (ht : t = Format.binary64.targetExponent (totalExponent m e)) :
    e + (t - e).toNat = t ∧ -1074 ≤ t ∧ m / 2 ^ (t - e).toNat < 2 ^ 53 ∧
      (-1074 < t → 2 ^ 52 ≤ m / 2 ^ (t - e).toNat) := by
  simp only [Format.targetExponent, totalExponent, Format.mantissaBits, Format.minExponent] at ht
  have hlog : 2 ^ 52 ≤ m → 52 ≤ m.log2 := fun hm => (Nat.le_log2 (by omega)).2 hm
  have hle : e ≤ t := by omega
  -- What is left is long enough, and not too long.
  refine ⟨by omega, by omega, ?_, fun hlow => ?_⟩
  · rw [Nat.div_lt_iff_lt_mul (Nat.two_pow_pos _), ← pow_add]
    refine Nat.lt_of_lt_of_le Nat.lt_log2_self (Nat.pow_le_pow_right two_pos ?_)
    omega
  · have hm : m ≠ 0 := by
      rintro rfl
      rw [Nat.log2_zero] at ht
      omega
    rw [Nat.le_div_iff_mul_le (Nat.two_pow_pos _), ← pow_add]
    refine Nat.le_trans (Nat.pow_le_pow_right two_pos ?_) (Nat.log2_self_le hm)
    omega

/-- The float with a significand that has been rounded. It may have become one bit longer, and
    then it is a power of two. -/
def rounded (n : Nat) (t : Int) : Dyadic :=
  if n = 2 ^ 53 then ⟨2 ^ 52, t + 1, true⟩ else ⟨n, t, n = 2 ^ 52 ∧ -1074 < t⟩

/-- Only if there is one bit too many it is moved out, and it is a zero. -/
theorem shift_rounded {n : Nat} {t : Int} (hn : n ≤ 2 ^ 53) (ht : -1074 ≤ t) :
    ∃ em, shiftToTargetExponent .binary64 n t .exact = (em, (rounded n t).exponent) ∧
      em.mantissa = (rounded n t).significand := by
  -- Only a power of two has the additional bit.
  have hshift : (max ((n.log2 : Int) + 1 + t - (1 + 52)) (-1074) - t).toNat =
      if n = 2 ^ 53 then 1 else 0 := by
    split
    · rename_i hpower
      rw [hpower, Nat.log2_two_pow]
      omega
    · rename_i hne
      have hlog : n.log2 < 53 := by
        by_cases hzero : n = 0
        · rw [hzero, Nat.log2_zero]
          omega
        · exact (Nat.log2_lt hzero).2 (lt_of_le_of_ne hn hne)
      omega
  have htarget : Format.binary64.targetExponent (totalExponent n t) =
      max ((n.log2 : Int) + 1 + t - (1 + 52)) (-1074) := rfl
  rw [shiftToTargetExponent, htarget, shiftToExponent, hshift]
  refine ⟨_, Prod.ext rfl ?_, ?_⟩
  · unfold rounded
    split
    · rfl
    · exact Int.add_zero t
  · rw [SignedZero.mantissa_shiftRight, SignedZero.mantissa_ofMantissaAndAccuracy]
    unfold rounded
    split
    · rename_i hpower
      rw [hpower]
      norm_num
    · exact Nat.div_one n

theorem unpacked_eq (s : Sign) (d : Dyadic) : d.unpacked s =
    if h : d.significand = 0 then .zero s
    else .finite s d.significand d.exponent (Nat.pos_of_ne_zero h) := by
  unfold Dyadic.unpacked
  by_cases hzero : d.significand = 0
  · rw [dif_neg (by omega), dif_pos hzero]
  · rw [dif_pos (Nat.pos_of_ne_zero hzero), dif_neg hzero]

/-- What has been rounded has the form in which there is only one for each float. -/
theorem rounded_canonical {n : Nat} {t : Int} (hn : n ≤ 2 ^ 53) (ht : -1074 ≤ t)
    (hlow : -1074 < t → 2 ^ 52 ≤ n) : (rounded n t).Canonical := by
  unfold rounded
  split
  · exact ⟨by norm_num, by simp only; omega, fun _ => le_refl _,
      iff_of_true rfl ⟨rfl, by simp only; omega⟩⟩
  · exact ⟨by simp only; omega, ht, hlow, decide_eq_true_iff⟩

/-- A number to which no other significand is nearer lies in the interval of the float. -/
theorem rounded_covers {n : Nat} {t : Int} (hx : 0 ≤ x) (hlow : 2 * n ≤ 2 * x + 1)
    (hhigh : 2 * x ≤ 2 * n + 1)
    (hodd : n % 2 = 1 → 2 * (n : ℚ) ≠ 2 * x + 1 ∧ 2 * x ≠ 2 * n + 1)
    (hpower : n = 2 ^ 52 → -1074 < t → n ≤ x) : (rounded n t).Covers (x * 2 ^ t) := by
  unfold rounded
  split
  · -- The last bit is twice as large now, and the interval reaches down only half as far.
    rename_i hn
    have hquarter : x * 2 ^ t = 2 * x * (⟨2 ^ 52, t + 1, true⟩ : Dyadic).quarter := by
      have hexponent : t + 1 - 2 = t - 1 := by omega
      rw [Dyadic.quarter, hexponent, zpow_sub_one₀ two_ne_zero]
      ring
    have hends : (⟨2 ^ 52, t + 1, true⟩ : Dyadic).lowQuarters = 2 ^ 54 - 1 ∧
        (⟨2 ^ 52, t + 1, true⟩ : Dyadic).highQuarters = 2 ^ 54 + 2 := by
      rw [Dyadic.lowQuarters, Dyadic.highQuarters, if_pos rfl]
      norm_num
    rw [hn] at hlow hhigh
    push_cast at hlow hhigh
    rw [hquarter]
    refine Dyadic.covers_of_quarters ?_ ?_ fun hparity => ?_
    · rw [hends.1]
      push_cast
      linarith
    · rw [hends.2]
      push_cast
      linarith
    · simp only at hparity
      omega
  · have hquarter : x * 2 ^ t =
        4 * x * (⟨n, t, decide (n = 2 ^ 52 ∧ -1074 < t)⟩ : Dyadic).quarter := by
      rw [Dyadic.quarter, zpow_sub₀ two_ne_zero]
      norm_num
      ring
    rw [hquarter]
    refine Dyadic.covers_of_quarters ?_ ?_ fun hparity => ?_
    · -- Below a power of two the gap is the narrow one, but the number is not below it.
      rw [Dyadic.lowQuarters]
      simp only [decide_eq_true_eq]
      split
      · rename_i hnarrow
        have hle := hpower hnarrow.1 hnarrow.2
        have hcast : ((4 * n - 1 : Nat) : ℚ) ≤ 4 * n := by exact_mod_cast Nat.sub_le (4 * n) 1
        linarith
      · rcases Nat.eq_zero_or_pos n with hzero | hpos
        · rw [hzero]
          norm_num
          exact hx
        · rw [Nat.cast_sub (by omega)]
          push_cast
          linarith
    · rw [Dyadic.highQuarters]
      push_cast
      linarith
    · simp only at hparity
      rcases hodd hparity with ⟨hneLow, hneHigh⟩
      rw [Dyadic.lowQuarters, Dyadic.highQuarters, if_neg (by simp only [decide_eq_true_eq]; omega),
        Nat.cast_sub (by simp only; omega)]
      push_cast
      refine ⟨fun heq => hneLow ?_, fun heq => hneHigh ?_⟩ <;> linarith

/-- The float that a number is rounded to has the number in its interval. -/
theorem exists_roundWithAccuracy_eq (h : Locates (.ofMantissaAndAccuracy m acc) x)
    (hbits : 2 ^ 52 ≤ m ∨ e ≤ -1074) :
    ∃ d : Dyadic, d.Canonical ∧ d.Covers (x * 2 ^ e) ∧
      roundWithAccuracy .binary64 s m e acc = d.unpacked s := by
  generalize ht : Format.binary64.targetExponent (totalExponent m e) = t
  rcases target_bounds hbits ht.symm with ⟨hexponent, hleast, hlt, hfirst⟩
  generalize hk : (t - e).toNat = k at hexponent hlt hfirst
  have hmoved := h.shiftRight k
  have hmantissa : (ExtendedMantissa.ofMantissaAndAccuracy m acc >>> k).mantissa = m / 2 ^ k := by
    rw [SignedZero.mantissa_shiftRight, SignedZero.mantissa_ofMantissaAndAccuracy]
  rcases hmoved.roundedMantissa with ⟨hnext, hlow, hhigh, hodd⟩
  have hle := hmoved.le
  rw [hmantissa] at hnext hle
  generalize hn : (ExtendedMantissa.ofMantissaAndAccuracy m acc >>> k).roundedMantissa = n at *
  refine ⟨rounded n t, rounded_canonical (by omega) hleast (by omega), ?_, ?_⟩
  · have hnumber : x * 2 ^ e = x / 2 ^ k * 2 ^ t := by
      rw [← hexponent, zpow_add₀ two_ne_zero, zpow_natCast]
      field_simp
    rw [hnumber]
    refine rounded_covers ((Nat.cast_nonneg _).trans hle) hlow hhigh hodd fun hpower hlow' => ?_
    -- A power of two can only be reached from above, because the first bit was there before.
    have hbit := hfirst hlow'
    refine le_trans ?_ hle
    rw [hpower]
    exact_mod_cast hbit
  · -- The significand is moved once more, and that is where it may be one bit too long.
    rcases shift_rounded (n := n) (t := t) (by omega) hleast with ⟨em, hagain, hsignificand⟩
    have hshift : shiftToTargetExponent .binary64 m e acc =
        (ExtendedMantissa.ofMantissaAndAccuracy m acc >>> k, t) := by
      rw [shiftToTargetExponent, ht, shiftToExponent, hk, hexponent]
    rw [roundWithAccuracy, hshift]
    dsimp only
    rw [hn, hagain, unpacked_eq]
    simp only [hsignificand]

/-- A quotient is computed with enough bits. -/
theorem le_quotient (ha : 0 < a) (hb : 0 < b) {f t : Int}
    (ht : t = min (e - f)
      (Format.binary64.targetExponent (totalExponent a e - totalExponent b f))) :
    2 ^ 52 ≤ (a <<< (e - f - t).toNat) / b ∨ t ≤ -1074 := by
  simp only [Format.targetExponent, totalExponent, Format.mantissaBits, Format.minExponent] at ht
  -- With the smallest exponent there is no need for many bits.
  by_cases hlow : t ≤ -1074
  · exact Or.inr hlow
  · have hlog : 52 + (b.log2 + 1) ≤ a.log2 + (e - f - t).toNat := by omega
    refine Or.inl ((Nat.le_div_iff_mul_le hb).2 ?_)
    calc 2 ^ 52 * b
        ≤ 2 ^ 52 * 2 ^ (b.log2 + 1) := Nat.mul_le_mul_left _ Nat.lt_log2_self.le
      _ = 2 ^ (52 + (b.log2 + 1)) := (pow_add 2 _ _).symm
      _ ≤ 2 ^ (a.log2 + (e - f - t).toNat) := Nat.pow_le_pow_right two_pos hlog
      _ = 2 ^ a.log2 * 2 ^ (e - f - t).toNat := pow_add 2 _ _
      _ ≤ a * 2 ^ (e - f - t).toNat := Nat.mul_le_mul_right _ (Nat.log2_self_le ha.ne')
      _ = a <<< (e - f - t).toNat := (Nat.shiftLeft_eq _ _).symm

/-- The float that a quotient is rounded to covers the quotient. -/
theorem exists_div_eq (ha : 0 < a) (hb : 0 < b) (e f : Int) :
    ∃ d : Dyadic, d.Canonical ∧ d.Covers (a * 2 ^ e / (b * 2 ^ f)) ∧
      UnpackedFloat.div .binary64 (.finite s a e ha) (.finite t b f hb) = d.unpacked (s / t) := by
  rw [UnpackedFloat.div, divCore]
  generalize hexponent : min (e - f)
    (Format.binary64.targetExponent (totalExponent a e - totalExponent b f)) = g
  have hle : g ≤ e - f := hexponent ▸ min_le_left _ _
  have hpos : (b : ℚ) ≠ 0 := Nat.cast_ne_zero.2 hb.ne'
  have htwo : (2 : ℚ) ^ f ≠ 0 := zpow_ne_zero _ two_ne_zero
  -- The dividend is made longer so that there are enough bits in the quotient.
  have hnumber : (a : ℚ) * 2 ^ e / (b * 2 ^ f) =
      ((a <<< (e - f - g).toNat : Nat) : ℚ) / b * 2 ^ g := by
    have hsum : e = f + ((e - f - g).toNat : Int) + g := by omega
    rw [Nat.shiftLeft_eq]
    conv_lhs => rw [hsum, zpow_add₀ two_ne_zero, zpow_add₀ two_ne_zero, zpow_natCast]
    push_cast
    field_simp
  rw [hnumber]
  exact exists_roundWithAccuracy_eq (locates_quotient hb) (le_quotient ha hb hexponent.symm)

/-- The float that a product is rounded to covers the product, if one factor has enough bits. -/
theorem exists_mul_eq (ha : 2 ^ 52 ≤ a) (hb : 0 < b) (h : 0 < a) (e f : Int) :
    ∃ d : Dyadic, d.Canonical ∧ d.Covers (a * 2 ^ e * (b * 2 ^ f)) ∧
      UnpackedFloat.mul .binary64 (.finite s a e h) (.finite t b f hb) = d.unpacked (s * t) := by
  -- The product of two numbers is exact before it is rounded.
  have hnumber : (a : ℚ) * 2 ^ e * (b * 2 ^ f) = ((a * b : Nat) : ℚ) * 2 ^ (e + f) := by
    rw [zpow_add₀ two_ne_zero]
    push_cast
    ring
  rw [UnpackedFloat.mul, hnumber]
  exact exists_roundWithAccuracy_eq (locates_exact _)
    (Or.inl (ha.trans (Nat.le_mul_of_pos_right a hb)))

/-- A power of ten that is a float. -/
def powerOfTen (k : Nat) : Dyadic :=
  ⟨5 ^ k * 2 ^ (52 - (5 ^ k).log2), k + (5 ^ k).log2 - 52,
    5 ^ k * 2 ^ (52 - (5 ^ k).log2) = 2 ^ 52⟩

theorem powerOfTen_bounds : ∀ k : Fin 23, (5 ^ k.1).log2 ≤ 52 ∧
    2 ^ 52 ≤ (powerOfTen k).significand ∧ (powerOfTen k).significand < 2 ^ 53 := by
  decide +kernel

/-- The table of powers that is used for short decimals. -/
theorem table_eq : ∀ k : Fin 23, Float.exactlyRepresentablePowersOfTen[k] =
    .ofModel (.pack ((powerOfTen k).unpacked .positive)) := by
  decide +kernel

/-- The entry is exact, because the power of five in it is short enough. -/
theorem powerOfTen_value (k : Fin 23) : (powerOfTen k).value = 10 ^ k.1 := by
  have hlog := (powerOfTen_bounds k).1
  have hexponent : (k : Int) + (5 ^ k.1).log2 - 52 = k - (52 - (5 ^ k.1).log2 : Nat) := by omega
  rw [Dyadic.value, powerOfTen]
  push_cast
  rw [hexponent, zpow_sub₀ two_ne_zero, zpow_natCast, zpow_natCast, mul_assoc,
    mul_div_cancel₀ _ (pow_ne_zero _ two_ne_zero), ← mul_pow]
  norm_num

/-- An entry of the table is taken apart into its significand and its exponent. -/
theorem unpack_table (k : Fin 23) (h : 0 < (powerOfTen k).significand) :
    Float.exactlyRepresentablePowersOfTen[k].toModel.unpack =
      .finite .positive (powerOfTen k).significand (powerOfTen k).exponent h := by
  rcases powerOfTen_bounds k with ⟨hlog, hle, hlt⟩
  have hexponent : (powerOfTen k).exponent = k + (5 ^ k.1).log2 - 52 := rfl
  have hcanonical : (powerOfTen k).Canonical := Dyadic.canonical_of_le hle hlt (by omega)
  rw [table_eq, Dyadic.unpacked, dif_pos h]
  exact Dyadic.unpack_pack hcanonical (by omega) h

theorem float_div_eq (x y : Float) : x / y =
    .ofModel (.pack (UnpackedFloat.div .binary64 x.toModel.unpack y.toModel.unpack)) :=
  rfl

/-- The float that a short decimal is read as. The digits and the power of ten are both floats, so
    nothing is rounded before the last step. -/
theorem exists_short_mul_eq (hm : m ≠ 0) (hlt : m < 2 ^ 53) (k : Fin 23) :
    ∃ d : Dyadic, d.Canonical ∧ d.Covers (m * 10 ^ k.1) ∧
      m.toUInt64.toFloat * Float.exactlyRepresentablePowersOfTen[k] =
        .ofModel (.pack (d.unpacked .positive)) := by
  have hpower := Nat.lt_of_lt_of_le (Nat.two_pow_pos 52) (powerOfTen_bounds k).2.1
  -- The digits are a whole number with a float of its own.
  rcases exists_mul_eq (s := .positive) (t := .positive) (Whole.le_significand hm) hpower
    (Whole.significand_pos hm) (m.log2 - 52) (powerOfTen k).exponent with ⟨d, hd, hcovers, hmul⟩
  refine ⟨d, hd, ?_, ?_⟩
  · rwa [Whole.significand_value hlt.le, ← Dyadic.value, powerOfTen_value] at hcovers
  · rw [Whole.float_mul_eq, Whole.toFloat_eq_float hlt.le, Whole.unpack_float hlt.le,
      Whole.unpacked_of_ne_zero hm, unpack_table k hpower, hmul]
    rfl

theorem exists_short_div_eq (hm : m ≠ 0) (hlt : m < 2 ^ 53) (k : Fin 23) :
    ∃ d : Dyadic, d.Canonical ∧ d.Covers (m / 10 ^ k.1) ∧
      m.toUInt64.toFloat / Float.exactlyRepresentablePowersOfTen[k] =
        .ofModel (.pack (d.unpacked .positive)) := by
  have hpower := Nat.lt_of_lt_of_le (Nat.two_pow_pos 52) (powerOfTen_bounds k).2.1
  rcases exists_div_eq (s := .positive) (t := .positive) (Whole.significand_pos hm) hpower
    (m.log2 - 52) (powerOfTen k).exponent with ⟨d, hd, hcovers, hdiv⟩
  refine ⟨d, hd, ?_, ?_⟩
  · rwa [Whole.significand_value hlt.le, ← Dyadic.value, powerOfTen_value] at hcovers
  · rw [float_div_eq, Whole.toFloat_eq_float hlt.le, Whole.unpack_float hlt.le,
      Whole.unpacked_of_ne_zero hm, unpack_table k hpower, hdiv]
    rfl

/-- The float that a long decimal is read as. -/
theorem exists_long_eq (hm : m ≠ 0) (hhigh : e ≤ 400) (hlow : -400 ≤ e + (m.log2 + 1)) :
    ∃ d : Dyadic, d.Canonical ∧ d.Covers (m * 10 ^ e) ∧
      Float.ofModel (.ofScientific m e) = .ofModel (.pack (d.unpacked .positive)) := by
  have hrange : (2 : Int) ^ Format.binary64.exponentBits = 2048 := rfl
  have hpos := Nat.pos_of_ne_zero hm
  have hten (k : Nat) : 0 < 10 ^ k := Nat.pow_pos (by decide)
  rw [Float.Model.ofScientific, UnpackedFloat.ofScientific, dif_neg hm, if_neg (by omega),
    if_neg (by omega)]
  -- A power of ten is multiplied by or divided by, as a whole number.
  by_cases he : 0 ≤ e
  · -- Zeros are appended to the significand, so that it has enough bits.
    have hshift : m <<< Format.binary64.mantissaBits = m * 2 ^ 53 := Nat.shiftLeft_eq m 53
    have hbits : 2 ^ 52 ≤ m <<< Format.binary64.mantissaBits := by omega
    rcases exists_mul_eq (s := .positive) (t := .positive) hbits (hten e.toNat)
      (by omega) (-(Format.binary64.mantissaBits : Int)) 0 with ⟨d, hd, hcovers, hmul⟩
    refine ⟨d, hd, ?_, ?_⟩
    · have hnumber : (m : ℚ) * 10 ^ e = ((m <<< Format.binary64.mantissaBits : Nat) : ℚ) *
          2 ^ (-(Format.binary64.mantissaBits : Int)) * ((10 ^ e.toNat : Nat) * 2 ^ (0 : Int)) := by
        have hexponent : -(Format.binary64.mantissaBits : Int) = -((53 : Nat) : Int) := rfl
        rw [hshift, hexponent, zpow_neg, zpow_natCast, zpow_zero]
        conv_lhs => rw [← Int.toNat_of_nonneg he, zpow_natCast]
        push_cast
        field_simp
        norm_num
      rwa [hnumber]
    · rw [if_pos he, hmul]
      rfl
  · rcases exists_div_eq (s := .positive) (t := .positive) hpos (hten (-e).toNat)
      0 0 with ⟨d, hd, hcovers, hdiv⟩
    refine ⟨d, hd, ?_, ?_⟩
    · have hexponent : e = -((-e).toNat : Int) := by omega
      rw [zpow_zero, mul_one, mul_one] at hcovers
      rw [hexponent, zpow_neg, zpow_natCast, ← div_eq_mul_inv]
      exact_mod_cast hcovers
    · rw [if_neg he, hdiv]
      rfl

/-- The float that a decimal is read as covers the decimal, whichever way it is computed. -/
theorem exists_ofScientific_eq (hm : m ≠ 0) (hhigh : e ≤ 400) (hlow : -400 ≤ e + (m.log2 + 1)) :
    ∃ d : Dyadic, d.Canonical ∧ d.Covers (m * 10 ^ e) ∧
      Float.ofScientific m (e < 0) e.natAbs = .ofModel (.pack (d.unpacked .positive)) := by
  rw [Float.ofScientific]
  -- A short decimal takes one operation on floats, and a long one is computed in whole numbers.
  split
  · rename_i hshort
    by_cases he : e < 0
    · rcases exists_short_div_eq hm hshort.1 ⟨e.natAbs, by omega⟩ with ⟨d, hd, hcovers, hdiv⟩
      refine ⟨d, hd, ?_, ?_⟩
      · have hexponent : e = -(e.natAbs : Int) := by omega
        rw [hexponent, zpow_neg, zpow_natCast, ← div_eq_mul_inv]
        exact hcovers
      · rw [decide_eq_true he]
        exact hdiv
    · rcases exists_short_mul_eq hm hshort.1 ⟨e.natAbs, by omega⟩ with ⟨d, hd, hcovers, hmul⟩
      refine ⟨d, hd, ?_, ?_⟩
      · have hexponent : e = (e.natAbs : Int) := by omega
        rw [hexponent, zpow_natCast]
        exact hcovers
      · rw [decide_eq_false he]
        exact hmul
  · have hexponent : (if decide (e < 0) = true then Int.negOfNat e.natAbs else Int.ofNat e.natAbs) =
        e := by
      split
      · rename_i hneg
        rw [Int.negOfNat_eq, Int.ofNat_eq_natCast]
        have := of_decide_eq_true hneg
        omega
      · rename_i hneg
        have := of_decide_eq_false (eq_false_of_ne_true hneg)
        rw [Int.ofNat_eq_natCast]
        omega
    rw [hexponent]
    exact exists_long_eq hm hhigh hlow

end

end Nearest

end LineCalc
