import LineCalc.Proofs.Number.WholeFloats
import Mathlib

/-!
# The Sign of Zero

When a sum of floats is the zero with a minus sign.

There are two zeros, and a sum that cancels is the positive one. So it takes two negative zeros
to make another, provided that nothing else can become a zero by accident, and that is where
the work lies. A sum of two floats that is not zero could be too small for a float and be
rounded to a zero with the sign it has. It never is, because the two numbers are multiples of
the smallest positive float, and so is their sum. Rounding moves bits out of a significand only
as long as the first of them stays, or up to the exponent of that smallest float, which the sum
has reached already.

Even then the bits that a float is put together from might be those of a zero, because the first
bit of a significand is left out. `Fits` is what prevents this. All floats have it when they are
taken apart, and rounding leads to it.

## Main definitions

* `negativeZero`: The zero with a minus sign.
* `SignedZero.Fits`: The significand and the exponent of a float are in range.

## Theorems

* `SignedZero.shiftToTargetExponent_fits`: Rounding does not lose the first bit.
* `SignedZero.exists_normalize_eq`: A number other than zero does not become one.
* `SignedZero.eq_float_iff_unpack`: The zeros are the floats that are taken apart into zeros.
* `SignedZero.add_eq_negativeZero_iff`: Only two negative zeros have a negative zero as their sum.
* `SignedZero.neg_eq_negativeZero_iff`: The negative zero is the opposite of the positive one.
-/

namespace LineCalc

/-- The zero with a minus sign. -/
def negativeZero : Float := -0.0

example : negativeZero.toBits = 0x8000000000000000 := by decide +kernel

namespace SignedZero

open Float.Model Float.Model.UnpackedFloat Whole

/-- If a float is finite, its significand has no more bits than there is room for, and its
    exponent is not below that of the smallest float. -/
def Fits : UnpackedFloat → Prop
  | .finite _ m e _ => m < 2 ^ 53 ∧ -1074 ≤ e
  | .infinity _ | .notANumber | .zero _ => True

variable {m : Nat} {e z : Int} {s t : Sign} {u v : UnpackedFloat}

/-- Whatever bits a float has, it is taken apart into what fits. -/
theorem unpack_fits (b : BitVec Format.binary64.numBits) :
    Fits (UnpackedFloat.unpack .binary64 b) := by
  have hmantissa : (unpackMantissa b).toNat < 2 ^ 52 := (unpackMantissa b).isLt
  have hbias : (Format.binary64.exponentBias : Int) = 1023 := rfl
  rw [UnpackedFloat.unpack]
  -- By the exponent field: no finite number, a number without a first bit, and any other.
  split
  · split <;> trivial
  rename_i hfinite
  split
  · rename_i hexponent
    split
    · trivial
    · simp only [Fits, hexponent, hbias]
      exact ⟨by omega, by decide⟩
  · rename_i hexponent
    have hpos : 0 < (unpackExponent b).toNat := by
      rw [Nat.pos_iff_ne_zero]
      exact fun h => hexponent (BitVec.eq_of_toNat_eq h)
    refine ⟨(1#1 ++ unpackMantissa b).isLt, ?_⟩
    simp only [hbias]
    omega

/-- Rounding moves bits out of a significand, but not the first one, and it leaves no more of
    them than there is room for. -/
theorem shift_bounds (he : -1074 ≤ e) :
    (Format.binary64.targetExponent (totalExponent m e) - e).toNat ≤ m.log2 ∧
      m.log2 < (Format.binary64.targetExponent (totalExponent m e) - e).toNat + 53 := by
  simp only [Format.targetExponent, totalExponent, Format.mantissaBits, Format.minExponent]
  omega

/-- The bits that are moved out are recorded elsewhere, so the rest is a quotient. -/
theorem mantissa_shiftRight (em : ExtendedMantissa) (k : Nat) :
    (em >>> k).mantissa = em.mantissa / 2 ^ k := by
  change (Nat.repeat ExtendedMantissa.shiftRightOne k em).mantissa = _
  induction k with
  | zero => rw [Nat.repeat, pow_zero, Nat.div_one]
  | succ k ih =>
      rw [Nat.repeat, ExtendedMantissa.shiftRightOne, ih, Nat.div_div_eq_div_mul, ← pow_succ]

theorem mantissa_ofMantissaAndAccuracy (m : Nat) (acc : Accuracy) :
    (ExtendedMantissa.ofMantissaAndAccuracy m acc).mantissa = m := by
  rcases acc with _ | ⟨_ | _ | _⟩ <;> rfl

/-- Rounding up adds one, and rounding down leaves what there is. -/
theorem le_roundedMantissa (em : ExtendedMantissa) : em.mantissa ≤ em.roundedMantissa := by
  rcases em with ⟨m, _ | _, _ | _⟩
  · exact Nat.le_refl m
  · exact Nat.le_refl m
  · exact Nat.le_add_right m _
  · exact Nat.le_succ m

/-- A significand other than zero stays one when it is moved to its place. -/
theorem shiftToTargetExponent_fits (hm : 0 < m) (he : -1074 ≤ e) (acc : Accuracy) :
    0 < (shiftToTargetExponent .binary64 m e acc).1.mantissa ∧
      (shiftToTargetExponent .binary64 m e acc).1.mantissa < 2 ^ 53 ∧
      -1074 ≤ (shiftToTargetExponent .binary64 m e acc).2 := by
  rcases shift_bounds (m := m) he with ⟨hlow, hhigh⟩
  simp only [shiftToTargetExponent, shiftToExponent, mantissa_shiftRight,
    mantissa_ofMantissaAndAccuracy]
  generalize (Format.binary64.targetExponent (totalExponent m e) - e).toNat = k at hlow hhigh ⊢
  -- With the first bit still there the quotient is positive, and with at most fifty-two more it is
  -- in range.
  refine ⟨?_, ?_, by omega⟩
  · rw [Nat.div_pos_iff]
    exact ⟨Nat.two_pow_pos k, (Nat.le_log2 hm.ne').1 hlow⟩
  · rw [Nat.div_lt_iff_lt_mul (Nat.two_pow_pos k), ← pow_add, Nat.add_comm]
    exact (Nat.log2_lt hm.ne').1 hhigh

/-- The result of rounding is moved once more, because it may have become one bit longer. -/
theorem exists_roundWithAccuracy_eq (hm : 0 < m) (he : -1074 ≤ e) (acc : Accuracy) :
    ∃ n f h, roundWithAccuracy .binary64 s m e acc = .finite s n f h ∧ n < 2 ^ 53 ∧ -1074 ≤ f := by
  rcases shiftToTargetExponent_fits hm he acc with ⟨hpos, -, hexponent⟩
  have hrounded := Nat.lt_of_lt_of_le hpos (le_roundedMantissa _)
  rcases shiftToTargetExponent_fits hrounded hexponent .exact with ⟨hpos', hlt, hexponent'⟩
  refine ⟨_, _, hpos', ?_, hlt, hexponent'⟩
  rw [roundWithAccuracy]
  exact dif_neg hpos'.ne'

/-- A significand is first made long enough to be rounded, and is then rounded. -/
theorem exists_round_eq (hm : 0 < m) (he : -1074 ≤ e) :
    ∃ n f h, UnpackedFloat.round .binary64 s m e = .finite s n f h ∧ n < 2 ^ 53 ∧ -1074 ≤ f := by
  have hleast : -1074 ≤ Format.binary64.targetExponent (totalExponent m e) :=
    le_max_right _ _
  rw [UnpackedFloat.round]
  simp only [decreaseExponent]
  -- Making it longer does not make it zero, and leads no further than to the smallest exponent.
  refine exists_roundWithAccuracy_eq ?_ (by omega) .exact
  rw [Nat.shiftLeft_eq]
  exact Nat.mul_pos hm (Nat.two_pow_pos _)

/-- A multiple of the smallest float is not rounded to zero, unless it is zero. -/
theorem exists_normalize_eq (hz : z ≠ 0) (he : -1074 ≤ e) :
    ∃ s n f h, UnpackedFloat.normalize .binary64 z e t = .finite s n f h ∧ n < 2 ^ 53 ∧
      -1074 ≤ f := by
  rw [UnpackedFloat.normalize]
  rcases lt_or_gt_of_ne hz with hneg | hpos
  · rw [compare_lt_iff_lt.2 hneg]
    exact ⟨_, exists_round_eq (by omega) he⟩
  · rw [compare_gt_iff_gt.2 hpos]
    exact ⟨_, exists_round_eq (by omega) he⟩

/-- A number that is written as zero becomes the positive zero. -/
theorem normalize_positive (he : -1074 ≤ e) :
    Fits (UnpackedFloat.normalize .binary64 z e .positive) ∧
      UnpackedFloat.normalize .binary64 z e .positive ≠ .zero .negative := by
  by_cases hz : z = 0
  · subst hz
    exact ⟨trivial, nofun⟩
  · rcases exists_normalize_eq (t := .positive) hz he with ⟨s, n, f, h, heq, hfits⟩
    rw [heq]
    exact ⟨hfits, nofun⟩

/-- A sum fits, and it is not the negative zero unless both of its operands are. -/
theorem add_cases (hu : Fits u) (hv : Fits v) :
    u = .zero .negative ∧ v = .zero .negative ∨
      Fits (UnpackedFloat.add .binary64 u v) ∧
        UnpackedFloat.add .binary64 u v ≠ .zero .negative := by
  fun_cases UnpackedFloat.add .binary64 u v with
  -- Something is not finite, and then the sum is not finite either.
  | case1 | case2 | case3 | case4 | case5 | case6 => exact Or.inr ⟨trivial, nofun⟩
  | case7 s t hsame =>
      cases s <;> cases t
      · exact Or.inl ⟨rfl, rfl⟩
      · cases hsame
      · cases hsame
      · exact Or.inr ⟨trivial, nofun⟩
  | case8 => exact Or.inr ⟨trivial, nofun⟩
  -- A zero is added to something that is not one.
  | case9 _ _ _ _ hne => exact Or.inr ⟨hv, hne .negative⟩
  | case10 _ _ _ _ hne => exact Or.inr ⟨hu, hne .negative⟩
  -- Two numbers are added as multiples of the smaller power of two of the two.
  | case11 => exact Or.inr (normalize_positive (le_min hu.2 hv.2))

/-- What is computed by adding can be added again. -/
theorem add_fits (hu : Fits u) (hv : Fits v) : Fits (UnpackedFloat.add .binary64 u v) := by
  rcases add_cases hu hv with ⟨rfl, rfl⟩ | ⟨hfits, -⟩
  · trivial
  · exact hfits

/-- A sum of unpacked floats is the negative zero only of two such zeros. -/
theorem add_eq_zero_negative_iff (hu : Fits u) (hv : Fits v) :
    UnpackedFloat.add .binary64 u v = .zero .negative ↔
      u = .zero .negative ∧ v = .zero .negative := by
  constructor
  · intro h
    rcases add_cases hu hv with hzeros | ⟨-, hne⟩
    · exact hzeros
    · exact absurd h hne
  · rintro ⟨rfl, rfl⟩
    rfl

theorem neg_fits (hu : Fits u) : Fits u.neg := by
  cases u with
  | finite s m e h => exact hu
  | infinity s => trivial
  | notANumber => trivial
  | zero s => trivial

theorem neg_neg_eq (u : UnpackedFloat) : u.neg.neg = u := by
  cases u with
  | finite s m e h => cases s <;> rfl
  | infinity s => cases s <;> rfl
  | notANumber => rfl
  | zero s => cases s <;> rfl

theorem neg_eq_iff : u.neg = v ↔ u = v.neg := by
  constructor
  · rintro rfl
    exact (neg_neg_eq u).symm
  · rintro rfl
    exact neg_neg_eq v

/-- The bits of a zero are zeros, apart from the sign. -/
theorem eq_of_packComponents_eq {x : BitVec 11} {y : BitVec 52}
    (h : packComponents .binary64 t x y = packedZero .binary64 s) :
    x = 0#11 ∧ y = 0#52 ∧ t = s := by
  refine ⟨?_, ?_, ?_⟩
  · have hexponent := congrArg unpackExponent h
    rwa [packedZero, unpackExponent_packComponents, unpackExponent_packComponents] at hexponent
  · have hmantissa := congrArg unpackMantissa h
    rwa [packedZero, unpackMantissa_packComponents, unpackMantissa_packComponents] at hmantissa
  · have hsign := congrArg unpackSign h
    rw [packedZero, unpackSign_packComponents, unpackSign_packComponents] at hsign
    rw [← Sign.ofBitVec_toBitVec t, hsign, Sign.ofBitVec_toBitVec]

/-- Which fields a finite float is packed into. The infinity is for what is too large. -/
theorem pack_finite_eq (h : 0 < m) : UnpackedFloat.pack .binary64 (.finite t m e h) =
    if 2 ^ 11 ≤ (e + 1023 + 52).toNat + 1 then packedInfinity .binary64 t
    else if m.log2 + 1 = 53 then
      packComponents .binary64 t (BitVec.ofNat 11 (e + 1023 + 52).toNat) (BitVec.ofNat 52 m)
    else packComponents .binary64 t 0#11 (BitVec.ofNat 52 m) :=
  rfl

theorem ofNat_ne_zero {w n : Nat} (hpos : 0 < n) (hlt : n < 2 ^ w) : BitVec.ofNat w n ≠ 0#w := by
  intro h
  have hzero := congrArg BitVec.toNat h
  rw [BitVec.toNat_ofNat, BitVec.toNat_ofNat, Nat.mod_eq_of_lt hlt, Nat.zero_mod] at hzero
  omega

/-- A finite float other than zero does not have the bits of a zero. If the first bit of its
    significand is in its place and left out, the exponent tells that there is one. -/
theorem pack_finite_ne_packedZero {h : 0 < m} (hfits : Fits (.finite t m e h)) :
    UnpackedFloat.pack .binary64 (.finite t m e h) ≠ packedZero .binary64 s := by
  rcases hfits with ⟨hm, he⟩
  intro hzero
  rw [pack_finite_eq] at hzero
  -- By the cases of packing: too large, with a first bit in its place, and without one.
  split at hzero
  · cases (eq_of_packComponents_eq hzero).1
  split at hzero
  · exact ofNat_ne_zero (by omega) (by omega) (eq_of_packComponents_eq hzero).1
  · have hlog : m.log2 < 53 := (Nat.log2_lt h.ne').2 hm
    have hlt : m < 2 ^ 52 := (Nat.log2_lt h.ne').1 (by omega)
    exact ofNat_ne_zero h hlt (eq_of_packComponents_eq hzero).2.1

/-- What fits has the bits of a zero only if it is that zero. -/
theorem pack_eq_packedZero_iff (hu : Fits u) :
    UnpackedFloat.pack .binary64 u = packedZero .binary64 s ↔ u = .zero s := by
  constructor
  · intro h
    cases u with
    | infinity t => cases (eq_of_packComponents_eq h).1
    | notANumber => cases (eq_of_packComponents_eq h).1
    | zero t => rw [(eq_of_packComponents_eq h).2.2]
    | finite t m e hm => exact absurd h (pack_finite_ne_packedZero hu)
  · rintro rfl
    rfl

/-- A result that fits is read as a zero only if it is that zero. -/
theorem unpack_pack_eq_zero_iff (hu : Fits u) :
    (Float.Model.pack u).unpack = .zero s ↔ u = .zero s := by
  rw [← pack_eq_packedZero_iff hu]
  exact unpack_eq_zero_iff_of_valid (Float.Model.pack u).valid

/-- The zeros are the floats that are taken apart into zeros. -/
theorem eq_float_iff_unpack {x : Float} : x = float s 0 ↔ x.toModel.unpack = .zero s := by
  constructor
  · rintro rfl
    exact unpack_float (Nat.zero_le _)
  · intro h
    have hbits := (unpack_eq_zero_iff_of_valid x.toModel.valid).1 h
    rw [← Float.toBits_inj, ← UInt64.toBitVec_inj]
    exact hbits

theorem negativeZero_eq_float : negativeZero = float .negative 0 := by
  rw [negativeZero, zero_eq_float, neg_float (Nat.zero_le _)]
  rfl

/-- Only two negative zeros have a negative zero as their sum. -/
theorem add_eq_negativeZero_iff {x y : Float} :
    x + y = negativeZero ↔ x = negativeZero ∧ y = negativeZero := by
  -- The operands come from bits, so they fit.
  have hx := unpack_fits x.toModel.toBits.toBitVec
  have hy := unpack_fits y.toModel.toBits.toBitVec
  rw [negativeZero_eq_float, eq_float_iff_unpack, eq_float_iff_unpack, eq_float_iff_unpack,
    float_add_eq]
  exact (unpack_pack_eq_zero_iff (add_fits hx hy)).trans (add_eq_zero_negative_iff hx hy)

/-- The negative zero is the opposite of the positive one, and of no other float. -/
theorem neg_eq_negativeZero_iff {x : Float} : -x = negativeZero ↔ x = 0.0 := by
  have hx := unpack_fits x.toModel.toBits.toBitVec
  rw [negativeZero_eq_float, zero_eq_float, eq_float_iff_unpack, eq_float_iff_unpack, float_neg_eq]
  exact (unpack_pack_eq_zero_iff (neg_fits hx)).trans neg_eq_iff

end SignedZero

end LineCalc
