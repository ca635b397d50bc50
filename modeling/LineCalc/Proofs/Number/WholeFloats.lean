import LineCalc.Proofs.Grammar.WholeNumbers
import LineCalc.Proofs.Number.WholeRounding
import Mathlib

/-!
# Whole Numbers as Floats

The floats that are whole numbers, and what the operations do to them.

The operations take the bits of a float apart, compute, and put bits together again. So for a
whole number there are two things to know about its bits: how they are made, and what they are
taken apart into. The rest is that rounding does not change whole numbers, and that a text of
digits is read without an error, which happens in two ways: small numbers are converted from an
integer and multiplied by one, and `2 ^ 53` goes the way of all large literals.

Zero has two signs, and subtracting a zero leads to the negative one. Both
stand for the number zero, and `Whole.IsWhole` does not tell them apart.

## Main definitions

* `Whole.float`: The float that is a whole number.
* `Whole.IsWhole`: Which whole number a float is.

## Theorems

* `Whole.unpack_float`: The bits of a whole number are taken apart into what they were made
  from.
* `Whole.neg_float`, `Whole.mul_float`, `Whole.exists_add_float`: The operations on floats.
* `Whole.literal_toFloat_eq`: The whole number that a text of digits is read as.
* `Whole.exactOnWholes`: Floats are exact on whole numbers up to `2 ^ 53`.
-/

namespace LineCalc

section

open Float.Model Float.Model.UnpackedFloat

namespace Whole

/-- A whole number with a sign, as a float. -/
def float (s : Sign) (n : Nat) : Float :=
  .ofModel (.pack (unpacked s n))

/-- The float is a whole number that is not larger than `2 ^ 53`, with any sign if it is zero. -/
def IsWhole (x : Float) (z : Int) : Prop :=
  ∃ s n, n ≤ 2 ^ 53 ∧ x = float s n ∧ s.apply n = z

variable {n m a b : Nat} {s t : Sign}

/-- The bits of a whole number other than zero: its sign, its exponent with the bias, and its
    significand without the leading bit. -/
theorem pack_unpacked (h0 : n ≠ 0) (hn : n ≤ 2 ^ 53) :
    UnpackedFloat.pack .binary64 (unpacked s n) =
      packComponents .binary64 s (BitVec.ofNat 11 (n.log2 + 1023))
        (BitVec.ofNat 52 (significand n)) := by
  have hlog := log2_le_of_le hn
  have hbits := log2_of_significand (le_significand h0) (significand_lt n)
  have hbiased : ((n.log2 : Int) - 52 + Format.binary64.exponentBias + 52).toNat =
      n.log2 + 1023 := by
    simp only [Format.exponentBias]
    omega
  have hwidth : 52 + 1 = Format.binary64.mantissaBits := rfl
  rw [unpacked_of_ne_zero h0, UnpackedFloat.pack]
  simp only [hbits, Nat.cast_ofNat, hbiased]
  rw [if_neg (by omega), if_pos hwidth]

/-- The bits of a float whose exponent field is neither the smallest nor the largest. -/
theorem unpack_packComponents {field : Nat} (hlow : field ≠ 0) (hhigh : field < 2047)
    (hm : 2 ^ 52 ≤ m) (hm' : m < 2 ^ 53) (h : 0 < m) :
    UnpackedFloat.unpack .binary64
        (packComponents .binary64 s (BitVec.ofNat 11 field) (BitVec.ofNat 52 m)) =
      .finite s m (field - 1075) h := by
  have hexponent : (BitVec.ofNat 11 field).toNat = field := by
    rw [BitVec.toNat_ofNat, Nat.mod_eq_of_lt (by omega)]
  -- The first bit is put back in front of the fraction.
  have hleading : (1#1 ++ BitVec.ofNat 52 m).toNat = m := by
    have hfraction : (BitVec.ofNat 52 m).toNat = m - 2 ^ 52 := by
      rw [BitVec.toNat_ofNat]
      omega
    rw [BitVec.toNat_append, hfraction, ← Nat.shiftLeft_add_eq_or_of_lt (by omega),
      BitVec.toNat_ofNat, Nat.shiftLeft_eq]
    omega
  -- Neither of the two special values of the exponent field is there.
  have hfinite : BitVec.ofNat 11 field ≠ -1#11 := by
    intro h
    have htop : (BitVec.ofNat 11 field).toNat = 2047 := congrArg BitVec.toNat h
    omega
  have hnormal : BitVec.ofNat 11 field ≠ 0#11 := by
    intro h
    have hzero : (BitVec.ofNat 11 field).toNat = 0 := congrArg BitVec.toNat h
    omega
  have hunbiased : (field : Int) - (Format.binary64.exponentBias + (52 : Nat)) = field - 1075 := rfl
  rw [UnpackedFloat.unpack]
  simp only [unpackExponent_packComponents, unpackMantissa_packComponents,
    unpackSign_packComponents, Sign.ofBitVec_toBitVec, if_neg hfinite, if_neg hnormal, hexponent,
    hleading, hunbiased]

/-- No whole number is changed by putting its bits together and taking them apart again. -/
theorem unpack_float (hn : n ≤ 2 ^ 53) : (float s n).toModel.unpack = unpacked s n := by
  change UnpackedFloat.unpack .binary64 (UnpackedFloat.pack .binary64 (unpacked s n)) = _
  by_cases h0 : n = 0
  · subst h0
    rw [unpacked_zero, UnpackedFloat.pack, unpack_packedZero]
  have hlog := log2_le_of_le hn
  have hexponent : ((n.log2 + 1023 : Nat) : Int) - 1075 = n.log2 - 52 := by omega
  rw [pack_unpacked h0 hn, unpack_packComponents (by omega) (by omega) (le_significand h0)
    (significand_lt n) (significand_pos h0), unpacked_of_ne_zero h0]
  simp only [hexponent]

theorem float_neg_eq (x : Float) : -x = .ofModel (.pack x.toModel.unpack.neg) :=
  rfl

theorem float_mul_eq (x y : Float) : x * y =
    .ofModel (.pack (UnpackedFloat.mul .binary64 x.toModel.unpack y.toModel.unpack)) :=
  rfl

theorem float_add_eq (x y : Float) : x + y =
    .ofModel (.pack (UnpackedFloat.add .binary64 x.toModel.unpack y.toModel.unpack)) :=
  rfl

theorem neg_float (hn : n ≤ 2 ^ 53) : -float s n = float (-s) n := by
  rw [float_neg_eq, unpack_float hn, neg_unpacked, float]

theorem mul_float (ha : a ≤ 2 ^ 53) (hb : b ≤ 2 ^ 53) (hab : a * b ≤ 2 ^ 53) :
    float s a * float t b = float (s * t) (a * b) := by
  rw [float_mul_eq, unpack_float ha, unpack_float hb, mul_unpacked ha hb hab,
    float]

/-- Sums of whole floats are exact, up to the sign of a zero. -/
theorem exists_add_float (ha : a ≤ 2 ^ 53) (hb : b ≤ 2 ^ 53)
    (hsum : (s.apply a + t.apply b).natAbs ≤ 2 ^ 53) :
    ∃ u, float s a + float t b = float u (s.apply a + t.apply b).natAbs ∧
      u.apply (s.apply a + t.apply b).natAbs = s.apply a + t.apply b := by
  rcases exists_add_unpacked ha hb hsum with ⟨u, hadd, happly⟩
  refine ⟨u, ?_, happly⟩
  rw [float_add_eq, unpack_float ha, unpack_float hb, hadd, float]

theorem float_ofUInt64_eq (x : UInt64) : x.toFloat =
    .ofModel (.pack (UnpackedFloat.normalize .binary64 x.toNat 0 .positive)) :=
  rfl

/-- An integer that is not too large is converted without rounding. -/
theorem toFloat_eq_float (hn : n ≤ 2 ^ 53) : n.toUInt64.toFloat = float .positive n := by
  have htoNat : n.toUInt64.toNat = n := by
    rw [Nat.toUInt64, UInt64.toNat_ofNat', Nat.mod_eq_of_lt (by omega)]
  have hnormal := normalize_whole (z := n) (d := 0) (by omega)
  rw [pow_zero, mul_one, Nat.cast_zero, neg_zero, Int.natAbs_natCast, signOf,
    if_neg (by omega)] at hnormal
  rw [float_ofUInt64_eq, htoNat, hnormal, float]

theorem ofBits_eq_float : Float.ofBits 0x3FF0000000000000 = float .positive 1 := by
  decide +kernel

theorem zero_eq_float : (0.0 : Float) = float .positive 0 := by
  decide +kernel

theorem one_eq_float : (1.0 : Float) = float .positive 1 := by
  decide +kernel

/-- The general way to read a literal multiplies by a power of two first, and rounds then. -/
theorem ofModel_ofScientific_eq (hn : n ≤ 2 ^ 53) :
    Float.ofModel (.ofScientific n 0) = float .positive n := by
  rw [Float.Model.ofScientific, float]
  congr 2
  by_cases h0 : n = 0
  · subst h0
    rfl
  have hshift : n <<< Format.binary64.mantissaBits * 10 ^ (0 : Int).toNat = n * 2 ^ 53 := by
    rw [Nat.shiftLeft_eq, Int.toNat_zero, pow_zero, mul_one]
    rfl
  have hexponent : -(Format.binary64.mantissaBits : Int) + 0 = -((53 : Nat) : Int) := rfl
  have hrange : (2 : Int) ^ Format.binary64.exponentBits = 2048 := rfl
  rw [UnpackedFloat.ofScientific, dif_neg h0, if_neg (by omega), if_neg (by omega),
    if_pos (le_refl 0), UnpackedFloat.mul, hshift, hexponent]
  exact roundWithAccuracy_whole h0 hn (by omega)

/-- A whole number is read exactly, in the fast way for small numbers and in the general one. -/
theorem ofScientific_eq_float (hn : n ≤ 2 ^ 53) :
    Float.ofScientific n false 0 = float .positive n := by
  have hone : Float.exactlyRepresentablePowersOfTen[0] = float .positive 1 :=
    ofBits_eq_float
  rw [Float.ofScientific]
  -- Digits that fit into a word of a float are multiplied by a power of ten, which is one here.
  split
  · rw [if_neg Bool.false_ne_true, toFloat_eq_float hn, hone,
      mul_float hn (by norm_num) (by omega), Nat.mul_one]
    rfl
  · exact ofModel_ofScientific_eq hn

/-- A literal without a point or an exponent is not cut short, because it is small enough. -/
theorem literal_toFloat_eq (hn : n ≤ 2 ^ 53) :
    Literal.toFloat ⟨false, .decimal n 0⟩ = float .positive n := by
  rw [Literal.toFloat, if_neg Bool.false_ne_true, Literal.Magnitude.toFloat]
  by_cases h0 : n = 0
  · subst h0
    exact zero_eq_float
  · rw [if_neg h0, if_neg (by decide), if_neg (by simp only [Literal.hugeExponent]; omega)]
    exact ofScientific_eq_float hn

/-- The three fields of a bit pattern do not overlap. -/
theorem toNat_packComponents (x : BitVec 11) (y : BitVec 52) :
    (packComponents .binary64 s x y).toNat =
      s.toBitVec.toNat * 2 ^ 63 + x.toNat * 2 ^ 52 + y.toNat := by
  have hx := x.isLt
  have hy := y.isLt
  rw [packComponents, BitVec.toNat_append, BitVec.toNat_append,
    ← Nat.shiftLeft_add_eq_or_of_lt hy, ← Nat.shiftLeft_add_eq_or_of_lt hx, Nat.shiftLeft_eq,
    Nat.shiftLeft_eq]
  omega

/-- A significand and its exponent make up the number. -/
theorem significand_value (hn : n ≤ 2 ^ 53) :
    (significand n : ℚ) * 2 ^ ((n.log2 : Int) - 52) = n := by
  have hexact : ((2 ^ n.log2 * significand n : Nat) : ℚ) = (n * 2 ^ 52 : Nat) := by
    rw [two_pow_mul_significand hn]
  push_cast at hexact
  rw [zpow_sub₀ (by norm_num), zpow_natCast, mul_div_assoc', mul_comm, hexact]
  norm_num

theorem apply_mul_apply (s t : Sign) (a b : Int) :
    s.apply a * t.apply b = (s * t).apply (a * b) := by
  cases s <;> cases t
  · exact neg_mul_neg a b
  · exact neg_mul a b
  · exact mul_neg a b
  · rfl

theorem apply_neg (s : Sign) (z : Int) : (-s).apply z = -s.apply z := by
  cases s
  · exact (neg_neg z).symm
  · rfl

/-- Digits are read as the whole number that they spell, rounded to a float. -/
theorem float_literal?_of_wholeNumber? {text : String} (h : wholeNumber? text = some n) :
    (Arithmetic.literal? text : Option Float) =
      some (Literal.toFloat ⟨false, .decimal n 0⟩) := by
  unfold wholeNumber? at h
  split at h
  · rename_i hdigits
    cases h
    have hne : text.toList ≠ [] := fun hnil => hdigits.1 (String.toList_eq_nil_iff.1 hnil)
    -- A number has a first digit, which is what tells it from the other literals.
    rcases List.exists_cons_of_ne_nil hne with ⟨d, ds, hlist⟩
    have htext : text = String.ofList (d :: ds) := by
      rw [← hlist, String.ofList_toList]
    have hall : ∀ c ∈ d :: ds, c.isDigit = true := by
      rw [← hlist]
      exact List.all_eq_true.1 hdigits.2
    rw [htext, String.toList_ofList]
    exact congrArg (Option.map Literal.toFloat) (Literal.read?_ofList hall)
  · cases h

/-- Floats are exact on whole numbers up to `2 ^ 53`. -/
theorem exactOnWholes :
    ExactOnWholes Float (2 ^ 53) IsWhole fun n => Literal.toFloat ⟨false, .decimal n 0⟩ where
  zero := ⟨.positive, 0, by norm_num, zero_eq_float, rfl⟩
  one := ⟨.positive, 1, by norm_num, one_eq_float, rfl⟩
  add := by
    rintro x y a b ⟨s, m, hm, rfl, rfl⟩ ⟨t, n, hn, rfl, rfl⟩ hsum
    rcases exists_add_float hm hn hsum with ⟨u, hadd, happly⟩
    exact ⟨u, _, hsum, hadd, happly⟩
  mul := by
    rintro x y a b ⟨s, m, hm, rfl, rfl⟩ ⟨t, n, hn, rfl, rfl⟩ hproduct
    rw [apply_mul_apply, ← Nat.cast_mul, natAbs_apply] at hproduct
    refine ⟨s * t, m * n, hproduct, mul_float hm hn hproduct, ?_⟩
    rw [apply_mul_apply, Nat.cast_mul]
  neg := by
    rintro x a ⟨s, n, hn, rfl, rfl⟩
    exact ⟨-s, n, hn, neg_float hn, apply_neg s n⟩
  whole := fun hn => ⟨.positive, _, hn, literal_toFloat_eq hn, rfl⟩
  literal := float_literal?_of_wholeNumber?

end Whole

end

end LineCalc
