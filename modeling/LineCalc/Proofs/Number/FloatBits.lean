import LineCalc.Proofs.Number.RoundingInterval
import LineCalc.Proofs.Number.SignedZero

/-!
# Bits of Floats

A float as its parts, and how it is put together from them.

The parts are read off the bits by divisions, while the operations on floats take bits apart
with shifts and masks. Both see the same three fields. So the parts of a float determine it,
with one exception that does not occur: there are many bit patterns for a value that is no
number, but only one of them is a float. And the significand and the exponent that are the parts
of a float are the ones that an operation works with.

A float that was put together from a whole number therefore stands for this number.

## Main definitions

* `floatValue?`: The number that a float stands for.

## Theorems

* `FloatParts.ofBits_cases`: The parts of a bit pattern, in four cases.
* `FloatParts.canonical_of_ofBits`: The parts are those of a float.
* `FloatParts.eq_of_ofBits_eq`: Floats with the same parts are the same.
* `Dyadic.ofBits_pack`, `Dyadic.unpack_pack`: Bits put together from a significand and an
  exponent, and taken apart again.
* `Whole.floatValue?_float`: The number that a whole float stands for.
-/

namespace LineCalc

open Float.Model Float.Model.UnpackedFloat

/-- The number that the parts of a float stand for, if it is finite. -/
def FloatParts.value? : FloatParts → Option ℚ
  | .nan | .infinite _ => none
  | .finite negative size =>
    some ((if negative then -1 else 1) * size.significand * 2 ^ size.exponent)

/-- The number that a float stands for, if it is finite. -/
def floatValue? (x : Float) : Option ℚ :=
  (FloatParts.ofBits x.toBits).value?

namespace FloatParts

/-- The fraction of a bit pattern. -/
def fractionOf (bits : UInt64) : Nat :=
  bits.toNat % 2 ^ 52

/-- The exponent field of a bit pattern. -/
def fieldOf (bits : UInt64) : Nat :=
  bits.toNat / 2 ^ 52 % 2 ^ 11

/-- The sign bit of a bit pattern. -/
def signOf (bits : UInt64) : Bool :=
  bits.toNat / 2 ^ 63 = 1

/-- The parts that a bit pattern stands for, in terms of its three fields. -/
theorem ofBits_cases (bits : UInt64) :
    (fieldOf bits = 2047 ∧ fractionOf bits ≠ 0 ∧ ofBits bits = nan) ∨
      (fieldOf bits = 2047 ∧ fractionOf bits = 0 ∧ ofBits bits = infinite (signOf bits)) ∨
      (fieldOf bits = 0 ∧ ofBits bits = finite (signOf bits) ⟨fractionOf bits, -1074, false⟩) ∨
      (0 < fieldOf bits ∧ fieldOf bits < 2047 ∧
        ofBits bits = finite (signOf bits) ⟨2 ^ 52 + fractionOf bits, fieldOf bits - 1075,
          fractionOf bits = 0 ∧ fieldOf bits ≠ 1⟩) := by
  have hlt : fieldOf bits < 2 ^ 11 := Nat.mod_lt _ (Nat.two_pow_pos 11)
  -- The largest exponent field is for what is not finite, and the smallest for what has no first
  -- bit.
  by_cases htop : fieldOf bits = 2047
  · by_cases hfraction : fractionOf bits = 0
    · exact Or.inr (Or.inl ⟨htop, hfraction, (if_pos htop).trans (if_pos hfraction)⟩)
    · exact Or.inl ⟨htop, hfraction, (if_pos htop).trans (if_neg hfraction)⟩
  by_cases hzero : fieldOf bits = 0
  · exact Or.inr (Or.inr (Or.inl ⟨hzero, (if_neg htop).trans (if_pos hzero)⟩))
  · have hparts : ofBits bits = finite (signOf bits) ⟨2 ^ 52 + fractionOf bits,
        -1074 + (fieldOf bits - 1), fractionOf bits = 0 ∧ fieldOf bits ≠ 1⟩ :=
      (if_neg htop).trans (if_neg hzero)
    have hexponent : (-1074 : Int) + (fieldOf bits - 1) = fieldOf bits - 1075 := by omega
    rw [hexponent] at hparts
    exact Or.inr (Or.inr (Or.inr ⟨Nat.pos_of_ne_zero hzero, by omega, hparts⟩))

variable {bits : UInt64} {negative : Bool} {d : Dyadic}

/-- The fields of a pattern that stands for no number. -/
theorem fields_of_nan (h : ofBits bits = nan) : fieldOf bits = 2047 ∧ fractionOf bits ≠ 0 := by
  rcases ofBits_cases bits with ⟨hfield, hfraction, -⟩ | ⟨-, -, hbits⟩ | ⟨-, hbits⟩ | ⟨-, -, hbits⟩
  · exact ⟨hfield, hfraction⟩
  all_goals
    rw [hbits] at h
    cases h

/-- The fields of an infinite float, whose sign is all that there is to know. -/
theorem fields_of_infinite (h : ofBits bits = infinite negative) :
    signOf bits = negative ∧ fieldOf bits = 2047 ∧ fractionOf bits = 0 := by
  rcases ofBits_cases bits with
    ⟨-, -, hbits⟩ | ⟨hfield, hfraction, hbits⟩ | ⟨-, hbits⟩ | ⟨-, -, hbits⟩
  all_goals
    rw [hbits] at h
    cases h
  exact ⟨rfl, hfield, hfraction⟩

/-- The fields of a finite float can be told from its significand and its exponent. A missing
    first bit is the sign of an empty exponent field. -/
theorem fields_of_finite (h : ofBits bits = finite negative d) :
    signOf bits = negative ∧
      fieldOf bits = (if 2 ^ 52 ≤ d.significand then (d.exponent + 1075).toNat else 0) ∧
      fractionOf bits = d.significand % 2 ^ 52 := by
  have hlt : fractionOf bits < 2 ^ 52 := Nat.mod_lt _ (Nat.two_pow_pos 52)
  rcases ofBits_cases bits with
    ⟨-, -, hbits⟩ | ⟨-, -, hbits⟩ | ⟨hfield, hbits⟩ | ⟨hlow, hhigh, hbits⟩
  all_goals
    rw [hbits] at h
    cases h
  · rw [if_neg (Nat.not_le_of_lt hlt), Nat.mod_eq_of_lt hlt]
    exact ⟨rfl, hfield, rfl⟩
  · rw [if_pos (Nat.le_add_right _ _), Nat.add_mod_left, Nat.mod_eq_of_lt hlt]
    refine ⟨rfl, ?_, rfl⟩
    change fieldOf bits = ((fieldOf bits : Int) - 1075 + 1075).toNat
    omega

/-- Whatever bits a finite float has, its significand and its exponent are canonical. -/
theorem canonical_of_ofBits (h : ofBits bits = finite negative d) :
    d.Canonical ∧ d.exponent ≤ 971 := by
  have hfraction : fractionOf bits < 2 ^ 52 := Nat.mod_lt _ (Nat.two_pow_pos 52)
  rcases ofBits_cases bits with ⟨-, -, hbits⟩ | ⟨-, -, hbits⟩ | ⟨-, hbits⟩ | ⟨hlow, hhigh, hbits⟩
  all_goals
    rw [hbits] at h
    cases h
  · -- A number without a leading one bit has the smallest exponent.
    refine ⟨⟨?_, le_refl _, fun hlt => absurd hlt (lt_irrefl _), ?_⟩, by norm_num⟩
    · change fractionOf bits < 2 ^ 53
      omega
    · exact iff_of_false Bool.false_ne_true fun hpower => lt_irrefl _ hpower.2
  · refine ⟨⟨?_, ?_, fun _ => Nat.le_add_right _ _, ?_⟩, ?_⟩
    · change 2 ^ 52 + fractionOf bits < 2 ^ 53
      omega
    · change (-1074 : Int) ≤ fieldOf bits - 1075
      omega
    · rw [decide_eq_true_iff]
      change _ ↔ 2 ^ 52 + fractionOf bits = 2 ^ 52 ∧ (-1074 : Int) < fieldOf bits - 1075
      omega
    · change (fieldOf bits : Int) - 1075 ≤ 971
      omega

theorem toNat_unpackMantissa (b : BitVec 64) :
    (@unpackMantissa .binary64 b).toNat = b.toNat % 2 ^ 52 := by
  simp [unpackMantissa]

theorem toNat_unpackExponent (b : BitVec 64) :
    (@unpackExponent .binary64 b).toNat = b.toNat / 2 ^ 52 % 2 ^ 11 := by
  simp [unpackExponent, Nat.shiftRight_eq_div_pow]

/-- Only one of the patterns that stand for no number is a float. -/
theorem toBits_of_nan {x : Float} (h : ofBits x.toBits = nan) :
    x.toBits.toBitVec = packedNaN Format.binary64 := by
  rcases fields_of_nan h with ⟨hfield, hfraction⟩
  refine x.toModel.valid.eq_packedNaN ?_ ?_
  · refine BitVec.eq_of_toNat_eq ?_
    rw [toNat_unpackExponent]
    exact hfield
  · intro hzero
    have hnat := congrArg BitVec.toNat hzero
    rw [toNat_unpackMantissa] at hnat
    exact hfraction hnat

/-- The three fields of a bit pattern determine it. -/
theorem eq_of_fields {a b : UInt64} (hsign : signOf a = signOf b) (hfield : fieldOf a = fieldOf b)
    (hfraction : fractionOf a = fractionOf b) : a = b := by
  have ha := a.toNat_lt
  have hb := b.toNat_lt
  have hbits : a.toNat / 2 ^ 63 = 1 ↔ b.toNat / 2 ^ 63 = 1 := decide_eq_decide.1 hsign
  rw [← UInt64.toNat_inj]
  unfold fieldOf at hfield
  unfold fractionOf at hfraction
  omega

/-- Floats with the same parts are the same. -/
theorem eq_of_ofBits_eq {x y : Float} (h : ofBits x.toBits = ofBits y.toBits) : x = y := by
  rw [← Float.toBits_inj]
  -- The fields can be told from the parts, in every case but that of what is not a number.
  cases hx : ofBits x.toBits with
  | nan => rw [← UInt64.toBitVec_inj, toBits_of_nan hx, toBits_of_nan (h.symm.trans hx)]
  | infinite negative =>
      rcases fields_of_infinite hx with ⟨hsign, hfield, hfraction⟩
      rcases fields_of_infinite (h.symm.trans hx) with ⟨hsign', hfield', hfraction'⟩
      exact eq_of_fields (hsign.trans hsign'.symm) (hfield.trans hfield'.symm)
        (hfraction.trans hfraction'.symm)
  | finite negative d =>
      rcases fields_of_finite hx with ⟨hsign, hfield, hfraction⟩
      rcases fields_of_finite (h.symm.trans hx) with ⟨hsign', hfield', hfraction'⟩
      exact eq_of_fields (hsign.trans hsign'.symm) (hfield.trans hfield'.symm)
        (hfraction.trans hfraction'.symm)

end FloatParts

namespace Dyadic

/-- The exponent field of the float with a significand and an exponent. -/
def field (d : Dyadic) : Nat :=
  if 2 ^ 52 ≤ d.significand then (d.exponent + 1075).toNat else 0

variable {d : Dyadic} {s : Sign}

/-- Without its first bit the significand is small and the exponent is the smallest one. -/
theorem Canonical.cases (hd : d.Canonical) (hhigh : d.exponent ≤ 971) :
    2 ^ 52 ≤ d.significand ∧ 0 < d.field ∧ d.field < 2047 ∧ (d.field : Int) - 1075 = d.exponent ∨
      d.significand < 2 ^ 52 ∧ d.field = 0 ∧ d.exponent = -1074 := by
  have hleast := hd.le_exponent
  have hfirst := hd.le_significand
  unfold field
  split
  · exact Or.inl (by omega)
  · exact Or.inr (by omega)

/-- A significand with all its bits is canonical, unless its exponent is the smallest one. -/
theorem canonical_of_le {m : Nat} {e : Int} (hle : 2 ^ 52 ≤ m) (hlt : m < 2 ^ 53)
    (he : -1074 < e) : (⟨m, e, m = 2 ^ 52⟩ : Dyadic).Canonical :=
  ⟨hlt, he.le, fun _ => hle, decide_eq_true_iff.trans (iff_self_and.2 fun _ => he)⟩

/-- A pattern with the fields of a float has its parts. -/
theorem ofBits_eq_finite (hd : d.Canonical) (hhigh : d.exponent ≤ 971) {bits : UInt64}
    (hfield : FloatParts.fieldOf bits = d.field)
    (hfraction : FloatParts.fractionOf bits = d.significand % 2 ^ 52) :
    FloatParts.ofBits bits = .finite (FloatParts.signOf bits) d := by
  have hlt := hd.significand_lt
  have hnarrow := hd.narrowBelow_iff
  -- Two of the eight combinations of cases are possible.
  rcases FloatParts.ofBits_cases bits with
    ⟨htop, -, -⟩ | ⟨htop, -, -⟩ | ⟨hzero, hbits⟩ | ⟨hlow, htop, hbits⟩ <;>
    rcases hd.cases hhigh with ⟨hfirst, hpos, hbound, hexponent⟩ | ⟨hsmall, hempty, hexponent⟩
  all_goals try omega
  · -- There is no first bit, so the significand is the fraction.
    rw [hbits, hfraction, Nat.mod_eq_of_lt hsmall]
    have hwide : d.narrowBelow = false := by
      rw [← Bool.not_eq_true, hnarrow]
      omega
    rw [← hexponent, ← hwide]
  · rw [hbits, hfraction, hfield, hexponent]
    have hsignificand : 2 ^ 52 + d.significand % 2 ^ 52 = d.significand := by omega
    have hflag : decide (d.significand % 2 ^ 52 = 0 ∧ d.field ≠ 1) = d.narrowBelow := by
      rw [Bool.eq_iff_iff, decide_eq_true_iff, hnarrow]
      omega
    rw [hsignificand, hflag]

/-- A significand and an exponent that are canonical are not rounded when they are packed. -/
theorem pack_eq (hd : d.Canonical) (hhigh : d.exponent ≤ 971) (hpos : 0 < d.significand) :
    UnpackedFloat.pack .binary64 (.finite s d.significand d.exponent hpos) =
      packComponents .binary64 s (BitVec.ofNat 11 d.field) (BitVec.ofNat 52 d.significand) := by
  have hlt := hd.significand_lt
  rw [SignedZero.pack_finite_eq]
  rcases hd.cases hhigh with ⟨hfirst, hlow, htop, hexponent⟩ | ⟨hsmall, hempty, hexponent⟩
  · have hlog := Whole.log2_of_significand hfirst hlt
    have hbiased : (d.exponent + 1023 + 52).toNat = d.field := by omega
    rw [if_neg (by omega), if_pos (by omega), hbiased]
  · have hlog : d.significand.log2 < 52 := (Nat.log2_lt hpos.ne').2 hsmall
    rw [if_neg (by omega), if_neg (by omega), hempty]

/-- The bits that are put together from a significand and an exponent have these parts. -/
theorem ofBits_pack (hd : d.Canonical) (hhigh : d.exponent ≤ 971) (hpos : 0 < d.significand) :
    FloatParts.ofBits (Float.ofModel (.pack (.finite s d.significand d.exponent hpos))).toBits =
      .finite (s == .negative) d := by
  have hfield : d.field < 2 ^ 11 := by
    rcases hd.cases hhigh with hnormal | hsubnormal <;> omega
  have hpattern : (Float.ofModel (.pack (.finite s d.significand d.exponent hpos))).toBits.toNat =
      s.toBitVec.toNat * 2 ^ 63 + d.field * 2 ^ 52 + d.significand % 2 ^ 52 := by
    have hbits : (Float.ofModel (.pack (.finite s d.significand d.exponent hpos))).toBits.toNat =
        (UnpackedFloat.pack .binary64 (.finite s d.significand d.exponent hpos)).toNat := rfl
    rw [hbits, pack_eq hd hhigh hpos, Whole.toNat_packComponents, BitVec.toNat_ofNat,
      BitVec.toNat_ofNat, Nat.mod_eq_of_lt hfield]
  have hsign : s.toBitVec.toNat ≤ 1 := Nat.lt_succ_iff.1 s.toBitVec.isLt
  rw [ofBits_eq_finite hd hhigh]
  · congr 1
    rw [FloatParts.signOf, hpattern]
    cases s
    · exact decide_eq_true (by simp only [Sign.toBitVec, BitVec.toNat_ofNat]; omega)
    · exact decide_eq_false (by simp only [Sign.toBitVec, BitVec.toNat_ofNat]; omega)
  · rw [FloatParts.fieldOf, hpattern]
    omega
  · rw [FloatParts.fractionOf, hpattern]
    omega

/-- They are taken apart into what they were put together from. -/
theorem unpack_pack (hd : d.Canonical) (hhigh : d.exponent ≤ 971) (hpos : 0 < d.significand) :
    (Float.Model.pack (.finite s d.significand d.exponent hpos)).unpack =
      .finite s d.significand d.exponent hpos := by
  have hlt := hd.significand_lt
  change UnpackedFloat.unpack .binary64
    (UnpackedFloat.pack .binary64 (.finite s d.significand d.exponent hpos)) = _
  rw [pack_eq hd hhigh hpos]
  -- With a first bit, this is as for whole numbers. Without one, the exponent is not in the
  -- pattern.
  rcases hd.cases hhigh with ⟨hfirst, hlow, htop, hexponent⟩ | ⟨hsmall, hempty, hexponent⟩
  · rw [Whole.unpack_packComponents hlow.ne' htop hfirst hlt hpos, hexponent]
  · have hfraction : BitVec.ofNat 52 d.significand ≠ 0#52 :=
      SignedZero.ofNat_ne_zero hpos hsmall
    have hnat : (BitVec.ofNat 52 d.significand).toNat = d.significand := by
      rw [BitVec.toNat_ofNat, Nat.mod_eq_of_lt hsmall]
    have hfinite : (0#11 : BitVec 11) ≠ -1#11 := by decide
    rw [hempty, UnpackedFloat.unpack]
    simp only [unpackExponent_packComponents, unpackMantissa_packComponents,
      unpackSign_packComponents, Sign.ofBitVec_toBitVec]
    have hleast : ((0#11).toNat : Int) - (Format.binary64.exponentBias + (52 : Nat)) + 1 =
        d.exponent := by
      rw [hexponent]
      rfl
    rw [if_neg hfinite, if_pos trivial, dif_neg hfraction]
    simp only [hnat, hleast]

end Dyadic

namespace Whole

variable {n : Nat} {s : Sign}

/-- The parts of a whole float are the significand and the exponent it was made from. -/
theorem ofBits_float (h0 : n ≠ 0) (hn : n ≤ 2 ^ 53) : FloatParts.ofBits (float s n).toBits =
    .finite (s == .negative) ⟨significand n, n.log2 - 52, significand n = 2 ^ 52⟩ := by
  have hlog := log2_le_of_le hn
  have hcanonical := Dyadic.canonical_of_le (e := n.log2 - 52) (le_significand h0)
    (significand_lt n) (by omega)
  have hparts := Dyadic.ofBits_pack (s := s) hcanonical (by simp only; omega) (significand_pos h0)
  rwa [← unpacked_of_ne_zero h0] at hparts

/-- A whole number that is not larger than `2 ^ 53` is the number that its float stands for. -/
theorem floatValue?_float (hn : n ≤ 2 ^ 53) :
    floatValue? (float s n) = some (s.apply n : Int) := by
  by_cases h0 : n = 0
  · subst h0
    cases s <;> decide +kernel
  rw [floatValue?, ofBits_float h0 hn, FloatParts.value?, mul_assoc, significand_value hn]
  cases s <;> simp [Sign.apply]

theorem IsWhole.floatValue?_eq {x : Float} {z : Int} (h : IsWhole x z) :
    floatValue? x = some (z : ℚ) := by
  rcases h with ⟨s, n, hn, rfl, rfl⟩
  exact floatValue?_float hn

end Whole

end LineCalc
