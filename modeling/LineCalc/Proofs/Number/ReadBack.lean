import LineCalc.Arithmetic
import LineCalc.Proofs.Number.NearestFloat
import LineCalc.Proofs.Number.NumberText
import Mathlib

/-!
# Reading Back

A float that is written is read as the same float.

The text says which decimal has been found in the interval of the float. This decimal is rounded
to a float that has it in its interval too, and intervals do not overlap. So it is the same
float, and two floats that are not the same are written as different texts.

## Theorems

* `Dyadic.Covers.bounds_of_canonical`: Which decimals there can be in the interval of a float.
* `Literal.toFloat_of_covers`: A decimal in the interval of a float is read as this float.
* `Layout.literal?_render`: What is read from the text of a float.
* `Layout.render_injective`: The text of a float determines it.
-/

namespace LineCalc

open Float.Model Float.Model.UnpackedFloat

section

variable {d : Dyadic} {q : ℚ} {n : Nat} {z : Int} {negative : Bool}

/-- The smallest and the largest number that is not too far from a float other than zero. -/
theorem Dyadic.Covers.bounds_of_canonical (h : d.Covers q) (hd : d.Canonical)
    (hhigh : d.exponent ≤ 971) (hpos : 0 < d.significand) :
    2 ^ (-1075 : Int) ≤ q ∧ q ≤ 2 ^ (1024 : Int) := by
  have hlt := hd.significand_lt
  have hleast := hd.le_exponent
  have hlow : 2 ≤ d.lowQuarters := by
    rw [Dyadic.lowQuarters]
    split <;> omega
  have hhigh : d.highQuarters ≤ 2 ^ 55 := by
    rw [Dyadic.highQuarters]
    omega
  have hsmall : (2 : ℚ) ^ (-1076 : Int) ≤ d.quarter := zpow_le_zpow_right₀ one_le_two (by omega)
  have hlarge : d.quarter ≤ (2 : ℚ) ^ (969 : Int) := zpow_le_zpow_right₀ one_le_two (by omega)
  constructor
  · calc (2 : ℚ) ^ (-1075 : Int)
        = (2 : Nat) * 2 ^ (-1076 : Int) := by
          rw [Nat.cast_ofNat, ← zpow_one_add₀ two_ne_zero]
          norm_num
      _ ≤ d.lowQuarters * d.quarter :=
          mul_le_mul (Nat.cast_le.2 hlow) hsmall (zpow_pos two_pos _).le (Nat.cast_nonneg _)
      _ ≤ q := h.bounds.1
  · calc q
        ≤ d.highQuarters * d.quarter := h.bounds.2
      _ ≤ (2 ^ 55 : Nat) * 2 ^ (969 : Int) :=
          mul_le_mul (Nat.cast_le.2 hhigh) hlarge d.quarter_pos.le (Nat.cast_nonneg _)
      _ = 2 ^ (1024 : Int) := by
          rw [Nat.cast_pow, Nat.cast_ofNat, ← zpow_natCast, ← zpow_add₀ two_ne_zero]
          norm_num

namespace Literal

/-- Four hundred decimal places are more than the bits of any float. -/
theorem two_zpow_lt : (2 : ℚ) ^ (1075 : Int) < 10 ^ (400 : Int) := by
  have hlt : 2 ^ 1075 < 10 ^ 400 := by decide +kernel
  exact_mod_cast hlt

/-- A decimal that is not too far from a float is not cut short before it is read. -/
theorem exponent_bounds (hlow : 2 ^ (-1075 : Int) ≤ (n : ℚ) * 10 ^ z)
    (hhigh : (n : ℚ) * 10 ^ z ≤ 2 ^ (1024 : Int)) :
    n ≠ 0 ∧ z ≤ 400 ∧ -400 ≤ z + (n.log2 + 1) := by
  have hten : (0 : ℚ) < 10 ^ z := zpow_pos (by norm_num) z
  have hn : n ≠ 0 := by
    rintro rfl
    rw [Nat.cast_zero, zero_mul] at hlow
    exact absurd hlow (zpow_pos two_pos _).not_ge
  -- A larger exponent makes the number too large, whatever its digits are. A smaller one makes it
  -- too small.
  refine ⟨hn, ?_, ?_⟩
  · by_contra hz
    have hdigits : (1 : ℚ) ≤ n := Nat.one_le_cast.2 (Nat.pos_of_ne_zero hn)
    have hlarge : (2 : ℚ) ^ (1024 : Int) < n * 10 ^ z :=
      calc (2 : ℚ) ^ (1024 : Int)
          < 2 ^ (1075 : Int) := zpow_lt_zpow_right₀ one_lt_two (by norm_num)
        _ < 10 ^ (400 : Int) := two_zpow_lt
        _ ≤ 10 ^ z := zpow_le_zpow_right₀ (by norm_num) (by omega)
        _ ≤ n * 10 ^ z := le_mul_of_one_le_left hten.le hdigits
    exact absurd hhigh hlarge.not_ge
  · by_contra hz
    have hdigits : (n : ℚ) ≤ 10 ^ (n.log2 + 1) := by
      exact_mod_cast Nat.lt_log2_self.le.trans (Nat.pow_le_pow_left (by norm_num) _)
    have hsmall : (n : ℚ) * 10 ^ z < 2 ^ (-1075 : Int) :=
      calc (n : ℚ) * 10 ^ z
          ≤ 10 ^ (n.log2 + 1) * 10 ^ z := mul_le_mul_of_nonneg_right hdigits hten.le
        _ = 10 ^ (z + (n.log2 + 1)) := by
          rw [zpow_add₀ (by norm_num), mul_comm]
          exact_mod_cast rfl
        _ ≤ 10 ^ (-400 : Int) := zpow_le_zpow_right₀ (by norm_num) (by omega)
        _ < 2 ^ (-1075 : Int) := by
          rw [zpow_neg, zpow_neg]
          exact inv_strictAnti₀ (zpow_pos two_pos _) two_zpow_lt
    exact absurd hlow hsmall.not_ge

/-- A decimal in the interval of a float other than zero is read as this float. -/
theorem toFloat_of_covers (hd : d.Canonical) (hhigh : d.exponent ≤ 971) (hpos : 0 < d.significand)
    (h : d.Covers (n * 10 ^ z)) : (Magnitude.decimal n z).toFloat =
      .ofModel (.pack (.finite .positive d.significand d.exponent hpos)) := by
  rcases h.bounds_of_canonical hd hhigh hpos with ⟨hsmall, hlarge⟩
  rcases exponent_bounds hsmall hlarge with ⟨hn, hz, hz'⟩
  rcases Nearest.exists_ofScientific_eq hn hz hz' with ⟨d', hd', hcovers, hread⟩
  -- The float that it is rounded to covers it as well, and no two floats do.
  cases Dyadic.Covers.unique hd hd' h hcovers
  rw [Magnitude.toFloat, if_neg hn, if_neg (by simp only [hugeExponent]; omega),
    if_neg (by simp only [hugeExponent]; omega), hread, Dyadic.unpacked, dif_pos hpos]

/-- The sign of a literal becomes the sign of the float. -/
theorem ofBits_toFloat {m : Magnitude} (hd : d.Canonical) (hhigh : d.exponent ≤ 971)
    (hpos : 0 < d.significand)
    (h : m.toFloat = .ofModel (.pack (.finite .positive d.significand d.exponent hpos))) :
    FloatParts.ofBits (Literal.toFloat ⟨negative, m⟩).toBits = .finite negative d := by
  -- A minus sign is applied to a float that has been read, so that one is taken apart again.
  cases negative
  · rw [Literal.toFloat, if_neg Bool.false_ne_true, h]
    exact Dyadic.ofBits_pack hd hhigh hpos
  · have hunpack : m.toFloat.toModel.unpack = .finite .positive d.significand d.exponent hpos := by
      rw [h]
      exact Dyadic.unpack_pack hd hhigh hpos
    rw [Literal.toFloat, if_pos rfl, Whole.float_neg_eq, hunpack]
    exact Dyadic.ofBits_pack (s := .negative) hd hhigh hpos

theorem ofBits_toFloat_zero :
    FloatParts.ofBits (Literal.toFloat ⟨negative, .decimal 0 z⟩).toBits =
      .finite negative ⟨0, -1074, false⟩ := by
  cases negative
  · change FloatParts.ofBits (0.0 : Float).toBits = _
    decide +kernel
  · change FloatParts.ofBits (-0.0 : Float).toBits = _
    decide +kernel

theorem ofBits_toFloat_infinity :
    FloatParts.ofBits (Literal.toFloat ⟨negative, .infinity⟩).toBits = .infinite negative := by
  cases negative <;> decide +kernel

theorem ofBits_toFloat_nan : FloatParts.ofBits (Literal.toFloat ⟨false, .nan⟩).toBits = .nan := by
  decide +kernel

end Literal

/-- A significand without any bits has the smallest exponent. -/
theorem Dyadic.Canonical.eq_zero (hd : d.Canonical) (hzero : d.significand = 0) :
    d = ⟨0, -1074, false⟩ := by
  have hleast := hd.le_exponent
  have hfirst := hd.le_significand
  have hexponent : d.exponent = -1074 := by omega
  have hnarrow : d.narrowBelow = false := by
    rw [← Bool.not_eq_true, hd.narrowBelow_iff]
    omega
  rcases d with ⟨significand, exponent, narrowBelow⟩
  cases hzero
  cases hexponent
  cases hnarrow
  rfl

namespace Layout

/-- The literal that a finite float is written as is read as this float. -/
theorem ofBits_toFloat_of_value (hd : d.Canonical) (hhigh : d.exponent ≤ 971)
    (hvalue : (n : ℚ) * 10 ^ z = writtenValue d) :
    FloatParts.ofBits (Literal.toFloat ⟨negative, .decimal n z⟩).toBits = .finite negative d := by
  -- A zero is written as a zero. Its interval is not looked at.
  by_cases hzero : d.significand = 0
  · have hten : (10 : ℚ) ^ z ≠ 0 := zpow_ne_zero _ (by norm_num)
    rw [writtenValue, if_pos hzero, mul_eq_zero_iff_right hten, Nat.cast_eq_zero] at hvalue
    rw [hvalue, Literal.ofBits_toFloat_zero, hd.eq_zero hzero]
  · have hcovers := d.covers_shortest
    rw [writtenValue, if_neg hzero] at hvalue
    rw [← hvalue] at hcovers
    have hpos := Nat.pos_of_ne_zero hzero
    exact Literal.ofBits_toFloat hd hhigh hpos (Literal.toFloat_of_covers hd hhigh hpos hcovers)

/-- The text of a float is read as this float, in either layout. -/
theorem literal?_render (l : Layout) (x : Float) : Arithmetic.literal? (l.render x) = some x := by
  change (Literal.read? (l.render x)).map Literal.toFloat = some x
  -- Both the text and the float that is read depend on the parts only.
  cases hx : FloatParts.ofBits x.toBits with
  | nan =>
      rw [read?_render_nan hx, Option.map_some, Option.some.injEq]
      exact FloatParts.eq_of_ofBits_eq (Literal.ofBits_toFloat_nan.trans hx.symm)
  | infinite negative =>
      rw [read?_render_infinite hx, Option.map_some, Option.some.injEq]
      exact FloatParts.eq_of_ofBits_eq (Literal.ofBits_toFloat_infinity.trans hx.symm)
  | finite negative d =>
      rcases exists_read?_render (l := l) hx with ⟨n, z, hread, hvalue⟩
      rcases FloatParts.canonical_of_ofBits hx with ⟨hd, hhigh⟩
      rw [hread, Option.map_some, Option.some.injEq]
      exact FloatParts.eq_of_ofBits_eq ((ofBits_toFloat_of_value hd hhigh hvalue).trans hx.symm)

/-- Floats that are not the same have texts that are not the same. -/
theorem render_injective (l : Layout) : Function.Injective l.render := by
  intro x y h
  have hread := congrArg (Arithmetic.literal? (α := Float)) h
  rwa [literal?_render, literal?_render, Option.some.injEq] at hread

example : Layout.answer.render (Literal.toFloat ⟨true, .decimal 25 (-2)⟩) = "-0.25" := by
  decide +kernel

end Layout

end

end LineCalc
