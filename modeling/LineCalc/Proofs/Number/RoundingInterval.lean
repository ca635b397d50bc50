import LineCalc.Number.Shortest
import Mathlib

/-!
# Rounding Intervals

The reals that a float is read from, and the decimal that is chosen among them.

Between two neighbouring floats there is a point halfway, and everything on one side of it is
read as one of the two. So each float has an interval, from the point halfway to the float
below to the point halfway to the float above. The point itself goes to the float with the even
significand, and because two neighbours are never both even, no real belongs to two intervals.

The search for a short decimal never sees the interval as such. It compares natural numbers,
which are the ends of the interval and the multiples of the step of a grid in a unit that makes
all of them whole. What it finds lies in the interval, and it falls back to the float itself if
it finds nothing.

## Main definitions

* `Decimal.value`, `Dyadic.value`: The number that a decimal, or a float, stands for.
* `Dyadic.Covers`: A number lies in the interval of a float.
* `Dyadic.Canonical`: The significand and the exponent are those of a float.

## Theorems

* `Dyadic.Covers.unique`: No number lies in two intervals.
* `Dyadic.contains_iff`: What the search tests of a point of a grid.
* `Dyadic.covers_shortest`: The shortest decimal lies in the interval of its float.
-/

namespace LineCalc

/-- The number that a decimal stands for. -/
def Decimal.value (d : Decimal) : ℚ :=
  d.digits * 10 ^ d.exponent

namespace Dyadic

/-- The number that a float stands for, without its sign. -/
def value (d : Dyadic) : ℚ :=
  d.significand * 2 ^ d.exponent

/-- The lower end of the interval, in quarters of the last bit of the significand. -/
def lowQuarters (d : Dyadic) : Nat :=
  4 * d.significand - if d.narrowBelow then 1 else 2

/-- The upper end of the interval, in quarters of the last bit of the significand. -/
def highQuarters (d : Dyadic) : Nat :=
  4 * d.significand + 2

/-- A quarter of the last bit of the significand. -/
def quarter (d : Dyadic) : ℚ :=
  2 ^ (d.exponent - 2)

/-- The number is not nearer to a neighbour of the float, and if it is equally near, the float
    is the even one. -/
def Covers (d : Dyadic) (q : ℚ) : Prop :=
  if d.significand % 2 = 0 then d.lowQuarters * d.quarter ≤ q ∧ q ≤ d.highQuarters * d.quarter
  else d.lowQuarters * d.quarter < q ∧ q < d.highQuarters * d.quarter

/-- A significand and an exponent in the form in which every float has only one of them. The
    exponent has no upper bound here. -/
structure Canonical (d : Dyadic) : Prop where
  significand_lt : d.significand < 2 ^ 53
  le_exponent : -1074 ≤ d.exponent
  /-- Only with the smallest exponent the first bit of a significand may be missing. -/
  le_significand : -1074 < d.exponent → 2 ^ 52 ≤ d.significand
  narrowBelow_iff : d.narrowBelow = true ↔ d.significand = 2 ^ 52 ∧ -1074 < d.exponent

section

variable {d d' : Dyadic} {q : ℚ}

theorem quarter_pos (d : Dyadic) : 0 < d.quarter :=
  zpow_pos two_pos _

/-- The float in the unit in which the ends of its interval are whole. -/
theorem value_eq (d : Dyadic) : d.value = 4 * d.significand * d.quarter := by
  have hsum : d.exponent = 2 + (d.exponent - 2) := by omega
  rw [value, quarter]
  conv_lhs => rw [hsum, zpow_add₀ two_ne_zero]
  ring

/-- With its ends or without them, an interval lies between them. -/
theorem Covers.bounds (h : d.Covers q) :
    d.lowQuarters * d.quarter ≤ q ∧ q ≤ d.highQuarters * d.quarter := by
  unfold Covers at h
  split at h
  · exact h
  · exact ⟨h.1.le, h.2.le⟩

/-- The ends of the interval of an odd float belong to its neighbours. -/
theorem Covers.ne_ends (h : d.Covers q) (hodd : d.significand % 2 = 1) :
    d.lowQuarters * d.quarter ≠ q ∧ q ≠ d.highQuarters * d.quarter := by
  rw [Covers, if_neg (by omega)] at h
  exact ⟨h.1.ne, h.2.ne⟩

/-- A number that is measured in quarters. -/
theorem covers_of_quarters (hlow : d.lowQuarters ≤ q) (hhigh : q ≤ d.highQuarters)
    (hodd : d.significand % 2 = 1 → d.lowQuarters ≠ q ∧ q ≠ d.highQuarters) :
    d.Covers (q * d.quarter) := by
  have hpos := d.quarter_pos
  unfold Covers
  split
  · exact ⟨mul_le_mul_of_nonneg_right hlow hpos.le, mul_le_mul_of_nonneg_right hhigh hpos.le⟩
  · rename_i hparity
    rcases hodd (by omega) with ⟨hneLow, hneHigh⟩
    exact ⟨mul_lt_mul_of_pos_right (lt_of_le_of_ne hlow hneLow) hpos,
      mul_lt_mul_of_pos_right (lt_of_le_of_ne hhigh hneHigh) hpos⟩

/-- With the same exponent, a smaller significand means a smaller interval. The ends of two
    intervals meet only if the significands follow on each other. -/
theorem ends_of_significand_lt (hd : d.Canonical) (hd' : d'.Canonical)
    (hexponent : d.exponent = d'.exponent) (hlt : d.significand < d'.significand) :
    d.highQuarters ≤ d'.lowQuarters ∧
      (d.highQuarters = d'.lowQuarters → d.significand + 1 = d'.significand) := by
  have hwide : d'.narrowBelow ≠ true := by
    intro hnarrow
    -- Below a power of two the exponent is a smaller one.
    rcases hd'.narrowBelow_iff.1 hnarrow with ⟨hpower, hleast⟩
    have hle := hd.le_significand (by omega)
    omega
  rw [highQuarters, lowQuarters, if_neg hwide]
  omega

/-- With a smaller exponent, the interval ends below all significands with the larger one. It
    reaches up to the smallest of them, and then the significand is the largest of all. -/
theorem ends_of_exponent_lt (hd : d.Canonical) (hd' : d'.Canonical)
    (hexponent : d.exponent < d'.exponent) :
    d.highQuarters ≤ 2 * (2 ^ 54 - 1) ∧ 2 ^ 54 - 1 ≤ d'.lowQuarters ∧
      (d.highQuarters = 2 * (2 ^ 54 - 1) → d.significand + 1 = 2 ^ 53) := by
  have hlt := hd.significand_lt
  have hle := hd'.le_significand (Int.lt_of_le_of_lt hd.le_exponent hexponent)
  have hnarrow := hd'.narrowBelow_iff
  have hleast := Int.lt_of_le_of_lt hd.le_exponent hexponent
  rw [highQuarters, lowQuarters]
  refine ⟨by omega, ?_, by omega⟩
  split
  · omega
  · rename_i hwide
    rw [hnarrow] at hwide
    omega

/-- The next exponent doubles the last bit, and with it the quarter. -/
theorem two_mul_quarter_le (hexponent : d.exponent < d'.exponent) :
    2 * d.quarter ≤ d'.quarter := by
  have hdouble : 2 * d.quarter = 2 ^ (d.exponent - 1) := by
    have hsum : d.exponent - 1 = 1 + (d.exponent - 2) := by omega
    rw [quarter, hsum, zpow_add₀ two_ne_zero, zpow_one]
  rw [hdouble, quarter]
  exact zpow_le_zpow_right₀ one_le_two (by omega)

/-- The interval of a smaller float ends where that of a larger one begins, or before. -/
theorem high_le_low (hd : d.Canonical) (hd' : d'.Canonical)
    (hlt : d.exponent < d'.exponent ∨ d.exponent = d'.exponent ∧ d.significand < d'.significand) :
    d.highQuarters * d.quarter ≤ d'.lowQuarters * d'.quarter ∧
      (d.highQuarters * d.quarter = d'.lowQuarters * d'.quarter →
        d.significand % 2 = 1 ∨ d'.significand % 2 = 1) := by
  have hpos := d.quarter_pos
  rcases hlt with hexponent | ⟨hexponent, hsignificand⟩
  · rcases ends_of_exponent_lt hd hd' hexponent with ⟨hhigh, hlow, hlast⟩
    have hstep := two_mul_quarter_le hexponent
    have hmiddle : ((2 * (2 ^ 54 - 1) : Nat) : ℚ) * d.quarter ≤ d'.lowQuarters * d'.quarter :=
      calc ((2 * (2 ^ 54 - 1) : Nat) : ℚ) * d.quarter
          = (2 ^ 54 - 1 : Nat) * (2 * d.quarter) := by push_cast; ring
        _ ≤ d'.lowQuarters * d'.quarter := by
          refine mul_le_mul (Nat.cast_le.2 hlow) hstep ?_ (Nat.cast_nonneg _)
          exact (mul_pos two_pos hpos).le
    have hbelow : (d.highQuarters : ℚ) * d.quarter ≤ (2 * (2 ^ 54 - 1) : Nat) * d.quarter :=
      mul_le_mul_of_nonneg_right (Nat.cast_le.2 hhigh) hpos.le
    refine ⟨hbelow.trans hmiddle, fun heq => Or.inl ?_⟩
    -- Nothing is left between the two ends, so the significand is the largest one, and odd.
    have hends : (d.highQuarters : ℚ) * d.quarter = (2 * (2 ^ 54 - 1) : Nat) * d.quarter :=
      le_antisymm hbelow (heq ▸ hmiddle)
    have hlargest := hlast (Nat.cast_injective (mul_right_cancel₀ hpos.ne' hends))
    omega
  · rcases ends_of_significand_lt hd hd' hexponent hsignificand with ⟨hends, hnext⟩
    have hquarter : d'.quarter = d.quarter := by rw [quarter, quarter, hexponent]
    rw [hquarter]
    refine ⟨mul_le_mul_of_nonneg_right (Nat.cast_le.2 hends) hpos.le, fun heq => ?_⟩
    have hsuccessor := hnext (Nat.cast_injective (mul_right_cancel₀ hpos.ne' heq))
    omega

/-- What a smaller float covers is not covered by a larger one. If there were such a number,
    both intervals would have it as an end, and both floats would be even. -/
theorem not_covers_of_lt (hd : d.Canonical) (hd' : d'.Canonical)
    (hlt : d.exponent < d'.exponent ∨ d.exponent = d'.exponent ∧ d.significand < d'.significand)
    (h : d.Covers q) : ¬ d'.Covers q := by
  intro h'
  rcases high_le_low hd hd' hlt with ⟨hends, hparity⟩
  have hhigh : q = d.highQuarters * d.quarter := le_antisymm h.bounds.2 (hends.trans h'.bounds.1)
  have hlow : d'.lowQuarters * d'.quarter = q := le_antisymm h'.bounds.1 (h.bounds.2.trans hends)
  rcases hparity (hhigh.symm.trans hlow.symm) with hodd | hodd
  · exact (h.ne_ends hodd).2 hhigh
  · exact (h'.ne_ends hodd).1 hlow

/-- No number lies in the intervals of two floats. -/
theorem Covers.unique (hd : d.Canonical) (hd' : d'.Canonical) (h : d.Covers q)
    (h' : d'.Covers q) : d = d' := by
  -- Of two different floats one is smaller, and then it cannot be both.
  have hexponent : d.exponent = d'.exponent := by
    rcases lt_trichotomy d.exponent d'.exponent with hlt | heq | hgt
    · exact absurd h' (not_covers_of_lt hd hd' (Or.inl hlt) h)
    · exact heq
    · exact absurd h (not_covers_of_lt hd' hd (Or.inl hgt) h')
  have hsignificand : d.significand = d'.significand := by
    rcases lt_trichotomy d.significand d'.significand with hlt | heq | hgt
    · exact absurd h' (not_covers_of_lt hd hd' (Or.inr ⟨hexponent, hlt⟩) h)
    · exact heq
    · exact absurd h (not_covers_of_lt hd' hd (Or.inr ⟨hexponent.symm, hgt⟩) h')
  -- Where the gap below is the narrow one can be seen from the other two.
  have hnarrow : d.narrowBelow = d'.narrowBelow := by
    rw [Bool.eq_iff_iff, hd.narrowBelow_iff, hd'.narrowBelow_iff, hexponent, hsignificand]
  rcases d with ⟨s, e, n⟩
  rcases d' with ⟨s', e', n'⟩
  cases hexponent
  cases hsignificand
  cases hnarrow
  rfl

/-- The float itself lies in its interval. -/
theorem covers_value (d : Dyadic) : d.Covers d.value := by
  have hlow : d.lowQuarters ≤ 4 * d.significand := Nat.sub_le _ _
  have hhigh : 4 * d.significand < d.highQuarters := Nat.lt_add_of_pos_right two_pos
  rw [value_eq]
  refine covers_of_quarters (by exact_mod_cast hlow) (by exact_mod_cast hhigh.le) fun hodd => ?_
  have hne : d.lowQuarters ≠ 4 * d.significand := by
    rw [lowQuarters]
    split <;> omega
  exact ⟨by exact_mod_cast hne, by exact_mod_cast hhigh.ne⟩

end

/-- A power with an integer exponent as a quotient, one side of which is one. -/
theorem zpow_eq_div {a : ℚ} (ha : a ≠ 0) (k : Int) : a ^ k = a ^ k.toNat / a ^ (-k).toNat := by
  rw [eq_div_iff (pow_ne_zero _ ha), ← zpow_natCast, ← zpow_natCast, ← zpow_add₀ ha]
  congr 1
  omega

/-- What has to be divided out of the numbers of a grid. -/
def gridUnit (d : Dyadic) (exponent : Int) : ℚ :=
  2 ^ (-(d.exponent - 2)).toNat * 10 ^ (-exponent).toNat

section

variable (d : Dyadic) (exponent : Int)

theorem gridUnit_pos : 0 < d.gridUnit exponent :=
  mul_pos (pow_pos two_pos _) (pow_pos (by norm_num) _)

theorem step_eq : ((d.grid exponent).step : ℚ) = 10 ^ exponent * d.gridUnit exponent := by
  have hten : (10 : ℚ) ^ (-exponent).toNat ≠ 0 := pow_ne_zero _ (by norm_num)
  have hstep : (d.grid exponent).step =
      2 ^ (-(d.exponent - 2)).toNat * 10 ^ exponent.toNat := rfl
  rw [hstep, zpow_eq_div (by norm_num) exponent, gridUnit]
  push_cast
  field_simp

/-- The power of two and ten that the ends of an interval are multiplied by. -/
theorem scale_eq : ((Nat.pow 2 (d.exponent - 2).toNat * Nat.pow 10 (-exponent).toNat : Nat) : ℚ) =
    d.quarter * d.gridUnit exponent := by
  have htwo : (2 : ℚ) ^ (-(d.exponent - 2)).toNat ≠ 0 := pow_ne_zero _ two_ne_zero
  rw [Nat.pow_eq, Nat.pow_eq, quarter, zpow_eq_div two_ne_zero (d.exponent - 2), gridUnit]
  push_cast
  field_simp

theorem low_eq : ((d.grid exponent).low : ℚ) =
    d.lowQuarters * d.quarter * d.gridUnit exponent := by
  rw [mul_assoc, ← scale_eq, ← Nat.cast_mul]
  rfl

theorem high_eq : ((d.grid exponent).high : ℚ) =
    d.highQuarters * d.quarter * d.gridUnit exponent := by
  rw [mul_assoc, ← scale_eq, ← Nat.cast_mul]
  rfl

variable {d exponent} {n : Nat}

/-- The test of a point tells whether it lies in the interval. -/
theorem contains_iff : (d.grid exponent).contains n = true ↔ d.Covers (n * 10 ^ exponent) := by
  have hpos := d.gridUnit_pos exponent
  have hpoint : ((n * (d.grid exponent).step : Nat) : ℚ) =
      n * 10 ^ exponent * d.gridUnit exponent := by
    rw [Nat.cast_mul, step_eq, mul_assoc]
  have hclosed : (d.grid exponent).closed = decide (d.significand % 2 = 0) := rfl
  rw [Grid.contains, hclosed, Covers]
  -- Every comparison of natural numbers is one of fractions, with the unit on both sides.
  by_cases heven : d.significand % 2 = 0
  · rw [if_pos heven, decide_eq_true heven, if_pos rfl, decide_eq_true_iff,
      ← Nat.cast_le (α := ℚ), ← Nat.cast_le (α := ℚ), hpoint, low_eq, high_eq,
      mul_le_mul_iff_left₀ hpos, mul_le_mul_iff_left₀ hpos]
  · rw [if_neg heven, decide_eq_false heven, if_neg Bool.false_ne_true, decide_eq_true_iff,
      ← Nat.cast_lt (α := ℚ), ← Nat.cast_lt (α := ℚ), hpoint, low_eq, high_eq,
      mul_lt_mul_iff_left₀ hpos, mul_lt_mul_iff_left₀ hpos]

end

/-- Both of the points that are looked at have been tested. -/
theorem contains_of_nearest? {g : Grid} {n : Nat} (h : g.nearest? = some n) :
    g.contains n = true := by
  simp only [Grid.nearest?] at h
  split at h
  · rename_i hbelow habove
    cases h
    split
    · exact hbelow
    · exact habove
  · rename_i hbelow _
    cases h
    exact hbelow
  · rename_i _ habove
    cases h
    exact habove
  · cases h

theorem exact_value (d : Dyadic) : d.exact.value = d.value := by
  have hdigits : d.exact.digits =
      d.significand * 2 ^ d.exponent.toNat * 5 ^ (-d.exponent).toNat := rfl
  have hexponent : d.exact.exponent = -((-d.exponent).toNat : Int) := by
    change min d.exponent 0 = _
    omega
  have hten : (10 : ℚ) ^ (-d.exponent).toNat =
      2 ^ (-d.exponent).toNat * 5 ^ (-d.exponent).toNat := by
    rw [← mul_pow]
    norm_num
  -- Halves become fives, one decimal place for each.
  have hfive : (5 : ℚ) ^ (-d.exponent).toNat ≠ 0 := pow_ne_zero _ (by norm_num)
  have htwo : (2 : ℚ) ^ (-d.exponent).toNat ≠ 0 := pow_ne_zero _ two_ne_zero
  rw [Decimal.value, value, hdigits, hexponent, zpow_neg, zpow_natCast, hten,
    zpow_eq_div two_ne_zero]
  push_cast
  field_simp

/-- The shortest decimal lies in the interval of its float, so it is nearer to this float than to
    any other. -/
theorem covers_shortest (d : Dyadic) : d.Covers d.shortest.value := by
  simp only [shortest]
  -- Every point that the search can find has been tested. Without one, there is the float.
  cases hhit : (List.range 24).findSome? fun i : Nat =>
      (d.grid (d.ceilingExponent - i)).nearest?.map fun n =>
        (⟨n, d.ceilingExponent - i⟩ : Decimal) with
  | none =>
      rw [Option.getD_none, exact_value]
      exact d.covers_value
  | some decimal =>
      rcases List.exists_of_findSome?_eq_some hhit with ⟨i, -, hi⟩
      rcases Option.map_eq_some_iff.1 hi with ⟨n, hn, rfl⟩
      exact contains_iff.1 (contains_of_nearest? hn)

end Dyadic

end LineCalc
