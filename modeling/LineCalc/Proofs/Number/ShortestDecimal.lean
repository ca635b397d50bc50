import LineCalc.Proofs.Number.RoundingInterval
import Mathlib

/-!
# The Shortest Decimal

What the decimal that a float is written as has over all the others that are read as this float.

The search goes from coarse grids to fine ones and stops at the first that has a point in the
interval. It looks at two points of each grid only, the one below the float and the one above it.
That is enough, because an interval has no holes: if it has any point of the grid, it has all
that lie between this point and the float. And it tries only twenty-four grids. That is enough as
well, because the first of them is coarser than the float is large, and the last one is finer than
its interval. Both need an estimate of the powers of ten next to a power of two. The search finds
it with one multiplication, and the proof with the logarithms of two and ten.

A decimal with fewer digits would have a power of ten between itself and the one that was found.
This power would be a point of a coarser grid.

## Main definitions

* `Dyadic.pointBelow`: The point of a grid that is next to a float, and not above it.
* `Dyadic.magnitude`: The place of the first bit of a float.

## Theorems

* `Dyadic.exists_nearest?_eq`: Two points of a grid are enough.
* `Dyadic.le_ceilingExponent`, `Dyadic.covers_pointBelow`: Twenty-four grids are enough.
* `Dyadic.le_exponent_shortest`: No coarser grid has a point in the interval.
* `Dyadic.shortest_lt`: No decimal in the interval has fewer digits.
* `Dyadic.shortest_mod_ten_ne_zero`: The shortest one does not end in a zero.
* `Dyadic.abs_sub_shortest_le`: No other point of its grid is nearer to the float.
-/

namespace LineCalc

namespace Dyadic

section

variable {d : Dyadic} {a b c : ℚ} {k : Int} {m n : Nat}

/-- The interval of a float has no holes. -/
theorem Covers.convex (ha : d.Covers a) (hb : d.Covers b) (hac : a ≤ c) (hcb : c ≤ b) :
    d.Covers c := by
  by_cases heven : d.significand % 2 = 0
  · rw [Covers, if_pos heven] at ha hb ⊢
    exact ⟨ha.1.trans hac, hcb.trans hb.2⟩
  · rw [Covers, if_neg heven] at ha hb ⊢
    exact ⟨ha.1.trans_le hac, hcb.trans_lt hb.2⟩

/-- The last point of a grid that is not above the float. -/
def pointBelow (d : Dyadic) (exponent : Int) : Nat :=
  (d.grid exponent).value / (d.grid exponent).step

theorem value_grid (d : Dyadic) (k : Int) : ((d.grid k).value : ℚ) = d.value * d.gridUnit k := by
  rw [value_eq, mul_assoc, ← scale_eq]
  exact_mod_cast rfl

/-- The float is between two points of a grid. -/
theorem pointBelow_bounds (d : Dyadic) (k : Int) :
    d.pointBelow k * 10 ^ k ≤ d.value ∧ d.value < (d.pointBelow k + 1 : Nat) * 10 ^ k := by
  have hunit := d.gridUnit_pos k
  have hstep : 0 < (d.grid k).step := Nat.mul_pos (Nat.two_pow_pos _) (Nat.pow_pos (by norm_num))
  -- Both comparisons are those of a quotient and its divisor, in the unit of the grid.
  have hle := Nat.div_mul_le_self (d.grid k).value (d.grid k).step
  have hlt := Nat.lt_mul_div_succ (d.grid k).value hstep
  rw [Nat.mul_comm] at hlt
  constructor
  · rw [← mul_le_mul_iff_left₀ hunit, mul_assoc, ← step_eq, ← value_grid]
    exact_mod_cast hle
  · rw [← mul_lt_mul_iff_left₀ hunit, mul_assoc, ← step_eq, ← value_grid]
    exact_mod_cast hlt

/-- If any point of a grid is in the interval, so is the next one to the float on its side. -/
theorem covers_toward (h : d.Covers (n * 10 ^ k)) :
    n ≤ d.pointBelow k ∧ d.Covers (d.pointBelow k * 10 ^ k) ∨
      d.pointBelow k + 1 ≤ n ∧ d.Covers ((d.pointBelow k + 1 : Nat) * 10 ^ k) := by
  have hten : (0 : ℚ) ≤ 10 ^ k := (zpow_pos (by norm_num) k).le
  rcases d.pointBelow_bounds k with ⟨hbelow, habove⟩
  -- The point is above the float or not, and the interval has everything between them.
  rcases Nat.lt_or_ge (d.pointBelow k) n with hlt | hle
  · have hmul := mul_le_mul_of_nonneg_right (Nat.cast_le (α := ℚ).2 hlt) hten
    exact Or.inr ⟨hlt, d.covers_value.convex h habove.le hmul⟩
  · have hmul := mul_le_mul_of_nonneg_right (Nat.cast_le (α := ℚ).2 hle) hten
    exact Or.inl ⟨hle, h.convex d.covers_value hmul hbelow⟩

/-- What a grid is asked, and what it answers. -/
theorem nearest?_cases (d : Dyadic) (k : Int) :
    (d.Covers (d.pointBelow k * 10 ^ k) ∧ (d.grid k).nearest? = some (d.pointBelow k) ∧
        (d.Covers ((d.pointBelow k + 1 : Nat) * 10 ^ k) →
          d.value - d.pointBelow k * 10 ^ k < (d.pointBelow k + 1 : Nat) * 10 ^ k - d.value)) ∨
      (d.Covers ((d.pointBelow k + 1 : Nat) * 10 ^ k) ∧
        (d.grid k).nearest? = some (d.pointBelow k + 1) ∧
        (d.Covers (d.pointBelow k * 10 ^ k) →
          (d.pointBelow k + 1 : Nat) * 10 ^ k - d.value ≤ d.value - d.pointBelow k * 10 ^ k)) ∨
      ¬ d.Covers (d.pointBelow k * 10 ^ k) ∧ ¬ d.Covers ((d.pointBelow k + 1 : Nat) * 10 ^ k) ∧
        (d.grid k).nearest? = none := by
  have hunit := d.gridUnit_pos k
  -- Which point is nearer is decided without a fraction.
  have hnearer : 2 * (d.grid k).value < (d.pointBelow k + (d.pointBelow k + 1)) * (d.grid k).step ↔
      d.value - d.pointBelow k * 10 ^ k < (d.pointBelow k + 1 : Nat) * 10 ^ k - d.value := by
    rw [← Nat.cast_lt (α := ℚ)]
    push_cast
    rw [value_grid, step_eq, ← mul_assoc, ← mul_assoc, mul_lt_mul_iff_left₀ hunit]
    constructor <;> intro h <;> linarith
  have hpoint : (d.grid k).value / (d.grid k).step = d.pointBelow k := rfl
  simp only [Grid.nearest?, hpoint]
  rw [← contains_iff, ← contains_iff, ← hnearer]
  cases (d.grid k).contains (d.pointBelow k) <;> cases (d.grid k).contains (d.pointBelow k + 1)
  · exact Or.inr (Or.inr ⟨Bool.false_ne_true, Bool.false_ne_true, rfl⟩)
  · exact Or.inr (Or.inl ⟨rfl, rfl, fun h => absurd h Bool.false_ne_true⟩)
  · exact Or.inl ⟨rfl, rfl, fun h => absurd h Bool.false_ne_true⟩
  · -- Both points are in the interval, and the nearer one is taken.
    by_cases hlt : 2 * (d.grid k).value <
        (d.pointBelow k + (d.pointBelow k + 1)) * (d.grid k).step
    · exact Or.inl ⟨rfl, congrArg some (if_pos hlt), fun _ => hlt⟩
    · exact Or.inr (Or.inl ⟨rfl, congrArg some (if_neg hlt),
        fun _ => not_lt.1 (hnearer.not.1 hlt)⟩)

/-- A grid with any point in the interval has an answer. -/
theorem exists_nearest?_eq (h : d.Covers (n * 10 ^ k)) : ∃ m, (d.grid k).nearest? = some m := by
  rcases d.nearest?_cases k with ⟨-, hm, -⟩ | ⟨-, hm, -⟩ | ⟨hbelow, habove, -⟩
  · exact ⟨_, hm⟩
  · exact ⟨_, hm⟩
  · rcases covers_toward h with ⟨-, hcovers⟩ | ⟨-, hcovers⟩
    · exact absurd hcovers hbelow
    · exact absurd hcovers habove

/-- No other point of the grid is nearer to the float, and none that is as near is larger. -/
theorem nearest?_le (hm : (d.grid k).nearest? = some m) (h : d.Covers (n * 10 ^ k)) :
    |d.value - m * 10 ^ k| ≤ |d.value - n * 10 ^ k| ∧
      (|d.value - m * 10 ^ k| = |d.value - n * 10 ^ k| → n ≤ m) := by
  have hten : (0 : ℚ) < 10 ^ k := zpow_pos (by norm_num) k
  have hmono {i j : Nat} (hij : i ≤ j) : (i : ℚ) * 10 ^ k ≤ j * 10 ^ k :=
    mul_le_mul_of_nonneg_right (Nat.cast_le.2 hij) hten.le
  rcases d.pointBelow_bounds k with ⟨hbelow, habove⟩
  -- Which of the two points was taken, and on which side of the float the other point is.
  rcases d.nearest?_cases k with ⟨-, hb, htie⟩ | ⟨-, hb, htie⟩ | ⟨-, -, hb⟩ <;> rw [hb] at hm <;>
    cases hm <;> rcases covers_toward h with ⟨hn, hcovers⟩ | ⟨hn, hcovers⟩
  · rw [abs_of_nonneg (sub_nonneg.2 hbelow), abs_of_nonneg (by linarith [hmono hn])]
    exact ⟨by linarith [hmono hn], fun _ => hn⟩
  · have hlt := htie hcovers
    rw [abs_of_nonneg (sub_nonneg.2 hbelow), abs_of_neg (by linarith [hmono hn])]
    exact ⟨by linarith [hmono hn], fun heq => by linarith [hmono hn]⟩
  · have hle := htie hcovers
    rw [abs_of_neg (sub_neg.2 habove), abs_of_nonneg (by linarith [hmono hn])]
    exact ⟨by linarith [hmono hn], fun _ => hn.trans (Nat.le_succ _)⟩
  · rw [abs_of_neg (sub_neg.2 habove), abs_of_neg (by linarith [hmono hn])]
    refine ⟨by linarith [hmono hn], fun heq => ?_⟩
    have hpoint : (n : ℚ) * 10 ^ k = (d.pointBelow k + 1 : Nat) * 10 ^ k := by linarith
    exact (Nat.cast_injective (mul_right_cancel₀ hten.ne' hpoint)).le

/-- The place of the first bit of a float. -/
def magnitude (d : Dyadic) : Int :=
  d.significand.log2 + d.exponent

/-- The logarithm of two is between 31 and 28 parts of that of ten, out of 103 and 93. -/
theorem log_two_bounds :
    31 * Real.log 10 ≤ 103 * Real.log 2 ∧ 93 * Real.log 2 ≤ 28 * Real.log 10 := by
  have hlow : Real.log (10 ^ 31) ≤ Real.log (2 ^ 103) :=
    Real.log_le_log (by norm_num) (by norm_num)
  have hhigh : Real.log (2 ^ 93) ≤ Real.log (10 ^ 28) :=
    Real.log_le_log (by norm_num) (by norm_num)
  rw [Real.log_pow, Real.log_pow] at hlow hhigh
  exact ⟨by exact_mod_cast hlow, by exact_mod_cast hhigh⟩

/-- The estimate that the search begins with is off by less than a tenth. -/
theorem log_two_mul_bounds {z : Int} (hlow : -1100 ≤ z) (hhigh : z ≤ 1100) :
    (30103 / 100000 * z - 1 / 10) * Real.log 10 ≤ z * Real.log 2 ∧
      z * Real.log 2 ≤ (30103 / 100000 * z + 1 / 10) * Real.log 10 := by
  have hten : 0 < Real.log 10 := Real.log_pos (by norm_num)
  have hz : (-1100 : ℝ) ≤ z := by exact_mod_cast hlow
  have hz' : (z : ℝ) ≤ 1100 := by exact_mod_cast hhigh
  rcases log_two_bounds with ⟨hlower, hupper⟩
  have hlower' : 31 / 103 * Real.log 10 ≤ Real.log 2 := by linarith
  have hupper' : Real.log 2 ≤ 28 / 93 * Real.log 10 := by linarith
  -- The two bounds of the logarithm are multiplied by `z`.
  rcases le_total 0 z with hsign | hsign
  · have hnonneg : (0 : ℝ) ≤ z := by exact_mod_cast hsign
    constructor
    · calc (30103 / 100000 * z - 1 / 10) * Real.log 10
          ≤ z * (31 / 103) * Real.log 10 := mul_le_mul_of_nonneg_right (by linarith) hten.le
        _ = z * (31 / 103 * Real.log 10) := mul_assoc _ _ _
        _ ≤ z * Real.log 2 := mul_le_mul_of_nonneg_left hlower' hnonneg
    · calc z * Real.log 2
          ≤ z * (28 / 93 * Real.log 10) := mul_le_mul_of_nonneg_left hupper' hnonneg
        _ = z * (28 / 93) * Real.log 10 := (mul_assoc _ _ _).symm
        _ ≤ (30103 / 100000 * z + 1 / 10) * Real.log 10 :=
            mul_le_mul_of_nonneg_right (by linarith) hten.le
  · -- Below zero the two fractions change their places.
    have hnonpos : (z : ℝ) ≤ 0 := by exact_mod_cast hsign
    constructor
    · calc (30103 / 100000 * z - 1 / 10) * Real.log 10
          ≤ z * (28 / 93) * Real.log 10 := mul_le_mul_of_nonneg_right (by linarith) hten.le
        _ = z * (28 / 93 * Real.log 10) := mul_assoc _ _ _
        _ ≤ z * Real.log 2 := mul_le_mul_of_nonpos_left hupper' hnonpos
    · calc z * Real.log 2
          ≤ z * (31 / 103 * Real.log 10) := mul_le_mul_of_nonpos_left hlower' hnonpos
        _ = z * (31 / 103) * Real.log 10 := (mul_assoc _ _ _).symm
        _ ≤ (30103 / 100000 * z + 1 / 10) * Real.log 10 :=
            mul_le_mul_of_nonneg_right (by linarith) hten.le

/-- Powers of two and of ten are compared by their logarithms. -/
theorem zpow_le_zpow_of_log_le {x y : ℚ} {i j : Int} (hx : 0 < x) (hy : 0 < y)
    (h : i * Real.log x ≤ j * Real.log y) : x ^ i ≤ y ^ j := by
  have hx' : (0 : ℝ) < x := by exact_mod_cast hx
  have hy' : (0 : ℝ) < y := by exact_mod_cast hy
  have hreal : (x : ℝ) ^ i ≤ (y : ℝ) ^ j := by
    rw [← Real.log_le_log_iff (zpow_pos hx' i) (zpow_pos hy' j), Real.log_zpow, Real.log_zpow]
    exact h
  exact_mod_cast hreal

/-- The powers of ten next to a power of two. -/
theorem ten_zpow_bounds {z q : Int} (hlow : -1100 ≤ z) (hhigh : z ≤ 1100)
    (hq : q = (z * 30103).fdiv 100000) :
    (2 : ℚ) ^ (z + 2) ≤ 10 ^ (q + 3) ∧ (10 : ℚ) ^ q ≤ 2 ^ (z + 1) := by
  have hten : 0 < Real.log 10 := Real.log_pos (by norm_num)
  rw [Int.fdiv_eq_ediv_of_nonneg _ (by norm_num)] at hq
  -- Rounding down loses less than one, and the estimate less than a tenth.
  have hfloor : 100000 * q ≤ 30103 * z := by omega
  have hfloor' : 30103 * z ≤ 100000 * q + 99999 := by omega
  have hreal : (100000 : ℝ) * q ≤ 30103 * z := by exact_mod_cast hfloor
  have hreal' : (30103 : ℝ) * z ≤ 100000 * q + 99999 := by exact_mod_cast hfloor'
  rcases log_two_mul_bounds hlow hhigh with ⟨hlower, hupper⟩
  rcases log_two_bounds with ⟨htwo, htwo'⟩
  constructor
  · refine zpow_le_zpow_of_log_le two_pos (by norm_num) ?_
    push_cast
    have hestimate : (30103 / 100000 * z + 1 / 10 + 2 * (28 / 93)) * Real.log 10 ≤
        (q + 3) * Real.log 10 := mul_le_mul_of_nonneg_right (by linarith) hten.le
    linarith
  · refine zpow_le_zpow_of_log_le (by norm_num) two_pos ?_
    push_cast
    have hestimate : (q : ℝ) * Real.log 10 ≤
        (30103 / 100000 * z - 1 / 10 + 31 / 103) * Real.log 10 :=
      mul_le_mul_of_nonneg_right (by linarith) hten.le
    linarith

/-- Where the first bit of a float can be. -/
theorem magnitude_bounds (hd : d.Canonical) (hhigh : d.exponent ≤ 971) (hpos : 0 < d.significand) :
    -1100 ≤ d.magnitude ∧ d.magnitude ≤ 1100 ∧ d.magnitude ≤ d.exponent + 52 := by
  have hleast := hd.le_exponent
  have hlog := (Nat.log2_lt hpos.ne').2 hd.significand_lt
  rw [magnitude]
  omega

/-- The interval ends below four times the first bit. -/
theorem high_lt (hpos : 0 < d.significand) :
    d.highQuarters * d.quarter < 2 ^ (d.magnitude + 2) := by
  -- The end of the interval is less than a bit away from the float.
  have hends : (d.highQuarters : ℚ) < (2 ^ (d.significand.log2 + 4) : Nat) := by
    have hlt : d.significand + 1 ≤ 2 ^ (d.significand.log2 + 1) := Nat.lt_log2_self
    have hpower : 2 ^ (d.significand.log2 + 4) = 8 * 2 ^ (d.significand.log2 + 1) := by ring
    rw [highQuarters, Nat.cast_lt, hpower]
    omega
  have hsum : d.magnitude + 2 = ((d.significand.log2 + 4 : Nat) : Int) + (d.exponent - 2) := by
    rw [magnitude]
    omega
  rw [hsum, zpow_add₀ two_ne_zero, zpow_natCast, ← quarter]
  push_cast at hends
  exact mul_lt_mul_of_pos_right hends d.quarter_pos

/-- What lies in the interval of a float other than zero is not zero. -/
theorem Covers.pos (h : d.Covers a) (hpos : 0 < d.significand) : 0 < a := by
  have hlow : 0 < d.lowQuarters := by
    rw [lowQuarters]
    split <;> omega
  exact (mul_pos (Nat.cast_pos.2 hlow) d.quarter_pos).trans_le h.bounds.1

theorem pos_of_covers (h : d.Covers (n * 10 ^ k)) (hpos : 0 < d.significand) : 0 < n := by
  rcases Nat.eq_zero_or_pos n with rfl | hn
  · have hzero := h.pos hpos
    rw [Nat.cast_zero, zero_mul] at hzero
    exact absurd hzero (lt_irrefl 0)
  · exact hn

/-- What the search knows about the size of a float before it begins. -/
theorem ceilingExponent_bounds (hd : d.Canonical) (hhigh : d.exponent ≤ 971)
    (hpos : 0 < d.significand) : (2 : ℚ) ^ (d.magnitude + 2) ≤ 10 ^ (d.ceilingExponent + 1) ∧
      (10 : ℚ) ^ (d.ceilingExponent - 2) ≤ 2 ^ (d.magnitude + 1) := by
  rcases magnitude_bounds hd hhigh hpos with ⟨hlow, hup, -⟩
  have hceiling : d.ceilingExponent = (d.magnitude * 30103).fdiv 100000 + 2 := rfl
  rcases ten_zpow_bounds hlow hup rfl with ⟨habove, hbelow⟩
  have hup' : d.ceilingExponent + 1 = (d.magnitude * 30103).fdiv 100000 + 3 := by omega
  have hdown : d.ceilingExponent - 2 = (d.magnitude * 30103).fdiv 100000 := by omega
  rw [hup', hdown]
  exact ⟨habove, hbelow⟩

/-- No grid that is coarser than the first one has a point in the interval. -/
theorem le_ceilingExponent (hd : d.Canonical) (hhigh : d.exponent ≤ 971)
    (hpos : 0 < d.significand) (h : d.Covers (n * 10 ^ k)) : k ≤ d.ceilingExponent := by
  have hten : (0 : ℚ) < 10 ^ k := zpow_pos (by norm_num) k
  have hn : (1 : ℚ) ≤ n := Nat.one_le_cast.2 (pos_of_covers h hpos)
  have hlt : (10 : ℚ) ^ k < 10 ^ (d.ceilingExponent + 1) :=
    calc (10 : ℚ) ^ k
        ≤ n * 10 ^ k := le_mul_of_one_le_left hten.le hn
      _ ≤ d.highQuarters * d.quarter := h.bounds.2
      _ < 2 ^ (d.magnitude + 2) := high_lt hpos
      _ ≤ 10 ^ (d.ceilingExponent + 1) := (ceilingExponent_bounds hd hhigh hpos).1
  exact Int.lt_add_one_iff.1 ((zpow_lt_zpow_iff_right₀ (by norm_num)).1 hlt)

/-- The last grid that is tried is so fine that the point below the float is in the interval. -/
theorem covers_pointBelow (hd : d.Canonical) (hhigh : d.exponent ≤ 971)
    (hpos : 0 < d.significand) :
    d.Covers (d.pointBelow (d.ceilingExponent - 23) * 10 ^ (d.ceilingExponent - 23)) := by
  rcases magnitude_bounds hd hhigh hpos with ⟨-, -, hfirst⟩
  rcases d.pointBelow_bounds (d.ceilingExponent - 23) with ⟨hbelow, habove⟩
  have hsum : d.ceilingExponent - 23 = d.ceilingExponent - 2 + -21 := by omega
  have hfine : (10 : ℚ) ^ (d.ceilingExponent - 23) ≤ d.quarter :=
    calc (10 : ℚ) ^ (d.ceilingExponent - 23)
        = 10 ^ (d.ceilingExponent - 2) * 10 ^ (-21 : Int) := by
          rw [hsum, zpow_add₀ (by norm_num)]
      _ ≤ 2 ^ (d.magnitude + 1) * 2 ^ (-69 : Int) :=
          mul_le_mul (ceilingExponent_bounds hd hhigh hpos).2 (by norm_num)
            (zpow_pos (by norm_num) _).le (zpow_pos two_pos _).le
      _ = 2 ^ (d.magnitude + 1 + -69) := (zpow_add₀ two_ne_zero _ _).symm
      _ ≤ d.quarter := zpow_le_zpow_right₀ one_le_two (by omega)
  have hlow : (d.lowQuarters : ℚ) ≤ 4 * d.significand - 1 := by
    have hle : d.lowQuarters + 1 ≤ 4 * d.significand := by
      rw [lowQuarters]
      split <;> omega
    have hcast : (d.lowQuarters : ℚ) + 1 ≤ 4 * d.significand := by exact_mod_cast hle
    linarith
  -- The step is not larger than a quarter, and the interval reaches down by one at least.
  have hend := mul_le_mul_of_nonneg_right hlow d.quarter_pos.le
  have hvalue := d.value_eq
  push_cast at habove
  have hlt : (d.lowQuarters : ℚ) * d.quarter <
      d.pointBelow (d.ceilingExponent - 23) * 10 ^ (d.ceilingExponent - 23) := by linarith
  by_cases heven : d.significand % 2 = 0
  · have hinside := d.covers_value
    rw [Covers, if_pos heven] at hinside ⊢
    exact ⟨hlt.le, hbelow.trans hinside.2⟩
  · have hinside := d.covers_value
    rw [Covers, if_neg heven] at hinside ⊢
    exact ⟨hlt, hbelow.trans_lt hinside.2⟩

/-- What stands in front of a number in a range are the smaller ones. -/
theorem mem_of_range_eq {before after : List Nat} {i j : Nat}
    (h : List.range n = before ++ i :: after) (hj : j < i) : j ∈ before := by
  have hsorted : (before ++ i :: after).Pairwise (· < ·) := h ▸ List.pairwise_lt_range
  have hafter := (List.pairwise_cons.1 (List.pairwise_append.1 hsorted).2.1).1
  have hi : i ∈ List.range n := by
    rw [h]
    exact List.mem_append_right _ List.mem_cons_self
  have hmem : j ∈ before ++ i :: after := h ▸ List.mem_range.2 (hj.trans (List.mem_range.1 hi))
  rcases List.mem_append.1 hmem with hbefore | hrest
  · exact hbefore
  · rcases List.mem_cons.1 hrest with rfl | hmem
    · exact absurd hj (lt_irrefl _)
    · exact absurd (hafter j hmem) hj.not_gt

/-- The search stops at the coarsest grid with a point in the interval. -/
theorem shortest_spec (hd : d.Canonical) (hhigh : d.exponent ≤ 971)
    (hpos : 0 < d.significand) :
    (d.grid d.shortest.exponent).nearest? = some d.shortest.digits ∧
      ∀ (n : Nat) (k : Int), d.Covers (n * 10 ^ k) → k ≤ d.shortest.exponent := by
  rcases exists_nearest?_eq (covers_pointBelow hd hhigh hpos) with ⟨m, hm⟩
  rw [shortest]
  cases hhit : (List.range 24).findSome? fun i : Nat =>
      (d.grid (d.ceilingExponent - i)).nearest?.map fun n =>
        (⟨n, d.ceilingExponent - i⟩ : Decimal) with
  | none =>
      -- The last grid has an answer.
      have hnone := List.findSome?_eq_none_iff.1 hhit 23 (by decide)
      rw [Option.map_eq_none_iff] at hnone
      cases hnone.symm.trans hm
  | some decimal =>
      rcases List.findSome?_eq_some_iff.1 hhit with ⟨before, i, after, hrange, hi, hbefore⟩
      rcases Option.map_eq_some_iff.1 hi with ⟨digits, hdigits, rfl⟩
      refine ⟨hdigits, fun n k h => ?_⟩
      have hle := le_ceilingExponent hd hhigh hpos h
      rw [Option.getD_some]
      by_contra hlt
      -- A coarser grid with a point in the interval would have been the last one tried.
      have hearlier : (d.ceilingExponent - k).toNat < i := by
        simp only at hlt
        omega
      have hnone := hbefore _ (mem_of_range_eq hrange hearlier)
      have hexponent : d.ceilingExponent - ((d.ceilingExponent - k).toNat : Int) = k := by omega
      rw [Option.map_eq_none_iff, hexponent] at hnone
      rcases exists_nearest?_eq h with ⟨m, hm⟩
      cases hnone.symm.trans hm

/-- No decimal in the interval is a multiple of a larger power of ten. -/
theorem le_exponent_shortest (hd : d.Canonical) (hhigh : d.exponent ≤ 971)
    (hpos : 0 < d.significand) (h : d.Covers (n * 10 ^ k)) : k ≤ d.shortest.exponent :=
  (shortest_spec hd hhigh hpos).2 n k h

/-- No decimal in the interval has fewer digits. -/
theorem shortest_lt (hd : d.Canonical) (hhigh : d.exponent ≤ 971) (hpos : 0 < d.significand)
    (h : d.Covers (n * 10 ^ k)) (hn : n < 10 ^ m) : d.shortest.digits < 10 ^ m := by
  by_contra hlarge
  have hle := le_exponent_shortest hd hhigh hpos h
  have hten : (0 : ℚ) < 10 ^ d.shortest.exponent := zpow_pos (by norm_num) _
  -- A power of ten is not below the one decimal and not above the other.
  have hpower : ((1 : Nat) : ℚ) * 10 ^ (m + d.shortest.exponent) =
      (10 ^ m : Nat) * 10 ^ d.shortest.exponent := by
    rw [Nat.cast_one, one_mul, zpow_add₀ (by norm_num), zpow_natCast]
    push_cast
    rfl
  have hbelow : (n : ℚ) * 10 ^ k ≤ (1 : Nat) * 10 ^ (m + d.shortest.exponent) := by
    rw [hpower]
    exact mul_le_mul (Nat.cast_le.2 hn.le) (zpow_le_zpow_right₀ (by norm_num) hle)
      (zpow_pos (by norm_num) _).le (Nat.cast_nonneg _)
  have habove : ((1 : Nat) : ℚ) * 10 ^ (m + d.shortest.exponent) ≤ d.shortest.value := by
    rw [hpower]
    exact mul_le_mul_of_nonneg_right (Nat.cast_le.2 (not_lt.1 hlarge)) hten.le
  have hcoarser := le_exponent_shortest hd hhigh hpos (h.convex d.covers_shortest hbelow habove)
  have hm : m = 0 := by omega
  have hpositive := pos_of_covers h hpos
  rw [hm, pow_zero] at hn
  omega

/-- The decimal does not end in a zero. -/
theorem shortest_mod_ten_ne_zero (hd : d.Canonical) (hhigh : d.exponent ≤ 971)
    (hpos : 0 < d.significand) : d.shortest.digits % 10 ≠ 0 := by
  intro hzero
  have hcovers := d.covers_shortest
  have hdigits : (d.shortest.digits : ℚ) = (d.shortest.digits / 10 : Nat) * 10 := by
    exact_mod_cast (Nat.div_mul_cancel (Nat.dvd_of_mod_eq_zero hzero)).symm
  -- With a zero at its end the decimal would be a point of a coarser grid.
  have hvalue : d.shortest.value =
      (d.shortest.digits / 10 : Nat) * 10 ^ (d.shortest.exponent + 1) := by
    rw [Decimal.value, zpow_add_one₀ (by norm_num), hdigits]
    ring
  rw [hvalue] at hcovers
  have hle := le_exponent_shortest hd hhigh hpos hcovers
  omega

/-- No other decimal of the same step is nearer to the float, and none that is as near is larger. -/
theorem abs_sub_shortest_le (hd : d.Canonical) (hhigh : d.exponent ≤ 971)
    (hpos : 0 < d.significand) (h : d.Covers (n * 10 ^ d.shortest.exponent)) :
    |d.value - d.shortest.value| ≤ |d.value - n * 10 ^ d.shortest.exponent| ∧
      (|d.value - d.shortest.value| = |d.value - n * 10 ^ d.shortest.exponent| →
        n ≤ d.shortest.digits) :=
  nearest?_le (shortest_spec hd hhigh hpos).1 h

/-- A tenth is not a float. This is the float that is written as a tenth. -/
example : shortest ⟨7205759403792794, -56, false⟩ = ⟨1, -1⟩ := by decide +kernel

end

end Dyadic

end LineCalc
