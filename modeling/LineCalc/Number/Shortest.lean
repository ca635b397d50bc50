import LineCalc.Number.Dyadic

/-!
# Shortest Decimals

The shortest decimal number that reads back as a given float.

A float is what is read from every real that is nearer to it than to its
neighbours. Those reals form an interval, whose ends belong to it when the
significand is even, because a tie goes to the even neighbour. Of all decimals
in the interval the ones with the fewest digits are wanted, and of those the
one nearest to the float, the larger one if two are equally near.

The search lays grids of decreasing step over the numbers: the multiples of a
power of ten, then of the next smaller one, and so on. If any point of a grid
lies in the interval, so does one of the two points around the float itself, so
two tests settle a grid, and the first grid with a hit holds the answer. The
first grid tried is so coarse that the float lies below its first step, so no
coarser grid needs a test and no hit ends in a zero. All tests are comparisons
of natural numbers.

## Main definitions

* `Decimal`: A natural number times a power of ten.
* `Grid`: A float and its interval, measured against the step of a grid.
* `Grid.nearest?`: The point of a grid nearest to the float, if it reads back.
* `Dyadic.shortest`: The shortest decimal that reads back.
-/

namespace LineCalc

/-- The number `digits * 10 ^ exponent`. -/
structure Decimal where
  digits : Nat
  exponent : Int
deriving DecidableEq

/-- A float, the ends of its interval and the step of a grid, all in one unit. -/
structure Grid where
  step : Nat
  low : Nat
  value : Nat
  high : Nat
  /-- The ends belong to the interval. -/
  closed : Bool

namespace Grid

/-- True if the point `n` steps from zero lies in the interval. -/
def contains (g : Grid) (n : Nat) : Bool :=
  if g.closed then g.low ≤ n * g.step ∧ n * g.step ≤ g.high
  else g.low < n * g.step ∧ n * g.step < g.high

/-- The point nearest to the float among those in the interval, in steps from
    zero. -/
def nearest? (g : Grid) : Option Nat :=
  let below := g.value / g.step
  let above := below + 1
  match g.contains below, g.contains above with
  | true, true => some (if 2 * g.value < (below + above) * g.step then below else above)
  | true, false => some below
  | false, true => some above
  | false, false => none

end Grid

namespace Dyadic

/-- A float against the grid with the step `10 ^ exponent`. The interval reaches
    half a gap up, which is two quarters of the last bit of the significand, and
    two quarters or one down. -/
def grid (d : Dyadic) (exponent : Int) : Grid :=
  let quarter := d.exponent - 2
  let scale := Nat.pow 2 quarter.toNat * Nat.pow 10 (-exponent).toNat
  { step := Nat.pow 2 (-quarter).toNat * Nat.pow 10 exponent.toNat
    low := (4 * d.significand - if d.narrowBelow then 1 else 2) * scale
    value := 4 * d.significand * scale
    high := (4 * d.significand + 2) * scale
    closed := d.significand % 2 = 0 }

/-- The exponent of a power of ten above a float, at most three powers away from
    its leading digit. The factor is the logarithm of two to five digits. -/
def ceilingExponent (d : Dyadic) : Int :=
  ((d.significand.log2 + d.exponent) * 30103).fdiv 100000 + 2

/-- A float as a decimal without any rounding. -/
def exact (d : Dyadic) : Decimal :=
  ⟨d.significand * Nat.pow 2 d.exponent.toNat * Nat.pow 5 (-d.exponent).toNat,
    min d.exponent 0⟩

/-- The shortest decimal that reads back as `d`. Seventeen digits are always
    enough; if no grid had a hit, the answer would be exact. -/
def shortest (d : Dyadic) : Decimal :=
  let hit := (List.range 24).findSome? fun i : Nat =>
    let exponent := d.ceilingExponent - i
    (d.grid exponent).nearest?.map fun n => (⟨n, exponent⟩ : Decimal)
  hit.getD d.exact

end Dyadic

end LineCalc
