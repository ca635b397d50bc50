import LineCalc.Number.Shortest

/-!
# Number Layouts

Writing a float as text.

The digits are those of the shortest decimal that reads back. What is left to
decide is where they stand, and a `Layout` holds those decisions: which numbers
are written out in full and which with an exponent, and whether a whole number
carries a point. The journal writes every number in full and whole numbers
without a point. An answer is written in full while its leading digit stands
between the fourth place after the point and the sixteenth place before it, and
a whole number then ends in `.0`; beyond, the leading digit is followed by a
point if there are more digits, and by an exponent without a plus sign.

Zero keeps its sign. A value that is no number has none.

## Main definitions

* `Layout`: The decisions about number text.
* `Layout.journal`, `Layout.answer`: The two layouts in use.
* `Layout.positional`, `Layout.scientific`: Placing the digits of a decimal.
* `Layout.render`: The text of a float.
-/

namespace LineCalc

/-- The decisions about number text. -/
structure Layout where
  /-- The exponents of a leading digit that are written out in full. -/
  inFull : Int → Bool
  /-- Whole numbers written in full end in `.0`. -/
  wholePoint : Bool

namespace Layout

/-- Every number in full, and no point in whole numbers. -/
def journal : Layout where
  inFull _ := true
  wholePoint := false

/-- In full from `0.0001` up to, not including, `1e16`, and a point in every
    number that is written in full. -/
def answer : Layout where
  inFull lead := -4 ≤ lead ∧ lead < 16
  wholePoint := true

/-- The digits of a natural number. -/
def digits (n : Nat) : List Char :=
  Nat.toDigits 10 n

/-- A decimal written in full. -/
def positional (wholePoint : Bool) (d : Decimal) : List Char :=
  let ds := digits d.digits
  if 0 ≤ d.exponent then
    ds ++ List.replicate d.exponent.toNat '0' ++ if wholePoint then ".0".toList else []
  else
    let places := (-d.exponent).toNat
    -- At least one digit stands before the point.
    let padded := List.replicate (places + 1 - ds.length) '0' ++ ds
    let whole := padded.length - places
    padded.take whole ++ '.' :: padded.drop whole

/-- The exponent of the leading digit of a decimal. -/
def leadExponent (d : Decimal) : Int :=
  d.exponent + (digits d.digits).length - 1

/-- A decimal written with an exponent. -/
def scientific (d : Decimal) : List Char :=
  let ds := digits d.digits
  let fraction := if ds.length = 1 then [] else '.' :: ds.drop 1
  ds.take 1 ++ fraction ++ 'e' :: (toString (leadExponent d)).toList

/-- The text of a size. -/
def size (l : Layout) (d : Dyadic) : List Char :=
  let decimal := if d.significand = 0 then ⟨0, 0⟩ else d.shortest
  if d.significand = 0 ∨ l.inFull (leadExponent decimal) then
    positional l.wholePoint decimal
  else
    scientific decimal

/-- The text of a float. -/
def render (l : Layout) (x : Float) : String :=
  let signed (negative : Bool) (text : List Char) :=
    String.ofList (if negative then '-' :: text else text)
  match FloatParts.ofBits x.toBits with
  | .nan => "NaN"
  | .infinite negative => signed negative "inf".toList
  | .finite negative d => signed negative (l.size d)

end Layout

end LineCalc
