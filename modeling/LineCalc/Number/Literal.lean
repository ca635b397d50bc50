/-!
# Number Literals

Reading a number from its text.

A literal is an optional sign followed by a decimal number or by a name. A
decimal number has digits before its point, after it, or both, the point may be
missing, and an exponent of ten may follow:

```text
literal  = sign? (decimal | "inf" | "infinity" | "nan")
decimal  = (digits ("." digits?)? | "." digits) (("e" | "E") sign? digits)?
sign     = "+" | "-"
```

Names are read in any mixture of upper and lower case. Digits are the ten
digits of ASCII. There are no spaces and no separators, and nothing may follow.

`Literal.toFloat` rounds to the nearest number, ties to even. It is exact about
literals of any length: the digits are kept as one natural number together with
the exponent of the last of them. Only exponents that lie far beyond the range
of numbers are cut short, where the answer is zero or infinity whatever the
digits are.

## Main definitions

* `Literal`: A signed decimal number, infinity or a literal that is no number.
* `Literal.read?`: The literal that a text spells.
* `Literal.toFloat`: The number nearest to a literal.

## Theorems

* `Literal.read?_ofList`: Digits are a literal.
-/

namespace LineCalc

/-- The size of a literal. -/
inductive Literal.Magnitude where
  /-- The number `digits * 10 ^ exponent`. -/
  | decimal (digits : Nat) (exponent : Int)
  | infinity
  | nan
deriving DecidableEq

/-- What a number text spells. -/
structure Literal where
  negative : Bool
  magnitude : Literal.Magnitude
deriving DecidableEq

namespace Literal

/-- The leading digits of a text, and what follows them. -/
def digits (text : List Char) : List Char × List Char :=
  (text.takeWhile Char.isDigit, text.dropWhile Char.isDigit)

/-- The number that digits spell. -/
def value (ds : List Char) : Nat :=
  ds.foldl (fun n d => 10 * n + (d.toNat - '0'.toNat)) 0

/-- An optional sign, as true for minus, and what follows it. -/
def sign : List Char → Bool × List Char
  | '+' :: rest => (false, rest)
  | '-' :: rest => (true, rest)
  | rest => (false, rest)

/-- The exponent at the end of a decimal number, `0` if there is none. -/
def exponent? : List Char → Option Int
  | [] => some 0
  | e :: rest =>
    if e = 'e' ∨ e = 'E' then
      let (negative, rest) := sign rest
      let (ds, rest) := digits rest
      if ds = [] ∨ rest ≠ [] then none
      else some (if negative then -(value ds : Int) else value ds)
    else none

/-- The decimal number that a text spells. -/
def decimal? (text : List Char) : Option Magnitude := do
  let (whole, rest) := digits text
  let (fraction, rest) :=
    match rest with
    | '.' :: rest => digits rest
    | rest => ([], rest)
  if whole = [] ∧ fraction = [] then none
  else
    let exponent ← exponent? rest
    return .decimal (value (whole ++ fraction)) (exponent - fraction.length)

/-- The infinity or the literal that is no number, if a text names it. -/
def named? (text : List Char) : Option Magnitude :=
  let name := text.map Char.toLower
  if name = "inf".toList ∨ name = "infinity".toList then some .infinity
  else if name = "nan".toList then some .nan
  else none

/-- The literal that a text spells. -/
def read? (text : String) : Option Literal := do
  let (negative, rest) := sign text.toList
  let magnitude ← (decimal? rest).or (named? rest)
  return ⟨negative, magnitude⟩

/-- An exponent from which on every number but zero is infinite. -/
def hugeExponent : Nat := 400

/-- The number nearest to a size. A size below `10 ^ (-hugeExponent)` is zero;
    `digits` has at most `digits.log2 + 1` digits. -/
def Magnitude.toFloat : Magnitude → Float
  | decimal digits exponent =>
    if digits = 0 then 0.0
    else if exponent > hugeExponent then 1.0 / 0.0
    else if exponent + (digits.log2 + 1) < -hugeExponent then 0.0
    else Float.ofScientific digits (exponent < 0) exponent.natAbs
  | infinity => 1.0 / 0.0
  | nan => 0.0 / 0.0

/-- The number nearest to a literal. -/
def toFloat (l : Literal) : Float :=
  if l.negative then -l.magnitude.toFloat else l.magnitude.toFloat

theorem digits_eq {ds : List Char} (hds : ∀ d ∈ ds, d.isDigit = true) : digits ds = (ds, []) := by
  rw [digits, ← List.append_nil ds, List.takeWhile_append_of_pos hds,
    List.dropWhile_append_of_pos hds]
  rfl

theorem sign_cons_of_isDigit {d : Char} (hd : d.isDigit = true) (rest : List Char) :
    sign (d :: rest) = (false, d :: rest) := by
  have hplus : d ≠ '+' := by rintro rfl; cases hd
  have hminus : d ≠ '-' := by rintro rfl; cases hd
  unfold sign
  split
  · rename_i h
    exact absurd (List.cons.inj h).1 hplus
  · rename_i h
    exact absurd (List.cons.inj h).1 hminus
  · rfl

/-- Digits without a sign, a point and an exponent are the whole number that they
    spell. -/
theorem read?_ofList {d : Char} {ds : List Char} (hds : ∀ c ∈ d :: ds, c.isDigit = true) :
    read? (String.ofList (d :: ds)) = some ⟨false, .decimal (value (d :: ds)) 0⟩ := by
  have hdecimal : decimal? (d :: ds) = some (.decimal (value (d :: ds)) 0) := by
    simp only [decimal?, digits_eq hds, List.cons_ne_nil, false_and, if_false, exponent?,
      List.append_nil]
    rfl
  rw [read?, String.toList_ofList, sign_cons_of_isDigit (hds d List.mem_cons_self)]
  simp only [hdecimal]
  rfl

end Literal

end LineCalc
