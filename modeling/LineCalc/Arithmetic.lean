import LineCalc.Number.Literal

/-!
# Arithmetic

What a number domain has to offer for expressions to have values in it.

The grammar needs sums and products with their neutral elements, the opposite
of a term, the reciprocal of a factor, and a reading of literals. No law is
asked for: the domain that answers are computed in is that of 64-bit floats, in
which neither sums nor products are associative. So the value of an expression
depends on the order in which the grammar combines its operands, and a domain
with exact numbers shows what that order would mean without rounding.

## Main definitions

* `Arithmetic`: The operations of a number domain.
* The instance for `Float`: Operations that round to nearest, ties to even.
-/

namespace LineCalc

/-- The operations of a number domain. -/
class Arithmetic (α : Type) where
  zero : α
  one : α
  add : α → α → α
  mul : α → α → α
  /-- The opposite of a term. -/
  neg : α → α
  /-- The reciprocal of a factor. -/
  recip : α → α
  /-- The number that a text spells, if it is the text of a number. -/
  literal? : String → Option α

instance : Arithmetic Float where
  zero := 0.0
  one := 1.0
  add x y := x + y
  mul x y := x * y
  neg x := -x
  recip x := 1.0 / x
  literal? text := (Literal.read? text).map Literal.toFloat

end LineCalc
