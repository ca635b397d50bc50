import LineCalc.Proofs.Grammar.Procedures
import Mathlib.Algebra.Order.Ring.Rat

/-!
# Precedence

The grammar computes what everybody expects, if numbers are exact.

The procedures combine operands from the right. They turn `a - b - c` into
`a + (-b + -c)` and `a / b / c` into `a * (1/b * 1/c)`, and with rounding these
are different numbers. Over the fractions they are not. So the grammar is run
once more, with fractions in place of floats and the whole numbers as literals,
and compared with the value by the usual rules, which group from the left.

Both sides cut the operands at the same places, and what remains are two
accumulators: a fold from the left that starts at any number is that number
times a product, or plus a total.

## Main definitions

* `wholeNumber?`: The whole number that a text of digits spells.
* `Operator.apply`: What an operator does to two fractions.
* `Grammar.standardValue`: The value by the usual rules.

## Theorems

* `wholeNumber?_repr`, `wholeNumber?_ofList`: Texts that spell a whole number.
* `Grammar.foldl_apply_of_multiplicative`, `Grammar.foldl_apply_groups`: The two
  accumulators.
* `Grammar.total_eq_standardValue`: The two values are equal.
* `Grammar.parse_eq_standardValue`: The grammar computes the standard value.
-/

namespace LineCalc

/-- The whole number that a text of digits spells. -/
def wholeNumber? (text : String) : Option Nat :=
  if text ≠ "" ∧ text.toList.all Char.isDigit = true then some (Literal.value text.toList)
  else none

/-- Fractions, with whole numbers as literals. A reciprocal of zero is zero, as
    everywhere in this number domain. -/
instance : Arithmetic ℚ where
  zero := 0
  one := 1
  add x y := x + y
  mul x y := x * y
  neg x := -x
  recip x := 1 / x
  literal? text := (wholeNumber? text).map fun n => (n : ℚ)

theorem rat_literal?_eq (text : String) :
    (Arithmetic.literal? text : Option ℚ) = (wholeNumber? text).map fun n => (n : ℚ) :=
  rfl

/-- The decimal digits of a whole number spell it. -/
theorem wholeNumber?_repr (n : Nat) : wholeNumber? n.repr = some n := by
  have hdigits : n.repr.toList.all Char.isDigit = true := by
    rw [Nat.toList_repr, List.all_eq_true]
    exact fun c hc => Nat.isDigit_of_mem_toDigits (by omega) (by omega) hc
  -- A number is written with one digit at least.
  have hne : n.repr ≠ "" := by
    intro h
    have hnil := congrArg String.toList h
    rw [Nat.toList_repr] at hnil
    exact Nat.toDigits_ne_nil hnil
  rw [wholeNumber?, if_pos ⟨hne, hdigits⟩, Nat.toList_repr, Option.some.injEq]
  exact Nat.ofDigitChars_ten_toDigits

theorem wholeNumber?_ofList {d : Char} {ds : List Char}
    (hds : ∀ c ∈ d :: ds, c.isDigit = true) :
    wholeNumber? (String.ofList (d :: ds)) = some (Literal.value (d :: ds)) := by
  have hne : String.ofList (d :: ds) ≠ "" := by
    rw [ne_eq, ← String.toList_eq_nil_iff, String.toList_ofList]
    exact List.cons_ne_nil d ds
  rw [wholeNumber?, String.toList_ofList, if_pos ⟨hne, List.all_eq_true.2 hds⟩]

namespace Grammar

/-- Operands and operators can be written down, with any columns at all. -/
theorem exists_spells (n : Nat) (ops : List (Operator × Nat)) :
    ∃ ls, Spells wholeNumber? ls n ops := by
  induction ops generalizing n with
  | nil => exact ⟨[.number n.repr ⟨0, 1⟩], Spells.single (wholeNumber?_repr n)⟩
  | cons p ops ih =>
      rcases ih p.2 with ⟨ls, hls⟩
      exact ⟨.number n.repr ⟨0, 1⟩ :: .operator p.1 0 :: ls,
        Spells.more (wholeNumber?_repr n) hls⟩

end Grammar

/-- What an operator does to two fractions. -/
def Operator.apply : Operator → ℚ → ℚ → ℚ
  | .plus, x, y => x + y
  | .minus, x, y => x - y
  | .asterisk, x, y => x * y
  | .slash, x, y => x / y

namespace Grammar

/-- The value of operands with an operator in front of each, grouped from the
    left. The operator in front of the first operand plays no part. -/
def leftToRight : List (Operator × ℚ) → ℚ
  | [] => 0
  | (_, x) :: rest => rest.foldl (fun acc p => p.1.apply acc p.2) x

/-- The operator in front of a group. -/
def leading (g : List (Operator × ℚ)) : Operator :=
  (g.head?.map Prod.fst).getD .plus

/-- The value by the usual rules: groups joined by `*` and `/` come first, and
    operators of one level group from the left. -/
def standardValue (ops : List (Operator × ℚ)) : ℚ :=
  leftToRight ((groups ops).map fun g => (leading g, leftToRight g))

example : standardValue [(.plus, 9), (.minus, 3), (.minus, 2)] = 4 := by
  decide +kernel

/-- To divide is to multiply by the reciprocal, with fractions. -/
theorem apply_of_not_additive {op : Operator} (h : op.isAdditive = false) (x y : ℚ) :
    op.apply x y = x * factorValue (op, y) := by
  cases op with
  | plus => cases h
  | minus => cases h
  | asterisk => rfl
  | slash => exact (mul_one_div x y).symm

/-- The accumulator of a term: what it starts with is multiplied by the product. By induction with
    any start, because every operand changes it. -/
theorem foldl_apply_of_multiplicative {ms : List (Operator × ℚ)} (hms : Multiplicative ms)
    (x : ℚ) : ms.foldl (fun acc p => p.1.apply acc p.2) x = x * product ms := by
  induction ms generalizing x with
  | nil => exact (mul_one x).symm
  | cons p ms ih =>
      -- The first operand changes what the others are folded into.
      have hrest := ih fun q hq => hms q (List.mem_cons_of_mem p hq)
      calc (p :: ms).foldl (fun acc p => p.1.apply acc p.2) x
          = p.1.apply x p.2 * product ms := by rw [List.foldl_cons, hrest]
        _ = x * factorValue p * product ms := by
            rw [apply_of_not_additive (hms p List.mem_cons_self)]
        _ = x * product (p :: ms) := mul_assoc x (factorValue p) (product ms)

/-- A term that is taken away is the opposite of a term that is added. -/
theorem apply_leftToRight {g : List (Operator × ℚ)} (hg : IsTerm g) (acc : ℚ) :
    (leading g).apply acc (leftToRight g) = acc + groupValue g := by
  rcases hg with ⟨⟨op, x⟩, ms, rfl, hop, hms⟩
  have hvalue : leftToRight ((op, x) :: ms) = x * product ms :=
    foldl_apply_of_multiplicative hms x
  rw [hvalue]
  -- The operator in front of a term is a sign, so two of the four cases are left.
  cases op with
  | plus => rfl
  | minus => exact sub_eq_add_neg acc (x * product ms)
  | asterisk => cases hop
  | slash => cases hop

/-- The accumulator of a sum: the total of the terms is added to what it starts with. -/
theorem foldl_apply_groups {gs : List (List (Operator × ℚ))} (hgs : ∀ g ∈ gs, IsTerm g)
    (acc : ℚ) :
    (gs.map fun g => (leading g, leftToRight g)).foldl (fun acc p => p.1.apply acc p.2) acc =
      acc + (gs.map groupValue).foldr Arithmetic.add Arithmetic.zero := by
  induction gs generalizing acc with
  | nil => exact (add_zero acc).symm
  | cons g gs ih =>
      have hrest := ih fun g' hg' => hgs g' (List.mem_cons_of_mem g hg')
      simp only [List.map_cons, List.foldl_cons, List.foldr_cons]
      -- The first term goes into the accumulator, and from there into the sum.
      rw [hrest, apply_leftToRight (hgs g List.mem_cons_self), add_assoc]
      rfl

/-- Over the fractions the order in which the grammar combines its operands
    makes no difference. -/
theorem total_eq_standardValue (x : ℚ) (ops : List (Operator × ℚ)) :
    total ((.plus, x) :: ops) = standardValue ((.plus, x) :: ops) := by
  rcases exists_multiplicative_append ops with ⟨ms, rest, rfl, hms, hrest⟩
  -- The first group starts the sum, and the others are folded into it.
  have hterms : ∀ g ∈ groups rest, IsTerm g := fun g hg => isTerm_of_mem_groups hrest hg
  have hfirst : leftToRight ((.plus, x) :: ms) = x * product ms :=
    foldl_apply_of_multiplicative hms x
  unfold total standardValue
  rw [← List.cons_append, groups_cons_append hms hrest, List.map_cons, List.map_cons,
    leftToRight, foldl_apply_groups hterms, hfirst]
  rfl

/-- Every sequence of whole numbers and operators can be written down, and
    however it is written, reading it over the fractions gives its standard value.
    That includes divisions by zero, which have the same value on both sides. -/
theorem parse_eq_standardValue (n : Nat) (ops : List (Operator × Nat)) :
    (∃ ls, Spells wholeNumber? ls n ops) ∧
      ∀ ls length, Spells wholeNumber? ls n ops →
        ∃ c, Cursor.ofTokens? (ls.map .lexeme ++ [.endOfInput length]) = .ok c ∧
          (parse (α := ℚ) c).result =
            .ok (standardValue ((.plus, n) :: ops.map fun p => (p.1, (p.2 : ℚ)))) := by
  refine ⟨exists_spells n ops, fun ls length h => ?_⟩
  -- The same lexemes, read as fractions.
  have hexact : Spells (Arithmetic.literal? (α := ℚ)) ls n
      (ops.map fun p => (p.1, (p.2 : ℚ))) := by
    refine h.map (f := fun m : Nat => (m : ℚ)) fun text m hm => ?_
    rw [rat_literal?_eq, hm]
    rfl
  refine ⟨⟨0, ls, length⟩, Cursor.ofTokens?_eq_ok_iff.2 ⟨rfl, rfl⟩, ?_⟩
  rw [result_parse, operandsAt?, operands?_eq_ok hexact, ← total_eq_standardValue]
  rfl

/-- `9 - 8 / 4 / 2` is eight. -/
theorem parse_eq_standardValue_chain :
    let ls : List Lexeme := [.number "9" ⟨0, 1⟩, .operator .minus 1, .number "8" ⟨2, 3⟩,
      .operator .slash 3, .number "4" ⟨4, 5⟩, .operator .slash 5, .number "2" ⟨6, 7⟩]
    Spells wholeNumber? ls 9 [(.minus, 8), (.slash, 4), (.slash, 2)] ∧
      ∃ c, Cursor.ofTokens? (ls.map .lexeme ++ [.endOfInput 7]) = .ok c ∧
        (parse (α := ℚ) c).result = .ok 8 := by
  intro ls
  have hspells : Spells wholeNumber? ls 9 [(.minus, 8), (.slash, 4), (.slash, 2)] :=
    .more (by decide) (.more (by decide) (.more (by decide) (.single (by decide))))
  rcases (parse_eq_standardValue 9 _).2 ls 7 hspells with ⟨c, hc, hv⟩
  refine ⟨hspells, c, hc, ?_⟩
  rw [hv]
  decide +kernel

end Grammar

end LineCalc
