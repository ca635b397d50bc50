import LineCalc.CharClass
import Mathlib.Computability.Language

/-!
# The Language of Expressions

Which lines are expressions, as a regular language over characters.

The language is written down the way a manual would put it, with no word about
lexemes: white space, a numeral, and any number of times an operator and a
numeral, with white space in front of each, and white space at the end.

A scanner reads from the left, so what is needed of the language is what it
becomes after one character. `rest` is what may follow a numeral. The two
languages are each other's continuations, and the equations that say so come
from the laws of Kleene algebra. With one character taken off, they are a
grammar that can be run beside the scanner.

## Main definitions

* `Expression.oneOf`: The words of one character of a kind.
* `Expression.numeral`: `0`, or digits that do not start with `0`.
* `Expression.language`: The expressions.
* `Expression.rest`: What may follow the first numeral of an expression.

## Theorems

* `Expression.language_eq`, `Expression.rest_eq`: The two languages in terms of
  each other.
* `Expression.cons_mem_language_iff`, `Expression.cons_mem_rest_iff`: What they
  become after one character.
* `Expression.append_mem_digits_mul_rest_iff`: A numeral takes all digits.
-/

namespace LineCalc

open Computability

namespace Expression

/-- The words of one character, which satisfies `p`. -/
def oneOf (p : Char → Prop) : Language Char :=
  {w | ∃ c, p c ∧ w = [c]}

/-- A space or a horizontal tab. -/
def blank : Language Char := oneOf fun c => c = ' ' ∨ c = '\t'

/-- The sign of an operator. -/
def sign : Language Char := oneOf fun c => c = '+' ∨ c = '-' ∨ c = '*' ∨ c = '/'

/-- The digit `0`. -/
def zero : Language Char := oneOf fun c => c = '0'

/-- One of `0` to `9`. -/
def digit : Language Char := oneOf fun c => '0' ≤ c ∧ c ≤ '9'

/-- One of `1` to `9`. -/
def nonZeroDigit : Language Char := oneOf fun c => '1' ≤ c ∧ c ≤ '9'

/-- The number zero, or digits that do not start with `0`. -/
def numeral : Language Char := zero + nonZeroDigit * digit∗

/-- Numerals with an operator between each and the next, and white space
    anywhere around them. -/
def language : Language Char :=
  blank∗ * numeral * (blank∗ * sign * blank∗ * numeral)∗ * blank∗

/-- What may follow the first numeral of an expression. -/
def rest : Language Char :=
  (blank∗ * sign * blank∗ * numeral)∗ * blank∗

section

variable {p : Char → Prop} {c : Char} {w : List Char} {L : Language Char}

/-- A word of one character takes off the first one. -/
theorem cons_mem_oneOf_mul_iff : c :: w ∈ oneOf p * L ↔ p c ∧ w ∈ L := by
  rw [Language.mem_mul]
  constructor
  · intro h
    rcases h with ⟨_, ⟨d, hd, rfl⟩, v, hv, heq⟩
    rw [List.singleton_append, List.cons.injEq] at heq
    rcases heq with ⟨rfl, rfl⟩
    exact ⟨hd, hv⟩
  · intro h
    exact ⟨[c], ⟨c, h.1, rfl⟩, w, h.2, rfl⟩

theorem nil_not_mem_oneOf_mul : [] ∉ oneOf p * L := by
  rw [Language.mem_mul]
  intro h
  rcases h with ⟨_, ⟨d, _, rfl⟩, v, _, heq⟩
  cases heq

/-- A repetition in front of a language is left out, or happens once and may
    happen again. -/
theorem kstar_mul_eq (K L : Language Char) : K∗ * L = L + K * (K∗ * L) := by
  calc K∗ * L = (1 + K * K∗) * L := by rw [Language.one_add_self_mul_kstar_eq_kstar]
    _ = L + K * (K∗ * L) := by rw [add_mul, one_mul, mul_assoc]

/-- Taking off a character ends a repetition, or uses it once. -/
theorem cons_mem_kstar_oneOf_mul_iff :
    c :: w ∈ (oneOf p)∗ * L ↔ c :: w ∈ L ∨ p c ∧ w ∈ (oneOf p)∗ * L := by
  rw [kstar_mul_eq, Language.mem_add, cons_mem_oneOf_mul_iff]
  rw [← kstar_mul_eq]

theorem nil_mem_kstar_oneOf_mul_iff : [] ∈ (oneOf p)∗ * L ↔ [] ∈ L := by
  rw [kstar_mul_eq, Language.mem_add]
  exact or_iff_left nil_not_mem_oneOf_mul

end

/-- White space, and a numeral with what may follow it. -/
theorem language_eq : language = blank∗ * (numeral * rest) := by
  unfold language rest
  rw [mul_assoc, mul_assoc]

/-- White space, and then nothing more, or an operator and another expression. -/
theorem rest_eq : rest = blank∗ * (1 + sign * language) := by
  -- One turn of the repetition, with everything that may follow it.
  have hunit : blank∗ * sign * blank∗ * numeral * rest = blank∗ * (sign * language) := by
    rw [language_eq]
    simp only [mul_assoc]
  calc rest = (1 + blank∗ * sign * blank∗ * numeral *
        (blank∗ * sign * blank∗ * numeral)∗) * blank∗ := by
          rw [Language.one_add_self_mul_kstar_eq_kstar, rest]
    _ = blank∗ + blank∗ * sign * blank∗ * numeral * rest := by
          rw [add_mul, one_mul, mul_assoc _ _ blank∗, ← rest]
    _ = blank∗ * (1 + sign * language) := by rw [hunit, mul_add, mul_one]

section

variable {c : Char} {w : List Char} {L : Language Char}

theorem nil_not_mem_numeral_mul : [] ∉ numeral * L := by
  rw [numeral, add_mul, mul_assoc, Language.mem_add]
  intro h
  exact h.elim nil_not_mem_oneOf_mul nil_not_mem_oneOf_mul

/-- The first digit of a numeral tells whether there can be more of them. -/
theorem cons_mem_numeral_mul_iff :
    c :: w ∈ numeral * L ↔ CharClass.of c = .zero ∧ w ∈ L ∨
      CharClass.of c = .nonZeroDigit ∧ w ∈ digit∗ * L := by
  rw [CharClass.of_eq_zero_iff, CharClass.of_eq_nonZeroDigit_iff, numeral, add_mul, mul_assoc,
    Language.mem_add, zero, nonZeroDigit, cons_mem_oneOf_mul_iff, cons_mem_oneOf_mul_iff]

/-- White space may be skipped, and need not be there. -/
theorem cons_mem_blanks_mul_iff :
    c :: w ∈ blank∗ * L ↔ c :: w ∈ L ∨ CharClass.of c = .whitespace ∧ w ∈ blank∗ * L := by
  rw [CharClass.of_eq_whitespace_iff]
  exact cons_mem_kstar_oneOf_mul_iff

theorem nil_not_mem_language : [] ∉ language := by
  rw [language_eq, blank, nil_mem_kstar_oneOf_mul_iff]
  exact nil_not_mem_numeral_mul

/-- An expression starts with a numeral or with white space. -/
theorem cons_mem_language_iff :
    c :: w ∈ language ↔ CharClass.of c = .zero ∧ w ∈ rest ∨
      CharClass.of c = .nonZeroDigit ∧ w ∈ digit∗ * rest ∨
      CharClass.of c = .whitespace ∧ w ∈ language := by
  rw [language_eq, cons_mem_blanks_mul_iff, cons_mem_numeral_mul_iff, or_assoc]

theorem nil_mem_rest : [] ∈ rest := by
  rw [rest_eq, blank, nil_mem_kstar_oneOf_mul_iff, Language.mem_add]
  exact Or.inl rfl

/-- Behind a numeral there is an operator or white space. -/
theorem cons_mem_rest_iff :
    c :: w ∈ rest ↔ CharClass.of c = .operator ∧ w ∈ language ∨
      CharClass.of c = .whitespace ∧ w ∈ rest := by
  have hone : c :: w ∉ (1 : Language Char) := List.cons_ne_nil c w
  have hsign : c :: w ∈ sign * language ↔ CharClass.of c = .operator ∧ w ∈ language := by
    rw [CharClass.of_eq_operator_iff]
    exact cons_mem_oneOf_mul_iff
  rw [rest_eq, cons_mem_blanks_mul_iff, Language.mem_add, or_iff_right hone, hsign]

/-- No digit may follow a numeral. -/
theorem not_isDigit_of_cons_mem_rest (h : c :: w ∈ rest) : c.isDigit = false := by
  rw [Bool.eq_false_iff, ne_eq, CharClass.isDigit_iff]
  rcases cons_mem_rest_iff.1 h with ⟨hc, _⟩ | ⟨hc, _⟩ <;> rw [hc] <;> decide

/-- So a numeral takes all the digits that follow it. -/
theorem append_mem_digits_mul_rest_iff {ds : List Char} (hds : ∀ d ∈ ds, d.isDigit = true)
    (hw : ∀ d ∈ w.head?, d.isDigit = false) : ds ++ w ∈ digit∗ * rest ↔ w ∈ rest := by
  -- By induction on the digits. The repetition takes one of them in each step.
  induction ds with
  | nil =>
      cases w with
      | nil => exact nil_mem_kstar_oneOf_mul_iff
      | cons c w =>
          have hc : c.isDigit = false := hw c rfl
          rw [List.nil_append, digit, cons_mem_kstar_oneOf_mul_iff, ← CharClass.isDigit_iff_le, hc]
          exact or_iff_left fun h => by cases h.1
  | cons d ds ih =>
      have hd : d.isDigit = true := hds d List.mem_cons_self
      -- A digit cannot be the start of `rest`, so it belongs to the numeral.
      have hno : d :: (ds ++ w) ∉ rest := by
        intro h
        rw [not_isDigit_of_cons_mem_rest h] at hd
        cases hd
      rw [List.cons_append, digit, cons_mem_kstar_oneOf_mul_iff, or_iff_right hno,
        ← CharClass.isDigit_iff_le, and_iff_right hd, ← digit]
      exact ih fun d' hd' => hds d' (List.mem_cons_of_mem d hd')

end

end Expression

end LineCalc
