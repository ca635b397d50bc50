import LineCalc.Arithmetic
import LineCalc.Cursor.Basic
import LineCalc.Grammar.Reading

/-!
# Grammar

Reading an expression and computing its value in one pass.

An expression is a sum of terms and a term is a product of factors. The grammar
is right-recursive, with a procedure for each of its five symbols:

```text
expr        = term sumTail
sumTail     = "+" term sumTail | "-" term sumTail | nothing
term        = factor productTail
productTail = "*" factor productTail | "/" factor productTail | nothing
factor      = number
```

A procedure takes the cursor where it starts and yields the value of what it
read together with the cursor where it stopped. Nothing is read twice. A tail
is empty, and has the value of a neutral element, only before a token that can
follow it: the end marker, and for products also `+` and `-`. Before any other
token that does not fit, reading stops.

Values are combined from the right, and the meaning of `-` and `/` is put into
the operand next to them: `9 - 3 - 2` is `9 + (-3 + (-2 + 0))` and `8 / 4 / 2`
is `8 * (1/4 * (1/2 * 1))`. So the recursion leans to the right and operators
of one level still group from the left.

## Main definitions

* `Grammar.factor`, `Grammar.productTail`, `Grammar.term`, `Grammar.sumTail`,
  `Grammar.expr`: The procedures.
* `Grammar.parse`: The value of the expression that starts at a cursor.

## Theorems

* `Grammar.cursor_of_factor`: A factor is one token wide.
* `Grammar.length_ahead_of_productTail`, `Grammar.length_ahead_of_term`: No
  procedure moves backwards.
* `Grammar.productTail_eq`, `Grammar.sumTail_eq`: The recursive procedures as
  plain sequences of steps.
-/

namespace LineCalc

namespace Grammar

variable {α : Type} [Arithmetic α]

/-- What an operator between terms does to the term after it. -/
def addend? : Operator → Option (α → α)
  | .plus => some id
  | .minus => some Arithmetic.neg
  | .asterisk | .slash => none

/-- What an operator between factors does to the factor after it. -/
def multiplier? : Operator → Option (α → α)
  | .asterisk => some id
  | .slash => some Arithmetic.recip
  | .plus | .minus => none

/-- Stop at the token under the cursor. -/
def unexpected {β : Type} (c : Cursor) : Reading β := do
  Reading.note (.unexpected c.peek c.index)
  Reading.fail ⟨c.peek.text, c.index⟩

/-- Read one number. -/
def factor (c : Cursor) : Reading (α × Cursor) := do
  Reading.note (.entered .factor c.index)
  match c.peek with
  | .lexeme (.number text _) =>
    match Arithmetic.literal? text with
    | some x => return (x, c.advance)
    | none => Reading.fail ⟨text, c.index⟩
  | _ => unexpected c

theorem cursor_of_factor {c c' : Cursor} {x : α} (h : (factor c).result = .ok (x, c')) :
    c' = c.advance := by
  unfold factor at h
  rcases Reading.result_bind_eq_ok_iff.1 h with ⟨_, _, h⟩
  split at h
  · split at h
    · cases h
      rfl
    · cases h
  · cases h

/-- Read the rest of a product. -/
def productTail (c : Cursor) : Reading (α × Cursor) :=
  (Reading.note (.entered .productTail c.index)).andThen fun _ _ =>
    match hc : c.peek with
    | .lexeme (.operator op _) =>
      match multiplier? op with
      | some f =>
        (factor c.advance).andThen fun x hx =>
          have : x.2.ahead.length < c.ahead.length := by
            have h := Cursor.length_ahead_advance_lt hc
            rw [cursor_of_factor hx, Cursor.ahead_advance, List.length_tail]
            omega
          (productTail x.2).map fun y => (Arithmetic.mul (f x.1) y.1, y.2)
      | none => pure (Arithmetic.one, c)
    | .lexeme (.number _ _) => unexpected c
    | .endOfInput _ => pure (Arithmetic.one, c)
termination_by c.ahead.length

theorem productTail_eq (c : Cursor) : productTail (α := α) c = (do
    Reading.note (.entered .productTail c.index)
    match c.peek with
    | .lexeme (.operator op _) =>
      match multiplier? op with
      | some f =>
        let x ← factor c.advance
        (productTail x.2).map fun y => (Arithmetic.mul (f x.1) y.1, y.2)
      | none => pure (Arithmetic.one, c)
    | .lexeme (.number _ _) => unexpected c
    | .endOfInput _ => pure (Arithmetic.one, c)) := by
  rw [productTail, ← Reading.andThen_eq_bind]
  congr 1
  funext _ _
  -- The two differ only in what `andThen` tells its second step.
  split <;> rename_i hc <;> simp only [hc]
  split <;> rfl

theorem length_ahead_of_productTail {c c' : Cursor} {x : α}
    (h : (productTail c).result = .ok (x, c')) : c'.ahead.length ≤ c.ahead.length := by
  rw [productTail_eq] at h
  rcases Reading.result_bind_eq_ok_iff.1 h with ⟨_, _, h⟩
  split at h
  · rename_i hc
    have hlt := Cursor.length_ahead_advance_lt hc
    split at h
    · rcases Reading.result_bind_eq_ok_iff.1 h with ⟨y, hy, h⟩
      rcases Reading.result_map_eq_ok_iff.1 h with ⟨z, hz, h⟩
      cases h
      have hy := cursor_of_factor hy
      have : y.2.ahead.length ≤ c.advance.ahead.length := by
        rw [hy, Cursor.ahead_advance, List.length_tail]
        omega
      have hz := length_ahead_of_productTail hz
      omega
    · cases h
      exact Nat.le_refl _
  · cases h
  · cases h
    exact Nat.le_refl _
termination_by c.ahead.length

/-- Read one product. -/
def term (c : Cursor) : Reading (α × Cursor) := do
  Reading.note (.entered .term c.index)
  let x ← factor c
  (productTail x.2).map fun y => (Arithmetic.mul x.1 y.1, y.2)

theorem length_ahead_of_term {c c' : Cursor} {x : α} (h : (term c).result = .ok (x, c')) :
    c'.ahead.length ≤ c.ahead.length := by
  unfold term at h
  rcases Reading.result_bind_eq_ok_iff.1 h with ⟨_, _, h⟩
  rcases Reading.result_bind_eq_ok_iff.1 h with ⟨y, hy, h⟩
  rcases Reading.result_map_eq_ok_iff.1 h with ⟨z, hz, h⟩
  cases h
  have hy := cursor_of_factor hy
  have hz := length_ahead_of_productTail hz
  rw [hy, Cursor.ahead_advance, List.length_tail] at hz
  omega

/-- Read the rest of a sum. -/
def sumTail (c : Cursor) : Reading (α × Cursor) :=
  (Reading.note (.entered .sumTail c.index)).andThen fun _ _ =>
    match hc : c.peek with
    | .lexeme (.operator op _) =>
      match addend? op with
      | some f =>
        (term c.advance).andThen fun x hx =>
          have : x.2.ahead.length < c.ahead.length :=
            Nat.lt_of_le_of_lt (length_ahead_of_term hx) (Cursor.length_ahead_advance_lt hc)
          (sumTail x.2).map fun y => (Arithmetic.add (f x.1) y.1, y.2)
      | none => unexpected c
    | .lexeme (.number _ _) => unexpected c
    | .endOfInput _ => pure (Arithmetic.zero, c)
termination_by c.ahead.length

theorem sumTail_eq (c : Cursor) : sumTail (α := α) c = (do
    Reading.note (.entered .sumTail c.index)
    match c.peek with
    | .lexeme (.operator op _) =>
      match addend? op with
      | some f =>
        let x ← term c.advance
        (sumTail x.2).map fun y => (Arithmetic.add (f x.1) y.1, y.2)
      | none => unexpected c
    | .lexeme (.number _ _) => unexpected c
    | .endOfInput _ => pure (Arithmetic.zero, c)) := by
  rw [sumTail, ← Reading.andThen_eq_bind]
  congr 1
  funext _ _
  split <;> rename_i hc <;> simp only [hc]
  split <;> rfl

/-- Read a sum. -/
def expr (c : Cursor) : Reading (α × Cursor) := do
  Reading.note (.entered .expr c.index)
  let x ← term c
  (sumTail x.2).map fun y => (Arithmetic.add x.1 y.1, y.2)

/-- The value of the expression that starts at a cursor. It takes up all tokens
    up to the end marker, because only there the tail of a sum is empty. -/
def parse (c : Cursor) : Reading α :=
  (expr c).map Prod.fst

end Grammar

end LineCalc
