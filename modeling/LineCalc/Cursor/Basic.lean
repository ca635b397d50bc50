import LineCalc.Rejection
import LineCalc.Token

/-!
# Cursors

A place in a sequence of tokens, from which a reader moves forward.

A cursor needs a sequence that is closed by an end marker and holds no other.
`ofTokens?` checks this once and then forgets the marker as a list element: a
cursor holds the lexemes ahead of it and the length that the marker names, so
there is always a token to look at and a cursor cannot run past the end.
Advancing at the end changes nothing.

## Main definitions

* `Cursor`: A place in a closed sequence of tokens.
* `Cursor.ofTokens?`: The first place of a sequence, if it is closed.
* `Cursor.peek`: The token at a cursor.
* `Cursor.advance`: The place after it.

## Theorems

* `Cursor.peek_eq_lexeme_iff`: A cursor shows the first lexeme ahead of it.
* `Cursor.atEnd_iff`: A cursor is at the end when no lexeme is ahead.
* `Cursor.ahead_advance`: Advancing drops the first lexeme ahead.
* `Cursor.length_ahead_advance_lt`: Away from the end, advancing leaves less to
  read.
-/

namespace LineCalc

/-- A place in a closed sequence of tokens: its index, the lexemes from there on,
    and the length that the end marker names. -/
structure Cursor where
  index : Nat
  ahead : List Lexeme
  length : Nat
deriving DecidableEq

namespace Cursor

/-- The lexemes and the length of a closed sequence. A sequence that is not
    closed has an offending token: the first end marker that is not last, the
    last token if there is no end marker, or a missing end marker at index `0`
    if there are no tokens at all. `index` is the index of the first token. -/
def close? (index : Nat) : List Token → Except SyntaxError (List Lexeme × Nat)
  | [] => .error ⟨Token.endText, index⟩
  | [.endOfInput length] => .ok ([], length)
  | t@(.endOfInput _) :: _ :: _ => .error ⟨t.text, index⟩
  | [t@(.lexeme _)] => .error ⟨t.text, index⟩
  | .lexeme l :: rest => do
    let (lexemes, length) ← close? (index + 1) rest
    return (l :: lexemes, length)

/-- A cursor at the first token of a closed sequence. -/
def ofTokens? (tokens : List Token) : Except SyntaxError Cursor := do
  let (lexemes, length) ← close? 0 tokens
  return ⟨0, lexemes, length⟩

/-- The token at a cursor. -/
def peek (c : Cursor) : Token :=
  match c.ahead with
  | [] => .endOfInput c.length
  | l :: _ => .lexeme l

/-- The place after a cursor, or the cursor itself at the end. -/
def advance (c : Cursor) : Cursor :=
  match c.ahead with
  | [] => c
  | _ :: rest => { c with index := c.index + 1, ahead := rest }

/-- True of cursors at the end marker. -/
def atEnd (c : Cursor) : Bool :=
  c.peek.isEnd

theorem peek_eq_lexeme_iff {c : Cursor} {l : Lexeme} :
    c.peek = .lexeme l ↔ ∃ rest, c.ahead = l :: rest := by
  unfold peek
  split <;> rename_i h <;> simp only [h, reduceCtorEq, exists_false, Token.lexeme.injEq,
    List.cons.injEq, exists_and_left, exists_eq', and_true]

theorem atEnd_iff {c : Cursor} : c.atEnd = true ↔ c.ahead = [] := by
  unfold atEnd peek
  split <;> rename_i h <;> simp only [h, Token.isEnd, Bool.false_eq_true, reduceCtorEq]

@[simp]
theorem ahead_advance (c : Cursor) : c.advance.ahead = c.ahead.tail := by
  unfold advance
  split <;> rename_i h <;> simp only [h, List.tail_nil, List.tail_cons]

@[simp]
theorem length_advance (c : Cursor) : c.advance.length = c.length := by
  unfold advance
  split <;> rfl

theorem length_ahead_advance_lt {c : Cursor} {l : Lexeme} (h : c.peek = .lexeme l) :
    c.advance.ahead.length < c.ahead.length := by
  rcases peek_eq_lexeme_iff.1 h with ⟨rest, hr⟩
  rw [ahead_advance, hr]
  exact Nat.lt_succ_self _

end Cursor

end LineCalc
