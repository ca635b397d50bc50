import LineCalc.Checked

/-!
# Rejections

Why a line has no value.

Illegal characters are collected, so a line can be rejected for many of them at
once. A token that does not fit the grammar ends the reading of its line, so
there is at most one of those, and only in a line without illegal characters.

Positions are counted in the two ways that callers need. The position of an
illegal text is the column after it, which is also the place of its last
character when columns are counted from one. The position of a token is its
index in the line, counted from zero, and only its message counts from one.

## Main definitions

* `LexicalError`: A text that belongs to no lexeme.
* `SyntaxError`: A token that does not fit the grammar.
* `Rejection`: Everything that keeps a line from having a value.
* `Rejection.messages`: One line for each thing that is wrong.
* `Rejection.message`: One line for all of them.
-/

namespace LineCalc

/-- A text that belongs to no lexeme, and the column after it. -/
structure LexicalError where
  text : String
  position : Nat
deriving DecidableEq

/-- The line that reports an illegal text. -/
def LexicalError.message (e : LexicalError) : String :=
  s!"Lexical Error at position {e.position} illegal character: {e.text}"

/-- A token that does not fit the grammar, by its text and its index. -/
structure SyntaxError where
  token : String
  position : Nat
deriving DecidableEq

/-- The line that reports a token, with its place counted from one. -/
def SyntaxError.message (e : SyntaxError) : Checked String := do
  let place ← Checked.succ e.position
  return s!"Syntax error not allowed token: {e.token} at position {place}"

/-- Why a line has no value. -/
inductive Rejection where
  | lexical (errors : List LexicalError)
  | grammatical (error : SyntaxError)
deriving DecidableEq

namespace Rejection

/-- One line for each thing that is wrong, in the order of the input. -/
def messages : Rejection → Checked (List String)
  | lexical errors => .ok (errors.map LexicalError.message)
  | grammatical error => do return [← error.message]

/-- One line for all that is wrong: the number of illegal texts and the first
    of them, or the token that does not fit. -/
def message : Rejection → Checked String
  | lexical errors =>
    let first := (errors.head?.map LexicalError.message).getD ""
    .ok s!"{errors.length} lexical error(s), first: {first}"
  | grammatical error => error.message

end Rejection

end LineCalc
