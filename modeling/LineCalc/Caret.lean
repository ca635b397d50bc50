import LineCalc.Rejection
import LineCalc.Token

/-!
# Caret Lines

Pointing at what is wrong with a line.

A caret line stands under the line it is about and has a caret under every
column that a rejection points at. Illegal texts point at their own characters.
A token that does not fit points at its span, and the end marker, whose span is
empty, at the column after the line. There are no spaces after the last caret.

## Main definitions

* `Rejection.spans`: The columns that a rejection points at.
* `Caret.covers`: The columns that get a caret because of a span.
* `Caret.line`: The caret line for some spans.
-/

namespace LineCalc

/-- The columns that a rejection points at, in a line with these tokens. -/
def Rejection.spans (tokens : List Token) : Rejection → Checked (List Span)
  | lexical errors => errors.mapM fun e => do
    let start ← Checked.sub e.position e.text.length
    return ⟨start, e.position⟩
  | grammatical error => .ok (tokens[error.position]?.map Token.span).toList

namespace Caret

/-- True if `column` gets a caret because of a span. An empty span still marks
    the column where it starts. -/
def covers (column : Nat) (s : Span) : Checked Bool :=
  if s.start ≤ column then do
    let width ← s.length
    return column - s.start < max width 1
  else
    .ok false

/-- The character under `column`. -/
def mark (spans : List Span) (column : Nat) : Checked Char := do
  if ← spans.anyM (covers column) then return '^' else return ' '

/-- A text without the spaces at its end. -/
def trimEnd (text : List Char) : List Char :=
  (text.reverse.dropWhile (· = ' ')).reverse

/-- The caret line for some spans of the line `text`. It can reach one column
    past the line. -/
def line (text : String) (spans : List Span) : Checked String := do
  let width ← Checked.succ text.length
  let marks ← (List.range width).mapM (mark spans)
  return String.ofList (trimEnd marks)

end Caret

end LineCalc
