import LineCalc.Operator
import LineCalc.Span

/-!
# Tokens

What a line consists of once it has been scanned.

A `Lexeme` is a piece of the line: a number with the text of its digits, or an
operator. A `Token` is a lexeme or the marker that closes a line. The marker
stands for no characters, but a reader that runs out of operands has to name
something, and it names the marker by the text `eof`.

An operator is one character wide, so its span follows from its column. The
column after it has to exist, which `Lexeme.operatorAt` checks.

## Main definitions

* `Lexeme`: A number or an operator, with its place.
* `Lexeme.operatorAt`: The operator lexeme at a column.
* `Token`: A lexeme or the end marker.
* `Token.text`, `Token.span`: What a token reads, and where.
* `Token.dump`: The line that describes a token in a token listing.
-/

namespace LineCalc

/-- A piece of a line. -/
inductive Lexeme where
  /-- An operand, given by its text. -/
  | number (text : String) (span : Span)
  /-- The operator at a column. -/
  | operator (op : Operator) (column : Nat)
deriving DecidableEq

namespace Lexeme

/-- The characters of a lexeme. -/
def text : Lexeme → String
  | number text _ => text
  | operator op _ => op.char.toString

/-- The columns of a lexeme. -/
def span : Lexeme → Span
  | number _ span => span
  | operator _ column => ⟨column, column + 1⟩

/-- The operator lexeme at `column`, which is a fault at the last column of the
    number range. -/
def operatorAt (op : Operator) (column : Nat) : Checked Lexeme := do
  let _ ← Checked.succ column
  return operator op column

end Lexeme

/-- A lexeme, or the marker that closes a line of `length` characters. -/
inductive Token where
  | lexeme (lexeme : Lexeme)
  | endOfInput (length : Nat)
deriving DecidableEq

namespace Token

/-- The text of an end marker. -/
def endText : String := "eof"

/-- The characters of a token, or `endText` for an end marker. -/
def text : Token → String
  | lexeme l => l.text
  | endOfInput _ => endText

/-- The columns of a token. An end marker has none, past the end of its line. -/
def span : Token → Span
  | lexeme l => l.span
  | endOfInput length => ⟨length, length⟩

/-- True of end markers. -/
def isEnd : Token → Bool
  | lexeme _ => false
  | endOfInput _ => true

/-- The operator of an operator token. -/
def operator? : Token → Option Operator
  | lexeme (.operator op _) => some op
  | _ => none

/-- The kind of a token. -/
def kind : Token → String
  | lexeme (.number _ _) => "Number"
  | lexeme (.operator _ _) => "Operator"
  | endOfInput _ => "EndOfInput"

/-- The line that describes a token in a token listing. -/
def dump (t : Token) : String :=
  t.text ++ " " ++ t.kind

end Token

end LineCalc
