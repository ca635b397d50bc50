import LineCalc.Text.Visible

/-!
# Quoted Text

Writing characters so that a reader can tell them apart.

A text is put between quotation marks. The mark itself, the backslash and four
control characters have short escapes, every other character that is not
visible is written as its code point in hexadecimal digits, and all else stands
for itself. A single character is put between apostrophes instead, and then the
apostrophe is the mark that needs an escape.

## Main definitions

* `Quoted.escape`: A character as it stands between marks of a kind.
* `Quoted.char`: A character between apostrophes.
* `Quoted.string`: A text between quotation marks.
-/

namespace LineCalc

namespace Quoted

/-- The mark around a single character. -/
def apostrophe : Char := '\x27'

/-- The mark around a text. -/
def quotationMark : Char := '\x22'

/-- A character as it stands between two marks. -/
def escape (mark ch : Char) : List Char :=
  if ch = '\x00' then ['\\', '0']
  else if ch = '\t' then ['\\', 't']
  else if ch = '\r' then ['\\', 'r']
  else if ch = '\n' then ['\\', 'n']
  else if ch = '\\' ∨ ch = mark then ['\\', ch]
  else if isVisible ch then [ch]
  else ['\\', 'u', '\x7b'] ++ Nat.toDigits 16 ch.toNat ++ ['\x7d']

/-- A character between apostrophes. -/
def char (ch : Char) : String :=
  String.ofList (apostrophe :: escape apostrophe ch ++ [apostrophe])

/-- A text between quotation marks. -/
def string (text : String) : String :=
  String.ofList (quotationMark :: text.toList.flatMap (escape quotationMark) ++ [quotationMark])

end Quoted

end LineCalc
