import LineCalc.Rejection
import LineCalc.Scanner.State
import LineCalc.Token

/-!
# Scanner Records

What the scanner writes down while it reads a line.

There is a record for every character, for every lexeme and for every illegal
text, in the order in which they come about, and one for the counts when the
line is closed. Records hold the values they are about; their text is made
elsewhere.

## Main definitions

* `Scanner.Counts`: How much has been read.
* `Scanner.Record`: One thing the scanner did.
-/

namespace LineCalc

namespace Scanner

/-- How many characters have been read, how many lexemes and how many illegal
    texts have been found. The end marker is not counted. -/
structure Counts where
  chars : Nat := 0
  tokens : Nat := 0
  errors : Nat := 0
deriving DecidableEq

/-- One thing the scanner did. -/
inductive Record where
  /-- It saw the character `ch` of class `cls` in state `source`, and the table
      answered `target`. -/
  | transition (source : State) (cls : CharClass) (ch : Char) (target : State)
  /-- It completed a lexeme. -/
  | token (lexeme : Lexeme)
  /-- It found an illegal text. -/
  | lexicalError (error : LexicalError)
  /-- It closed the line. -/
  | closed (counts : Counts)
deriving DecidableEq

end Scanner

end LineCalc
