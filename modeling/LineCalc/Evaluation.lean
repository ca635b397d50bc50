import LineCalc.Grammar.Basic
import LineCalc.Journal
import LineCalc.Scanner.Basic

/-!
# Evaluation

The value of a line.

A line is tokenized first. If it has illegal characters, all of them are
reported and its tokens are not looked at. Otherwise the tokens are read as an
expression, and the line is rejected at the first token that does not fit.

`Evaluation.run` keeps the journal of both steps, in the order in which they
write it. `evaluate` is what is left when nobody reads the journal.

## Main definitions

* `Evaluation.run`: The outcome for a line and the journal of finding it.
* `evaluate`: The value of a line, or why it has none.
* `trace`: The outcome together with the lines of its journal.
-/

namespace LineCalc

/-- The outcome for a line and the journal of finding it. -/
structure Evaluation where
  journal : List Journal.Record
  outcome : Except Rejection Float

namespace Evaluation

/-- The outcome for a sequence of tokens. -/
def ofTokens (tokens : List Token) : Evaluation :=
  match Cursor.ofTokens? tokens with
  | .error e => ⟨[], .error (.grammatical e)⟩
  | .ok cursor =>
    let reading : Grammar.Reading Float := Grammar.parse cursor
    let records := reading.journal.map .reading
    match reading.result with
    | .error e => ⟨records, .error (.grammatical e)⟩
    | .ok x => ⟨records ++ [.value x], .ok x⟩

/-- The outcome for a line that has been tokenized. -/
def ofLexed (lexed : Lexed) : Evaluation :=
  let records := lexed.journal.map .scanning
  match lexed.result with
  | .error errors => ⟨records, .error (.lexical errors)⟩
  | .ok tokens =>
    let rest := ofTokens tokens
    ⟨records ++ rest.journal, rest.outcome⟩

/-- The outcome for a line. -/
def run (line : String) : Checked Evaluation := do
  let lexed ← tokenize line
  return ofLexed lexed

end Evaluation

/-- The value of a line, or why it has none. -/
def evaluate (line : String) : Checked (Except Rejection Float) := do
  let e ← Evaluation.run line
  return e.outcome

/-- The lines of the journal of a line at a level, and its value. -/
def trace (level : Journal.Level) (line : String) :
    Checked (List String × Except Rejection Float) := do
  let e ← Evaluation.run line
  let lines ← Journal.lines level e.journal
  return (lines, e.outcome)

end LineCalc
