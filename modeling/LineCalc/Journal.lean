import LineCalc.Grammar.Reading
import LineCalc.Number.Layout
import LineCalc.Scanner.Record
import LineCalc.Text.Quoted

/-!
# Journal

The story of an evaluation, as lines of text.

The scanner and the grammar write down what they do as values. The journal puts
the two side by side, adds the value of the expression, and gives each record a
level and a text. The level `trace` shows everything; the level `debug` leaves
out the single steps, that is the transitions of the automaton and the entries
into grammar procedures.

The text of a record can be a fault, because it counts columns from one.

## Main definitions

* `Journal.Record`: One thing that happened during an evaluation.
* `Journal.Level`: How much of a journal is shown.
* `Journal.Record.line`: The line of a record.
* `Journal.lines`: The lines of a journal at a level.
-/

namespace LineCalc

namespace Journal

/-- One thing that happened during an evaluation. -/
inductive Record where
  | scanning (record : Scanner.Record)
  | reading (record : Grammar.Record)
  /-- The expression has a value. -/
  | value (x : Float)

/-- How much of a journal is shown. -/
inductive Level where
  | debug
  | trace
deriving DecidableEq

/-- The name of a level. -/
def Level.name : Level → String
  | debug => "DEBUG"
  | trace => "TRACE"

/-- The kind of a lexeme, with the operator of an operator lexeme. -/
def lexemeKind : Lexeme → String
  | .number _ _ => "Number"
  | .operator op _ => s!"Operator({op.name})"

/-- The level of a scanner record. -/
def scanningLevel : Scanner.Record → Level
  | .transition _ _ _ _ => .trace
  | .token _ | .lexicalError _ | .closed _ => .debug

/-- The text of a scanner record. -/
def scanningText : Scanner.Record → Checked String
  | .transition source cls ch target =>
    .ok s!"TRANSITION: {source.name} --{cls.name} {Quoted.char ch}--> {target.name}"
  | .token lexeme => do
    let place ← lexeme.span.display
    return s!"TOKEN: {lexemeKind lexeme} {Quoted.string lexeme.text} at {place}"
  | .lexicalError e =>
    .ok s!"LEXICAL ERROR: {Quoted.string e.text} at position {e.position}"
  | .closed c =>
    .ok s!"Stats: LexerStats \x7b chars: {c.chars}, tokens: {c.tokens}, errors: {c.errors} \x7d"

/-- The level of a grammar record. -/
def readingLevel : Grammar.Record → Level
  | .entered _ _ => .trace
  | .unexpected _ _ => .debug

/-- The text of a grammar record. -/
def readingText : Grammar.Record → Checked String
  | .entered procedure index =>
    .ok s!"{procedure.name} at {index}"
  | .unexpected token index => do
    let place ← token.span.display
    return s!"SYNTAX ERROR: {Quoted.string token.text} at index {index} ({place})"

namespace Record

/-- The level of a record. -/
def level : Record → Level
  | scanning r => scanningLevel r
  | reading r => readingLevel r
  | value _ => .debug

/-- The part of the calculator that wrote a record. -/
def target : Record → String
  | scanning _ => "ebnf_calc::lexer"
  | reading _ | value _ => "ebnf_calc::parser"

/-- The text of a record. -/
def text : Record → Checked String
  | scanning r => scanningText r
  | reading r => readingText r
  | value x => .ok s!"VALUE: {Layout.journal.render x}"

/-- The line of a record: its level, its target and its text. -/
def line (r : Record) : Checked String := do
  let text ← r.text
  return s!"{r.level.name} {r.target} {text}"

/-- True of the records that a level shows. -/
def shownAt (l : Level) (r : Record) : Bool :=
  l = .trace ∨ r.level = .debug

end Record

/-- The lines of a journal at a level. -/
def lines (l : Level) (records : List Record) : Checked (List String) :=
  (records.filter (Record.shownAt l)).mapM Record.line

end Journal

end LineCalc
