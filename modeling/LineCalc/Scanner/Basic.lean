import LineCalc.Scanner.Record

/-!
# Scanner

Turning the characters of a line into lexemes, one character at a time.

A `Scanner` holds the characters of the lexeme it is reading, the automaton's
state after them, and what it has found so far. `push` gives it one more
character. If the automaton can go on, the character joins the pending text.
If not, the pending text is complete: it is flushed as a lexeme, and the
character is tried again from the start state. A character that cannot start a
lexeme either is dropped if it is white space and reported otherwise, and in
both cases the scanner goes on as if nothing had been read. So one illegal
character costs one report, and every one of them is reported.

The caller names the column of each character. The scanner itself never
assumes that columns are consecutive or even increasing: a number starts where
its first character was said to be and stops where the character was that ended
it. `tokenize` feeds a whole line with the columns it really has.

## Main definitions

* `Scanner`: The pending lexeme and everything found so far.
* `Scanner.push`: Reading one character.
* `Scanner.finish`: Closing the line.
* `Lexed`: What a line consists of.
* `scan`: Reading characters at given columns, then closing the line.
* `tokenize`: Reading a line.
-/

namespace LineCalc

/-- What a line consists of: its lexemes, its length, its illegal texts, the
    counts and the records of the scan. -/
structure Lexed where
  lexemes : List Lexeme
  length : Nat
  errors : List LexicalError
  counts : Scanner.Counts
  journal : List Scanner.Record
deriving DecidableEq

namespace Lexed

/-- The tokens of a line: its lexemes and the end marker. -/
def tokens (l : Lexed) : List Token :=
  l.lexemes.map .lexeme ++ [.endOfInput l.length]

/-- True of a line without illegal texts. -/
def isOk (l : Lexed) : Bool :=
  l.errors.isEmpty

/-- The tokens of a line, or its illegal texts if there are any. -/
def result (l : Lexed) : Except (List LexicalError) (List Token) :=
  if l.errors.isEmpty then .ok l.tokens else .error l.errors

end Lexed

/-- The state of a scan. `pending` holds the characters of the lexeme that is
    being read, `state` the automaton's state after them, and `pendingStart`
    the column of the first of them. -/
structure Scanner where
  state : Scanner.State := .start
  pending : String := ""
  pendingStart : Nat := 0
  lexemes : Array Lexeme := #[]
  errors : Array LexicalError := #[]
  counts : Scanner.Counts := {}
  journal : Array Scanner.Record := #[]

namespace Scanner

/-- Keep a lexeme. -/
def emit (s : Scanner) (lexeme : Lexeme) : Checked Scanner := do
  let tokens ← Checked.succ s.counts.tokens
  return { s with
    counts := { s.counts with tokens := tokens }
    lexemes := s.lexemes.push lexeme
    journal := s.journal.push (.token lexeme) }

/-- Keep an illegal text. -/
def report (s : Scanner) (error : LexicalError) : Checked Scanner := do
  let errors ← Checked.succ s.counts.errors
  return { s with
    counts := { s.counts with errors := errors }
    errors := s.errors.push error
    journal := s.journal.push (.lexicalError error) }

/-- Add a character to the pending text. -/
def extend (s : Scanner) (column : Nat) (ch : Char) (next : State) : Scanner :=
  { s with
    state := next
    pending := s.pending.push ch
    pendingStart := if s.pending = "" then column else s.pendingStart }

/-- The lexeme that the pending text forms, if `stop` is the column after it. -/
def pendingLexeme (s : Scanner) (stop : Nat) : Checked Lexeme :=
  if s.state = .operator then
    -- Only an operator character leads to this state.
    match s.pending.toList.head?.bind Operator.ofChar? with
    | some op => Lexeme.operatorAt op s.pendingStart
    | none => .error .strayOperatorState
  else
    .ok (.number s.pending ⟨s.pendingStart, stop⟩)

/-- Forget the pending text. -/
def restart (s : Scanner) : Scanner :=
  { s with state := .start, pending := "" }

/-- Complete the pending text and return to the start state. `stop` is the
    column after the text. -/
def flush (s : Scanner) (stop : Nat) : Checked Scanner := do
  if s.state.accepting then
    let lexeme ← s.pendingLexeme stop
    s.restart.emit lexeme
  else if isBlank s.pending then
    return s.restart
  else
    let error : LexicalError := ⟨s.pending, stop⟩
    s.restart.report error

/-- Drop a character that cannot start a lexeme, and report it unless it is
    white space. -/
def reject (s : Scanner) (column : Nat) (ch : Char) : Checked Scanner := do
  if CharClass.of ch = .whitespace then
    return s
  else
    s.report ⟨ch.toString, ← Checked.succ column⟩

/-- Read the character `ch` at `column`. -/
def push (s : Scanner) (column : Nat) (ch : Char) : Checked Scanner := do
  let cls := CharClass.of ch
  let target := s.state.next cls
  let chars ← Checked.succ s.counts.chars
  let s := { s with
    counts := { s.counts with chars := chars }
    journal := s.journal.push (.transition s.state cls ch target) }
  if target ≠ .error then
    return s.extend column ch target
  else
    -- `ch` is not part of the pending text: complete that, and start again.
    let s ← s.flush column
    let target := State.start.next cls
    if target ≠ .error then
      return s.extend column ch target
    else
      s.reject column ch

/-- Close a line of `length` characters. -/
def finish (s : Scanner) (length : Nat) : Checked Lexed := do
  let s ← s.flush length
  return {
    lexemes := s.lexemes.toList
    length := length
    errors := s.errors.toList
    counts := s.counts
    journal := (s.journal.push (.closed s.counts)).toList }

/-- Read characters, each at its column, from left to right. -/
def feed (s : Scanner) (input : List (Char × Nat)) : Checked Scanner :=
  input.foldlM (fun s (ch, column) => s.push column ch) s

theorem feed_cons (s : Scanner) (ch : Char) (column : Nat) (input : List (Char × Nat)) :
    s.feed ((ch, column) :: input) = s.push column ch >>= fun s => s.feed input :=
  rfl

theorem feed_append (s : Scanner) (input input' : List (Char × Nat)) :
    s.feed (input ++ input') = s.feed input >>= fun s => s.feed input' :=
  List.foldlM_append

end Scanner

/-- Read characters, each at its column, and close a line of `length`
    characters. -/
def scan (input : List (Char × Nat)) (length : Nat) : Checked Lexed := do
  let s ← Scanner.feed {} input
  s.finish length

/-- Read a line. -/
def tokenize (line : String) : Checked Lexed :=
  scan line.toList.zipIdx line.length

end LineCalc
