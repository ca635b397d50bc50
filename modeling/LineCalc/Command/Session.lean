import LineCalc.Caret
import LineCalc.Command.Help
import LineCalc.Grammar.Basic
import LineCalc.Number.Layout
import LineCalc.Scanner.Basic

/-!
# Sessions

What the program writes, and the status it ends with.

A session is a function of what the arguments ask for and of the bytes on
standard input. Of the input only the first line counts, up to and including
its line feed, and only if no expression is among the arguments. Its bytes have
to be UTF-8, and the line feeds and carriage returns at its end are not part of
the expression. What comes after it is never looked at.

The status is `0` on success, `1` if the expression is rejected or the line
cannot be read, and `2` if the arguments are wrong.

## Main definitions

* `Transcript`: What a session wrote, and its status.
* `firstLine?`: The line of input that an expression is taken from.
* `Session.value`: The value of a line that has been tokenized.
* `Session.evalLine`, `Session.tokensLine`: The two commands on a given line.
* `Session.preamble`, `Session.response`: What is written before and after the
  input is read.
* `Session.run`: A whole session.
-/

namespace LineCalc

/-- What a session wrote, and the status it ended with. -/
structure Transcript where
  status : Nat
  stdout : String
  stderr : String
deriving DecidableEq

/-- Bytes up to and including the first line feed. -/
def upToLineFeed : List UInt8 → List UInt8
  | [] => []
  | byte :: rest => if byte = 10 then [byte] else byte :: upToLineFeed rest

/-- A text without the line feeds and carriage returns at its end. -/
def trimLineEnd (text : String) : String :=
  String.ofList (text.toList.reverse.dropWhile fun ch => ch = '\n' ∨ ch = '\r').reverse

/-- The first line of the input, unless it is not UTF-8. -/
def firstLine? (input : List UInt8) : Option String :=
  (String.fromUTF8? (ByteArray.mk (upToLineFeed input).toArray)).map trimLineEnd

namespace Session

/-- Lines of output. -/
def printed (lines : List String) : String :=
  String.join (lines.map (· ++ "\n"))

/-- The line that asks for an expression. -/
def promptLine : String := "Enter an arithmetic expression"

/-- What is said about a line that is not UTF-8. -/
def unreadable : String :=
  "Error: can't read expression from stdin\n\n" ++
  "Caused by:\n    stream did not contain valid UTF-8\n"

/-- The lines that report a rejection. With `caret` the line itself comes first,
    and the carets under it. -/
def rejectionLines (line : String) (caret : Bool) (tokens : List Token) (r : Rejection) :
    Checked (List String) := do
  let marked ←
    if caret then do
      let spans ← r.spans tokens
      let carets ← Caret.line line spans
      pure [line, carets]
    else
      pure []
  let messages ← r.messages
  return marked ++ messages

/-- The value of a line that has been tokenized, or why it has none. A session keeps no
    journal, so it puts the steps of an evaluation together by itself. -/
def value (lexed : Lexed) : Except Rejection Float :=
  (lexed.result.mapError .lexical).bind fun tokens =>
    ((Cursor.ofTokens? tokens).bind fun cursor =>
      (Grammar.parse cursor).result).mapError .grammatical

/-- Evaluate a line. -/
def evalLine (line : String) (caret : Bool) : Checked Transcript := do
  let lexed ← tokenize line
  match value lexed with
  | .ok x =>
    return ⟨0, printed ["Value of expression = " ++ Layout.answer.render x], ""⟩
  | .error r =>
    let lines ← rejectionLines line caret lexed.tokens r
    return ⟨1, printed lines, ""⟩

/-- List the tokens of a line, and its illegal texts after them. -/
def tokensLine (line : String) : Checked Transcript := do
  let lexed ← tokenize line
  let lines := lexed.tokens.map Token.dump ++ lexed.errors.map LexicalError.message
  return ⟨if lexed.isOk then 0 else 1, printed lines, ""⟩

/-- Run a command on the expression among its arguments, or else on the first
    line of the input. -/
def withLine (expression : Option String) (input : List UInt8)
    (command : String → Checked Transcript) : Checked Transcript :=
  match expression with
  | some line => command line
  | none =>
    match firstLine? input with
    | some line => command line
    | none => .ok ⟨1, "", unreadable⟩

/-- What is written before any input is read. -/
def preamble : Invocation → String
  | .eval none true _ => printed [promptLine]
  | _ => ""

/-- What is written after the input has been read. -/
def response (invocation : Invocation) (input : List UInt8) : Checked Transcript :=
  match invocation with
  | .eval expression _ caret => withLine expression input fun line => evalLine line caret
  | .tokens expression => withLine expression input tokensLine
  | .help topic => .ok ⟨0, topic.text, ""⟩
  | .version => .ok ⟨0, versionLine, ""⟩
  | .misuse e => .ok ⟨2, "", e.message⟩

/-- A whole session. -/
def run (invocation : Invocation) (input : List UInt8) : Checked Transcript := do
  let t ← response invocation input
  return { t with stdout := preamble invocation ++ t.stdout }

end Session

end LineCalc
