import LineCalc.Command.Arguments

/-!
# Help Texts

What the program says about itself.

## Main definitions

* `Topic.text`: The help text about a topic.
* `UsageError.message`: What is wrong with the arguments, and where help is.
-/

namespace LineCalc

/-- The name under which the program is called. -/
def programName : String := "ebnf-calc"

/-- The line that names the version of the program. -/
def versionLine : String := programName ++ " 0.1.0\n"

/-- The name of a command. -/
def Subcommand.name : Subcommand → String
  | eval => "eval"
  | tokens => "tokens"

/-- The arguments of a command, as they are written in a help text. -/
def Subcommand.parameters : Subcommand → String
  | eval => "[OPTIONS] [EXPR]"
  | tokens => "[EXPR]"

/-- What a command does. -/
def Subcommand.about : Subcommand → String
  | eval => "Evaluates an expression"
  | tokens => "Prints the token stream, one \x60text kind\x60 pair per line"

namespace Topic

/-- How the thing that a topic is about is called. -/
def usage : Topic → String
  | program => "Usage: " ++ programName ++ " <COMMAND>"
  | command s => "Usage: " ++ programName ++ " " ++ s.name ++ " " ++ s.parameters
  | help => "Usage: " ++ programName ++ " help [COMMAND]..."

/-- The lines about the expression of a command. -/
def expressionLines : List String :=
  ["Arguments:", "  [EXPR]  Expression; one line is read from standard input when omitted", ""]

/-- The lines of the help text about a topic. -/
def lines : Topic → List String
  | program => [
      "One-line arithmetic evaluator: finite-state lexer and recursive-descent parser", "",
      usage program, "",
      "Commands:",
      "  " ++ Subcommand.eval.name ++ "    " ++ Subcommand.eval.about,
      "  " ++ Subcommand.tokens.name ++ "  " ++ Subcommand.tokens.about,
      "  help    Print this message or the help of the given subcommand(s)", "",
      "Options:",
      "  -h, --help     Print help",
      "  -V, --version  Print version"]
  | command .eval => [Subcommand.eval.about, "", usage (command .eval), ""] ++ expressionLines ++ [
      "Options:",
      "  -p, --prompt  Print a prompt before reading standard input",
      "  -c, --caret   Mark the offending columns under the input line",
      "  -h, --help    Print help"]
  | command .tokens =>
    [Subcommand.tokens.about, "", usage (command .tokens), ""] ++ expressionLines ++ [
      "Options:",
      "  -h, --help  Print help"]
  | help => [
      "Print this message or the help of the given subcommand(s)", "",
      usage help, "",
      "Arguments:",
      "  [COMMAND]...  Print help for the subcommand(s)"]

/-- The help text about a topic. -/
def text (t : Topic) : String :=
  String.join (t.lines.map (· ++ "\n"))

end Topic

/-- What is wrong with the arguments. -/
def UsageError.cause : UsageError → String
  | noCommand => "no command was given"
  | unknownCommand name => s!"unrecognized subcommand '{name}'"
  | unexpectedArgument argument => s!"unexpected argument '{argument}' found"
  | repeatedFlag flag => s!"the argument '{flag.long}' cannot be used multiple times"

/-- What is wrong with the arguments, and where help is. -/
def UsageError.message (e : UsageError) : String :=
  s!"error: {e.cause}\n\n{Topic.usage .program}\n\nFor more information, try '--help'.\n"

end LineCalc
