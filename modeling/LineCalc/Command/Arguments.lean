/-!
# Command Line Arguments

What the arguments of the program ask for.

The first argument names a command, `eval`, `tokens` or `help`, or is one of the
flags of the program itself. The arguments after `eval` and `tokens` are flags
and at most one expression. A flag has a long form, and a short form of one
letter; short forms can share an argument, as in `-pc`. After the argument `--`
everything is an expression, even if it starts with a dash. A single dash and
the empty text are expressions anywhere.

Arguments are taken from left to right, and the first one that asks for help or
is wrong decides. A flag may not be given twice, takes no value, and a second
expression is wrong.

## Main definitions

* `Invocation`: What the arguments ask for.
* `Options.readAll`: The flags and the expression of a command.
* `Invocation.ofArguments`: Understanding the arguments.
-/

namespace LineCalc

/-- The commands that look at an expression. -/
inductive Subcommand where
  | eval
  | tokens
deriving DecidableEq

/-- The flags of the commands. -/
inductive Flag where
  | prompt
  | caret
  | help
deriving DecidableEq

/-- The long form of a flag. -/
def Flag.long : Flag → String
  | prompt => "--prompt"
  | caret => "--caret"
  | help => "--help"

/-- What is wrong with the arguments. -/
inductive UsageError where
  | noCommand
  | unknownCommand (name : String)
  | unexpectedArgument (argument : String)
  | repeatedFlag (flag : Flag)
deriving DecidableEq

/-- What help can be asked about. -/
inductive Topic where
  | program
  | command (subcommand : Subcommand)
  | help
deriving DecidableEq

/-- What the arguments of a command come to. -/
structure Options where
  expression : Option String := none
  prompt : Bool := false
  caret : Bool := false
deriving DecidableEq

/-- Why the arguments of a command are not read to the end. -/
inductive Interruption where
  | help
  | misuse (error : UsageError)
deriving DecidableEq

/-- What the arguments of the program ask for. -/
inductive Invocation where
  /-- Evaluate an expression. Without one, read a line, after a prompt if one is
      wanted. On failure show the line with carets if they are wanted. -/
  | eval (expression : Option String) (prompt caret : Bool)
  /-- List the tokens of an expression. Without one, read a line. -/
  | tokens (expression : Option String)
  | help (topic : Topic)
  | version
  | misuse (error : UsageError)
deriving DecidableEq

namespace Subcommand

/-- The flag with a letter as its short form. -/
def short? (s : Subcommand) (letter : Char) : Option Flag :=
  if letter = 'h' then some .help
  else if s = eval ∧ letter = 'p' then some .prompt
  else if s = eval ∧ letter = 'c' then some .caret
  else none

/-- The flag with an argument as its long form. -/
def long? (s : Subcommand) (argument : String) : Option Flag :=
  if argument = Flag.help.long then some .help
  else if s = eval ∧ argument = Flag.prompt.long then some .prompt
  else if s = eval ∧ argument = Flag.caret.long then some .caret
  else none

end Subcommand

namespace Options

/-- Take a flag. -/
def takeFlag (o : Options) : Flag → Except Interruption Options
  | .prompt =>
    if o.prompt then .error (.misuse (.repeatedFlag .prompt)) else .ok { o with prompt := true }
  | .caret =>
    if o.caret then .error (.misuse (.repeatedFlag .caret)) else .ok { o with caret := true }
  | .help => .error .help

/-- Take an expression. -/
def takeExpression (o : Options) (text : String) : Except Interruption Options :=
  match o.expression with
  | none => .ok { o with expression := some text }
  | some _ => .error (.misuse (.unexpectedArgument text))

/-- Take a flag, if there is one. -/
def takeFlag? (o : Options) (argument : String) : Option Flag → Except Interruption Options
  | some flag => o.takeFlag flag
  | none => .error (.misuse (.unexpectedArgument argument))

/-- Take an argument that may be a flag. -/
def read (s : Subcommand) (o : Options) (argument : String) : Except Interruption Options :=
  match argument.toList with
  | '-' :: '-' :: _ => o.takeFlag? argument (s.long? argument)
  | '-' :: letter :: letters =>
    (letter :: letters).foldlM (fun o l => o.takeFlag? argument (s.short? l)) o
  | _ => o.takeExpression argument

/-- Take all arguments of a command. -/
def readAll (s : Subcommand) (o : Options) : List String → Except Interruption Options
  | [] => .ok o
  | argument :: rest =>
    if argument = "--" then
      rest.foldlM takeExpression o
    else do
      let o ← o.read s argument
      o.readAll s rest

end Options

namespace Invocation

/-- What the arguments after the name of a command ask for. -/
def ofCommand (s : Subcommand) (arguments : List String) : Invocation :=
  match Options.readAll s {} arguments with
  | .error .help => help (.command s)
  | .error (.misuse e) => misuse e
  | .ok o =>
    match s with
    | .eval => eval o.expression o.prompt o.caret
    | .tokens => tokens o.expression

/-- What the arguments after `help` ask for: help about the program, or about
    the one command they name. -/
def ofHelp : List String → Invocation
  | [] => help .program
  | name :: rest =>
    if name = "eval" ∨ name = "tokens" ∨ name = "help" then
      match rest with
      | [] =>
        if name = "eval" then help (.command .eval)
        else if name = "tokens" then help (.command .tokens)
        else help .help
      | next :: _ => misuse (.unknownCommand next)
    else misuse (.unknownCommand name)

/-- What a flag of the program asks for, or that it is none. -/
def ofProgramFlag (argument : String) : Invocation :=
  match argument.toList with
  | '-' :: '-' :: _ =>
    if argument = "--help" then help .program
    else if argument = "--version" then version
    else misuse (.unexpectedArgument argument)
  | '-' :: letter :: _ =>
    if letter = 'h' then help .program
    else if letter = 'V' then version
    else misuse (.unexpectedArgument argument)
  | _ => misuse (.unknownCommand argument)

/-- What the arguments of the program ask for. -/
def ofArguments : List String → Invocation
  | [] => misuse .noCommand
  | argument :: rest =>
    if argument = "eval" then ofCommand .eval rest
    else if argument = "tokens" then ofCommand .tokens rest
    else if argument = "help" then ofHelp rest
    else ofProgramFlag argument

/-- True if a line of input is wanted. -/
def needsLine : Invocation → Bool
  | eval none _ _ | tokens none => true
  | _ => false

end Invocation

end LineCalc
