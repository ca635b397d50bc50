import LineCalc.CharClass

/-!
# Scanner States

The automaton that recognises one lexeme.

The automaton starts in `start` and follows the class of each character. Three
of its states accept. A number that starts with another digit than `0` can be
prolonged, and nothing else can: `leadingZero` and `operator` fail on every
class, so `03` is two numbers and `++` is two operators. A failure is a state
of its own, from which there is no way back.

## Main definitions

* `State`: What the automaton knows about the characters it has read.
* `State.next`: The transition table.
* `State.accepting`: The states in which the characters read form a lexeme.
-/

namespace LineCalc

namespace Scanner

/-- What the automaton knows about the characters it has read. -/
inductive State where
  /-- Nothing has been read. -/
  | start
  /-- A number that more digits can prolong. -/
  | inNumber
  /-- The number `0`. -/
  | leadingZero
  /-- An operator. -/
  | operator
  /-- Anything else. -/
  | error
deriving DecidableEq

namespace State

/-- The transition table. -/
def next : State → CharClass → State
  | start, .nonZeroDigit => inNumber
  | start, .zero => leadingZero
  | start, .operator => operator
  | inNumber, .nonZeroDigit => inNumber
  | inNumber, .zero => inNumber
  | _, _ => error

/-- The states in which the characters read form a lexeme. -/
def accepting : State → Bool
  | inNumber | leadingZero | operator => true
  | start | error => false

/-- The row of a state in the transition table. -/
def index : State → Nat
  | start => 0
  | inNumber => 1
  | leadingZero => 2
  | operator => 3
  | error => 4

/-- The name a state has in the journal. -/
def name : State → String
  | start => "Start"
  | inNumber => "InNumber"
  | leadingZero => "LeadingZero"
  | operator => "Operator"
  | error => "Error"

/-- The states that the automaton goes through as it reads `text`, the one it
    starts from included. -/
def trail (s : State) : List Char → List State
  | [] => [s]
  | ch :: rest => s :: trail (s.next (CharClass.of ch)) rest

@[simp]
theorem error_next (cls : CharClass) : error.next cls = error := by
  cases cls <;> rfl

end State

end Scanner

end LineCalc
