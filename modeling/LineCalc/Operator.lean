/-!
# Operators

The four binary operators of an expression, and the characters that stand for
them.

They fall into two levels: `+` and `-` are additive, `*` and `/` are not, and
the grammar gives each level a procedure of its own.

## Main definitions

* `Operator`: Plus, minus, asterisk or slash.
* `Operator.ofChar?`: The operator a character stands for.
* `Operator.char`: The character that stands for an operator.
* `Operator.isAdditive`: The level of an operator.

## Theorems

* `Operator.ofChar?_eq_some_iff`: Characters and operators correspond one to
  one.
-/

namespace LineCalc

/-- A binary arithmetic operator. -/
inductive Operator where
  | plus
  | minus
  | asterisk
  | slash
deriving DecidableEq

namespace Operator

/-- The operator that `ch` stands for, if any. -/
def ofChar? (ch : Char) : Option Operator :=
  match ch with
  | '+' => some plus
  | '-' => some minus
  | '*' => some asterisk
  | '/' => some slash
  | _ => none

/-- The character that stands for an operator. -/
def char : Operator → Char
  | plus => '+'
  | minus => '-'
  | asterisk => '*'
  | slash => '/'

/-- The name an operator has in the journal. -/
def name : Operator → String
  | plus => "Plus"
  | minus => "Minus"
  | asterisk => "Asterisk"
  | slash => "Slash"

/-- True of the operators that join terms, false of those that join factors. -/
def isAdditive : Operator → Bool
  | plus | minus => true
  | asterisk | slash => false

@[simp]
theorem ofChar?_char (op : Operator) : ofChar? op.char = some op := by
  cases op <;> rfl

theorem ofChar?_eq_some_iff {ch : Char} {op : Operator} : ofChar? ch = some op ↔ ch = op.char := by
  constructor
  · intro h
    unfold ofChar? at h
    -- A character that stands for nothing contradicts `h`; the others are read off it.
    split at h <;> cases h <;> rfl
  · rintro rfl
    exact ofChar?_char op

end Operator

end LineCalc
