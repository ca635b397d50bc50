/-!
# Character Classes

The alphabet of the scanner.

A scanner never looks at a character when it chooses its next state; it looks
at the class of the character. Digits fall into two classes, because a leading
`0` is a whole number by itself and a leading `1` is not. Space and horizontal
tab may stand between lexemes. Everything else outside digits and operators is
illegal, line breaks and digits of other scripts included.

## Main definitions

* `CharClass`: What a character can do to a lexeme.
* `CharClass.of`: The class of a character.
* `isBlank`: Texts that hold nothing but white space.

## Theorems

* `CharClass.of_eq_nonZeroDigit_iff`, `CharClass.of_eq_zero_iff`,
  `CharClass.of_eq_operator_iff`, `CharClass.of_eq_whitespace_iff`: The
  characters of a class.
* `CharClass.isDigit_iff`, `CharClass.isDigit_iff_le`: The two classes of digits
  are the digits, from `0` to `9`.
-/

namespace LineCalc

/-- The class of one input character. -/
inductive CharClass where
  /-- One of `1` to `9`. -/
  | nonZeroDigit
  /-- The digit `0`. -/
  | zero
  /-- One of `+`, `-`, `*` and `/`. -/
  | operator
  /-- A space or a horizontal tab. -/
  | whitespace
  /-- Any other character. -/
  | illegal
deriving DecidableEq

namespace CharClass

/-- The class of `ch`. -/
def of (ch : Char) : CharClass :=
  if '1' ≤ ch ∧ ch ≤ '9' then nonZeroDigit
  else if ch = '0' then zero
  else if ch = '+' ∨ ch = '-' ∨ ch = '*' ∨ ch = '/' then operator
  else if ch = ' ' ∨ ch = '\t' then whitespace
  else illegal

/-- The column of a class in the transition table. -/
def index : CharClass → Nat
  | nonZeroDigit => 0
  | zero => 1
  | operator => 2
  | whitespace => 3
  | illegal => 4

/-- The name a class has in the journal. -/
def name : CharClass → String
  | nonZeroDigit => "NonZeroDigit"
  | zero => "Zero"
  | operator => "Operator"
  | whitespace => "Whitespace"
  | illegal => "Illegal"

section

variable {ch : Char}

theorem of_eq_nonZeroDigit_iff : of ch = .nonZeroDigit ↔ '1' ≤ ch ∧ ch ≤ '9' := by
  unfold of
  split
  · exact iff_of_true rfl ‹_›
  · refine iff_of_false ?_ ‹_›
    repeat' split
    all_goals exact fun h => by cases h

theorem of_eq_zero_iff : of ch = .zero ↔ ch = '0' := by
  constructor
  · intro h
    unfold of at h
    repeat' split at h
    all_goals first | assumption | cases h
  · rintro rfl
    rfl

theorem of_eq_operator_iff : of ch = .operator ↔ ch = '+' ∨ ch = '-' ∨ ch = '*' ∨ ch = '/' := by
  constructor
  · intro h
    unfold of at h
    repeat' split at h
    all_goals first | assumption | cases h
  · rintro (rfl | rfl | rfl | rfl) <;> rfl

theorem of_eq_whitespace_iff : of ch = .whitespace ↔ ch = ' ' ∨ ch = '\t' := by
  constructor
  · intro h
    unfold of at h
    repeat' split at h
    all_goals first | assumption | cases h
  · rintro (rfl | rfl) <;> rfl

theorem isDigit_iff_le : ch.isDigit = true ↔ '0' ≤ ch ∧ ch ≤ '9' := by
  simp only [Char.isDigit, Bool.and_eq_true, decide_eq_true_eq]
  rfl

theorem isDigit_iff : ch.isDigit = true ↔ of ch = .zero ∨ of ch = .nonZeroDigit := by
  have h0 : '0'.val.toNat = 48 := rfl
  have h1 : '1'.val.toNat = 49 := rfl
  have h9 : '9'.val.toNat = 57 := rfl
  rw [isDigit_iff_le, of_eq_nonZeroDigit_iff, of_eq_zero_iff]
  simp only [Char.le_def, Char.ext_iff, UInt32.le_iff_toNat_le, ← UInt32.toNat_inj, h0, h1, h9]
  omega

end

end CharClass

/-- True if `text` holds nothing but white space. The empty text is blank. -/
def isBlank (text : String) : Bool :=
  text.toList.all fun ch => CharClass.of ch = .whitespace

end LineCalc
