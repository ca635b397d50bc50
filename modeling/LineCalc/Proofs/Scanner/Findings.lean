import LineCalc.Scanner.Basic

/-!
# Findings

What there is to find in a piece of input, by rules that know nothing of states
and pending texts.

There is one rule for each kind of thing that a line can hold. A number takes
all the digits that follow its first one, unless that is `0`, which is a number
by itself. So the rules describe the longest match, and they describe it from
the front: what is found first depends on the input up to its end, and on no
more than the column of the character behind that.

Findings keep lexemes and illegal texts in one list. A scanner keeps them apart,
and loses the order in which they came.

## Main definitions

* `Finding`: A lexeme or an illegal text.
* `Finding.map`: A finding with another lexeme or illegal text in its place.
* `Findings.lexemes`, `Findings.illegals`: The findings of one kind.
* `nextColumn`: The column at which a piece of input starts.
* `Scans`: What there is to find in a piece of input.

## Theorems

* `exists_scans`: Every input can be scanned.
* `Scans.illegals_eq_nil_iff`: What is free of illegal characters is free of
  illegal texts.
-/

namespace LineCalc

/-- One thing to be found in a piece of input. -/
inductive Finding where
  | lexeme (lexeme : Lexeme)
  | illegal (error : LexicalError)
deriving DecidableEq

/-- A finding whose lexeme or illegal text has been replaced by another. -/
def Finding.map (f : Lexeme → Lexeme) (g : LexicalError → LexicalError) : Finding → Finding
  | .lexeme l => .lexeme (f l)
  | .illegal e => .illegal (g e)

namespace Findings

/-- The lexemes among the findings. -/
def lexemes (fs : List Finding) : List Lexeme :=
  fs.filterMap fun
    | .lexeme l => some l
    | .illegal _ => none

/-- The illegal texts among the findings. -/
def illegals (fs : List Finding) : List LexicalError :=
  fs.filterMap fun
    | .lexeme _ => none
    | .illegal e => some e

@[simp]
theorem lexemes_append (fs gs : List Finding) : lexemes (fs ++ gs) = lexemes fs ++ lexemes gs :=
  List.filterMap_append

@[simp]
theorem illegals_append (fs gs : List Finding) :
    illegals (fs ++ gs) = illegals fs ++ illegals gs :=
  List.filterMap_append

@[simp]
theorem lexemes_nil : lexemes [] = [] := rfl

@[simp]
theorem illegals_nil : illegals [] = [] := rfl

@[simp]
theorem lexemes_lexeme (l : Lexeme) (fs : List Finding) :
    lexemes (.lexeme l :: fs) = l :: lexemes fs := rfl

@[simp]
theorem lexemes_illegal (e : LexicalError) (fs : List Finding) :
    lexemes (.illegal e :: fs) = lexemes fs := rfl

@[simp]
theorem illegals_lexeme (l : Lexeme) (fs : List Finding) :
    illegals (.lexeme l :: fs) = illegals fs := rfl

@[simp]
theorem illegals_illegal (e : LexicalError) (fs : List Finding) :
    illegals (.illegal e :: fs) = e :: illegals fs := rfl

theorem lexemes_concat (fs : List Finding) (l : Lexeme) :
    lexemes (fs ++ [.lexeme l]) = lexemes fs ++ [l] := by
  rw [lexemes_append, lexemes_lexeme, lexemes_nil]

theorem illegals_concat (fs : List Finding) (l : Lexeme) :
    illegals (fs ++ [.lexeme l]) = illegals fs := by
  rw [illegals_append, illegals_lexeme, illegals_nil, List.append_nil]

/-- Replacing lexemes and illegal texts by others does not change the order of either kind. -/
theorem lexemes_map (f : Lexeme → Lexeme) (g : LexicalError → LexicalError) (fs : List Finding) :
    lexemes (fs.map (Finding.map f g)) = (lexemes fs).map f := by
  induction fs with
  | nil => rfl
  | cons x fs ih =>
      cases x with
      | lexeme l =>
          rw [List.map_cons, Finding.map, lexemes_lexeme, lexemes_lexeme, ih, List.map_cons]
      | illegal e => rw [List.map_cons, Finding.map, lexemes_illegal, lexemes_illegal, ih]

theorem illegals_map (f : Lexeme → Lexeme) (g : LexicalError → LexicalError) (fs : List Finding) :
    illegals (fs.map (Finding.map f g)) = (illegals fs).map g := by
  induction fs with
  | nil => rfl
  | cons x fs ih =>
      cases x with
      | lexeme l => rw [List.map_cons, Finding.map, illegals_lexeme, illegals_lexeme, ih]
      | illegal e =>
          rw [List.map_cons, Finding.map, illegals_illegal, illegals_illegal, ih, List.map_cons]

theorem lexemes_map_lexeme (ls : List Lexeme) : lexemes (ls.map .lexeme) = ls := by
  induction ls with
  | nil => rfl
  | cons l ls ih => rw [List.map_cons, lexemes_lexeme, ih]

theorem illegals_map_lexeme (ls : List Lexeme) : illegals (ls.map .lexeme) = [] := by
  induction ls with
  | nil => rfl
  | cons l ls ih => rw [List.map_cons, illegals_lexeme, ih]

/-- Every finding is of one of the two kinds. -/
theorem length_lexemes_add_length_illegals (fs : List Finding) :
    (lexemes fs).length + (illegals fs).length = fs.length := by
  induction fs with
  | nil => rfl
  | cons f fs ih =>
      cases f with
      | lexeme l =>
          rw [lexemes_lexeme, illegals_lexeme, List.length_cons, List.length_cons]
          omega
      | illegal e =>
          rw [lexemes_illegal, illegals_illegal, List.length_cons, List.length_cons]
          omega

end Findings

open Findings

/-- The column at which a piece of input starts. An empty one starts where the
    line stops. -/
def nextColumn (stop : Nat) : List (Char × Nat) → Nat
  | [] => stop
  | (_, column) :: _ => column

/-- A piece of input at the end of a line, whose characters have columns of any
    kind, holds the findings of a list. `stop` is the column after the line. -/
inductive Scans (stop : Nat) : List (Char × Nat) → List Finding → Prop where
  | nil : Scans stop [] []
  | number {d : Char} {column : Nat} {ds rest : List (Char × Nat)} {fs : List Finding} :
      CharClass.of d = .nonZeroDigit → (∀ p ∈ ds, p.1.isDigit = true) →
        (∀ p ∈ rest.head?, p.1.isDigit = false) → Scans stop rest fs →
        Scans stop ((d, column) :: (ds ++ rest))
          (.lexeme (.number (String.ofList (d :: ds.map Prod.fst))
            ⟨column, nextColumn stop rest⟩) :: fs)
  | zero {column : Nat} {rest : List (Char × Nat)} {fs : List Finding} :
      Scans stop rest fs →
        Scans stop (('0', column) :: rest)
          (.lexeme (.number "0" ⟨column, nextColumn stop rest⟩) :: fs)
  | operator {op : Operator} {column : Nat} {rest : List (Char × Nat)} {fs : List Finding} :
      Scans stop rest fs →
        Scans stop ((op.char, column) :: rest) (.lexeme (.operator op column) :: fs)
  | blank {ch : Char} {column : Nat} {rest : List (Char × Nat)} {fs : List Finding} :
      CharClass.of ch = .whitespace → Scans stop rest fs → Scans stop ((ch, column) :: rest) fs
  | illegal {ch : Char} {column : Nat} {rest : List (Char × Nat)} {fs : List Finding} :
      CharClass.of ch = .illegal → Scans stop rest fs →
        Scans stop ((ch, column) :: rest) (.illegal ⟨ch.toString, column + 1⟩ :: fs)

theorem Operator.of_char (op : Operator) : CharClass.of op.char = .operator := by
  cases op <;> rfl

theorem Operator.exists_char {ch : Char} (h : CharClass.of ch = .operator) :
    ∃ op : Operator, ch = op.char := by
  rcases CharClass.of_eq_operator_iff.1 h with rfl | rfl | rfl | rfl
  · exact ⟨.plus, rfl⟩
  · exact ⟨.minus, rfl⟩
  · exact ⟨.asterisk, rfl⟩
  · exact ⟨.slash, rfl⟩

/-- The digits in front of a piece of input, as many as there are, and what comes behind them. -/
theorem exists_digits_append (input : List (Char × Nat)) :
    ∃ ds rest, input = ds ++ rest ∧ (∀ p ∈ ds, p.1.isDigit = true) ∧
      ∀ p ∈ rest.head?, p.1.isDigit = false := by
  refine ⟨input.takeWhile fun p => p.1.isDigit, input.dropWhile fun p => p.1.isDigit,
    List.takeWhile_append_dropWhile.symm, List.all_eq_true.1 List.all_takeWhile,
    fun p hp => ?_⟩
  -- If a digit came next it would have been taken as well.
  have hnot := List.head?_dropWhile_not (fun p => Char.isDigit p.1) input
  rw [Option.mem_def.1 hp] at hnot
  exact hnot

/-- The first character decides which rule applies. Only a number takes more than
    that character away. -/
theorem exists_scans (stop : Nat) : ∀ input : List (Char × Nat), ∃ fs, Scans stop input fs
  | [] => ⟨[], .nil⟩
  | (ch, column) :: rest => by
      cases hch : CharClass.of ch with
      | nonZeroDigit =>
          -- The rule for numbers wants the longest run of digits.
          rcases exists_digits_append rest with ⟨ds, rest', hsplit, hds, hrest⟩
          have hle : rest'.length ≤ rest.length := by
            rw [hsplit, List.length_append]
            omega
          rcases exists_scans stop rest' with ⟨fs, hfs⟩
          rw [hsplit]
          exact ⟨_, .number hch hds hrest hfs⟩
      | zero =>
          rcases exists_scans stop rest with ⟨fs, hfs⟩
          rw [CharClass.of_eq_zero_iff.1 hch]
          exact ⟨_, .zero hfs⟩
      | operator =>
          rcases exists_scans stop rest with ⟨fs, hfs⟩
          rcases Operator.exists_char hch with ⟨op, rfl⟩
          exact ⟨_, .operator hfs⟩
      | whitespace =>
          rcases exists_scans stop rest with ⟨fs, hfs⟩
          exact ⟨fs, .blank hch hfs⟩
      | illegal =>
          rcases exists_scans stop rest with ⟨fs, hfs⟩
          exact ⟨_, .illegal hch hfs⟩
termination_by input => input.length
decreasing_by all_goals
  rw [List.length_cons]
  omega

/-- A digit can stand anywhere in a line. -/
theorem not_illegal_of_isDigit {ch : Char} (h : ch.isDigit = true) :
    CharClass.of ch ≠ .illegal := by
  rcases CharClass.isDigit_iff.1 h with h | h <;> rw [h] <;> exact fun h => by cases h

/-- There is no illegal text in a piece of input exactly if there is no illegal character in it. -/
theorem Scans.illegals_eq_nil_iff {stop : Nat} {input : List (Char × Nat)} {fs : List Finding}
    (h : Scans stop input fs) :
    illegals fs = [] ↔ ∀ p ∈ input, CharClass.of p.1 ≠ .illegal := by
  induction h with
  | nil => exact iff_of_true rfl fun p hp => by cases hp
  -- A number takes more than one character away, but none that could be illegal.
  | number hd hds _ _ ih =>
      rw [illegals_lexeme, ih, List.forall_mem_cons, List.forall_mem_append, hd]
      refine ⟨fun hrest => ⟨?_, fun p hp => not_illegal_of_isDigit (hds p hp), hrest⟩,
        fun h => h.2.2⟩
      exact fun h => by cases h
  | zero _ ih =>
      rw [illegals_lexeme, ih, List.forall_mem_cons]
      exact (and_iff_right (not_illegal_of_isDigit rfl)).symm
  | operator _ ih =>
      rw [illegals_lexeme, ih, List.forall_mem_cons, Operator.of_char]
      exact (and_iff_right (by decide)).symm
  | blank hch _ ih =>
      rw [ih, List.forall_mem_cons, hch]
      exact (and_iff_right (by decide)).symm
  -- The one rule that adds an illegal text takes an illegal character away.
  | illegal hch _ _ =>
      rw [illegals_illegal, List.forall_mem_cons, hch]
      exact iff_of_false (List.cons_ne_nil _ _) fun h => h.1 rfl

end LineCalc
