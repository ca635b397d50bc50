import LineCalc.Proofs.IllegalCharacters
import LineCalc.Proofs.Scanner.Partition

/-!
# Recovery

How a scan goes on behind an illegal character.

A scanner that meets an illegal character completes what it was reading, reports the
character and starts again. It does the same for a space, but for the report. So the
illegal characters of a line can be replaced by spaces without any effect on its tokens:
where an illegal character cut a number in two, the space cuts it at the same place, and
no other character has moved.

The rules of `Cuts` show why. They have one rule for white space and one for illegal
characters, and the two differ in nothing but the finding that the second one adds. What
must not happen is that a replacement starts or prolongs a number, and `isDigit_clear`
says that it does not, wherever it stands.

## Main definitions

* `Line.clear`: A character, or the space that takes its place.
* `Line.cleared`: A line with its illegal characters replaced.

## Theorems

* `Line.isDigit_clear`: No digit comes or goes.
* `Word.map_clear`: The characters of a word stay.
* `Cuts.cleared`: The lexemes of a text are cut out of the cleared text.
* `tokenize_cleared`: The scan of a cleared line.
-/

namespace LineCalc

open Findings

namespace Line

/-- A character, or a space in the place of an illegal one. -/
def clear (c : Char) : Char :=
  if Expression.Legal c then c else ' '

/-- A line with a space in the place of each of its illegal characters. -/
def cleared (line : String) : String :=
  String.ofList (line.toList.map clear)

theorem clear_of_legal {c : Char} (h : CharClass.of c ≠ .illegal) : clear c = c :=
  if_pos (Expression.legal_iff.2 h)

theorem clear_of_illegal {c : Char} (h : CharClass.of c = .illegal) : clear c = ' ' :=
  if_neg fun hlegal => Expression.legal_iff.1 hlegal h

/-- A digit is legal, and a space is none. -/
theorem isDigit_clear (c : Char) : (clear c).isDigit = c.isDigit := by
  by_cases h : CharClass.of c = .illegal
  · have hdigit : c.isDigit = false := by
      rw [Bool.eq_false_iff]
      intro hdigit
      exact not_illegal_of_isDigit hdigit h
    rw [clear_of_illegal h, hdigit]
    rfl
  · rw [clear_of_legal h]

theorem toList_cleared (line : String) : (cleared line).toList = line.toList.map clear :=
  String.toList_ofList

/-- No column moves. -/
theorem length_cleared (line : String) : (cleared line).length = line.length := by
  rw [← String.length_toList, toList_cleared, List.length_map, String.length_toList]

end Line

open Line

/-- A word holds nothing that is replaced. -/
theorem Word.map_clear (w : Word) : w.chars.map clear = w.chars := by
  have hlegal : ∀ c ∈ w.chars, CharClass.of c ≠ .illegal := by
    intro c hc hillegal
    have hunused := Lexeme.uses_eq_false (Or.inr hillegal)
    rw [Word.uses_of_mem hc] at hunused
    cases hunused
  rw [List.map_congr_left fun c hc => clear_of_legal (hlegal c hc), List.map_id']

/-- What is cut out of a cleared text are the lexemes of the text, each at its old column. -/
theorem Cuts.cleared {column : Nat} {chars : List Char} {fs : List Finding}
    (h : Cuts column chars fs) : Cuts column (chars.map clear) ((lexemes fs).map .lexeme) := by
  -- By induction on the rules. All but the last keep their characters.
  induction h with
  | nil => exact .nil
  | @word column rest fs w hopen _ ih =>
      rw [List.map_append, w.map_clear, lexemes_lexeme, List.map_cons]
      refine .word w (fun hw c hc => ?_) ih
      -- The character behind the word is the image of one that does not prolong it.
      rw [List.head?_map, Option.mem_def, Option.map_eq_some_iff] at hc
      rcases hc with ⟨c', hc', rfl⟩
      rw [isDigit_clear]
      exact hopen hw c' hc'
  | @blank column ch rest fs hch _ ih =>
      have hlegal : CharClass.of ch ≠ .illegal := by
        rw [hch]
        decide
      rw [List.map_cons, clear_of_legal hlegal]
      exact .blank hch ih
  | @illegal column ch rest fs hch _ ih =>
      -- The rule for white space takes the place of the rule for illegal characters.
      rw [List.map_cons, clear_of_illegal hch, lexemes_illegal]
      exact .blank rfl ih

/-- A line with spaces in the place of its illegal characters has no illegal texts, and the
    same tokens at the same columns. The characters and the tokens are counted as before. A
    line that is too long to be scanned stays so. -/
theorem tokenize_cleared (line : String) :
    (line.length < Checked.limit → ∃ l l', tokenize line = .ok l ∧
      tokenize (cleared line) = .ok l' ∧ l'.errors = [] ∧ l'.tokens = l.tokens ∧
      l'.counts = ⟨l.counts.chars, l.counts.tokens, 0⟩) ∧
    (Checked.limit ≤ line.length → tokenize line = .error .additionOverflow ∧
      tokenize (cleared line) = .error .additionOverflow) := by
  have hsame := length_cleared line
  constructor
  · intro hlength
    rcases exists_cuts 0 line.toList with ⟨fs, hcuts⟩
    have hcuts' : Cuts 0 (cleared line).toList ((lexemes fs).map .lexeme) := by
      rw [toList_cleared]
      exact hcuts.cleared
    rcases hcuts.tokenize_lists hlength with ⟨l, hl, hlists⟩
    rcases hcuts'.tokenize_lists (by omega) with ⟨l', hl', hlists'⟩
    -- Both lines have the same lexemes, and the same length for the end marker.
    have hlexemes : l'.lexemes = l.lexemes := by
      rw [hlists'.lexemes, hlists.lexemes, lexemes_map_lexeme]
    have hmarker : l'.length = l.length := by
      rw [hlists'.length, hlists.length, hsame]
    refine ⟨l, l', hl, hl', ?_, ?_, ?_⟩
    · rw [hlists'.errors, illegals_map_lexeme]
    · rw [Lexed.tokens, Lexed.tokens, hlexemes, hmarker]
    · rw [hlists'.counts, hlists.counts, hsame, lexemes_map_lexeme, illegals_map_lexeme,
        List.length_nil]
  · intro hlength
    exact ⟨tokenize_overflows hlength, tokenize_overflows (by omega)⟩

/-- In `1é0+&03` an illegal character cuts a number in two, and another one stands between an
    operator and a `0`. The tokens of `1 0+ 03` are the same. A line of too many illegal
    characters is a line of too many spaces. -/
theorem tokenize_cleared_number :
    ("1é0+&03".length < Checked.limit ∧ cleared "1é0+&03" = "1 0+ 03" ∧
      ∃ l l', tokenize "1é0+&03" = .ok l ∧ tokenize "1 0+ 03" = .ok l' ∧
        l.errors = [⟨"é", 2⟩, ⟨"&", 5⟩] ∧ l'.errors = [] ∧ l'.tokens = l.tokens ∧
        l'.tokens = [.lexeme (.number "1" ⟨0, 1⟩), .lexeme (.number "0" ⟨2, 3⟩),
          .lexeme (.operator .plus 3), .lexeme (.number "0" ⟨5, 6⟩),
          .lexeme (.number "3" ⟨6, 7⟩), .endOfInput 7]) ∧
    tokenize (cleared (String.ofList (List.replicate Checked.limit '&'))) =
      .error .additionOverflow := by
  constructor
  · have hlength : "1é0+&03".length < Checked.limit := by decide
    have hcleared : cleared "1é0+&03" = "1 0+ 03" := by decide
    rcases (tokenize_cleared "1é0+&03").1 hlength with ⟨l, l', hl, hl', herrors, htokens, -⟩
    rw [hcleared] at hl'
    have hreported : (tokenize "1é0+&03").map Lexed.errors = .ok [⟨"é", 2⟩, ⟨"&", 5⟩] := rfl
    have hfound : (tokenize "1 0+ 03").map Lexed.tokens =
        .ok [.lexeme (.number "1" ⟨0, 1⟩), .lexeme (.number "0" ⟨2, 3⟩),
          .lexeme (.operator .plus 3), .lexeme (.number "0" ⟨5, 6⟩),
          .lexeme (.number "3" ⟨6, 7⟩), .endOfInput 7] := rfl
    rw [hl] at hreported
    rw [hl'] at hfound
    exact ⟨hlength, hcleared, l, l', hl, hl', Except.ok.inj hreported, herrors, htokens,
      Except.ok.inj hfound⟩
  · refine ((tokenize_cleared _).2 ?_).2
    rw [String.length_ofList, List.length_replicate]

end LineCalc
