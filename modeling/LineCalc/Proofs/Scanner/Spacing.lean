import LineCalc.Proofs.Scanner.Cuts
import Mathlib.Data.List.Chain

/-!
# Spacing

Writing words down and reading them again.

A line is written by putting words next to each other, with white space in front
of them, between them and behind them. White space can be left out nearly
everywhere, because an operator and a `0` end by themselves and an operator does
not prolong what stands before it. It is needed in one place, between a number
other than `0` and another number.

Where it is there, `Separated` holds, and the words are read as they were
written, each at the column where it was put. Where it is missing, the two
numbers are one word, and the same line can be written with fewer words. Joining
them may bring that word in touch with the next, so it goes on until nothing is
left to join, and `exists_separated` finds the words that the line really has.

## Main definitions

* `Gap`: White space, or none.
* `Spaced`: Words, each with the white space behind it.
* `Spaced.line`: The line of words with some white space in front of them.
* `Spaced.lexemes`: Where the words are put.
* `Spaced.Separated`: Numbers are kept apart.

## Theorems

* `Spaced.Separated.cuts`: A separated text is cut into its words.
* `Spaced.exists_separated`: A text that is not separated has fewer words.
* `Spaced.tokenize_spaced`: What is read from a line that was written.
-/

namespace LineCalc

/-- White space, or none. -/
structure Gap where
  chars : List Char
  blank : ∀ c ∈ chars, c = ' ' ∨ c = '\t'

/-- Words, each with the white space behind it. -/
abbrev Spaced : Type := List (Word × Gap)

namespace Spaced

/-- The characters of the words and of the white space behind them. -/
def chars : Spaced → List Char
  | [] => []
  | (w, g) :: ps => w.chars ++ (g.chars ++ chars ps)

/-- The lexemes that the words form, if the first word starts at a column. -/
def lexemes (column : Nat) : Spaced → List Lexeme
  | [] => []
  | (w, g) :: ps => w.place column :: lexemes (column + w.chars.length + g.chars.length) ps

/-- There is white space between a number other than `0` and a number behind it. -/
def Separated (ps : Spaced) : Prop :=
  ps.IsChain fun p q => p.1.isOpen = true → q.1.isNumber = true → p.2.chars ≠ []

instance (ps : Spaced) : Decidable (Separated ps) :=
  inferInstanceAs (Decidable (ps.IsChain _))

/-- The line of words with some white space in front of them. -/
def line (lead : Gap) (ps : Spaced) : String :=
  String.ofList (lead.chars ++ chars ps)

end Spaced

section

variable {column : Nat} {rest : List Char} {fs : List Finding}

theorem Gap.of_mem {g : Gap} {c : Char} (h : c ∈ g.chars) : CharClass.of c = .whitespace :=
  CharClass.of_eq_whitespace_iff.2 (g.blank c h)

/-- White space in front of a text only moves it to the right. -/
theorem Cuts.blanks {bs : List Char} (hbs : ∀ c ∈ bs, CharClass.of c = .whitespace)
    (h : Cuts (column + bs.length) rest fs) : Cuts column (bs ++ rest) fs := by
  induction bs generalizing column with
  | nil => exact h
  | cons b bs ih =>
      rw [add_length_cons] at h
      exact .blank (hbs b List.mem_cons_self) (ih (fun c hc => hbs c (List.mem_cons_of_mem b hc)) h)

end

namespace Spaced

variable {ps : Spaced}

/-- What follows an open word in a separated text does not prolong it. -/
theorem Separated.not_isDigit {w : Word} {g : Gap} (h : Separated ((w, g) :: ps))
    (hopen : w.isOpen = true) : ∀ c ∈ (g.chars ++ chars ps).head?, c.isDigit = false := by
  intro c hc
  -- What follows is the gap, unless it is empty, and then the next word.
  cases hg : g.chars with
  | cons b bs =>
      rw [hg] at hc
      cases hc
      have hblank : CharClass.of c = .whitespace :=
        Gap.of_mem (by rw [hg]; exact List.mem_cons_self)
      rw [Bool.eq_false_iff, ne_eq, CharClass.isDigit_iff, hblank]
      decide
  | nil =>
      cases ps with
      | nil =>
          rw [hg] at hc
          cases hc
      | cons q ps =>
          rw [hg] at hc
          rcases q with ⟨v, g'⟩
          -- Without a gap the next word is no number, and the other words begin with a sign.
          have hnumber : v.isNumber ≠ true :=
            fun hv => (List.isChain_cons_cons.1 h).1 hopen hv hg
          cases v with
          | zero => exact absurd rfl hnumber
          | numeral d ds hd hds => exact absurd rfl hnumber
          | operator op =>
              cases hc
              cases op <;> rfl

/-- A separated text is cut into its words. -/
theorem Separated.cuts (h : Separated ps) (column : Nat) :
    Cuts column (chars ps) ((lexemes column ps).map .lexeme) := by
  induction ps generalizing column with
  | nil => exact .nil
  | cons p ps ih =>
      exact .word p.1 h.not_isDigit (.blanks (fun c => Gap.of_mem) (ih (List.IsChain.tail h) _))

/-- Where a separator is missing, the text has fewer words. -/
theorem exists_merged (h : ¬ Separated ps) :
    ∃ qs : Spaced, chars qs = chars ps ∧ qs.length + 1 = ps.length := by
  -- By induction on the words, as far as the first two that should have been separated.
  induction ps with
  | nil => exact absurd .nil h
  | cons p ps ih =>
      cases ps with
      | nil => exact absurd (.singleton p) h
      | cons q ps =>
          rcases p with ⟨w, g⟩
          rcases q with ⟨v, g'⟩
          by_cases hpair : w.isOpen = true → v.isNumber = true → g.chars ≠ []
          · -- The first two are separated, so the fault lies behind them.
            rcases ih fun hps => h (List.isChain_cons_cons.2 ⟨hpair, hps⟩) with
              ⟨qs, hchars, hlength⟩
            refine ⟨(w, g) :: qs, ?_, ?_⟩
            · rw [chars, hchars, ← chars]
            · rw [List.length_cons, hlength, ← List.length_cons]
          · push Not at hpair
            rcases hpair with ⟨hopen, hnumber, hgap⟩
            -- The two numbers are one word, with the gap that was behind the second.
            rcases Word.exists_prolonged hopen (Word.isDigit_of_mem hnumber) with ⟨u, -, hu⟩
            refine ⟨(u, g') :: ps, ?_, rfl⟩
            rw [chars, chars, chars, hu, hgap, List.nil_append, List.append_assoc]

/-- Joining words until there is no fault left makes any text a separated one. -/
theorem exists_separated (ps : Spaced) (h : ¬ Separated ps) :
    ∃ qs, Separated qs ∧ chars qs = chars ps ∧ qs.length < ps.length := by
  rcases exists_merged h with ⟨qs, hchars, hlength⟩
  by_cases hqs : Separated qs
  · exact ⟨qs, hqs, hchars, by omega⟩
  · -- The joined word may touch the next one, but there are fewer words left.
    rcases exists_separated qs hqs with ⟨rs, hrs, hchars', hlength'⟩
    exact ⟨rs, hrs, hchars'.trans hchars, by omega⟩
termination_by ps.length
decreasing_by omega

/-- Every word is one lexeme. -/
theorem length_lexemes (column : Nat) (ps : Spaced) : (lexemes column ps).length = ps.length := by
  induction ps generalizing column with
  | nil => rfl
  | cons p ps ih => rw [lexemes, List.length_cons, List.length_cons, ih]

/-- What is read from a separated line is what was written. -/
theorem Separated.tokenize_line (h : Separated ps) (lead : Gap)
    (hlength : (line lead ps).length < Checked.limit) :
    ∃ l, tokenize (line lead ps) = .ok l ∧ l.errors = [] ∧ l.length = (line lead ps).length ∧
      l.lexemes = lexemes lead.chars.length ps := by
  -- The space in front of the first word is no part of any gap.
  have hcuts : Cuts 0 (line lead ps).toList ((lexemes lead.chars.length ps).map .lexeme) := by
    rw [line, String.toList_ofList]
    refine .blanks (fun c => Gap.of_mem) ?_
    rw [Nat.zero_add]
    exact h.cuts _
  rcases hcuts.tokenize_lists hlength with ⟨l, hl, hlists⟩
  refine ⟨l, hl, ?_, hlists.length, ?_⟩
  · rw [hlists.errors, Findings.illegals_map_lexeme]
  · rw [hlists.lexemes, Findings.lexemes_map_lexeme]

/-- Words are read as they were written if they are separated, and as fewer words if they
    are not. -/
theorem tokenize_spaced (lead : Gap) (ps : Spaced) :
    ((line lead ps).length < Checked.limit → ∃ l, tokenize (line lead ps) = .ok l ∧
      l.errors = [] ∧
      (Separated ps → l.tokens = (lexemes lead.chars.length ps).map .lexeme ++
        [.endOfInput (line lead ps).length]) ∧
      (¬ Separated ps → l.lexemes.length < ps.length)) ∧
    (Checked.limit ≤ (line lead ps).length →
      tokenize (line lead ps) = .error .additionOverflow) := by
  refine ⟨fun hlength => ?_, tokenize_overflows⟩
  by_cases hps : Separated ps
  · rcases hps.tokenize_line lead hlength with ⟨l, hl, herrors, hstop, hlexemes⟩
    refine ⟨l, hl, herrors, fun _ => ?_, fun hnot => absurd hps hnot⟩
    rw [Lexed.tokens, hlexemes, hstop]
  · -- The line of fewer, separated words is the same one.
    rcases exists_separated ps hps with ⟨qs, hqs, hchars, hfewer⟩
    have hline : line lead qs = line lead ps := by rw [line, line, hchars]
    rw [← hline] at hlength ⊢
    rcases hqs.tokenize_line lead hlength with ⟨l, hl, herrors, -, hlexemes⟩
    refine ⟨l, hl, herrors, fun h => absurd h hps, fun _ => ?_⟩
    rwa [hlexemes, length_lexemes]

/-- In ` 10 010+` the numbers are kept apart, in ` 100+` they are not, and a gap can be
    longer than any line that is read. -/
theorem tokenize_spaced_numbers :
    let blank : Gap := ⟨[' '], fun _ hc => Or.inl (List.mem_singleton.1 hc)⟩
    let none : Gap := ⟨[], fun _ hc => absurd hc List.not_mem_nil⟩
    let ten : Word := .numeral '1' ['0'] (by decide) (List.forall_mem_singleton.2 rfl)
    let apart : Spaced := [(ten, blank), (.zero, none), (ten, none), (.operator .plus, none)]
    let joined : Spaced := [(ten, none), (.zero, none), (.operator .plus, none)]
    let long : Gap :=
      ⟨List.replicate Checked.limit ' ', fun _ hc => Or.inl (List.eq_of_mem_replicate hc)⟩
    (Separated apart ∧ ∃ l, tokenize (line blank apart) = .ok l ∧
      l.tokens = [.lexeme (.number "10" ⟨1, 3⟩), .lexeme (.number "0" ⟨4, 5⟩),
        .lexeme (.number "10" ⟨5, 7⟩), .lexeme (.operator .plus 7), .endOfInput 8]) ∧
    (¬ Separated joined ∧ ∃ l, tokenize (line blank joined) = .ok l ∧ l.lexemes.length < 3) ∧
    tokenize (line long []) = .error .additionOverflow := by
  intro blank none ten apart joined long
  refine ⟨?_, ?_, ?_⟩
  · have hapart : Separated apart := by decide
    have hstop : (line blank apart).length = 8 := by decide
    rcases (tokenize_spaced blank apart).1 (by decide) with ⟨l, hl, -, htokens, -⟩
    rw [hstop] at htokens
    exact ⟨hapart, l, hl, htokens hapart⟩
  · have hjoined : ¬ Separated joined := by decide
    rcases (tokenize_spaced blank joined).1 (by decide) with ⟨l, hl, -, -, hfewer⟩
    exact ⟨hjoined, l, hl, hfewer hjoined⟩
  · refine (tokenize_spaced long []).2 ?_
    rw [line, String.length_ofList, chars, List.append_nil, List.length_replicate]

end Spaced

end LineCalc
