import LineCalc.Proofs.Scanner.Cuts

/-!
# Partition

How the tokens of a line divide it up.

A token reads what stands at its span and nothing else, the spans come in the
order of the line, and together they cover the digits and the signs, each of them
once. That leaves one question open, where two numbers meet without anything in
between. A number other than `0` takes all the digits that follow it, so the
first of the two can only be `0`.

Everything follows from `Cuts.exists_split`, which puts a lexeme back into its
line: there is a word, and there is a text on both sides of it. Only the order
and the covering are about several lexemes at once, and need inductions of their
own.

## Main definitions

* `Lexeme.covers`: The columns that a lexeme takes up.
* `Lexeme.uses`: The characters that lexemes are made of.
* `Lexeme.StandsIn`: A lexeme is a piece of a line.
* `Lexed.Partitions`: The tokens of a line divide it up.

## Theorems

* `Cuts.exists_split`: Every lexeme is a word that has been put in its place.
* `Cuts.pairwise`: Lexemes come in order and do not overlap.
* `Cuts.countP_covers`: Which columns are covered, and how often.
* `Cuts.not_isDigit_stop`, `Cuts.eq_zero_of_touching`: Numbers take all the
  digits they can.
* `tokenize_partitions`: The tokens of a line divide it up.
-/

namespace LineCalc

open Findings

namespace Lexeme

/-- True of the columns that a lexeme takes up. -/
def covers (column : Nat) (x : Lexeme) : Bool :=
  x.span.start ≤ column && column < x.span.stop

theorem covers_iff {column : Nat} {x : Lexeme} :
    x.covers column = true ↔ x.span.start ≤ column ∧ column < x.span.stop := by
  rw [covers, Bool.and_eq_true, decide_eq_true_eq, decide_eq_true_eq]

/-- True of the characters that lexemes are made of. -/
def uses (c : Char) : Bool :=
  c.isDigit || c ∈ ['+', '-', '*', '/']

theorem uses_of_isDigit {c : Char} (h : c.isDigit = true) : uses c = true := by
  rw [uses, h, Bool.true_or]

/-- Blanks and illegal characters are no part of a lexeme. -/
theorem uses_eq_false {c : Char} (h : CharClass.of c = .whitespace ∨ CharClass.of c = .illegal) :
    uses c = false := by
  -- The signs are given as a list here and as a class elsewhere.
  have hsign : c ∈ ['+', '-', '*', '/'] ↔ CharClass.of c = .operator := by
    rw [CharClass.of_eq_operator_iff]
    simp only [List.mem_cons, List.not_mem_nil, or_false]
  rw [Bool.eq_false_iff, ne_eq, uses, Bool.or_eq_true, decide_eq_true_eq, hsign,
    CharClass.isDigit_iff]
  rcases h with h | h <;> rw [h] <;> decide

/-- A lexeme is a piece of a line. It reads what stands at its span, and what it
    reads is `0`, or digits that do not start with `0`, or one operator. -/
structure StandsIn (x : Lexeme) (chars : List Char) : Prop where
  start_lt_stop : x.span.start < x.span.stop
  stop_le_length : x.span.stop ≤ chars.length
  text_eq : x.text.toList = chars.extract x.span.start x.span.stop
  form : match x with
    | .number text _ => text = "0" ∨ ∃ d ds, text = String.ofList (d :: ds) ∧
        ('1' ≤ d ∧ d ≤ '9') ∧ ∀ c ∈ ds, c.isDigit = true
    | .operator op column => x.span = ⟨column, column + 1⟩ ∧ chars[column]? = some op.char

end Lexeme

namespace Word

/-- A word that is put into a line stands in it. -/
theorem standsIn_place (w : Word) {pre post : List Char} :
    (w.place pre.length).StandsIn (pre ++ (w.chars ++ post)) := by
  refine ⟨?_, ?_, ?_, ?_⟩
  · have hpos := w.length_chars_pos
    rw [start_place, stop_place]
    omega
  · rw [stop_place, List.length_append, List.length_append]
    omega
  · rw [text_place, String.toList_ofList, start_place, stop_place, List.extract_eq_take_drop,
      List.drop_left, Nat.add_sub_cancel_left, List.take_left]
  · cases w with
    | zero => exact Or.inl rfl
    | numeral d ds hd hds => exact Or.inr ⟨d, ds, rfl, hd, hds⟩
    | operator op =>
        refine ⟨rfl, ?_⟩
        rw [List.getElem?_append_right (Nat.le_refl _), Nat.sub_self]
        rfl

end Word

section

variable {column : Nat} {chars : List Char} {fs : List Finding} {x y : Lexeme}

/-- Every lexeme is a word, put where it stands, and what follows does not prolong it. -/
theorem Cuts.exists_split (h : Cuts column chars fs) (hx : x ∈ lexemes fs) :
    ∃ pre w post, chars = pre ++ (w.chars ++ post) ∧ x = Word.place (column + pre.length) w ∧
      (w.isOpen = true → ∀ c ∈ post.head?, c.isDigit = false) := by
  -- By induction on the cuts. What has been cut away before goes in front of the lexeme.
  induction h with
  | nil => cases hx
  | @word column rest fs w hopen _ ih =>
      rw [lexemes_lexeme, List.mem_cons] at hx
      rcases hx with rfl | hx
      · exact ⟨[], w, rest, rfl, rfl, hopen⟩
      · rcases ih hx with ⟨pre, w', post, rfl, rfl, hopen'⟩
        refine ⟨w.chars ++ pre, w', post, (List.append_assoc _ _ _).symm, ?_, hopen'⟩
        rw [add_length_append]
  | @blank column ch rest fs _ _ ih =>
      rcases ih hx with ⟨pre, w, post, rfl, rfl, hopen⟩
      refine ⟨ch :: pre, w, post, rfl, ?_, hopen⟩
      rw [add_length_cons]
  | @illegal column ch rest fs _ _ ih =>
      rcases ih hx with ⟨pre, w, post, rfl, rfl, hopen⟩
      refine ⟨ch :: pre, w, post, rfl, ?_, hopen⟩
      rw [add_length_cons]

/-- No lexeme starts in front of the text that it is cut out of. -/
theorem Cuts.le_start (h : Cuts column chars fs) (hx : x ∈ lexemes fs) :
    column ≤ x.span.start := by
  rcases h.exists_split hx with ⟨pre, w, post, -, rfl, -⟩
  rw [Word.start_place]
  exact Nat.le_add_right _ _

/-- Lexemes come in the order in which they stand, and do not overlap. -/
theorem Cuts.pairwise (h : Cuts column chars fs) :
    (lexemes fs).Pairwise fun x y => x.span.start < y.span.start ∧ x.span.stop ≤ y.span.start := by
  induction h with
  | nil => exact .nil
  | @word column rest fs w _ hcuts ih =>
      rw [lexemes_lexeme, List.pairwise_cons]
      refine ⟨fun y hy => ?_, ih⟩
      -- A word takes up a column at least, and what comes behind it starts where it stops.
      have hpos := w.length_chars_pos
      have hle := hcuts.le_start hy
      rw [Word.start_place, Word.stop_place]
      omega
  | blank _ _ ih => exact ih
  | illegal _ _ ih => exact ih

/-- Every character of a word is one that lexemes are made of. -/
theorem Word.uses_of_mem {w : Word} {c : Char} (h : c ∈ w.chars) : Lexeme.uses c = true := by
  cases w with
  | zero => exact Lexeme.uses_of_isDigit (Word.isDigit_of_mem (w := .zero) rfl c h)
  | numeral d ds hd hds =>
      exact Lexeme.uses_of_isDigit (Word.isDigit_of_mem (w := .numeral d ds hd hds) rfl c h)
  | operator op =>
      rw [List.mem_singleton.1 h]
      cases op <;> rfl

/-- What is left of a text covers none of the columns in front of it. -/
theorem Cuts.countP_covers_eq_zero (h : Cuts column chars fs) {i : Nat} (hi : i < column) :
    (lexemes fs).countP (Lexeme.covers i) = 0 := by
  rw [List.countP_eq_zero]
  intro x hx hcovers
  have hle := h.le_start hx
  rw [Lexeme.covers_iff] at hcovers
  omega

/-- A character that is no part of a lexeme is not covered, and leaves the columns behind
    it as they are. -/
theorem Cuts.countP_covers_skip {ch : Char} (h : Cuts (column + 1) chars fs)
    (hch : Lexeme.uses ch = false)
    (hcovers : ∀ {i : Nat} {c : Char}, chars[i]? = some c →
      (lexemes fs).countP (Lexeme.covers (column + 1 + i)) = if Lexeme.uses c then 1 else 0)
    {i : Nat} {c : Char} (hc : (ch :: chars)[i]? = some c) :
    (lexemes fs).countP (Lexeme.covers (column + i)) = if Lexeme.uses c then 1 else 0 := by
  cases i with
  | zero =>
      cases hc
      rw [h.countP_covers_eq_zero (by omega), hch]
      rfl
  | succ i =>
      rw [List.getElem?_cons_succ] at hc
      rw [← hcovers hc, Nat.add_assoc, Nat.add_comm 1]

/-- A column is covered once if its character can be part of a lexeme, and never if it
    cannot. -/
theorem Cuts.countP_covers (h : Cuts column chars fs) {i : Nat} {c : Char}
    (hc : chars[i]? = some c) :
    (lexemes fs).countP (Lexeme.covers (column + i)) = if Lexeme.uses c then 1 else 0 := by
  induction h generalizing i c with
  | nil => cases hc
  | @word column rest fs w _ hcuts ih =>
      rw [lexemes_lexeme, List.countP_cons]
      by_cases hi : i < w.chars.length
      · -- The column lies in the word, so it lies in front of the rest.
        rw [List.getElem?_append_left hi] at hc
        have hcovers : (w.place column).covers (column + i) = true := by
          rw [Lexeme.covers_iff, Word.start_place, Word.stop_place]
          omega
        rw [hcuts.countP_covers_eq_zero (by omega), hcovers,
          Word.uses_of_mem (List.mem_of_getElem? hc)]
        rfl
      · -- The word ends in front of the column, which is one of the rest.
        rw [List.getElem?_append_right (Nat.not_lt.1 hi)] at hc
        have hcovers : (w.place column).covers (column + i) = false := by
          rw [Bool.eq_false_iff, ne_eq, Lexeme.covers_iff, Word.stop_place]
          omega
        have hcolumn : column + w.chars.length + (i - w.chars.length) = column + i := by omega
        rw [hcovers, ← ih hc, hcolumn]
        rfl
  -- The other two rules take a character away that no lexeme is made of.
  | blank hch hcuts ih =>
      exact hcuts.countP_covers_skip (Lexeme.uses_eq_false (Or.inl hch)) ih hc
  | illegal hch hcuts ih =>
      exact hcuts.countP_covers_skip (Lexeme.uses_eq_false (Or.inr hch)) ih hc

/-- A number other than `0` takes all the digits that follow it. -/
theorem Cuts.not_isDigit_stop {text : String} {span : Span} (h : Cuts 0 chars fs)
    (hx : .number text span ∈ lexemes fs) (htext : text ≠ "0") :
    ∀ c ∈ chars[span.stop]?, c.isDigit = false := by
  rcases h.exists_split hx with ⟨pre, w, post, rfl, hw, hopen⟩
  rw [Nat.zero_add] at hw
  -- The end of the span is where the rest of the line begins.
  have hstop : span.stop = (pre ++ w.chars).length := by
    rw [List.length_append, ← Word.stop_place w pre.length, ← hw]
    rfl
  rw [hstop, ← List.append_assoc, List.getElem?_append_right (Nat.le_refl _), Nat.sub_self,
    ← List.head?_eq_getElem?]
  cases w with
  | zero => exact absurd (Lexeme.number.inj hw).1 htext
  | numeral d ds hd hds => exact hopen rfl
  | operator op => cases hw

/-- So no number touches it. -/
theorem Cuts.eq_zero_of_touching {text text' : String} {span span' : Span} (h : Cuts 0 chars fs)
    (hx : .number text span ∈ lexemes fs) (hy : .number text' span' ∈ lexemes fs)
    (htouch : span.stop = span'.start) : text = "0" := by
  by_cases htext : text = "0"
  · exact htext
  exfalso
  have hstop := h.not_isDigit_stop hx htext
  rcases h.exists_split hy with ⟨pre, w, post, rfl, hw, -⟩
  rw [Nat.zero_add] at hw
  -- The second number begins at the column where the first one stops.
  have hstart : span'.start = pre.length := by
    rw [← Word.start_place w pre.length, ← hw]
    rfl
  have hnumber : w.isNumber = true := by
    cases w with
    | zero => rfl
    | numeral d ds hd hds => rfl
    | operator op => cases hw
  rw [htouch, hstart, List.getElem?_append_right (Nat.le_refl _), Nat.sub_self,
    ← List.head?_eq_getElem?] at hstop
  cases hchars : w.chars with
  | nil => exact w.chars_ne_nil hchars
  | cons c tail =>
      -- The number starts with a digit, where the other one has left none.
      have hdigit : c.isDigit = true :=
        Word.isDigit_of_mem hnumber c (by rw [hchars]; exact List.mem_cons_self)
      rw [hchars] at hstop
      rw [hstop c rfl] at hdigit
      cases hdigit

end

/-- How the tokens of a line divide it up. -/
structure Lexed.Partitions (l : Lexed) (chars : List Char) : Prop where
  /-- There is one end marker, and it comes last. -/
  marker : ∃ m : Token, l.tokens = l.lexemes.map .lexeme ++ [m] ∧ m.isEnd = true ∧
    m.span = ⟨chars.length, chars.length⟩ ∧ m.text = "eof"
  marker_unique : l.tokens.countP Token.isEnd = 1
  /-- Every other token reads a piece of the line. -/
  standsIn : ∀ x ∈ l.lexemes, x.StandsIn chars
  ordered : l.lexemes.Pairwise fun x y =>
    x.span.start < y.span.start ∧ x.span.stop ≤ y.span.start
  /-- The columns of digits and signs are covered once, the others are not. -/
  covered : ∀ i c, chars[i]? = some c →
    l.lexemes.countP (Lexeme.covers i) = if Lexeme.uses c then 1 else 0
  /-- A number that another one touches is `0`, because any other number takes all
      the digits that follow it. -/
  touching : ∀ text span text' span', .number text span ∈ l.lexemes →
    .number text' span' ∈ l.lexemes → span.stop = span'.start → text = "0"
  longest : ∀ text span, .number text span ∈ l.lexemes → text ≠ "0" →
    ∀ c ∈ chars[span.stop]?, c.isDigit = false
  counts : l.counts = ⟨chars.length, l.lexemes.length, l.errors.length⟩

/-- The tokens of a line divide it up. -/
theorem tokenize_partitions {line : String} (hlength : line.length < Checked.limit) :
    ∃ l, tokenize line = .ok l ∧ l.Partitions line.toList := by
  rcases exists_cuts 0 line.toList with ⟨fs, hcuts⟩
  rcases hcuts.tokenize_lists hlength with ⟨l, hl, hlists⟩
  rw [← String.length_toList] at hlists
  -- The end marker is the only token that is not a lexeme.
  have htokens : l.tokens = l.lexemes.map .lexeme ++ [.endOfInput line.toList.length] := by
    rw [Lexed.tokens, hlists.length]
  refine ⟨l, hl, ⟨_, htokens, rfl, rfl, rfl⟩, ?_, ?_, ?_, ?_, ?_, ?_, ?_⟩
  · have hlexemes : (l.lexemes.map Token.lexeme).countP Token.isEnd = 0 := by
      rw [List.countP_map, List.countP_eq_zero]
      exact fun x _ hend => by cases hend
    rw [htokens, List.countP_append, hlexemes]
    rfl
  all_goals rw [hlists.lexemes]
  · intro x hx
    rcases hcuts.exists_split hx with ⟨pre, w, post, hline, rfl, -⟩
    rw [hline, Nat.zero_add]
    exact w.standsIn_place
  · exact hcuts.pairwise
  · intro i c hc
    rw [← Nat.zero_add i]
    exact hcuts.countP_covers hc
  · exact fun _ _ _ _ => hcuts.eq_zero_of_touching
  · exact fun _ _ => hcuts.not_isDigit_stop
  · rw [hlists.counts, hlists.errors]

/-- In `10 03+` the `0` touches the `3`, and the other numbers stand apart. -/
theorem tokenize_partitions_adjacent :
    "10 03+".length < Checked.limit ∧ ∃ l, tokenize "10 03+" = .ok l ∧
      l.lexemes = [.number "10" ⟨0, 2⟩, .number "0" ⟨3, 4⟩, .number "3" ⟨4, 5⟩,
        .operator .plus 5] ∧ l.Partitions "10 03+".toList := by
  have hlength : "10 03+".length < Checked.limit := by decide
  rcases tokenize_partitions hlength with ⟨l, hl, hpartitions⟩
  have hlexemes : (tokenize "10 03+").map Lexed.lexemes = .ok [.number "10" ⟨0, 2⟩,
      .number "0" ⟨3, 4⟩, .number "3" ⟨4, 5⟩, .operator .plus 5] := rfl
  rw [hl] at hlexemes
  exact ⟨hlength, l, hl, Except.ok.inj hlexemes, hpartitions⟩

end LineCalc
