import LineCalc.Proofs.Scanner.Cuts

/-!
# Concatenation

Reading two lines as one.

Put one line behind another and each of them is read as it would be by itself,
the second one further to the right. What stands in the first line is of no
concern to the second, with one exception. A number other than `0` at the very
end of the first line is still open, and if the second line starts with a digit,
the number runs on. `RunsInto` says that this is so.

In that case the second line cannot be read by itself at all. Alone, `03` is two
numbers, but behind `1` it is a piece of `103`. So the digits at its start go to
the number, and what is left of the line is read behind them. It starts with no
digit, and the number stops there.

Both cases are of one form, the findings of one text followed by those of another
one that have been moved to the right. `Cuts.tokenize_shift` takes a scan of that
form apart, and everything before it is about cutting the two lines.

## Main definitions

* `Lexeme.shift`, `Token.shift`, `LexicalError.shift`: Moving to the right.
* `Lexeme.OpenAt`: A number that the digits behind it would prolong.
* `Lexeme.prolong`: A number with more digits.
* `RunsInto`: A number runs from one line into the next.
* `leadingDigits`, `afterDigits`: The digits at the start of a line, and the rest.

## Theorems

* `Cuts.shift`: A text is cut the same way wherever it starts.
* `Cuts.append`: Two texts are cut apart where they meet.
* `Cuts.append_digits`: Digits go to the open number in front of them.
* `tokenize_append`: The scan of two lines that are read as one.
-/

namespace LineCalc

open Findings

/-- A span that has been moved to the right. -/
def Span.shift (n : Nat) (s : Span) : Span :=
  ⟨s.start + n, s.stop + n⟩

/-- A lexeme that has been moved to the right. -/
def Lexeme.shift (n : Nat) : Lexeme → Lexeme
  | .number text span => .number text (span.shift n)
  | .operator op column => .operator op (column + n)

/-- A token that has been moved to the right. -/
def Token.shift (n : Nat) : Token → Token
  | .lexeme l => .lexeme (l.shift n)
  | .endOfInput length => .endOfInput (length + n)

/-- An illegal text that has been moved to the right. -/
def LexicalError.shift (n : Nat) (e : LexicalError) : LexicalError :=
  ⟨e.text, e.position + n⟩

/-- A finding that has been moved to the right. -/
def Finding.shift (n : Nat) : Finding → Finding
  | .lexeme l => .lexeme (l.shift n)
  | .illegal e => .illegal (e.shift n)

namespace Findings

theorem map_shift_eq (n : Nat) (fs : List Finding) : fs.map (Finding.shift n) =
    fs.map (Finding.map (Lexeme.shift n) (LexicalError.shift n)) :=
  List.map_congr_left fun f _ => by cases f <;> rfl

theorem lexemes_map_shift (n : Nat) (fs : List Finding) :
    lexemes (fs.map (Finding.shift n)) = (lexemes fs).map (Lexeme.shift n) := by
  rw [map_shift_eq, lexemes_map]

theorem illegals_map_shift (n : Nat) (fs : List Finding) :
    illegals (fs.map (Finding.shift n)) = (illegals fs).map (LexicalError.shift n) := by
  rw [map_shift_eq, illegals_map]

end Findings

/-- A number other than `0` stops at a column. -/
def Lexeme.OpenAt (stop : Nat) (x : Lexeme) : Prop :=
  ∃ text start, x = .number text ⟨start, stop⟩ ∧ text ≠ "0"

theorem Lexeme.OpenAt.stop_eq {stop : Nat} {x : Lexeme} (h : x.OpenAt stop) :
    x.span.stop = stop := by
  rcases h with ⟨text, start, rfl, -⟩
  rfl

/-- A number with more digits at its end. -/
def Lexeme.prolong (ds : List Char) : Lexeme → Lexeme
  | .number text span => .number (text ++ String.ofList ds) ⟨span.start, span.stop + ds.length⟩
  | .operator op column => .operator op column

namespace Word

/-- A word that is put further to the right is a lexeme that has been moved there. -/
theorem shift_place (w : Word) (column n : Nat) :
    (w.place column).shift n = w.place (column + n) := by
  cases w with
  | zero =>
      rw [place, place, Lexeme.shift, Span.shift, Nat.add_right_comm]
  | numeral d ds hd hds =>
      rw [place, place, Lexeme.shift, Span.shift, Nat.add_right_comm]
  | operator op => rfl

/-- An open word is a number that stops behind its last character. -/
theorem openAt_place {w : Word} (h : w.isOpen = true) (column : Nat) :
    (w.place column).OpenAt (column + w.chars.length) := by
  cases w with
  | zero => cases h
  | numeral d ds hd hds =>
      -- The first digit tells the number from `0`.
      refine ⟨_, _, rfl, fun hzero => ?_⟩
      have hchars : d :: ds = ['0'] := by
        rw [← String.toList_ofList (l := d :: ds), hzero]
        rfl
      cases hchars
      exact absurd hd.1 (by decide)
  | operator op => cases h

/-- No other word is one. -/
theorem isOpen_of_openAt {w : Word} {column stop : Nat} (h : (w.place column).OpenAt stop) :
    w.isOpen = true := by
  rcases h with ⟨text, start, hplace, htext⟩
  cases w with
  | zero => exact absurd (Lexeme.number.inj hplace).1.symm htext
  | numeral d ds hd hds => rfl
  | operator op => cases hplace

/-- Only numbers are open, and their text is all of their characters. -/
theorem place_of_isOpen {w : Word} (h : w.isOpen = true) (column : Nat) :
    w.place column = .number (String.ofList w.chars) ⟨column, column + w.chars.length⟩ := by
  cases w with
  | zero => cases h
  | numeral d ds hd hds => rfl
  | operator op => cases h

/-- An open word with more digits is prolonged by them. -/
theorem place_eq_prolong {w u : Word} {ds : List Char} (hw : w.isOpen = true)
    (hu : u.isOpen = true) (hchars : u.chars = w.chars ++ ds) (column : Nat) :
    u.place column = (w.place column).prolong ds := by
  rw [place_of_isOpen hw, place_of_isOpen hu, hchars, Lexeme.prolong, String.ofList_append,
    add_length_append]

end Word

section

variable {column : Nat} {chars a b : List Char} {fs fa fb : List Finding}

/-- A text holds the same findings wherever it starts, each as far to the right. -/
theorem Cuts.shift (h : Cuts column chars fs) (n : Nat) :
    Cuts (column + n) chars (fs.map (Finding.shift n)) := by
  -- By induction on the cuts. The column is a sum everywhere, and the shift only has to be brought
  -- to its end.
  induction h with
  | nil => exact .nil
  | @word column rest fs w hopen _ ih =>
      rw [List.map_cons, Finding.shift, w.shift_place]
      rw [Nat.add_right_comm] at ih
      exact .word w hopen ih
  | @blank column ch rest fs hch _ ih =>
      rw [Nat.add_right_comm] at ih
      exact .blank hch ih
  | @illegal column ch rest fs hch _ ih =>
      rw [List.map_cons, Finding.shift, LexicalError.shift, Nat.add_right_comm]
      rw [Nat.add_right_comm] at ih
      exact .illegal hch ih

/-- Two texts are cut apart where they meet, unless a number at the end of the first one
    goes on in the second. -/
theorem Cuts.append (ha : Cuts column a fa) (hb : Cuts (column + a.length) b fb)
    (hcut : (∃ c ∈ b.head?, c.isDigit = true) →
      ∀ x ∈ (lexemes fa).getLast?, ¬ x.OpenAt (column + a.length)) :
    Cuts column (a ++ b) (fa ++ fb) := by
  induction ha with
  | nil => exact hb
  | @word column rest fs w hopen hrest ih =>
      rw [add_length_append] at hb hcut
      rw [List.append_assoc, List.cons_append]
      refine .word w (fun hw c hc => ?_) (ih hb fun hdigit x hx => hcut hdigit x ?_)
      · cases rest with
        | nil =>
            -- The word is the last lexeme, and it stops where the second text starts.
            by_cases hdigit : c.isDigit = true
            · rw [hrest.eq_nil] at hcut
              exact absurd (Word.openAt_place hw column) (hcut ⟨c, hc, hdigit⟩ _ rfl)
            · exact Bool.eq_false_iff.2 hdigit
        | cons ch rest => exact hopen hw c hc
      · -- The last lexeme of the rest is the last one of all.
        rw [Option.mem_def] at hx ⊢
        rw [lexemes_lexeme, List.getLast?_cons, hx]
        rfl
  | @blank column ch rest fs hch _ ih =>
      rw [add_length_cons] at hb hcut
      exact .blank hch (ih hb hcut)
  | @illegal column ch rest fs hch _ ih =>
      rw [add_length_cons] at hb hcut
      exact .illegal hch (ih hb hcut)

/-- Digits behind an open word belong to it, up to the first character that is none. -/
theorem Cuts.prolonged {w : Word} {ds : List Char} (hw : w.isOpen = true)
    (hds : ∀ c ∈ ds, c.isDigit = true) (hhead : ∀ c ∈ b.head?, c.isDigit = false)
    (hb : Cuts (column + w.chars.length + ds.length) b fb) :
    Cuts column (w.chars ++ (ds ++ b)) (.lexeme ((w.place column).prolong ds) :: fb) := by
  rcases Word.exists_prolonged hw hds with ⟨u, hu, hchars⟩
  rw [← add_length_append, ← hchars] at hb
  rw [← List.append_assoc, ← hchars, ← Word.place_eq_prolong hw hu hchars]
  exact .word u (fun _ => hhead) hb

/-- A number at the end of a text takes the digits at the start of the next one, and
    what is behind them is cut as if the digits were not there. -/
theorem Cuts.append_digits {ds : List Char} {x : Lexeme} (ha : Cuts column a fa)
    (hx : x ∈ (lexemes fa).getLast?) (hopen : x.OpenAt (column + a.length))
    (hds : ∀ c ∈ ds, c.isDigit = true) (hhead : ∀ c ∈ b.head?, c.isDigit = false)
    (hb : Cuts (column + a.length + ds.length) b fb) :
    ∃ fs, fa = fs ++ [.lexeme x] ∧
      Cuts column (a ++ (ds ++ b)) (fs ++ .lexeme (x.prolong ds) :: fb) := by
  induction ha with
  | nil => cases hx
  | @word column rest fs w hw hrest ih =>
      rw [add_length_append] at hopen hb
      rw [lexemes_lexeme, Option.mem_def, List.getLast?_cons, Option.some.injEq] at hx
      cases hlast : (lexemes fs).getLast? with
      | none =>
          -- The word is the last lexeme, and it stops where the text stops.
          rw [hlast, Option.getD_none] at hx
          subst hx
          have hrest' : rest = [] := by
            have hstop := hopen.stop_eq
            rw [Word.stop_place] at hstop
            exact List.eq_nil_of_length_eq_zero (by omega)
          subst hrest'
          rw [hrest.eq_nil, List.append_nil]
          exact ⟨[], rfl, .prolonged (Word.isOpen_of_openAt hopen) hds hhead hb⟩
      | some y =>
          -- The number comes behind the word, so the rest is not empty and the word ends as
          -- it did.
          rw [hlast, Option.getD_some] at hx
          subst hx
          rcases ih hlast hopen hb with ⟨gs, hfs, hcuts⟩
          refine ⟨.lexeme (w.place column) :: gs, by rw [hfs]; rfl, ?_⟩
          rw [List.append_assoc]
          refine .word w (fun hisOpen c hc => ?_) hcuts
          cases rest with
          | nil =>
              rw [hrest.eq_nil] at hlast
              cases hlast
          | cons ch rest => exact hw hisOpen c hc
  | @blank column ch rest fs hch _ ih =>
      rw [add_length_cons] at hopen hb
      rcases ih hx hopen hb with ⟨fs, rfl, hcuts⟩
      exact ⟨fs, rfl, .blank hch hcuts⟩
  | @illegal column ch rest fs hch _ ih =>
      rw [add_length_cons] at hopen hb
      rcases ih hx hopen hb with ⟨fs, rfl, hcuts⟩
      exact ⟨_ :: fs, rfl, .illegal hch hcuts⟩

end

/-- What is cut out of a line up to some column and, behind it, out of another line makes
    a scan that goes on with the scan of that other line. -/
theorem Cuts.tokenize_shift {line next : String} {n : Nat} {fs gs : List Finding}
    (h : Cuts 0 line.toList (fs ++ gs.map (Finding.shift n))) (hnext : Cuts 0 next.toList gs)
    (hlength : line.length = n + next.length) (hlimit : line.length < Checked.limit) :
    ∃ l r, tokenize line = .ok l ∧ tokenize next = .ok r ∧
      l.tokens = (lexemes fs).map .lexeme ++ r.tokens.map (Token.shift n) ∧
      l.errors = illegals fs ++ r.errors.map (LexicalError.shift n) ∧
      l.counts = ⟨n + r.counts.chars, (lexemes fs).length + r.counts.tokens,
        (illegals fs).length + r.counts.errors⟩ := by
  rcases h.tokenize_lists hlimit with ⟨l, hl, hlists⟩
  rcases hnext.tokenize_lists (by omega) with ⟨r, hr, hrlists⟩
  refine ⟨l, r, hl, hr, ?_, ?_, ?_⟩
  · -- The end marker moves along with the lexemes, to the end of the whole line.
    have htokens : r.tokens.map (Token.shift n) =
        (r.lexemes.map (Lexeme.shift n)).map .lexeme ++ [.endOfInput line.length] := by
      rw [Lexed.tokens, List.map_append, List.map_map, List.map_map, hrlists.length, hlength,
        Nat.add_comm]
      rfl
    rw [htokens, Lexed.tokens, hlists.lexemes, hlists.length, lexemes_append, lexemes_map_shift,
      List.map_append, List.append_assoc, hrlists.lexemes]
  · rw [hlists.errors, hrlists.errors, illegals_append, illegals_map_shift]
  · rw [hlists.counts, hrlists.counts, hlength, lexemes_append, illegals_append,
      lexemes_map_shift, illegals_map_shift, List.length_append, List.length_append,
      List.length_map, List.length_map]

/-- The last of some lexemes is a number other than `0` that stops at the end of a line,
    and the next line goes on with a digit. -/
def RunsInto (ls : List Lexeme) (line next : String) : Prop :=
  (∃ x ∈ ls.getLast?, x.OpenAt line.length) ∧ ∃ c ∈ next.toList.head?, c.isDigit = true

/-- The digits at the start of a line. -/
def leadingDigits (line : String) : List Char :=
  line.toList.takeWhile Char.isDigit

/-- What comes behind the digits at the start of a line. -/
def afterDigits (line : String) : String :=
  String.ofList (line.toList.dropWhile Char.isDigit)

theorem leadingDigits_append (line : String) :
    leadingDigits line ++ (afterDigits line).toList = line.toList := by
  rw [leadingDigits, afterDigits, String.toList_ofList, List.takeWhile_append_dropWhile]

theorem length_leadingDigits (line : String) :
    (leadingDigits line).length + (afterDigits line).length = line.length := by
  rw [← String.length_toList (s := afterDigits line), ← List.length_append,
    leadingDigits_append, String.length_toList]

theorem isDigit_of_mem_leadingDigits (line : String) :
    ∀ c ∈ leadingDigits line, c.isDigit = true :=
  List.all_eq_true.1 List.all_takeWhile

/-- What is left of a line behind its first digits begins with something else. -/
theorem not_isDigit_afterDigits (line : String) :
    ∀ c ∈ (afterDigits line).toList.head?, c.isDigit = false := by
  intro c hc
  rw [afterDigits, String.toList_ofList] at hc
  have hnot := List.head?_dropWhile_not Char.isDigit line.toList
  rw [Option.mem_def.1 hc] at hnot
  exact hnot

section

variable {a b : String} {fa fb : List Finding}

/-- Where no number runs from one line into the next, the two are cut one after the other. -/
theorem Cuts.append_shift (ha : Cuts 0 a.toList fa) (hb : Cuts 0 b.toList fb)
    (hrun : ¬ RunsInto (lexemes fa) a b) :
    Cuts 0 (a ++ b).toList (fa ++ fb.map (Finding.shift a.length)) := by
  have hstop : 0 + a.toList.length = 0 + a.length := by rw [String.length_toList]
  rw [String.toList_append]
  refine ha.append ?_ fun hdigit x hx hopen => hrun ⟨⟨x, hx, ?_⟩, hdigit⟩
  · rw [hstop]
    exact hb.shift a.length
  · rwa [hstop, Nat.zero_add] at hopen

/-- A number that runs from one line into the next takes the digits there, and what is left
    of the line is cut behind them. -/
theorem Cuts.append_afterDigits (ha : Cuts 0 a.toList fa) (hb : Cuts 0 (afterDigits b).toList fb)
    (hrun : RunsInto (lexemes fa) a b) :
    ∃ fs x, fa = fs ++ [.lexeme x] ∧ Cuts 0 (a ++ b).toList
      (fs ++ [.lexeme (x.prolong (leadingDigits b))] ++
        fb.map (Finding.shift (a.length + (leadingDigits b).length))) := by
  rcases hrun with ⟨⟨x, hx, hopen⟩, -⟩
  have hstop : 0 + a.toList.length = a.length := by rw [Nat.zero_add, String.length_toList]
  have hshift := hb.shift (a.length + (leadingDigits b).length)
  rw [Nat.zero_add] at hshift
  rcases ha.append_digits hx (by rwa [hstop]) (isDigit_of_mem_leadingDigits b)
    (not_isDigit_afterDigits b) (by rwa [hstop]) with ⟨fs, hfa, hcuts⟩
  -- The two lines are the same text as the first line, the digits and what is left.
  refine ⟨fs, x, hfa, ?_⟩
  rw [String.toList_append, ← leadingDigits_append b, ← List.append_cons]
  exact hcuts

/-- The scan of two lines, one behind the other, is put together from scans of its parts.
    If no number runs from the first line into the second, these are the scans of the two
    lines. If there is such a number, it takes the digits at the start of the second line,
    and the second scan is that of what is left. -/
theorem tokenize_append (hlength : (a ++ b).length < Checked.limit) :
    ∃ la lb l, tokenize a = .ok la ∧ tokenize b = .ok lb ∧ tokenize (a ++ b) = .ok l ∧
      (¬ RunsInto la.lexemes a b →
        l.tokens = la.lexemes.map .lexeme ++ lb.tokens.map (Token.shift a.length) ∧
        l.errors = la.errors ++ lb.errors.map (LexicalError.shift a.length) ∧
        l.counts = ⟨la.counts.chars + lb.counts.chars, la.counts.tokens + lb.counts.tokens,
          la.counts.errors + lb.counts.errors⟩) ∧
      (RunsInto la.lexemes a b → ∃ ls x r, la.lexemes = ls ++ [x] ∧
        tokenize (afterDigits b) = .ok r ∧
        l.tokens = ls.map .lexeme ++ .lexeme (x.prolong (leadingDigits b)) ::
          r.tokens.map (Token.shift (a.length + (leadingDigits b).length)) ∧
        l.errors = la.errors ++
          r.errors.map (LexicalError.shift (a.length + (leadingDigits b).length)) ∧
        l.counts = ⟨a.length + (leadingDigits b).length + r.counts.chars,
          la.counts.tokens + r.counts.tokens, la.counts.errors + r.counts.errors⟩) := by
  have hsum : (a ++ b).length = a.length + b.length := String.length_append a b
  rcases exists_cuts 0 a.toList with ⟨fa, ha⟩
  rcases exists_cuts 0 b.toList with ⟨fb, hb⟩
  rcases ha.tokenize_lists (by omega) with ⟨la, hla, hlists⟩
  by_cases hrun : RunsInto la.lexemes a b
  · -- The findings of the second line are of no use here, they may divide the digits
    -- in another way.
    rcases hb.tokenize_lists (by omega) with ⟨lb, hlb, -⟩
    rcases exists_cuts 0 (afterDigits b).toList with ⟨fr, hr⟩
    rcases ha.append_afterDigits hr (by rwa [← hlists.lexemes]) with ⟨fs, x, hfa, hcuts⟩
    have hdigits := length_leadingDigits b
    rcases hcuts.tokenize_shift hr (by omega) hlength with
      ⟨l, r, hl, hr', htokens, herrors, hcounts⟩
    refine ⟨la, lb, l, hla, hlb, hl, fun h => absurd hrun h, fun _ =>
      ⟨lexemes fs, x, r, ?_, hr', ?_, ?_, ?_⟩⟩
    · rw [hlists.lexemes, hfa, lexemes_concat]
    · rw [htokens, lexemes_concat, List.map_append, List.append_assoc]
      rfl
    · rw [herrors, hlists.errors, hfa, illegals_concat, illegals_concat]
    · rw [hcounts, hlists.counts, hfa, lexemes_concat, lexemes_concat, illegals_concat,
        illegals_concat, List.length_append, List.length_append]
      rfl
  · rcases (ha.append_shift hb (by rwa [← hlists.lexemes])).tokenize_shift hb hsum hlength with
      ⟨l, lb, hl, hlb, htokens, herrors, hcounts⟩
    refine ⟨la, lb, l, hla, hlb, hl, fun _ => ⟨?_, ?_, ?_⟩, fun h => absurd h hrun⟩
    · rw [htokens, hlists.lexemes]
    · rw [herrors, hlists.errors]
    · rw [hcounts, hlists.counts]

end

/-- The `1` at the end of `2 1` takes the digits of `03+`, the `0` at its start does not
    stand alone. Behind `2 0` it does. -/
theorem tokenize_append_numbers :
    ("2 1" ++ "03+").length < Checked.limit ∧ ("2 0" ++ "03+").length < Checked.limit ∧
    (∃ la l, tokenize "2 1" = .ok la ∧ RunsInto la.lexemes "2 1" "03+" ∧
      tokenize ("2 1" ++ "03+") = .ok l ∧
      l.tokens = [.lexeme (.number "2" ⟨0, 1⟩), .lexeme (.number "103" ⟨2, 5⟩),
        .lexeme (.operator .plus 5), .endOfInput 6]) ∧
    ∃ la l, tokenize "2 0" = .ok la ∧ ¬ RunsInto la.lexemes "2 0" "03+" ∧
      tokenize ("2 0" ++ "03+") = .ok l ∧
      l.tokens = [.lexeme (.number "2" ⟨0, 1⟩), .lexeme (.number "0" ⟨2, 3⟩),
        .lexeme (.number "0" ⟨3, 4⟩), .lexeme (.number "3" ⟨4, 5⟩),
        .lexeme (.operator .plus 5), .endOfInput 6] := by
  have hone : ("2 1" ++ "03+").length < Checked.limit := by decide
  have hzero : ("2 0" ++ "03+").length < Checked.limit := by decide
  have htokens : (tokenize "03+").map Lexed.tokens = .ok [.lexeme (.number "0" ⟨0, 1⟩),
      .lexeme (.number "3" ⟨1, 2⟩), .lexeme (.operator .plus 2), .endOfInput 3] := rfl
  have hrest : (tokenize (afterDigits "03+")).map Lexed.tokens =
      .ok [.lexeme (.operator .plus 0), .endOfInput 1] := rfl
  -- Both parts of the second line are known, the whole of it and what is left behind its digits.
  refine ⟨hone, hzero, ?_, ?_⟩
  · have hlexemes : (tokenize "2 1").map Lexed.lexemes =
        .ok ([.number "2" ⟨0, 1⟩] ++ [.number "1" ⟨2, 3⟩]) := rfl
    rcases tokenize_append hone with ⟨la, lb, l, hla, -, hl, -, hjoined⟩
    rw [hla] at hlexemes
    have hruns : RunsInto la.lexemes "2 1" "03+" := by
      rw [Except.ok.inj hlexemes]
      exact ⟨⟨_, rfl, _, _, rfl, by decide⟩, '0', rfl, rfl⟩
    rcases hjoined hruns with ⟨ls, x, r, hls, hr, hltokens, -⟩
    rw [hr] at hrest
    rw [Except.ok.inj hlexemes] at hls
    rcases List.append_inj' hls rfl with ⟨rfl, hx⟩
    cases hx
    rw [Except.ok.inj hrest] at hltokens
    exact ⟨la, l, hla, hruns, hl, hltokens⟩
  · have hlexemes : (tokenize "2 0").map Lexed.lexemes =
        .ok [.number "2" ⟨0, 1⟩, .number "0" ⟨2, 3⟩] := rfl
    rcases tokenize_append hzero with ⟨la, lb, l, hla, hlb, hl, hapart, -⟩
    rw [hla] at hlexemes
    have hruns : ¬ RunsInto la.lexemes "2 0" "03+" := by
      rw [Except.ok.inj hlexemes]
      rintro ⟨⟨x, hx, text, start, rfl, htext⟩, -⟩
      cases hx
      exact htext rfl
    have hltokens := (hapart hruns).1
    rw [hlb] at htokens
    rw [Except.ok.inj hlexemes, Except.ok.inj htokens] at hltokens
    exact ⟨la, l, hla, hruns, hl, hltokens⟩

end LineCalc
