import LineCalc.Proofs.IllegalCharacters
import LineCalc.Proofs.Transcripts
import Mathlib.Data.Nat.Find

/-!
# Pointing

Under which columns of a rejected line the carets stand.

A caret line is computed in two steps: a row of marks that reaches one column past the
line, and the row without the spaces at its end. If a mark is the last one, trimming
leaves the row up to it, whatever the width of the row was (`Caret.trimEnd_marking`).
So the caret line depends on the marked columns only, as long as there is one and all
of them are in the row.

Which columns are marked is then a question about spans. An illegal character has its
position behind it, and the span that is counted back from there is the column of the
character itself. A token that does not fit is looked up again by its index, in the
tokens that the parser has read. The end marker has an empty span, which marks the
column behind the line as if it had a character.

## Main definitions

* `Caret.isMarked`: The columns that get a caret because of some spans.
* `Caret.Points`: A text has carets under some columns, and nothing behind them.
* `Rejection.Blames`: The columns that a rejection is about.

## Theorems

* `Caret.trimEnd_marking`: What is left of a row of marks.
* `Caret.points_of_marked`: The caret line of some spans.
* `Rejection.isMarked_iff`: What a rejection points at is what it is about.
* `evalLine_points`: Carets stand under the columns that are to blame.
-/

namespace LineCalc

namespace Caret

/-- True of the columns that get a caret because of some spans. -/
def isMarked (spans : List Span) (column : Nat) : Bool :=
  spans.any (Span.marks · column)

/-- A text has carets under some columns, spaces under the others, and nothing behind the last
    caret. -/
structure Points (text : String) (marked : Nat → Prop) : Prop where
  caret_iff : ∀ column, text.toList[column]? = some '^' ↔ marked column
  caret_or_space : ∀ ch ∈ text.toList, ch = '^' ∨ ch = ' '
  ends : text.toList.getLast? = some '^'
  /-- The text is as long as its last caret demands. -/
  length_eq : ∃ last, marked last ∧ (∀ column, marked column → column ≤ last) ∧
    text.length = last + 1

section

variable {spans : List Span} {last : Nat}

/-- Trimming looks at the last character first. -/
theorem trimEnd_concat (text : List Char) (ch : Char) :
    trimEnd (text ++ [ch]) = if ch = ' ' then trimEnd text else text ++ [ch] := by
  rw [trimEnd, List.reverse_append, List.reverse_singleton, List.singleton_append,
    List.dropWhile_cons]
  by_cases hch : ch = ' '
  · rw [if_pos (decide_eq_true hch), if_pos hch, trimEnd]
  · rw [if_neg (by rwa [decide_eq_true_eq]), if_neg hch, List.reverse_cons, List.reverse_reverse]

theorem marking_succ (width : Nat) (spans : List Span) :
    marking (width + 1) spans =
      marking width spans ++ [if isMarked spans width then '^' else ' '] := by
  rw [marking, List.range_succ, List.map_append, List.map_singleton]
  rfl

theorem marking_last (hlast : isMarked spans last = true) :
    marking (last + 1) spans = marking last spans ++ ['^'] := by
  rw [marking_succ, if_pos hlast]

/-- Trimming ends at the last mark. By induction on the width of the row, from the column
    behind that mark on. -/
theorem trimEnd_marking (hlast : isMarked spans last = true)
    (hle : ∀ column, isMarked spans column = true → column ≤ last) {width : Nat}
    (hwidth : last < width) : trimEnd (marking width spans) = marking (last + 1) spans := by
  induction width with
  | zero => exact absurd hwidth (Nat.not_lt_zero _)
  | succ width ih =>
      by_cases hwide : last < width
      · have hspace : ¬ isMarked spans width = true := fun h => by
          have hcolumn := hle width h
          omega
        rw [marking_succ, if_neg hspace, trimEnd_concat, if_pos rfl]
        exact ih hwide
      · -- The row ends with the mark itself.
        have hwidth : width = last := by omega
        rw [hwidth, marking_last hlast, trimEnd_concat, if_neg (by decide)]

/-- A row has a caret where a column is marked. -/
theorem getElem?_marking_eq_caret_iff {width column : Nat} :
    (marking width spans)[column]? = some '^' ↔
      column < width ∧ isMarked spans column = true := by
  rw [marking, List.getElem?_map]
  by_cases hcolumn : column < width
  · rw [List.getElem?_range hcolumn]
    change some (if isMarked spans column then '^' else ' ') = some '^' ↔ _
    cases isMarked spans column <;> simp [hcolumn]
  · rw [List.getElem?_eq_none (by rw [List.length_range]; omega)]
    simp [hcolumn]

/-- The caret line of spans that mark some column of the row and none outside of it. -/
theorem points_of_marked {width : Nat} (hmarked : ∃ column, isMarked spans column = true)
    (hwidth : ∀ column, isMarked spans column = true → column < width) :
    Points (String.ofList (trimEnd (marking width spans))) (isMarked spans · = true) := by
  rcases hmarked with ⟨first, hfirst⟩
  -- There is a last mark, because there is one and none is outside of the row.
  have hbound := Nat.le_of_lt (hwidth first hfirst)
  have hlast := Nat.findGreatest_spec (P := (isMarked spans · = true)) hbound hfirst
  have hle : ∀ column, isMarked spans column = true →
      column ≤ Nat.findGreatest (isMarked spans · = true) width :=
    fun column h => Nat.le_findGreatest (Nat.le_of_lt (hwidth column h)) h
  generalize Nat.findGreatest (isMarked spans · = true) width = last at hlast hle
  rw [trimEnd_marking hlast hle (hwidth last hlast)]
  refine ⟨fun column => ?_, fun ch hch => ?_, ?_, last, hlast, hle, ?_⟩
  · rw [String.toList_ofList, getElem?_marking_eq_caret_iff, and_iff_right_iff_imp]
    exact fun h => Nat.lt_succ_of_le (hle column h)
  · rw [String.toList_ofList] at hch
    rcases List.mem_map.1 hch with ⟨column, -, rfl⟩
    exact ite_eq_or_eq _ _ _
  · rw [String.toList_ofList, marking_last hlast, List.getLast?_concat]
  · rw [String.length_ofList, marking, List.length_map, List.length_range]

end

/-- The same carets are asked for in another way. -/
theorem Points.congr {text : String} {marked marked' : Nat → Prop} (h : Points text marked)
    (hiff : ∀ column, marked column ↔ marked' column) : Points text marked' := by
  have heq : marked = marked' := funext fun column => propext (hiff column)
  exact heq ▸ h

end Caret

namespace Rejection

/-- The columns of a line that a rejection is about: those of the illegal characters, or those
    of the token that does not fit. The end marker stands for the column behind the line. -/
def Blames (chars : List Char) (tokens : List Token) (r : Rejection) (column : Nat) : Prop :=
  match r with
  | lexical _ => ∃ ch, chars[column]? = some ch ∧ ¬ Expression.Legal ch
  | grammatical e => ∃ t, tokens[e.position]? = some t ∧ t.text = e.token ∧
      if t.isEnd then column = chars.length else t.span.start ≤ column ∧ column < t.span.stop

end Rejection

section

variable {line : String} {l : Lexed} {r : Rejection}

/-- The illegal texts of a line are its illegal characters, with the position behind each. -/
theorem Lexed.errors_eq (h : tokenize line = .ok l) :
    l.errors = (Line.illegals line.toList).map fun c => ⟨c.1.toString, c.2 + 1⟩ := by
  rcases exists_cuts_of_tokenize h with ⟨fs, hcuts, hlists⟩
  have hscans : Scans line.length line.toList.zipIdx fs := hcuts.scans (Nat.zero_add _)
  rw [hlists.errors, hscans.illegals_eq, Line.illegals_eq]

theorem Line.mem_illegals_iff {chars : List Char} {ch : Char} {column : Nat} :
    (ch, column) ∈ Line.illegals chars ↔ chars[column]? = some ch ∧ ¬ Expression.Legal ch := by
  rw [Line.illegals, List.mem_filter, List.mem_zipIdx_iff_getElem?, decide_eq_true_eq]

theorem Span.marks_iff {s : Span} {column : Nat} :
    s.marks column = true ↔ s.start ≤ column ∧ column < max s.stop (s.start + 1) := by
  rw [Span.marks, decide_eq_true_eq]

/-- An illegal character has its position behind it, which leaves the column of the character
    when the one character is counted back. -/
theorem isMarked_lexical_iff (h : tokenize line = .ok l) {spans : List Span}
    (hfits : l.Fits line.length) (hspans : (Rejection.lexical l.errors).spans l.tokens = .ok spans)
    (column : Nat) : Caret.isMarked spans column = true ↔
      ∃ ch, line.toList[column]? = some ch ∧ ¬ Expression.Legal ch := by
  -- All texts are one character long, so one is counted back from each position.
  have hcolumns : (l.errors.map fun e => Span.mk (e.position - e.text.length) e.position) =
      (Line.illegals line.toList).map fun c => ⟨c.2, c.2 + 1⟩ := by
    rw [Lexed.errors_eq h, List.map_map]
    refine List.map_congr_left fun c _ => ?_
    have hlength : c.1.toString.length = 1 := String.length_singleton
    simp only [Function.comp, hlength, Nat.add_sub_cancel]
  rw [Rejection.spans_lexical hfits.position, hcolumns] at hspans
  cases hspans
  -- A span that is one column wide marks that column.
  simp only [Caret.isMarked, List.any_map, List.any_eq_true, Function.comp, Span.marks_iff,
    Nat.max_self, ← Line.mem_illegals_iff, Prod.exists]
  refine ⟨?_, ?_⟩
  · rintro ⟨ch, first, hmem, hle, hlt⟩
    have hfirst : first = column := by omega
    exact ⟨ch, hfirst ▸ hmem⟩
  · rintro ⟨ch, hmem⟩
    exact ⟨ch, column, hmem, Nat.le_refl _, Nat.lt_succ_self _⟩

/-- A token marks its own columns, and the end marker the column behind the line. -/
theorem Lexed.Fits.marks_token_iff (hfits : l.Fits line.length) {t : Token} (ht : t ∈ l.tokens)
    (column : Nat) : t.span.marks column = true ↔ if t.isEnd then column = line.toList.length
      else t.span.start ≤ column ∧ column < t.span.stop := by
  rw [Span.marks_iff]
  rcases List.mem_append.1 ht with ht | ht
  · rcases List.mem_map.1 ht with ⟨x, hx, rfl⟩
    have hspan := (hfits.span x hx).1
    have hstop : max x.span.stop (x.span.start + 1) = x.span.stop := Nat.max_eq_left hspan
    rw [Token.span, hstop]
    exact Iff.rfl
  · -- The span of the end marker is empty, and marks one column all the same.
    have hstop : max line.length (line.length + 1) = line.length + 1 :=
      Nat.max_eq_right (Nat.le_succ _)
    simp only [List.mem_singleton.1 ht, Token.span, Token.isEnd, if_true, String.length_toList,
      hfits.length_eq, hstop]
    omega

/-- What a rejection points at is what it is about. -/
theorem Rejection.isMarked_iff (h : tokenize line = .ok l) (hfits : l.Fits line.length)
    (hr : (Evaluation.ofLexed l).outcome = .error r) {spans : List Span}
    (hspans : r.spans l.tokens = .ok spans) (column : Nat) :
    Caret.isMarked spans column = true ↔ r.Blames line.toList l.tokens column := by
  rcases Evaluation.rejection_of_ofLexed hr with rfl | ⟨k, t, ht, rfl⟩
  · exact isMarked_lexical_iff h hfits hspans column
  · rw [Rejection.spans, ht] at hspans
    cases hspans
    have hmarks := hfits.marks_token_iff (List.mem_of_getElem? ht) column
    simp only [Caret.isMarked, List.any_cons, List.any_nil, Bool.or_false, Option.map_some,
      Option.toList_some, Rejection.Blames, ht, Option.some.injEq, exists_eq_left', true_and]
    exact hmarks

/-- It is about some column, and about none that is not in the line or next to it. -/
theorem Rejection.blames_bounds (h : tokenize line = .ok l) (hfits : l.Fits line.length)
    (hr : (Evaluation.ofLexed l).outcome = .error r) :
    (∃ column, r.Blames line.toList l.tokens column) ∧
      ∀ column, r.Blames line.toList l.tokens column → column < line.length + 1 := by
  rw [← String.length_toList]
  rcases Evaluation.rejection_of_ofLexed hr with rfl | ⟨k, t, ht, rfl⟩
  · refine ⟨?_, ?_⟩
    · have herrors := (outcome_lexical_iff l).1 ⟨_, hr⟩
      rw [Lexed.errors_eq h, ne_eq, List.map_eq_nil_iff] at herrors
      -- A line is rejected for its characters only if one of them is illegal.
      rcases List.exists_mem_of_ne_nil _ herrors with ⟨⟨ch, column⟩, hmem⟩
      exact ⟨column, ch, Line.mem_illegals_iff.1 hmem⟩
    · rintro column ⟨ch, hch, -⟩
      exact Nat.lt_succ_of_lt (List.getElem?_eq_some_iff.1 hch).1
  · have hmem := List.mem_of_getElem? ht
    have hmarks := hfits.marks_token_iff hmem
    have hspan := hfits.token_span hmem
    rw [← String.length_toList] at hspan
    -- A token is to blame in its first column at least, be it the end marker.
    refine ⟨⟨t.span.start, t, ht, rfl, (hmarks _).1 (Span.marks_iff.2 ⟨Nat.le_refl _, ?_⟩)⟩, ?_⟩
    · exact Nat.lt_of_lt_of_le (Nat.lt_succ_self _) (Nat.le_max_right _ _)
    · rintro column ⟨u, hu, -, hcolumn⟩
      rw [ht] at hu
      cases hu
      have hmarked := Span.marks_iff.1 ((hmarks column).2 hcolumn)
      omega

end

/-- Below a rejected line, the carets stand under the columns that are to blame for it: those of
    all its illegal characters, or those of the one token that does not fit, which is looked up
    among the tokens that were read. There is at least one caret, nothing stands behind the last
    one, and it is at most one column past the line. -/
theorem evalLine_points {line : String} {r : Rejection} (hlength : line.length + 1 < Checked.limit)
    (hr : evaluate line = .ok (.error r)) :
    ∃ l messages spans carets, tokenize line = .ok l ∧ r.messages = .ok messages ∧
      r.spans l.tokens = .ok spans ∧ Caret.line line spans = .ok carets ∧
      Session.evalLine line true =
        .ok ⟨1, Session.printed (line :: carets :: messages), ""⟩ ∧
      Caret.Points carets (r.Blames line.toList l.tokens) ∧ carets.length ≤ line.length + 1 := by
  rcases exists_fits (by omega : line.length < Checked.limit) with ⟨l, hl, hfits⟩
  rw [evaluate_of_tokenize hl] at hr
  have houtcome := Except.ok.inj hr
  rcases Session.evalLine_of_rejection hl hfits hlength houtcome with
    ⟨messages, spans, carets, hmessages, hspans, hcarets, hprinted⟩
  rcases Rejection.exists_spans hfits houtcome with ⟨spans', hspans', hforward⟩
  rw [hspans] at hspans'
  cases hspans'
  rw [Caret.line_eq hlength hforward] at hcarets
  have hiff := Rejection.isMarked_iff hl hfits houtcome hspans
  rcases Rejection.blames_bounds hl hfits houtcome with ⟨⟨first, hfirst⟩, hwidth⟩
  -- What a rejection is about is not empty and within the row, so the row has a last mark.
  have hpoints := Caret.points_of_marked ⟨first, (hiff first).2 hfirst⟩
    fun column h => hwidth column ((hiff column).1 h)
  rcases hpoints.length_eq with ⟨last, hlast, -, hcount⟩
  have hbound := hwidth last ((hiff last).1 hlast)
  cases hcarets
  exact ⟨l, messages, spans, _, hl, hmessages, hspans, Caret.line_eq hlength hforward,
    hprinted true, hpoints.congr hiff, by omega⟩

/-- In `7 12` the second number does not fit, and has a caret under each of its digits. -/
theorem evalLine_points_number :
    let r := Rejection.grammatical ⟨"12", 1⟩
    "7 12".length + 1 < Checked.limit ∧ evaluate "7 12" = .ok (.error r) ∧
      Session.evalLine "7 12" true =
        .ok ⟨1, "7 12\n  ^^\nSyntax error not allowed token: 12 at position 2\n", ""⟩ ∧
      ∃ l, tokenize "7 12" = .ok l ∧
        Caret.Points "  ^^" (r.Blames "7 12".toList l.tokens) := by
  intro r
  have hlength : "7 12".length + 1 < Checked.limit := by decide
  have hlexed : (tokenize "7 12").map (fun l => (l.lexemes, l.length, l.errors)) =
      .ok ([.number "7" ⟨0, 1⟩, .number "12" ⟨2, 4⟩], 4, []) := rfl
  rcases exists_fits (by omega : "7 12".length < Checked.limit) with ⟨l, hl, -⟩
  rw [hl] at hlexed
  rcases Prod.mk.inj (Except.ok.inj hlexed) with ⟨hlexemes, hrest⟩
  rcases Prod.mk.inj hrest with ⟨hmarker, herrors⟩
  have hr : evaluate "7 12" = .ok (.error r) := by
    rw [evaluate_of_tokenize hl, outcome_of_no_errors herrors, Grammar.result_parse, hlexemes]
    rfl
  rcases evalLine_points hlength hr with
    ⟨l', messages, spans, carets, hl', hmessages, hspans, hcarets, hprinted, hpoints, -⟩
  rw [hl] at hl'
  cases hl'
  have htokens : l.tokens = [.lexeme (.number "7" ⟨0, 1⟩), .lexeme (.number "12" ⟨2, 4⟩),
      .endOfInput 4] := by
    rw [Lexed.tokens, hlexemes, hmarker]
    rfl
  rw [htokens] at hspans
  cases hspans
  cases hmessages
  cases hcarets
  exact ⟨hlength, hr, hprinted, l, hl, hpoints⟩

end LineCalc
