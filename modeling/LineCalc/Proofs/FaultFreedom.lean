import LineCalc.Proofs.Acceptance
import LineCalc.Proofs.Caret
import LineCalc.Proofs.Grammar.Misfit
import LineCalc.Proofs.Grammar.Visits
import LineCalc.Proofs.Scanner.Partition
import LineCalc.Proofs.Scanner.Records

/-!
# Fault Freedom

A line whose length has a successor is evaluated without a fault, also when somebody
reads the journal.

Columns are added to and subtracted from all over the calculator, and each of these
steps is safe for a reason of its own: an illegal text has its position behind it, the
span of a lexeme runs forward and stays in its line, and no token has an index beyond
the length of the line. `Lexed.Fits` collects what has to be known about a line that
has been tokenized. Its journal then speaks of nothing but places in the line, and
people count these from one.

A line can be tokenized as soon as its length is a number. The successor is for the end
marker, which stands behind the last character: a record about it and a caret under it
count one column more than the line has.

## Main definitions

* `Lexed.Fits`: What has been found in a line has its place there.

## Theorems

* `Cuts.fits`: What is cut out of a line fits into it.
* `Evaluation.mem_journal`: What the records of an evaluation are about.
* `Journal.exists_lines`: A journal about places in a line can be shown.
* `Evaluation.rejection_of_ofLexed`: What a line can be rejected for.
* `evaluate_faultless`: A line is evaluated, and reported on, without a fault.
-/

namespace LineCalc

open Findings

/-- What has been found in a line of `length` characters has its place there. -/
structure Lexed.Fits (l : Lexed) (length : Nat) : Prop where
  span : ∀ x ∈ l.lexemes, x.span.start < x.span.stop ∧ x.span.stop ≤ length
  position : ∀ e ∈ l.errors, e.text.length ≤ e.position
  lexemes_length : l.lexemes.length ≤ length
  length_eq : l.length = length

/-- No finding is empty, so there are no more of them than characters. -/
theorem Cuts.length_le {column : Nat} {chars : List Char} {fs : List Finding}
    (h : Cuts column chars fs) : fs.length ≤ chars.length := by
  induction h with
  | nil => exact Nat.le_refl 0
  | word w _ _ ih =>
      have hpos := w.length_chars_pos
      rw [List.length_cons, List.length_append]
      omega
  | blank _ _ ih => exact Nat.le_succ_of_le ih
  | illegal _ _ ih => exact Nat.succ_le_succ ih

/-- An illegal text is behind the columns that its characters take. -/
theorem Cuts.position_illegals {column : Nat} {chars : List Char} {fs : List Finding}
    (h : Cuts column chars fs) : ∀ e ∈ illegals fs, e.text.length ≤ e.position := by
  induction h with
  | nil => exact fun e he => absurd he List.not_mem_nil
  | word _ _ _ ih => exact ih
  | blank _ _ ih => exact ih
  | @illegal column ch _ _ _ _ ih =>
      have hlength : ch.toString.length = 1 := String.length_singleton
      exact List.forall_mem_cons.2 ⟨hlength ▸ Nat.le_add_left 1 column, ih⟩

/-- What is cut out of a line fits into it. -/
theorem Cuts.fits {line : String} {fs : List Finding} {l : Lexed} (h : Cuts 0 line.toList fs)
    (hlists : l.Lists line.length line.length fs) : l.Fits line.length := by
  refine ⟨fun x hx => ?_, fun e he => ?_, ?_, hlists.length⟩
  · rw [hlists.lexemes] at hx
    -- A lexeme is a word of the line, which has text in front of it and behind it.
    rcases h.exists_split hx with ⟨pre, w, post, hline, rfl, -⟩
    have hpos := w.length_chars_pos
    have hlength := congrArg List.length hline
    rw [String.length_toList, List.length_append, List.length_append] at hlength
    rw [Word.start_place, Word.stop_place]
    omega
  · rw [hlists.errors] at he
    exact h.position_illegals e he
  · have hle := h.length_le
    have hfound := length_lexemes_add_length_illegals fs
    rw [String.length_toList] at hle
    rw [hlists.lexemes]
    omega

/-- A line that is not too long can be tokenized, and what is found fits into it. -/
theorem exists_fits {line : String} (hlength : line.length < Checked.limit) :
    ∃ l, tokenize line = .ok l ∧ l.Fits line.length := by
  rcases exists_cuts 0 line.toList with ⟨fs, hcuts⟩
  rcases hcuts.tokenize_lists hlength with ⟨l, hl, hlists⟩
  exact ⟨l, hl, hcuts.fits hlists⟩

section

variable {l : Lexed} {length : Nat}

/-- The end marker has its place behind the line. -/
theorem Lexed.Fits.token_span (h : l.Fits length) {t : Token} (ht : t ∈ l.tokens) :
    t.span.start ≤ t.span.stop ∧ t.span.stop ≤ length := by
  rcases List.mem_append.1 ht with ht | ht
  · rcases List.mem_map.1 ht with ⟨x, hx, rfl⟩
    exact ⟨Nat.le_of_lt (h.span x hx).1, (h.span x hx).2⟩
  · rw [List.mem_singleton.1 ht]
    exact ⟨Nat.le_refl _, Nat.le_of_eq h.length_eq⟩

theorem Lexed.Fits.tokens_length (h : l.Fits length) : l.tokens.length ≤ length + 1 := by
  have hle := h.lexemes_length
  rw [Lexed.tokens, List.length_append, List.length_map, List.length_singleton]
  omega

theorem Span.exists_display {s : Span} (h : s.start + 1 < Checked.limit) :
    ∃ text, s.display = .ok text :=
  ⟨_, Checked.bind_eq_ok_iff.2 ⟨_, Checked.succ_eq_ok_iff.2 ⟨h, rfl⟩, rfl⟩⟩

namespace Evaluation

theorem run_of_tokenize {line : String} (h : tokenize line = .ok l) :
    run line = .ok (ofLexed l) :=
  Checked.bind_eq_ok_iff.2 ⟨l, h, rfl⟩

/-- The records of reading an expression are about tokens of the line. The last one may tell
    the value. -/
theorem mem_journal_ofTokens {r : Journal.Record} (h : r ∈ (ofTokens l.tokens).journal) :
    (∃ x, x.IsAbout l.tokens ∧ r = .reading x) ∨ ∃ v, r = .value v := by
  have hvisits := Grammar.parse_visits (α := Float) (Cursor.isIn_of_ofTokens? l.ofTokens?_tokens)
  simp only [ofTokens, l.ofTokens?_tokens] at h
  -- A value adds one record to those of the grammar.
  cases hparse : (Grammar.parse (α := Float) ⟨0, l.lexemes, l.length⟩).result with
  | error e =>
      simp only [hparse] at h
      rcases List.mem_map.1 h with ⟨x, hx, rfl⟩
      exact Or.inl ⟨x, hvisits x hx, rfl⟩
  | ok v =>
      simp only [hparse] at h
      rcases List.mem_append.1 h with h | h
      · rcases List.mem_map.1 h with ⟨x, hx, rfl⟩
        exact Or.inl ⟨x, hvisits x hx, rfl⟩
      · exact Or.inr ⟨v, List.mem_singleton.1 h⟩

/-- A record of an evaluation is one of the scanner, or is about a token of the line, or tells
    the value. -/
theorem mem_journal {r : Journal.Record} (h : r ∈ (ofLexed l).journal) :
    (∃ x ∈ l.journal, r = .scanning x) ∨ (∃ x, x.IsAbout l.tokens ∧ r = .reading x) ∨
      ∃ v, r = .value v := by
  -- With illegal texts there are no records but those of the scanner.
  by_cases herrors : l.errors = []
  · rw [ofLexed_of_no_errors herrors] at h
    rcases List.mem_append.1 h with h | h
    · rcases List.mem_map.1 h with ⟨x, hx, rfl⟩
      exact Or.inl ⟨x, hx, rfl⟩
    · exact Or.inr (mem_journal_ofTokens h)
  · rw [ofLexed_of_errors herrors] at h
    rcases List.mem_map.1 h with ⟨x, hx, rfl⟩
    exact Or.inl ⟨x, hx, rfl⟩

/-- A line is rejected for all its illegal texts, or for one of its tokens. -/
theorem rejection_of_ofLexed {r : Rejection} (h : (ofLexed l).outcome = .error r) :
    r = .lexical l.errors ∨
      ∃ k t, l.tokens[k]? = some t ∧ r = .grammatical ⟨t.text, k⟩ := by
  by_cases herrors : l.errors = []
  · rw [outcome_of_no_errors herrors] at h
    cases hparse : (Grammar.parse (α := Float) ⟨0, l.lexemes, l.length⟩).result with
    | ok v =>
        rw [hparse] at h
        cases h
    | error e =>
        rcases (Grammar.parse_eq_error_iff l.ofTokens?_tokens).1 hparse with ⟨k, t, ⟨hk, -, -⟩, rfl⟩
        rw [hparse] at h
        cases h
        exact Or.inr ⟨k, t, hk, rfl⟩
  · rw [outcome_of_errors herrors] at h
    cases h
    exact Or.inl rfl

end Evaluation

namespace Journal

/-- A journal of evaluating a line that fits can be shown at every level. -/
theorem exists_lines {line : String} (hl : tokenize line = .ok l) (h : l.Fits length)
    (hlength : length + 1 < Checked.limit) (level : Level) :
    ∃ shown, lines level (Evaluation.ofLexed l).journal = .ok shown := by
  refine Checked.exists_mapM_eq_ok fun r hr => ?_
  -- Two kinds of records count columns: those of lexemes, and those of tokens that do not fit.
  have htext : ∃ text, r.text = .ok text := by
    rcases Evaluation.mem_journal (List.mem_of_mem_filter hr) with
      ⟨x, hx, rfl⟩ | ⟨x, hx, rfl⟩ | ⟨v, rfl⟩
    · cases x with
      | token lexeme =>
          rcases exists_cuts_of_tokenize hl with ⟨fs, -, hlists⟩
          have hspan := h.span lexeme (hlists.mem_lexemes hx)
          rcases Span.exists_display (s := lexeme.span) (by omega) with ⟨place, hplace⟩
          exact ⟨_, Checked.bind_eq_ok_iff.2 ⟨place, hplace, rfl⟩⟩
      | _ => exact ⟨_, rfl⟩
    · cases x with
      | entered procedure index => exact ⟨_, rfl⟩
      | unexpected token index =>
          have hspan := h.token_span (List.mem_of_getElem? hx)
          rcases Span.exists_display (s := token.span) (by omega) with ⟨place, hplace⟩
          exact ⟨_, Checked.bind_eq_ok_iff.2 ⟨place, hplace, rfl⟩⟩
    · exact ⟨_, rfl⟩
  rcases htext with ⟨text, htext⟩
  exact ⟨_, Checked.bind_eq_ok_iff.2 ⟨text, htext, rfl⟩⟩

end Journal

/-- A rejection of a line that fits can be put into words. -/
theorem Rejection.exists_messages {r : Rejection} (h : l.Fits length)
    (hlength : length + 1 < Checked.limit) (hr : (Evaluation.ofLexed l).outcome = .error r) :
    (∃ messages, r.messages = .ok messages) ∧ ∃ message, r.message = .ok message := by
  rcases Evaluation.rejection_of_ofLexed hr with rfl | ⟨k, t, hk, rfl⟩
  · exact ⟨⟨_, rfl⟩, _, rfl⟩
  · -- The end marker makes the tokens one more than the line has characters, at the most.
    have hlt : k < l.tokens.length := (List.getElem?_eq_some_iff.1 hk).1
    have hle := h.tokens_length
    have hplace : Checked.succ k = .ok (k + 1) := Checked.succ_eq_ok_iff.2 ⟨by omega, rfl⟩
    rw [messages, message, SyntaxError.message, hplace]
    exact ⟨⟨_, rfl⟩, _, rfl⟩

/-- What it points at runs forward. -/
theorem Rejection.exists_spans {r : Rejection} (h : l.Fits length)
    (hr : (Evaluation.ofLexed l).outcome = .error r) :
    ∃ spans, r.spans l.tokens = .ok spans ∧ ∀ s ∈ spans, s.start ≤ s.stop := by
  rcases Evaluation.rejection_of_ofLexed hr with rfl | ⟨k, t, hk, rfl⟩
  · refine ⟨_, spans_lexical h.position l.tokens, fun s hs => ?_⟩
    rcases List.mem_map.1 hs with ⟨e, -, rfl⟩
    exact Nat.sub_le _ _
  · refine ⟨[t.span], ?_, List.forall_mem_singleton.2 (h.token_span (List.mem_of_getElem? hk)).1⟩
    rw [spans, hk]
    rfl

end

/-- A line whose length has a successor is evaluated without a fault. The outcome is the same
    when its journal is shown, at either level. The records of the grammar are about tokens of
    the line, and a procedure looks at no other token than the one it was entered at. What the
    line is rejected for can be told in both forms, and pointed at with carets. -/
theorem evaluate_faultless {line : String} (hlength : line.length + 1 < Checked.limit) :
    ∃ l e, tokenize line = .ok l ∧ Evaluation.run line = .ok e ∧ evaluate line = .ok e.outcome ∧
      (∀ level, ∃ lines, trace level line = .ok (lines, e.outcome)) ∧
      (∀ r, .reading r ∈ e.journal → r.IsAbout l.tokens) ∧
      ∀ rejection, e.outcome = .error rejection →
        (∃ messages, rejection.messages = .ok messages) ∧
        (∃ message, rejection.message = .ok message) ∧
        ∃ spans carets, rejection.spans l.tokens = .ok spans ∧
          Caret.line line spans = .ok carets := by
  -- Everything follows from the line fitting: the text of its records, and that of its rejection.
  rcases exists_fits (by omega : line.length < Checked.limit) with ⟨l, hl, hfits⟩
  have hrun := Evaluation.run_of_tokenize hl
  refine ⟨l, Evaluation.ofLexed l, hl, hrun, evaluate_of_tokenize hl, fun level => ?_,
    fun r hr => ?_, fun rejection hr => ?_⟩
  · rcases Journal.exists_lines hl hfits hlength level with ⟨lines, hlines⟩
    exact ⟨lines, Checked.bind_eq_ok_iff.2 ⟨_, hrun, Checked.bind_eq_ok_iff.2 ⟨_, hlines, rfl⟩⟩⟩
  · rcases Evaluation.mem_journal hr with ⟨x, -, hx⟩ | ⟨x, habout, hx⟩ | ⟨v, hv⟩
    · cases hx
    · cases hx
      exact habout
    · cases hv
  · rcases Rejection.exists_messages hfits hlength hr with ⟨hmessages, hmessage⟩
    rcases Rejection.exists_spans hfits hr with ⟨spans, hspans, hforward⟩
    exact ⟨hmessages, hmessage, spans, _, hspans, Caret.line_eq hlength hforward⟩

/-- `5 +` is rejected for its end marker, which stands at the last column that a caret can
    point at. -/
theorem evaluate_faultless_unfinished :
    let rejection := Rejection.grammatical ⟨"eof", 2⟩
    "5 +".length + 1 < Checked.limit ∧ ∃ l, tokenize "5 +" = .ok l ∧
      evaluate "5 +" = .ok (.error rejection) ∧
      (∀ level, ∃ lines, trace level "5 +" = .ok (lines, .error rejection)) ∧
      (∃ messages, rejection.messages = .ok messages) ∧
      rejection.spans l.tokens = .ok [⟨3, 3⟩] ∧ Caret.line "5 +" [⟨3, 3⟩] = .ok "   ^" := by
  intro rejection
  have hlength : "5 +".length + 1 < Checked.limit := by decide
  rcases evaluate_faultless hlength with ⟨l, e, hl, hrun, hevaluate, htrace, -, hrejection⟩
  have hlexed : (tokenize "5 +").map (fun l => (l.lexemes, l.length, l.errors)) =
      .ok ([.number "5" ⟨0, 1⟩, .operator .plus 2], 3, []) := rfl
  rw [hl] at hlexed
  rcases Prod.mk.inj (Except.ok.inj hlexed) with ⟨hlexemes, hrest⟩
  rcases Prod.mk.inj hrest with ⟨hmarker, herrors⟩
  -- The two tokens before the end marker fit.
  have hparse : (Grammar.parse (α := Float) ⟨0, l.lexemes, l.length⟩).result =
      .error ⟨"eof", 2⟩ := by
    refine (Grammar.parse_eq_error_iff l.ofTokens?_tokens).2 ⟨2, .endOfInput 3, ?_, rfl⟩
    rw [Lexed.tokens, hlexemes, hmarker]
    refine ⟨rfl, rfl, ?_⟩
    rintro (_ | _ | j) hj u hu hmisfit
    · cases hu
      rcases hmisfit with h | h
      · cases h
      · exact absurd ((Grammar.float_literal?_eq_none_iff "5").1 h) (by decide)
    · cases hu
      cases hmisfit
    · omega
  have houtcome : e.outcome = .error rejection := by
    rw [evaluate_of_tokenize hl, outcome_of_no_errors herrors, hparse] at hevaluate
    exact (Except.ok.inj hevaluate).symm
  rw [houtcome] at hevaluate htrace
  have hspans : rejection.spans l.tokens = .ok [⟨3, 3⟩] := by
    rw [Lexed.tokens, hlexemes, hmarker]
    rfl
  exact ⟨hlength, l, hl, hevaluate, htrace, (hrejection rejection houtcome).1, hspans, rfl⟩

end LineCalc
