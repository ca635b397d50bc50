import LineCalc.Proofs.Acceptance
import LineCalc.Proofs.Grammar.Itinerary
import LineCalc.Proofs.Scanner.Partition

/-!
# A Single Pass

What the parser writes down while it reads a line.

The itinerary of an expression is known from its tokens, and the only thing that can
go wrong without a record is a number whose text cannot be read. There is none in a
line, because a scanner takes nothing else than digits into a number. So the parser's
part of the journal is made of calls and of one record at its end, which tells the
value of the expression or the token that does not fit.

## Main definitions

* `Evaluation.callText`: What is written down when a procedure is entered.
* `Evaluation.passing`: The records of some calls, and of what came after them.

## Theorems

* `digits_of_tokenize`, `exists_literal_of_tokenize`: The numbers of a line are made of
  digits, and can be read.
* `Evaluation.ofTokens_cases`: The records of the parser, for both outcomes.
* `evaluate_single_pass`: A line is read in a single pass.
-/

namespace LineCalc

open Findings Grammar

section

variable {line : String} {l : Lexed}

/-- The text of a number is made of digits, and there is at least one of them. -/
theorem digits_of_tokenize (h : tokenize line = .ok l) {text : String} {span : Span}
    (hx : .number text span ∈ l.lexemes) :
    ∃ d ds, text = String.ofList (d :: ds) ∧ ∀ c ∈ d :: ds, c.isDigit = true := by
  rcases exists_cuts_of_tokenize h with ⟨fs, hcuts, hlists⟩
  rw [hlists.lexemes] at hx
  rcases hcuts.exists_split hx with ⟨pre, w, -, -, hw, -⟩
  have htext : text = String.ofList w.chars := by
    rw [← w.text_place, ← hw]
    rfl
  -- An operator is a word, but not a number.
  have hnumber : w.isNumber = true := by
    cases w with
    | zero => rfl
    | numeral d ds hd hds => rfl
    | operator op => cases hw
  rcases List.exists_cons_of_ne_nil w.chars_ne_nil with ⟨d, ds, hchars⟩
  have hdigits := w.isDigit_of_mem hnumber
  rw [hchars] at htext hdigits
  exact ⟨d, ds, htext, hdigits⟩

/-- So it can be read. -/
theorem exists_literal_of_tokenize (h : tokenize line = .ok l) {text : String} {span : Span}
    (hx : .number text span ∈ l.lexemes) : ∃ x : Float, Arithmetic.literal? text = some x := by
  rcases digits_of_tokenize h hx with ⟨d, ds, rfl, hdigits⟩
  exact exists_float_literal hdigits

/-- The end marker is the last token. -/
theorem Lexed.isEndAt_last (l : Lexed) : isEndAt l.tokens (l.tokens.length - 1) = true := by
  have hmarker : l.tokens[l.tokens.length - 1]? = some (.endOfInput l.length) := by
    rw [← List.getLast?_eq_getElem?, Lexed.tokens, List.getLast?_concat]
  rw [isEndAt, hmarker]
  rfl

/-- What is written down when a procedure is entered at a token. -/
def Evaluation.callText : Procedure × Nat → String
  | (.expr, k) => s!"EXPR at {k}"
  | (.sumTail, k) => s!"ER at {k}"
  | (.term, k) => s!"TERM at {k}"
  | (.productTail, k) => s!"TR at {k}"
  | (.factor, k) => s!"FACTOR at {k}"

/-- The procedures write their own names, and each writes where it is entered. -/
theorem Evaluation.text_ofCall (c : Procedure × Nat) :
    Journal.Record.text (.reading (.ofCall c)) = .ok (callText c) := by
  rcases c with ⟨_ | _ | _ | _ | _, k⟩ <;> rfl

/-- The records of some calls, and of what came after them. -/
def Evaluation.passing (calls : List (Procedure × Nat)) (last : Journal.Record) :
    List Journal.Record :=
  calls.map (fun c => .reading (.ofCall c)) ++ [last]

/-- The parser enters its procedures one after the other, and ends with the value of the
    expression or with the token that does not fit. -/
theorem Evaluation.ofTokens_cases (h : tokenize line = .ok l) :
    (∃ n v, l.tokens.length = 2 * n ∧
        ofTokens l.tokens = ⟨passing (itinerary l.tokens n) (.value v), .ok v⟩) ∨
      ∃ k t, l.tokens[k]? = some t ∧
        ofTokens l.tokens = ⟨passing (itineraryTo l.tokens k) (.reading (.unexpected t k)),
          .error (.grammatical ⟨t.text, k⟩)⟩ := by
  have hcursor := l.ofTokens?_tokens
  rcases exists_journal_parse (α := Float) hcursor with ⟨records, hjournal, htraces⟩
  have hrange (n : Nat) : rounds l.tokens 0 n = (List.range n).flatMap (round l.tokens) := by
    rw [rounds, Nat.sub_zero, List.range_eq_range']
  simp only [ofTokens, hcursor, passing]
  -- The calls of an expression are all those of its rounds, and an error cuts the last round short.
  cases hparse : (parse (α := Float) ⟨0, l.lexemes, l.length⟩).result with
  | ok v =>
      rw [hparse] at htraces
      rcases htraces with ⟨n, -, hlength, rfl⟩
      refine Or.inl ⟨n, v, hlength, ?_⟩
      simp only [hjournal, hrange, itinerary, List.map_cons, List.map_map]
      rfl
  | error e =>
      rw [hparse] at htraces
      rcases htraces with ⟨t, ht, htext, -, rest, rfl, hrest⟩
      rcases hrest with rfl | ⟨-, text, span, rfl, hread⟩
      · refine Or.inr ⟨e.position, t, ht, ?_⟩
        simp only [hjournal, hrange, itineraryTo, itinerary, List.map_cons, List.map_append,
          List.map_map, List.cons_append, ← htext]
        rfl
      · -- A number of the line would have been read.
        have hx : Token.lexeme (.number text span) ∈ l.tokens := List.mem_of_getElem? ht
        have hlexeme : .number text span ∈ l.lexemes := by
          simpa [Lexed.tokens] using hx
        rcases exists_literal_of_tokenize h hlexeme with ⟨x, hliteral⟩
        rw [hread] at hliteral
        cases hliteral

end

/-- A line is read in a single pass. If it has no illegal characters, its journal goes on with
    the calls that its tokens ask for, operand by operand. They end at the end marker if the
    line has a value, and at the token that it is rejected for otherwise, and the last record
    tells which of the two it was. No call is at an earlier token than the one before it, no
    procedure is entered twice at one token, and the number of calls is linear in the number
    of tokens. -/
theorem evaluate_single_pass {line : String} (hlength : line.length < Checked.limit) :
    ∃ l, tokenize line = .ok l ∧ (l.errors = [] → ∃ calls last outcome,
      Evaluation.run line =
        .ok ⟨l.journal.map .scanning ++ Evaluation.passing calls last, outcome⟩ ∧
      calls.mapM (fun c => Journal.Record.text (.reading (.ofCall c))) =
        .ok (calls.map Evaluation.callText) ∧
      ((∃ n v, outcome = .ok v ∧ last = .value v ∧ l.tokens.length = 2 * n ∧
          calls = itinerary l.tokens n ∧ calls.getLast? = some (.sumTail, l.tokens.length - 1)) ∨
        ∃ k t, outcome = .error (.grammatical ⟨t.text, k⟩) ∧ last = .reading (.unexpected t k) ∧
          l.tokens[k]? = some t ∧ calls = itineraryTo l.tokens k ∧
          calls.getLast? = some (if k % 2 = 0 then .factor else .productTail, k)) ∧
      (calls.map Prod.snd).Pairwise (· ≤ ·) ∧ calls.Nodup ∧
      calls.length ≤ 2 * l.tokens.length + 3) := by
  rcases tokenize_lists hlength with ⟨l, -, hl, -, -⟩
  refine ⟨l, hl, fun herrors => ?_⟩
  have hrun : Evaluation.run line = .ok (Evaluation.ofLexed l) :=
    Checked.bind_eq_ok_iff.2 ⟨l, hl, rfl⟩
  have htexts (calls : List (Procedure × Nat)) :
      calls.mapM (fun c => Journal.Record.text (.reading (.ofCall c))) =
        .ok (calls.map Evaluation.callText) :=
    Checked.mapM_eq_ok fun c _ => Evaluation.text_ofCall c
  rw [hrun, Evaluation.ofLexed_of_no_errors herrors]
  rcases Evaluation.ofTokens_cases hl with ⟨n, v, hn, htokens⟩ | ⟨k, t, ht, htokens⟩
  · -- The line has a value, so all its rounds are complete.
    rcases orderly_of_sublist (itinerary_sublist l.tokens n) with ⟨hordered, hnodup, hcount⟩
    have hend := l.isEndAt_last
    rw [htokens]
    refine ⟨_, _, _, rfl, htexts _, Or.inl ⟨n, v, rfl, rfl, hn, rfl, ?_⟩, hordered, hnodup, ?_⟩
    · have hpos : 0 < l.tokens.length := by
        rw [Lexed.tokens, List.length_append]
        exact Nat.succ_pos _
      rw [hn] at hend ⊢
      exact getLast?_itinerary (by omega) hend
    · omega
  · rcases orderly_of_sublist (itineraryTo_sublist l.tokens k) with ⟨hordered, hnodup, hcount⟩
    -- The token that does not fit is one of the line, which bounds the number of rounds.
    have hlt : k < l.tokens.length := (List.getElem?_eq_some_iff.1 ht).1
    rw [htokens]
    exact ⟨_, _, _, rfl, htexts _,
      Or.inr ⟨k, t, rfl, rfl, ht, rfl, getLast?_itineraryTo l.tokens k⟩, hordered, hnodup,
      by omega⟩

/-- In `2-3` the tails of both products find no operator, so the tail of the sum is entered in
    front of the sign and in front of the end marker. In `2*3 4` the tail of the product meets a
    number, and nothing is entered after it. -/
theorem evaluate_single_pass_either :
    ("2-3".length < Checked.limit ∧ ∃ l calls, tokenize "2-3" = .ok l ∧ l.errors = [] ∧
      Evaluation.run "2-3" =
        .ok ⟨l.journal.map .scanning ++ Evaluation.passing calls (.value (-1.0)), .ok (-1.0)⟩ ∧
      calls.mapM (fun c => Journal.Record.text (.reading (.ofCall c))) =
        .ok ["EXPR at 0", "TERM at 0", "FACTOR at 0", "TR at 1", "ER at 1",
          "TERM at 2", "FACTOR at 2", "TR at 3", "ER at 3"]) ∧
    ("2*3 4".length < Checked.limit ∧ ∃ l calls, tokenize "2*3 4" = .ok l ∧ l.errors = [] ∧
      Evaluation.run "2*3 4" = .ok ⟨l.journal.map .scanning ++ Evaluation.passing calls
        (.reading (.unexpected (.lexeme (.number "4" ⟨4, 5⟩)) 3)),
        .error (.grammatical ⟨"4", 3⟩)⟩ ∧
      calls.mapM (fun c => Journal.Record.text (.reading (.ofCall c))) =
        .ok ["EXPR at 0", "TERM at 0", "FACTOR at 0", "TR at 1", "FACTOR at 2", "TR at 3"]) := by
  constructor
  · have hlength : "2-3".length < Checked.limit := by decide
    rcases evaluate_single_pass hlength with ⟨l, hl, hpass⟩
    have hlexed : (tokenize "2-3").map (fun l => (l.lexemes, l.length, l.errors)) =
        .ok ([.number "2" ⟨0, 1⟩, .operator .minus 1, .number "3" ⟨2, 3⟩], 3, []) := rfl
    rw [hl] at hlexed
    rcases Prod.mk.inj (Except.ok.inj hlexed) with ⟨hlexemes, hrest⟩
    rcases Prod.mk.inj hrest with ⟨hmarker, herrors⟩
    have htokens : l.tokens = [.lexeme (.number "2" ⟨0, 1⟩), .lexeme (.operator .minus 1),
        .lexeme (.number "3" ⟨2, 3⟩), .endOfInput 3] := by
      rw [Lexed.tokens, hlexemes, hmarker]
      rfl
    have hparse : ∃ v : Float, v = -1.0 ∧
        (parse (α := Float) ⟨0, l.lexemes, l.length⟩).result = .ok v := by
      rw [result_parse, hlexemes]
      refine ⟨_, ?_, rfl⟩
      decide +kernel
    rcases hparse with ⟨v, rfl, hparse⟩
    rcases hpass herrors with ⟨calls, last, outcome, hrun, htexts, hcases, -⟩
    have houtcome : outcome = .ok (-1.0) := by
      have hevaluate := evaluate_of_tokenize hl
      rw [evaluate, hrun, outcome_of_no_errors herrors, hparse] at hevaluate
      exact Except.ok.inj hevaluate
    -- The line has a value, so the calls are those of all its rounds.
    rcases hcases with ⟨n, v, hv, rfl, hn, rfl, -⟩ | ⟨k, t, ht, -⟩
    · have hrounds : n = 2 := by
        rw [htokens] at hn
        change 4 = 2 * n at hn
        omega
      rw [houtcome] at hv hrun
      cases hv
      rw [hrounds, htokens] at hrun htexts
      exact ⟨hlength, l, _, hl, herrors, hrun, htexts⟩
    · rw [ht] at houtcome
      cases houtcome
  · have hlength : "2*3 4".length < Checked.limit := by decide
    rcases evaluate_single_pass hlength with ⟨l, hl, hpass⟩
    have hlexed : (tokenize "2*3 4").map (fun l => (l.lexemes, l.length, l.errors)) =
        .ok ([.number "2" ⟨0, 1⟩, .operator .asterisk 1, .number "3" ⟨2, 3⟩, .number "4" ⟨4, 5⟩],
          5, []) := rfl
    rw [hl] at hlexed
    rcases Prod.mk.inj (Except.ok.inj hlexed) with ⟨hlexemes, hrest⟩
    rcases Prod.mk.inj hrest with ⟨hmarker, herrors⟩
    have htokens : l.tokens = [.lexeme (.number "2" ⟨0, 1⟩), .lexeme (.operator .asterisk 1),
        .lexeme (.number "3" ⟨2, 3⟩), .lexeme (.number "4" ⟨4, 5⟩), .endOfInput 5] := by
      rw [Lexed.tokens, hlexemes, hmarker]
      rfl
    have hparse : (parse (α := Float) ⟨0, l.lexemes, l.length⟩).result = .error ⟨"4", 3⟩ := by
      rw [result_parse, hlexemes]
      rfl
    rcases hpass herrors with ⟨calls, last, outcome, hrun, htexts, hcases, -⟩
    have houtcome : outcome = .error (.grammatical ⟨"4", 3⟩) := by
      have hevaluate := evaluate_of_tokenize hl
      rw [evaluate, hrun, outcome_of_no_errors herrors, hparse] at hevaluate
      exact Except.ok.inj hevaluate
    -- The line is rejected, so the calls are those up to the token that does not fit.
    rcases hcases with ⟨n, v, hv, -⟩ | ⟨k, t, ht, rfl, htoken, rfl, -⟩
    · rw [hv] at houtcome
      cases houtcome
    · rw [houtcome] at ht hrun
      have hk : k = 3 :=
        (SyntaxError.mk.inj (Rejection.grammatical.inj (Except.error.inj ht))).2.symm
      rw [hk, htokens] at htoken hrun htexts
      cases htoken
      exact ⟨hlength, l, _, hl, herrors, hrun, htexts⟩

end LineCalc
