import LineCalc.Proofs.Chronicle

/-!
# From the Scanner to the Parser

What the parser can rely on when it is given the tokens of a line.

The parser has two errors for tokens that no line leads to: a sequence that is not closed
has no first token to start at, and a number whose text is no number has no value. The
scanner never hears of either condition, but it meets both of them. It closes a line once,
at its end, and it takes nothing but digits into a number, even if an illegal character
ends that number early. So this does not depend on the line being free of illegal
characters, although only such a line gets as far as the parser.

What remains is the third error, a token in the wrong place. It is one of the tokens of
the line, and the parser has made a note of it.

## Main definitions

* `Grammar.Parsable`: What a parser expects of the tokens that it is given.

## Theorems

* `Grammar.Parsable.exists_factor`: A factor fails in front of no number.
* `Lexed.parsable`: The tokens of a line are what a parser expects.
* `Evaluation.unexpected_of_grammatical`: A line is rejected for a token that the parser has
  made a note of.
* `evaluate_handover`: No other error of the parser is the outcome of a line.
-/

namespace LineCalc

open Findings Grammar

namespace Grammar

section

variable {α : Type} [Arithmetic α] {ts : List Token}

variable (α) in
/-- What a parser expects of the tokens that it is given. -/
structure Parsable (ts : List Token) : Prop where
  closed : ∃ c, Cursor.ofTokens? ts = .ok c ∧ c.index = 0
  readable : ∀ text span, .lexeme (.number text span) ∈ ts →
    ∃ x : α, Arithmetic.literal? text = some x

/-- A factor fails in front of no number, wherever in the sequence that is. -/
theorem Parsable.exists_factor (h : Parsable α ts) {c : Cursor} (hc : c.IsIn ts) {text : String}
    {span : Span} (hpeek : c.peek = .lexeme (.number text span)) :
    ∃ x : α, (factor c).result = .ok (x, c.advance) := by
  have htoken := hc.getElem?_eq
  rw [hpeek] at htoken
  -- The number at the cursor is one of the sequence, and all of those can be read.
  rcases h.readable text span (List.mem_of_getElem? htoken) with ⟨x, hx⟩
  refine ⟨x, ?_⟩
  unfold factor
  simp only [Reading.result_bind, hpeek, hx]
  rfl

end

end Grammar

section

variable {line : String} {l : Lexed}

theorem Lexed.mem_tokens_iff {x : Lexeme} : .lexeme x ∈ l.tokens ↔ x ∈ l.lexemes := by
  simp [Lexed.tokens]

/-- Only the last token of a line is an end marker. -/
theorem Lexed.countP_tokens (l : Lexed) :
    l.tokens.countP (fun t => !t.isEnd) = l.tokens.length - 1 := by
  have hlexemes : (l.lexemes.map Token.lexeme).countP (fun t => !t.isEnd) =
      (l.lexemes.map Token.lexeme).length :=
    List.countP_eq_length.2 fun t ht => by rw [Cursor.isEnd_of_mem_map ht]; rfl
  rw [Lexed.tokens, List.countP_append, hlexemes, List.length_append]
  rfl

/-- The tokens of a line are what a parser expects, with or without illegal characters. -/
theorem Lexed.parsable (h : tokenize line = .ok l) : Parsable Float l.tokens :=
  ⟨⟨_, l.ofTokens?_tokens, rfl⟩,
    fun _ _ hx => exists_literal_of_tokenize h (Lexed.mem_tokens_iff.1 hx)⟩

/-- If a line is rejected for a token, this is the last thing that its journal tells. -/
theorem Evaluation.unexpected_of_grammatical (h : tokenize line = .ok l) {e : SyntaxError}
    (he : (ofLexed l).outcome = .error (.grammatical e)) :
    e.position ≤ l.tokens.countP (fun t => !t.isEnd) ∧
      ∃ t, l.tokens[e.position]? = some t ∧ e.token = t.text ∧
        (ofLexed l).journal.getLast? = some (.reading (.unexpected t e.position)) := by
  have hrecounts := recounts_ofLexed h
  rcases (hrecounts.unexpected_iff e.token e.position).2 he with ⟨t, htext, hlast⟩
  have htoken := hrecounts.unexpected_token t e.position hlast
  -- An index of some token is at most that of the end marker, which all the others precede.
  have hlt : e.position < l.tokens.length := (List.getElem?_eq_some_iff.1 htoken).1
  rw [l.countP_tokens]
  exact ⟨by omega, t, htoken, htext.symm, hlast⟩

end

/-- Whatever a line holds, its tokens can be given to the parser: there is a first token to
    start at, every number is made of digits, and wherever the parser comes to one it can read
    it. So if the line is rejected for a token, this is a token that does not fit where it
    stands, it is named by its index among the tokens and its own text, and the parser has made
    a note of it. -/
theorem evaluate_handover {line : String} (hlength : line.length < Checked.limit) :
    ∃ l c r, tokenize line = .ok l ∧ Cursor.ofTokens? l.tokens = .ok c ∧ c.index = 0 ∧
      (∀ text span, .lexeme (.number text span) ∈ l.tokens →
        text ≠ "" ∧ (∀ ch ∈ text.toList, '0' ≤ ch ∧ ch ≤ '9') ∧
          ∃ x : Float, Arithmetic.literal? text = some x) ∧
      (∀ d : Cursor, d.IsIn l.tokens → ∀ text span, d.peek = .lexeme (.number text span) →
        ∃ x : Float, (factor d).result = .ok (x, d.advance)) ∧
      Evaluation.run line = .ok r ∧ evaluate line = .ok r.outcome ∧
      ∀ e, r.outcome = .error (.grammatical e) →
        e.position ≤ l.tokens.countP (fun t => !t.isEnd) ∧
          ∃ t, l.tokens[e.position]? = some t ∧ e.token = t.text ∧
            r.journal.getLast? = some (.reading (.unexpected t e.position)) := by
  rcases tokenize_lists hlength with ⟨l, -, hl, -, -⟩
  have hparsable := Lexed.parsable hl
  rcases hparsable.closed with ⟨c, hc, hindex⟩
  refine ⟨l, c, Evaluation.ofLexed l, hl, hc, hindex, fun text span hx => ?_,
    fun d hd text span hpeek => hparsable.exists_factor hd hpeek, Evaluation.run_of_tokenize hl,
    evaluate_of_tokenize hl, fun e he => Evaluation.unexpected_of_grammatical hl he⟩
  rcases digits_of_tokenize hl (Lexed.mem_tokens_iff.1 hx) with ⟨ch, chs, rfl, hdigits⟩
  refine ⟨?_, fun x hmem => ?_, hparsable.readable _ span hx⟩
  · rw [ne_eq, ← String.toList_eq_nil_iff, String.toList_ofList]
    exact List.cons_ne_nil ch chs
  · rw [String.toList_ofList] at hmem
    exact CharClass.isDigit_iff_le.1 (hdigits x hmem)

/-- `5 +` is rejected for its end marker, which has the index `2`. -/
theorem evaluate_handover_incomplete :
    "5 +".length < Checked.limit ∧ ∃ l r, tokenize "5 +" = .ok l ∧
      Evaluation.run "5 +" = .ok r ∧ r.outcome = .error (.grammatical ⟨"eof", 2⟩) ∧
      2 ≤ l.tokens.countP (fun t => !t.isEnd) ∧ ∃ t, l.tokens[2]? = some t ∧ "eof" = t.text ∧
        r.journal.getLast? = some (.reading (.unexpected t 2)) := by
  have hlength : "5 +".length < Checked.limit := by decide
  rcases evaluate_handover hlength with ⟨l, c, r, hl, -, -, -, -, hrun, hevaluate, hrejected⟩
  have hread : (tokenize "5 +").map (fun l => (l.lexemes, l.errors)) =
      .ok ([.number "5" ⟨0, 1⟩, .operator .plus 2], []) := rfl
  rw [hl] at hread
  rcases Prod.mk.inj (Except.ok.inj hread) with ⟨hlexemes, herrors⟩
  have houtcome : r.outcome = .error (.grammatical ⟨"eof", 2⟩) := by
    rw [evaluate_of_tokenize hl, outcome_of_no_errors herrors, result_parse, hlexemes] at hevaluate
    exact (Except.ok.inj hevaluate).symm
  rcases hrejected _ houtcome with ⟨hposition, t, htoken, htext, hlast⟩
  exact ⟨hlength, l, r, hl, hrun, houtcome, hposition, t, htoken, htext, hlast⟩

end LineCalc
