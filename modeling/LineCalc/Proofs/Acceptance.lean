import LineCalc.Evaluation
import LineCalc.Proofs.Grammar.Procedures
import LineCalc.Proofs.Language
import LineCalc.Proofs.Scanner.Simulation

/-!
# Acceptance

Which lines have a value, and what is wrong with the others.

A line passes through two machines, and each decides a part of the question. The
scanner finds the lexemes by taking as many digits as it can, the parser looks at
the kinds of the lexemes and no longer at the characters. `Scans` says what the
first one hands to the second, and `Expression.language` what the two should
accept together, so the proof is one induction over the rules of `Scans`, with
the continuations of the language on one side and the continuations of the
parser on the other.

## Main definitions

* `Expression.Legal`: The characters that may occur in an expression.

## Theorems

* `Scans.mem_iff`: A line is an expression if nothing in it is illegal and its
  lexemes have the form of one.
* `exists_parse_of_evaluate`: Where the value of a line comes from.
* `evaluate_cases`: The outcome for a line that can be counted.
* `evaluate_outcome`: Which lines have which outcome.
-/

namespace LineCalc

open Findings Grammar

namespace Expression

/-- The characters that may occur in an expression. -/
def Legal (c : Char) : Prop :=
  '0' ≤ c ∧ c ≤ '9' ∨ c ∈ ['+', '-', '*', '/', ' ', '\t']

/-- The classes of characters divide what is legal into digits, signs and white space. -/
theorem legal_iff {c : Char} : Legal c ↔ CharClass.of c ≠ .illegal := by
  have hsigns : c ∈ ['+', '-', '*', '/', ' ', '\t'] ↔
      CharClass.of c = .operator ∨ CharClass.of c = .whitespace := by
    rw [CharClass.of_eq_operator_iff, CharClass.of_eq_whitespace_iff]
    simp only [List.mem_cons, List.not_mem_nil, or_false, or_assoc]
  rw [Legal, ← CharClass.isDigit_iff_le, CharClass.isDigit_iff, hsigns]
  cases CharClass.of c <;> decide

end Expression

section

variable {α : Type} {read : String → Option α} {stop : Nat} {input : List (Char × Nat)}
  {fs : List Finding}

theorem exists_operands?_number_iff {text : String} {span : Span} {i : Nat} {ls : List Lexeme}
    (hread : ∃ x, read text = some x) :
    (∃ y, operands? read i (.number text span :: ls) = .ok y) ↔
      ∃ ops, tail? read (i + 1) ls = .ok ops := by
  rcases hread with ⟨x, hx⟩
  simp only [operands?, hx]
  exact exists_map_eq_ok_iff

/-- A piece of a line continues an expression exactly if nothing in it is illegal and
    its lexemes continue one. -/
theorem Scans.mem_iff
    (hread : ∀ d ds, (∀ c ∈ d :: ds, Char.isDigit c = true) →
      ∃ x, read (String.ofList (d :: ds)) = some x)
    (h : Scans stop input fs) (i : Nat) :
    (input.map Prod.fst ∈ Expression.language ↔
        illegals fs = [] ∧ ∃ y, operands? read i (lexemes fs) = .ok y) ∧
      (input.map Prod.fst ∈ Expression.rest ↔
        illegals fs = [] ∧ ∃ ops, tail? read i (lexemes fs) = .ok ops) := by
  -- By induction on the rules of a scan, for every index. Each rule takes off what the language
  -- takes off.
  induction h generalizing i with
  | nil =>
      refine ⟨iff_of_false Expression.nil_not_mem_language ?_,
        iff_of_true Expression.nil_mem_rest ⟨rfl, [], rfl⟩⟩
      intro h
      rcases h with ⟨_, y, hy⟩
      cases hy
  | @number d column ds rest fs hd hds hrest _ ih =>
      have hdigits : ∀ c ∈ ds.map Prod.fst, c.isDigit = true := by
        intro c hc
        rcases List.mem_map.1 hc with ⟨p, hp, rfl⟩
        exact hds p hp
      have hhead : ∀ c ∈ (rest.map Prod.fst).head?, c.isDigit = false := by
        intro c hc
        rw [List.head?_map, Option.mem_map] at hc
        rcases hc with ⟨p, hp, rfl⟩
        exact hrest p hp
      have htext : ∀ c ∈ d :: ds.map Prod.fst, c.isDigit = true :=
        List.forall_mem_cons.2 ⟨CharClass.isDigit_iff.2 (Or.inr hd), hdigits⟩
      -- Both sides go on with what may follow a numeral.
      rw [List.map_cons, List.map_append, Expression.cons_mem_language_iff,
        Expression.cons_mem_rest_iff, Expression.append_mem_digits_mul_rest_iff hdigits hhead,
        hd, illegals_lexeme, lexemes_lexeme, exists_operands?_number_iff (hread _ _ htext),
        (ih (i + 1)).2]
      simp only [reduceCtorEq, false_and, true_and, false_or, or_false, tail?, exists_false,
        and_false, and_self]
  -- A `0` is a numeral by itself, and may be followed by whatever follows one.
  | @zero column rest fs _ ih =>
      have htext : ∀ c ∈ ['0'], c.isDigit = true := List.forall_mem_singleton.2 rfl
      rw [List.map_cons, Expression.cons_mem_language_iff, Expression.cons_mem_rest_iff,
        illegals_lexeme, lexemes_lexeme, exists_operands?_number_iff (hread _ _ htext),
        (ih (i + 1)).2]
      have hclass : CharClass.of '0' = .zero := rfl
      simp only [hclass, reduceCtorEq, false_and, true_and, or_false, tail?, exists_false,
        and_false, and_self]
  | @operator op column rest fs _ ih =>
      -- An operator turns a continuation into a whole expression.
      rw [List.map_cons, Expression.cons_mem_language_iff, Expression.cons_mem_rest_iff,
        Operator.of_char, illegals_lexeme, lexemes_lexeme, (ih (i + 1)).1, tail?,
        exists_map_eq_ok_iff]
      simp only [reduceCtorEq, false_and, true_and, or_false, operands?, exists_false, and_false,
        and_self]
  | @blank ch column rest fs hch _ ih =>
      rw [List.map_cons, Expression.cons_mem_language_iff, Expression.cons_mem_rest_iff, hch]
      simp only [reduceCtorEq, false_and, true_and, false_or]
      exact ih i
  -- No expression goes on with such a character.
  | @illegal ch column rest fs hch _ ih =>
      rw [List.map_cons, Expression.cons_mem_language_iff, Expression.cons_mem_rest_iff, hch,
        illegals_illegal]
      simp only [reduceCtorEq, false_and, or_false, and_self]

end

theorem evaluate_of_tokenize {line : String} {l : Lexed} (h : tokenize line = .ok l) :
    evaluate line = .ok (Evaluation.ofLexed l).outcome := by
  rw [evaluate, Evaluation.run, h]
  rfl

namespace Evaluation

/-- With illegal texts the tokens are not looked at. -/
theorem ofLexed_of_errors {l : Lexed} (h : l.errors ≠ []) :
    ofLexed l = ⟨l.journal.map .scanning, .error (.lexical l.errors)⟩ := by
  have hresult : l.result = .error l.errors := by
    rw [Lexed.result, List.isEmpty_eq_false_iff.2 h]
    rfl
  simp only [ofLexed, hresult]

/-- Without illegal texts the records of the parser follow those of the scanner. -/
theorem ofLexed_of_no_errors {l : Lexed} (h : l.errors = []) :
    ofLexed l = ⟨l.journal.map .scanning ++ (ofTokens l.tokens).journal,
      (ofTokens l.tokens).outcome⟩ := by
  have hresult : l.result = .ok l.tokens := by
    rw [Lexed.result, h]
    rfl
  simp only [ofLexed, hresult]

end Evaluation

/-- A scanned line has the one end marker that a cursor asks for. -/
theorem Lexed.ofTokens?_tokens (l : Lexed) :
    Cursor.ofTokens? l.tokens = .ok ⟨0, l.lexemes, l.length⟩ :=
  Cursor.ofTokens?_eq_ok_iff.2 ⟨rfl, rfl⟩

theorem outcome_of_errors {l : Lexed} (h : l.errors ≠ []) :
    (Evaluation.ofLexed l).outcome = .error (.lexical l.errors) := by
  rw [Evaluation.ofLexed_of_errors h]

/-- Without illegal texts the outcome is that of the parser. -/
theorem outcome_of_no_errors {l : Lexed} (h : l.errors = []) :
    (Evaluation.ofLexed l).outcome =
      (parse (α := Float) ⟨0, l.lexemes, l.length⟩).result.mapError .grammatical := by
  simp only [Evaluation.ofLexed_of_no_errors h, Evaluation.ofTokens, l.ofTokens?_tokens]
  cases (parse (α := Float) ⟨0, l.lexemes, l.length⟩).result <;> rfl

/-- Nothing but illegal texts leads to a lexical rejection. -/
theorem outcome_lexical_iff (l : Lexed) :
    (∃ es, (Evaluation.ofLexed l).outcome = .error (.lexical es)) ↔ l.errors ≠ [] := by
  refine ⟨fun h herrors => ?_, fun h => ⟨l.errors, outcome_of_errors h⟩⟩
  rcases h with ⟨es, hes⟩
  rw [outcome_of_no_errors herrors] at hes
  cases hparse : (parse (α := Float) ⟨0, l.lexemes, l.length⟩).result <;> rw [hparse] at hes <;>
    cases hes

/-- The value of a line is what the parser has computed from its lexemes. -/
theorem exists_parse_of_evaluate {line : String} {v : Float} (h : evaluate line = .ok (.ok v)) :
    ∃ l, tokenize line = .ok l ∧ l.errors = [] ∧
      (parse ⟨0, l.lexemes, l.length⟩).result = .ok v := by
  rcases Checked.bind_eq_ok_iff.1 h with ⟨_, hrun, -⟩
  rcases Checked.bind_eq_ok_iff.1 hrun with ⟨l, hl, -⟩
  rw [evaluate_of_tokenize hl, Except.ok.injEq] at h
  by_cases herrors : l.errors = []
  · rw [outcome_of_no_errors herrors] at h
    refine ⟨l, hl, herrors, ?_⟩
    cases hparse : (parse (α := Float) ⟨0, l.lexemes, l.length⟩).result <;> rw [hparse] at h <;>
      cases h
    rfl
  · rw [outcome_of_errors herrors] at h
    cases h

theorem exists_float_literal {d : Char} {ds : List Char}
    (h : ∀ c ∈ d :: ds, c.isDigit = true) :
    ∃ x : Float, Arithmetic.literal? (String.ofList (d :: ds)) = some x :=
  ⟨_, congrArg (Option.map Literal.toFloat) (Literal.read?_ofList h)⟩

/-- A line that can be counted is an expression, or holds an illegal character, or
    neither. -/
theorem evaluate_cases {line : String} (hlength : line.length < Checked.limit) :
    (line.toList ∈ Expression.language ∧ (∀ c ∈ line.toList, Expression.Legal c) ∧
        ∃ x, evaluate line = .ok (.ok x)) ∨
      (line.toList ∉ Expression.language ∧ (∃ c ∈ line.toList, ¬ Expression.Legal c) ∧
        ∃ es, evaluate line = .ok (.error (.lexical es))) ∨
      line.toList ∉ Expression.language ∧ (∀ c ∈ line.toList, Expression.Legal c) ∧
        ∃ e, evaluate line = .ok (.error (.grammatical e)) := by
  rcases tokenize_lists hlength with ⟨l, fs, hl, hscans, hlists⟩
  have hlanguage := (hscans.mem_iff (fun _ _ => exists_float_literal) 0).1
  have hlegal : illegals fs = [] ↔ ∀ c ∈ line.toList, Expression.Legal c := by
    conv_rhs => rw [← List.zipIdx_map_fst 0 line.toList]
    simp only [hscans.illegals_eq_nil_iff, List.forall_mem_map, Expression.legal_iff]
  rw [List.zipIdx_map_fst] at hlanguage
  rw [evaluate_of_tokenize hl]
  -- The scanner decides first.
  by_cases hillegals : illegals fs = []
  · -- The parser decides, and its form of an expression is that of the language.
    rw [outcome_of_no_errors (by rw [hlists.errors, hillegals]), result_parse, operandsAt?,
      hlists.lexemes]
    cases hops : operands? (Arithmetic.literal? (α := Float)) 0 (lexemes fs) with
    | ok p =>
        exact Or.inl ⟨hlanguage.2 ⟨hillegals, p, hops⟩, hlegal.1 hillegals, _, rfl⟩
    | error e =>
        refine Or.inr (Or.inr ⟨?_, hlegal.1 hillegals, e, rfl⟩)
        intro h
        rcases (hlanguage.1 h).2 with ⟨p, hp⟩
        rw [hops] at hp
        cases hp
  · have herrors : l.errors ≠ [] := by rwa [hlists.errors]
    refine Or.inr (Or.inl ⟨fun h => hillegals (hlanguage.1 h).1, ?_, l.errors, ?_⟩)
    · rw [hlegal] at hillegals
      push Not at hillegals
      exact hillegals
    · rw [outcome_of_errors herrors]

/-- A line has a value if it is an expression. It is rejected for its characters if
    it holds an illegal one, and for its tokens in every other case. Only a line
    whose characters cannot be counted has no outcome. -/
theorem evaluate_outcome (line : String) :
    ((∃ x, evaluate line = .ok (.ok x)) ↔
        line.length < Checked.limit ∧ line.toList ∈ Expression.language) ∧
      ((∃ es, evaluate line = .ok (.error (.lexical es))) ↔
        line.length < Checked.limit ∧ ∃ c ∈ line.toList, ¬ Expression.Legal c) ∧
      ((∃ e, evaluate line = .ok (.error (.grammatical e))) ↔
        line.length < Checked.limit ∧ line.toList ∉ Expression.language ∧
          ∀ c ∈ line.toList, Expression.Legal c) ∧
      ((∃ f, evaluate line = .error f) ↔ Checked.limit ≤ line.length) := by
  have hexists : (∃ c ∈ line.toList, ¬ Expression.Legal c) ↔
      ¬ ∀ c ∈ line.toList, Expression.Legal c := by
    push Not
    exact Iff.rfl
  rw [hexists, ← Nat.not_lt]
  by_cases hlength : line.length < Checked.limit
  · -- The outcome is known in each case, so every side of the statement is decided.
    rcases evaluate_cases hlength with
      ⟨hmem, hlegal, x, he⟩ | ⟨hmem, hillegal, es, he⟩ | ⟨hmem, hlegal, e, he⟩
    · have hall := eq_true hlegal
      simp only [he, hmem, hall, hlength, Except.ok.injEq, reduceCtorEq, exists_eq', exists_false,
        not_true, false_and, and_false, and_self]
    · have hall := eq_false (hexists.1 hillegal)
      simp only [he, hmem, hall, hlength, Except.ok.injEq, Except.error.injEq,
        Rejection.lexical.injEq, reduceCtorEq, exists_eq', exists_false, not_true,
        not_false_eq_true, and_false, and_self]
    · have hall := eq_true hlegal
      simp only [he, hmem, hall, hlength, Except.ok.injEq, Except.error.injEq,
        Rejection.grammatical.injEq, reduceCtorEq, exists_eq', exists_false, not_true,
        not_false_eq_true, and_false, and_self]
  · have he : evaluate line = .error .additionOverflow := by
      rw [evaluate, Evaluation.run, tokenize_overflows (Nat.not_lt.1 hlength)]
      rfl
    simp only [he, hlength, Except.error.injEq, reduceCtorEq, exists_eq', exists_false,
      not_false_eq_true, false_and, and_self]

end LineCalc
