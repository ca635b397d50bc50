import LineCalc.Proofs.Acceptance

/-!
# Illegal Characters

What a line is rejected for before anyone looks at its tokens.

A scanner could report an illegal text in two places, when it completes a text
and when it drops a character. Nothing in the rules of `Scans` stems from the
first, so a report is about one character, and each illegal character has its
own. `Scans.illegals_eq` says so without any word about lexemes: the reports are
the illegal characters of the input. Whatever else a line holds, even if it could
not be read as an expression, has no influence on them.

## Main definitions

* `Line.illegals`: The illegal characters of a line, with their columns.

## Theorems

* `Scans.illegals_eq`: The illegal texts of a scan are the illegal characters of
  its input.
* `Line.pairwise_illegals`: They come in the order of their columns.
* `rejects_illegals`: What a line is rejected for.
-/

namespace LineCalc

open Findings

instance : DecidablePred Expression.Legal :=
  fun c => inferInstanceAs (Decidable ('0' ≤ c ∧ c ≤ '9' ∨ c ∈ ['+', '-', '*', '/', ' ', '\t']))

section

variable {stop : Nat} {input : List (Char × Nat)} {fs : List Finding}

theorem filter_illegal_cons {ch : Char} (h : CharClass.of ch ≠ .illegal) (column : Nat) :
    ((ch, column) :: input).filter (fun c => CharClass.of c.1 = .illegal) =
      input.filter fun c => CharClass.of c.1 = .illegal :=
  List.filter_cons_of_neg (by rwa [decide_eq_true_eq])

/-- The illegal texts among the findings are the illegal characters of the input. -/
theorem Scans.illegals_eq (h : Scans stop input fs) :
    illegals fs = (input.filter fun c => CharClass.of c.1 = .illegal).map
      fun c => ⟨c.1.toString, c.2 + 1⟩ := by
  -- Every rule but the last takes legal characters away, and reports nothing.
  induction h with
  | nil => rfl
  | @number d column ds rest fs hd hds _ _ ih =>
      have hdigits : (ds.filter fun c => CharClass.of c.1 = .illegal) = [] := by
        rw [List.filter_eq_nil_iff]
        intro c hc hillegal
        exact not_illegal_of_isDigit (hds c hc) (of_decide_eq_true hillegal)
      rw [illegals_lexeme, ih, filter_illegal_cons (by rw [hd]; decide), List.filter_append,
        hdigits, List.nil_append]
  | zero _ ih => rw [illegals_lexeme, ih, filter_illegal_cons (by decide)]
  | operator _ ih =>
      rw [illegals_lexeme, ih, filter_illegal_cons (by rw [Operator.of_char]; decide)]
  | blank hch _ ih => rw [ih, filter_illegal_cons (by rw [hch]; decide)]
  -- The one rule that adds a report takes its character away.
  | illegal hch _ ih =>
      rw [illegals_illegal, ih, List.filter_cons, if_pos (decide_eq_true hch), List.map_cons]

end

namespace Line

/-- The illegal characters of a line, with their columns. -/
def illegals (line : List Char) : List (Char × Nat) :=
  line.zipIdx.filter fun c => ¬ Expression.Legal c.1

/-- To be illegal is to be in the class of what is left over. -/
theorem illegals_eq (line : List Char) :
    illegals line = line.zipIdx.filter fun c => CharClass.of c.1 = .illegal := by
  refine List.filter_congr fun c _ => decide_eq_decide.2 ?_
  rw [Expression.legal_iff, not_not]

/-- The illegal characters come in the order of their columns. -/
theorem pairwise_illegals (line : List Char) :
    (illegals line).Pairwise fun a b => a.2 < b.2 := by
  have hcolumns : (line.zipIdx.map Prod.snd).Pairwise (· < ·) := by
    rw [List.zipIdx_map_snd]
    exact List.pairwise_lt_range'
  exact (List.pairwise_map.1 hcolumns).filter _

end Line

/-- A line is rejected for its illegal characters, if it holds any. There is one
    report for each of them, in order, and nothing else that the line holds matters.
    Only a line whose characters cannot be counted is not looked at. -/
theorem rejects_illegals (line : String) :
    (line.length < Checked.limit → ∃ l, tokenize line = .ok l ∧
      l.errors = (Line.illegals line.toList).map (fun c => ⟨c.1.toString, c.2 + 1⟩) ∧
      (l.errors ≠ [] → evaluate line = .ok (.error (.lexical l.errors))) ∧
      (Rejection.lexical l.errors).messages = .ok ((Line.illegals line.toList).map fun c =>
        s!"Lexical Error at position {c.2 + 1} illegal character: {c.1}") ∧
      (l.errors.map LexicalError.position).Pairwise (· < ·)) ∧
    (Checked.limit ≤ line.length → tokenize line = .error .additionOverflow ∧
      evaluate line = .error .additionOverflow) := by
  refine ⟨fun hlength => ?_, fun hlength => ?_⟩
  · rcases tokenize_lists hlength with ⟨l, fs, hl, hscans, hlists⟩
    -- The reports do not depend on the lexemes, so there is nothing to say about these.
    have herrors : l.errors =
        (Line.illegals line.toList).map (fun c => ⟨c.1.toString, c.2 + 1⟩) := by
      rw [hlists.errors, hscans.illegals_eq, Line.illegals_eq]
    refine ⟨l, hl, herrors, fun hne => ?_, ?_, ?_⟩
    · rw [evaluate_of_tokenize hl, outcome_of_errors hne]
    · rw [herrors, Rejection.messages, List.map_map]
      rfl
    · rw [herrors, List.map_map, List.pairwise_map]
      exact (Line.pairwise_illegals line.toList).imp fun hlt => Nat.succ_lt_succ hlt
  · have hfault := tokenize_overflows hlength
    refine ⟨hfault, ?_⟩
    rw [evaluate, Evaluation.run, hfault]
    rfl

/-- A line that is no expression in any case is rejected for its illegal characters
    alone, and a line that is too long for its scanner is not read at all. -/
theorem rejects_illegals_misplaced :
    ("é+ &".length < Checked.limit ∧ ∃ l, tokenize "é+ &" = .ok l ∧
      l.errors = [⟨"é", 1⟩, ⟨"&", 4⟩] ∧ l.errors ≠ [] ∧
      evaluate "é+ &" = .ok (.error (.lexical l.errors))) ∧
    (Checked.limit ≤ (String.ofList (List.replicate Checked.limit '&')).length ∧
      tokenize (String.ofList (List.replicate Checked.limit '&')) = .error .additionOverflow) := by
  refine ⟨?_, ?_⟩
  · have hlength : "é+ &".length < Checked.limit := by decide
    rcases (rejects_illegals "é+ &").1 hlength with ⟨l, hl, herrors, hevaluate, -⟩
    have hillegals : l.errors = [⟨"é", 1⟩, ⟨"&", 4⟩] := by
      rw [herrors]
      decide
    have hne : l.errors ≠ [] := by
      rw [hillegals]
      exact List.cons_ne_nil _ _
    exact ⟨hlength, l, hl, hillegals, hne, hevaluate hne⟩
  · have hlength : Checked.limit ≤ (String.ofList (List.replicate Checked.limit '&')).length := by
      rw [String.length_ofList, List.length_replicate]
    exact ⟨hlength, ((rejects_illegals _).2 hlength).1⟩

end LineCalc
