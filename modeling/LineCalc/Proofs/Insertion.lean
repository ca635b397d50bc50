import LineCalc.Proofs.Pointing
import LineCalc.Proofs.Scanner.Concatenation
import LineCalc.Proofs.Scanner.Spacing

/-!
# Insertion

White space that is put into a line.

Spaces and tabs can be put anywhere into a line, next to an operator, in front of an
illegal character or between two others of them, and the line has the same value or is
rejected for the same reason. Only the digits of a number may not be driven apart, which
`RunsInto` rules out for the place where the white space goes.

The scan of the longer line finds the same lexemes and the same illegal texts, and those
behind the white space stand further to the right. So a rejection for illegal characters
changes in the positions it tells, and only in those behind the place. The parser is not
concerned at all. It takes the text of a number or the sign of an operator from a lexeme,
which is its `content`, and it names a token by its index, so where the lexemes stand has
no influence on a value or on the token that does not fit.

## Main definitions

* `Lexeme.content`: What a lexeme reads, without its place.
* `LexicalError.makeRoom`, `Rejection.makeRoom`: Illegal texts behind a column give way.

## Theorems

* `Grammar.operands?_congr`, `Grammar.result_parse_congr`: Places have no influence on the
  grammar.
* `Cuts.insert_blanks`: What is cut out of a line with white space in it.
* `LexicalError.makeRoom_shift`: A text of the second part gives way.
* `Evaluation.outcome_makeRoom`: What is rejected gives way, and nothing else changes.
* `evaluate_insert`: The outcome for a line with white space in it.
-/

namespace LineCalc

open Findings Grammar

namespace Lexeme

/-- What a lexeme reads, without its place. -/
def content : Lexeme → String ⊕ Operator
  | number text _ => .inl text
  | operator op _ => .inr op

@[simp]
theorem content_shift (n : Nat) (l : Lexeme) : (l.shift n).content = l.content := by
  cases l <;> rfl

end Lexeme

namespace Grammar

variable {α : Type}

/-- Operands are read in the same way from lexemes of the same content. -/
theorem operands?_congr (read : String → Option α) {ls ls' : List Lexeme}
    (h : ls.map Lexeme.content = ls'.map Lexeme.content) (index : Nat) :
    operands? read index ls = operands? read index ls' ∧
      tail? read index ls = tail? read index ls' := by
  -- One induction for both functions, with any list of the same contents beside the first one.
  induction ls generalizing ls' index with
  | nil =>
      rw [List.map_nil, eq_comm, List.map_eq_nil_iff] at h
      rw [h]
      exact ⟨rfl, rfl⟩
  | cons l ls ih =>
      rw [List.map_cons, eq_comm, List.map_eq_cons_iff] at h
      rcases h with ⟨l', ls', rfl, hl, hls⟩
      have hrest := ih hls.symm (index + 1)
      -- The first lexemes are of one kind, and their columns are not looked at.
      rcases l with ⟨text, span⟩ | ⟨op, column⟩ <;> rcases l' with ⟨text', span'⟩ | ⟨op', column'⟩
      · cases hl
        simp only [operands?, tail?, hrest.2, and_self]
      · cases hl
      · cases hl
      · cases hl
        simp only [operands?, tail?, hrest.1, and_self]

/-- A sequence of lexemes has the same value or the same error wherever the lexemes stand. -/
theorem result_parse_congr [Arithmetic α] {ls ls' : List Lexeme}
    (h : ls.map Lexeme.content = ls'.map Lexeme.content) (index n n' : Nat) :
    (parse (α := α) ⟨index, ls, n⟩).result = (parse ⟨index, ls', n'⟩).result := by
  rw [result_parse, result_parse, operandsAt?, operandsAt?, (operands?_congr _ h index).1]

end Grammar

/-- An illegal text that gives way to `width` new characters at a column, if it stands behind
    that column. -/
def LexicalError.makeRoom (column width : Nat) (e : LexicalError) : LexicalError :=
  if column < e.position then e.shift width else e

/-- A rejection whose illegal texts give way to `width` new characters at a column. A token is
    named by its index, so it stays. -/
def Rejection.makeRoom (column width : Nat) : Rejection → Rejection
  | lexical errors => lexical (errors.map (LexicalError.makeRoom column width))
  | grammatical error => grammatical error

namespace LexicalError

variable {column width : Nat} {e : LexicalError}

theorem makeRoom_of_le (h : e.position ≤ column) : e.makeRoom column width = e :=
  if_neg (Nat.not_lt.2 h)

/-- A text of a line that stands behind another one gives way to what is put between them. -/
theorem makeRoom_shift (h : 0 < e.position) :
    (e.shift column).makeRoom column width = e.shift (column + width) := by
  have hbehind : column < (e.shift column).position := Nat.lt_add_of_pos_left h
  rw [makeRoom, if_pos hbehind, shift, shift, shift, Nat.add_assoc]

end LexicalError

section

variable {a b w : String} {fa fb : List Finding}

/-- What is cut out of two lines that are read as one is also cut out with white space between
    them, further to the right. -/
theorem Cuts.insert_blanks (ha : Cuts 0 a.toList fa) (hb : Cuts 0 b.toList fb)
    (hw : ∀ c ∈ w.toList, CharClass.of c = .whitespace) (hrun : ¬ RunsInto (lexemes fa) a b) :
    Cuts 0 (a ++ w ++ b).toList (fa ++ fb.map (Finding.shift (a.length + w.length))) := by
  have hlong := hb.shift (a.length + w.length)
  rw [Nat.zero_add, ← String.length_toList, ← String.length_toList] at hlong
  rw [String.toList_append, String.toList_append, List.append_assoc, ← String.length_toList,
    ← String.length_toList]
  refine ha.append ?_ fun hdigit x hx hopen => hrun ?_
  · rw [Nat.zero_add]
    exact Cuts.blanks hw hlong
  · rw [Nat.zero_add, String.length_toList] at hopen
    refine ⟨⟨x, hx, hopen⟩, ?_⟩
    -- A digit behind the first line is one of the second, because white space is none.
    cases hchars : w.toList with
    | nil => rwa [hchars, List.nil_append] at hdigit
    | cons c cs =>
        rw [hchars] at hdigit hw
        rcases hdigit with ⟨d, hd, hdigit⟩
        rw [List.cons_append, List.head?_cons, Option.mem_some_iff] at hd
        rw [← hd, CharClass.isDigit_iff, hw c List.mem_cons_self] at hdigit
        rcases hdigit with hdigit | hdigit <;> cases hdigit

/-- Moving some of the findings does not change what the lexemes read. -/
theorem content_lexemes_shift (fa fb : List Finding) (n : Nat) :
    (lexemes (fa ++ fb.map (Finding.shift n))).map Lexeme.content =
      (lexemes (fa ++ fb)).map Lexeme.content := by
  have hmoved : Lexeme.content ∘ Lexeme.shift n = Lexeme.content :=
    funext fun l => l.content_shift n
  rw [lexemes_append, lexemes_append, lexemes_map_shift, List.map_append, List.map_append,
    List.map_map, hmoved]

/-- The illegal texts of a line stand in it. -/
theorem Lexed.position_bounds {line : String} {l : Lexed} (h : tokenize line = .ok l) :
    ∀ e ∈ l.errors, 0 < e.position ∧ e.position ≤ line.length := by
  rw [Lexed.errors_eq h]
  refine List.forall_mem_map.2 fun c hc => ?_
  have hcolumn := List.snd_lt_add_of_mem_zipIdx (List.mem_of_mem_filter hc)
  rw [String.length_toList] at hcolumn
  constructor
  · exact Nat.succ_pos _
  · change c.2 + 1 ≤ line.length
    omega

/-- The illegal texts of two lines that are read as one give way to what is put between the
    lines, if they come from the second line. -/
theorem LexicalError.map_makeRoom_append {la lb : Lexed} (ha : tokenize a = .ok la)
    (hb : tokenize b = .ok lb) (width : Nat) :
    (la.errors ++ lb.errors.map (LexicalError.shift a.length)).map
        (LexicalError.makeRoom a.length width) =
      la.errors ++ lb.errors.map (LexicalError.shift (a.length + width)) := by
  -- The column is that between the two lines, so it separates their texts.
  have hstay : ∀ e ∈ la.errors, e.makeRoom a.length width = id e :=
    fun e he => makeRoom_of_le (Lexed.position_bounds ha e he).2
  have hmove : ∀ e ∈ lb.errors, (makeRoom a.length width ∘ shift a.length) e =
      e.shift (a.length + width) :=
    fun e he => makeRoom_shift (Lexed.position_bounds hb e he).1
  rw [List.map_append, List.map_map, List.map_congr_left hstay, List.map_id,
    List.map_congr_left hmove]

/-- An outcome depends on what the lexemes read and on the illegal texts. If the texts give way,
    so does a rejection, and if there are none, the outcome is the same. -/
theorem Evaluation.outcome_makeRoom {column width : Nat} {l l' : Lexed}
    (hlexemes : l'.lexemes.map Lexeme.content = l.lexemes.map Lexeme.content)
    (herrors : l'.errors = l.errors.map (LexicalError.makeRoom column width)) :
    (ofLexed l').outcome = (ofLexed l).outcome.mapError (Rejection.makeRoom column width) := by
  by_cases hl : l.errors = []
  · have hl' : l'.errors = [] := by rw [herrors, hl, List.map_nil]
    rw [outcome_of_no_errors hl, outcome_of_no_errors hl',
      result_parse_congr hlexemes 0 l'.length l.length]
    -- What is left is a value or a token that does not fit, and neither tells a column.
    cases (parse (α := Float) ⟨0, l.lexemes, l.length⟩).result <;> rfl
  · have hl' : l'.errors ≠ [] := by
      rw [herrors]
      exact fun hnil => hl (List.map_eq_nil_iff.1 hnil)
    rw [outcome_of_errors hl, outcome_of_errors hl', herrors]
    rfl

end

/-- White space that is put into a line, where it does not drive the digits of a number apart,
    leaves the outcome as it is, the value as well as the token that does not fit. Only the
    illegal texts behind it are told at positions that are further to the right, by the number
    of new characters. A line that has become too long to be scanned has no outcome. -/
theorem evaluate_insert (a b : String) {w : String} (hw : ∀ c ∈ w.toList, c = ' ' ∨ c = '\t') :
    ((a ++ w ++ b).length < Checked.limit →
      ∃ la outcome, tokenize a = .ok la ∧ evaluate (a ++ b) = .ok outcome ∧
        (¬ RunsInto la.lexemes a b → evaluate (a ++ w ++ b) =
          .ok (outcome.mapError (Rejection.makeRoom a.length w.length)))) ∧
    (Checked.limit ≤ (a ++ w ++ b).length →
      evaluate (a ++ w ++ b) = .error .additionOverflow) := by
  have hblank : ∀ c ∈ w.toList, CharClass.of c = .whitespace :=
    fun c hc => CharClass.of_eq_whitespace_iff.2 (hw c hc)
  have hsum : (a ++ b).length = a.length + b.length := String.length_append a b
  have hsum' : (a ++ w ++ b).length = a.length + w.length + b.length := by
    rw [String.length_append, String.length_append]
  constructor
  · intro hlength
    rcases exists_cuts 0 a.toList with ⟨fa, ha⟩
    rcases exists_cuts 0 b.toList with ⟨fb, hb⟩
    rcases ha.tokenize_lists (by omega) with ⟨la, hla, hlists⟩
    rcases hb.tokenize_lists (by omega) with ⟨lb, hlb, hlists'⟩
    -- If the digits would run together, nothing is claimed but that the short line has an outcome.
    by_cases hrun : RunsInto la.lexemes a b
    · rcases exists_fits (by omega : (a ++ b).length < Checked.limit) with ⟨l, hl, -⟩
      exact ⟨la, _, hla, evaluate_of_tokenize hl, fun h => absurd hrun h⟩
    -- Both lines hold the findings of `a`, and behind them those of `b` further to the right.
    rw [hlists.lexemes] at hrun
    rcases (ha.append_shift hb hrun).tokenize_lists (by omega) with ⟨l, hl, hshort⟩
    rcases (ha.insert_blanks hb hblank hrun).tokenize_lists hlength with ⟨l', hl', hlong⟩
    refine ⟨la, _, hla, evaluate_of_tokenize hl, fun _ => ?_⟩
    rw [evaluate_of_tokenize hl', Evaluation.outcome_makeRoom (l := l)]
    · rw [hshort.lexemes, hlong.lexemes, content_lexemes_shift, content_lexemes_shift]
    · rw [hshort.errors, hlong.errors, illegals_append, illegals_append, illegals_map_shift,
        illegals_map_shift, ← hlists.errors, ← hlists'.errors,
        LexicalError.map_makeRoom_append hla hlb]
  · intro hlength
    rw [evaluate, Evaluation.run, tokenize_overflows hlength]
    rfl

/-- Between `1é0` and `0&` there is room for white space, because a `0` is not prolonged. The
    first illegal character stays at its position, and the second one gives way. Too much white
    space leaves nothing that could be evaluated. -/
theorem evaluate_insert_zeros :
    (∀ c ∈ " \t".toList, c = ' ' ∨ c = '\t') ∧
    ("1é0" ++ " \t" ++ "0&").length < Checked.limit ∧
    (∃ la, tokenize "1é0" = .ok la ∧ ¬ RunsInto la.lexemes "1é0" "0&" ∧
      evaluate ("1é0" ++ "0&") = .ok (.error (.lexical [⟨"é", 2⟩, ⟨"&", 5⟩])) ∧
      evaluate ("1é0" ++ " \t" ++ "0&") = .ok (.error (.lexical [⟨"é", 2⟩, ⟨"&", 7⟩]))) ∧
    evaluate ("1" ++ String.ofList (List.replicate Checked.limit ' ') ++ "") =
      .error .additionOverflow := by
  have hblank : ∀ c ∈ " \t".toList, c = ' ' ∨ c = '\t' :=
    List.forall_mem_cons.2 ⟨Or.inl rfl, List.forall_mem_singleton.2 (Or.inr rfl)⟩
  have hlength : ("1é0" ++ " \t" ++ "0&").length < Checked.limit := by decide
  refine ⟨hblank, hlength, ?_, ?_⟩
  · rcases (evaluate_insert "1é0" "0&" hblank).1 hlength with
      ⟨la, outcome, hla, houtcome, hinserted⟩
    have hlexemes : (tokenize "1é0").map Lexed.lexemes =
        .ok [.number "1" ⟨0, 1⟩, .number "0" ⟨2, 3⟩] := rfl
    have herrors : (tokenize ("1é0" ++ "0&")).map Lexed.errors =
        .ok [⟨"é", 2⟩, ⟨"&", 5⟩] := rfl
    rw [hla] at hlexemes
    have hrun : ¬ RunsInto la.lexemes "1é0" "0&" := by
      rw [Except.ok.inj hlexemes]
      rintro ⟨⟨x, hx, text, start, rfl, htext⟩, -⟩
      cases hx
      exact htext rfl
    rcases exists_fits (by decide : ("1é0" ++ "0&").length < Checked.limit) with ⟨l, hl, -⟩
    rw [hl] at herrors
    have hne : l.errors ≠ [] := by
      rw [Except.ok.inj herrors]
      exact List.cons_ne_nil _ _
    have hrejected : outcome = .error (.lexical [⟨"é", 2⟩, ⟨"&", 5⟩]) := by
      rw [evaluate_of_tokenize hl, outcome_of_errors hne, Except.ok.inj herrors] at houtcome
      exact (Except.ok.inj houtcome).symm
    have hmoved := hinserted hrun
    rw [hrejected] at houtcome hmoved
    exact ⟨la, hla, hrun, houtcome, hmoved⟩
  · refine (evaluate_insert "1" "" fun c hc => ?_).2 ?_
    · rw [String.toList_ofList] at hc
      exact Or.inl (List.eq_of_mem_replicate hc)
    · have hlong : (String.ofList (List.replicate Checked.limit ' ')).length = Checked.limit := by
        rw [String.length_ofList, List.length_replicate]
      rw [String.length_append, String.length_append, hlong]
      omega

end LineCalc
