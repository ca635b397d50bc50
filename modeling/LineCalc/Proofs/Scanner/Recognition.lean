import LineCalc.Proofs.Scanner.Coherence
import LineCalc.Proofs.Scanner.Cuts
import Mathlib.Data.List.Induction

/-!
# Recognition

Which texts the automaton recognises, when nothing is around it that could restart it.

`State.Holds` says what every state knows about the text that led there, and a scanner needs no
more, because it leaves the automaton before the error state is entered. Run on its own, the
automaton is in the error state after almost every text. So two things are left to show: that
it ends in a state which holds the text whenever there is one, and that it fails on all other
texts.

An automaton that is to find the longest match must in general remember the last place where it
accepted, and go back to it when it fails. This one has nothing to go back to. There is no way
back from a failure and only the empty text leads to the start state, so an accepted text has
been accepted at every character on the way. The text in front of a failure is therefore the
longest match already.

## Main definitions

* `Scanner.State.run`: The state in which the automaton is after a text.

## Theorems

* `Scanner.State.getLast?_trail`: A trail ends in that state.
* `Scanner.State.Holds.step`, `Scanner.State.holds_run`: The automaton fails, or it is in a
  state that holds what it has read.
* `Scanner.State.run_eq_iff`: The texts that lead to a state.
* `Scanner.State.accepting_run_iff`: The texts that are accepted are the words.
* `Scanner.State.accepting_run_of_prefix`, `Scanner.State.prefix_of_accepting_run`: Nothing has
  to be given back.
* `Scanner.State.recognises_words`: All of this about one text.
-/

namespace LineCalc

namespace Scanner

namespace State

/-- The state in which the automaton is after a text. -/
def run (st : State) (text : List Char) : State :=
  text.foldl (fun st ch => st.next (CharClass.of ch)) st

variable {st : State} {v w rest : List Char} {ch : Char}

theorem run_append (st : State) (v w : List Char) : run st (v ++ w) = run (run st v) w :=
  List.foldl_append

theorem run_concat (st : State) (w : List Char) (ch : Char) :
    run st (w ++ [ch]) = (run st w).next (CharClass.of ch) :=
  run_append st w [ch]

/-- There is no way back from a failure. -/
theorem run_error (w : List Char) : run .error w = .error := by
  induction w with
  | nil => rfl
  | cons ch w ih =>
      rw [run, List.foldl_cons, error_next]
      exact ih

/-- The last of the states that the automaton goes through is the one that it is in then. -/
theorem getLast?_trail (st : State) (w : List Char) : (trail st w).getLast? = some (run st w) := by
  induction w generalizing st with
  | nil => rfl
  | cons ch w ih =>
      rw [trail, List.getLast?_cons, ih]
      rfl

/-- One more character leads to a state that holds the longer text, or to a failure. -/
theorem Holds.step (h : Holds st w) (ch : Char) :
    Holds (st.next (CharClass.of ch)) (w ++ [ch]) ∨ st.next (CharClass.of ch) = .error := by
  -- The first character of a text meets the start state, which accepts more than the others.
  by_cases hw : w = []
  · subst hw
    rw [h.start_of_nil]
    by_cases hblank : CharClass.of ch = .whitespace
    · rw [hblank]
      exact Or.inr rfl
    by_cases hillegal : CharClass.of ch = .illegal
    · rw [hillegal]
      exact Or.inr rfl
    exact Or.inl (start_next hblank hillegal).2
  · cases hjoins : Progress.joins w ch with
    | true =>
        rcases h.next_of_joins hjoins with ⟨hnext, hholds⟩
        rw [hnext]
        exact Or.inl hholds
    | false => exact Or.inr (h.next_eq_error hjoins hw)

/-- By induction from the left end on, because a state is about what stands in front of it. -/
theorem holds_run (w : List Char) : Holds (run .start w) w ∨ run .start w = .error := by
  induction w using List.reverseRecOn with
  | nil => exact Or.inl .start
  | append_singleton w ch ih =>
      rw [run_concat]
      rcases ih with hholds | herror
      · exact hholds.step ch
      · rw [herror]
        exact Or.inr (error_next _)

/-- Digits never lead out of a number. -/
theorem run_inNumber {ds : List Char} (hds : ∀ c ∈ ds, c.isDigit = true) :
    run .inNumber ds = .inNumber := by
  induction ds with
  | nil => rfl
  | cons d ds ih =>
      rcases List.forall_mem_cons.1 hds with ⟨hd, hds⟩
      rw [run, List.foldl_cons, inNumber_next hd]
      exact ih hds

/-- No text is refused that some state holds. -/
theorem Holds.run_eq (h : Holds st w) : run .start w = st := by
  cases h with
  | start => rfl
  | inNumber hd hds =>
      rw [run, List.foldl_cons, hd]
      exact run_inNumber hds
  | leadingZero => rfl
  | operator op => cases op <;> rfl

/-- The texts that lead to a state other than the error state are the ones that it holds. -/
theorem run_eq_iff (hst : st ≠ .error) : run .start w = st ↔ Holds st w := by
  constructor
  · rintro rfl
    exact (holds_run w).resolve_right hst
  · exact Holds.run_eq

theorem holds_start_iff : Holds .start w ↔ w = [] := by
  constructor
  · exact fun h => h.start_iff.1 rfl
  · rintro rfl
    exact .start

/-- The texts of the state of numbers are the numbers other than `0`. -/
theorem holds_inNumber_iff : Holds .inNumber w ↔
    ∃ d ds, w = d :: ds ∧ ('1' ≤ d ∧ d ≤ '9') ∧ ∀ c ∈ ds, c.isDigit = true := by
  constructor
  · exact Holds.exists_digits
  · rintro ⟨d, ds, rfl, hd, hds⟩
    exact .inNumber (CharClass.of_eq_nonZeroDigit_iff.2 hd) hds

theorem holds_leadingZero_iff : Holds .leadingZero w ↔ w = ['0'] := by
  constructor
  · exact Holds.eq_zero
  · rintro rfl
    exact .leadingZero

theorem holds_operator_iff : Holds .operator w ↔ ∃ op : Operator, w = [op.char] := by
  constructor
  · exact Holds.exists_operator
  · rintro ⟨op, rfl⟩
    exact .operator op

/-- A text that is held is a word, unless it is empty. -/
theorem Holds.exists_word (h : Holds st w) (hw : w ≠ []) : ∃ x : Word, x.chars = w := by
  cases h with
  | start => exact absurd rfl hw
  | inNumber hd hds => exact ⟨.numeral _ _ (CharClass.of_eq_nonZeroDigit_iff.1 hd) hds, rfl⟩
  | leadingZero => exact ⟨.zero, rfl⟩
  | operator op => exact ⟨.operator op, rfl⟩

/-- Every word has a state. -/
theorem exists_holds_chars (x : Word) : ∃ st, Holds st x.chars := by
  cases x with
  | zero => exact ⟨_, .leadingZero⟩
  | numeral d ds hd hds => exact ⟨_, .inNumber (CharClass.of_eq_nonZeroDigit_iff.2 hd) hds⟩
  | operator op => exact ⟨_, .operator op⟩

/-- The texts that are accepted are the words. -/
theorem accepting_run_iff : (run .start w).accepting = true ↔ ∃ x : Word, x.chars = w := by
  constructor
  · intro h
    -- The start state does not accept, and the error state does not either.
    rcases holds_run w with hholds | herror
    · refine hholds.exists_word ?_
      rintro rfl
      cases h
    · rw [herror] at h
      cases h
  · rintro ⟨x, rfl⟩
    rcases exists_holds_chars x with ⟨st, hholds⟩
    rw [hholds.run_eq]
    exact hholds.accepting x.chars_ne_nil

/-- All other texts are failures, the empty one apart. -/
theorem run_eq_error_iff : run .start w = .error ↔ w ≠ [] ∧ ∀ x : Word, x.chars ≠ w := by
  constructor
  · intro herror
    refine ⟨?_, fun x hx => ?_⟩
    · rintro rfl
      cases herror
    · have haccepting := accepting_run_iff.2 ⟨x, hx⟩
      rw [herror] at haccepting
      cases haccepting
  · rintro ⟨hne, hword⟩
    -- A text that did not fail has led to a state, and all texts of its state are words.
    refine (holds_run w).resolve_left fun hholds => ?_
    rcases hholds.exists_word hne with ⟨x, hx⟩
    exact hword x hx

/-- What an accepted text starts with is accepted as well, the empty text apart. -/
theorem accepting_run_of_prefix (h : (run .start w).accepting = true) (hv : v <+: w)
    (hne : v ≠ []) : (run .start v).accepting = true := by
  rcases hv with ⟨u, rfl⟩
  rcases holds_run v with hholds | herror
  · exact hholds.accepting hne
  · rw [run_append, herror, run_error] at h
    cases h

/-- Where the automaton fails no longer text can be accepted, whatever comes next. -/
theorem prefix_of_accepting_run (herror : run .start (w ++ [ch]) = .error)
    (hv : v <+: w ++ ch :: rest) (h : (run .start v).accepting = true) : v <+: w := by
  have hfailed : w ++ [ch] <+: w ++ ch :: rest := ⟨rest, List.append_assoc w [ch] rest⟩
  rcases List.prefix_or_prefix_of_prefix hv hfailed with hle | ⟨u, rfl⟩
  · rcases List.prefix_concat_iff.1 hle with rfl | hle
    · rw [herror] at h
      cases h
    · exact hle
  · rw [run_append, herror, run_error] at h
    cases h

/-- Run over a text, the automaton ends in the start state if the text is empty, in an accepting
    state if it is a word, in the one for the form of the word, and in the error state otherwise,
    from which it does not come back. An accepted text has been accepted from its first character
    on, and if the next character leads to a failure, it is the longest text that is accepted
    there. -/
theorem recognises_words (w : List Char) :
    (trail .start w).getLast? = some (run .start w) ∧
      (run .start w = .start ↔ w = []) ∧
      (run .start w = .inNumber ↔
        ∃ d ds, w = d :: ds ∧ ('1' ≤ d ∧ d ≤ '9') ∧ ∀ c ∈ ds, c.isDigit = true) ∧
      (run .start w = .leadingZero ↔ w = ['0']) ∧
      (run .start w = .operator ↔ ∃ op : Operator, w = [op.char]) ∧
      (run .start w = .error ↔ w ≠ [] ∧ ∀ x : Word, x.chars ≠ w) ∧
      (∀ v, run .error v = .error) ∧
      ((run .start w).accepting = true ↔ ∃ x : Word, x.chars = w) ∧
      ((run .start w).accepting = true →
        (∀ v, v <+: w → v ≠ [] → (run .start v).accepting = true) ∧
          ∀ ch rest, run .start (w ++ [ch]) = .error →
            ∀ v, v <+: w ++ ch :: rest → (run .start v).accepting = true → v <+: w) := by
  -- The four states that are not the error state are told apart by the form of their texts.
  refine ⟨getLast?_trail .start w, ?_, ?_, ?_, ?_, run_eq_error_iff, run_error,
    accepting_run_iff, fun h => ⟨fun v hv hne => accepting_run_of_prefix h hv hne,
      fun ch rest herror v hv hv' => prefix_of_accepting_run herror hv hv'⟩⟩
  · exact (run_eq_iff (by decide)).trans holds_start_iff
  · exact (run_eq_iff (by decide)).trans holds_inNumber_iff
  · exact (run_eq_iff (by decide)).trans holds_leadingZero_iff
  · exact (run_eq_iff (by decide)).trans holds_operator_iff

/-- In `10+5` the automaton fails at the plus sign, and `10` is the longest match. -/
theorem recognises_words_numeral :
    (run .start ['1', '0']).accepting = true ∧ (run .start ['1']).accepting = true ∧
      run .start (['1', '0'] ++ ['+']) = .error ∧
      ∀ v, v <+: ['1', '0', '+', '5'] → (run .start v).accepting = true → v <+: ['1', '0'] := by
  have haccepting : (run .start ['1', '0']).accepting = true := rfl
  have herror : run .start (['1', '0'] ++ ['+']) = .error := rfl
  rcases recognises_words ['1', '0'] with ⟨-, -, -, -, -, -, -, -, hmatch⟩
  rcases hmatch haccepting with ⟨hprefixes, hlongest⟩
  exact ⟨haccepting, hprefixes ['1'] ⟨['0'], rfl⟩ (List.cons_ne_nil _ _), herror,
    hlongest '+' ['5'] herror⟩

end State

end Scanner

end LineCalc
