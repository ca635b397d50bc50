import LineCalc.Proofs.Scanner.Reachable

/-!
# Coherence

How the parts of a scanner fit together between two characters.

A scanner keeps its state, its pending text, the column of that text and its
counters in separate fields, and each of its steps changes several of them. That
they never come apart follows from `Scanner.Reached`, which ties all of them to
one word and one list of findings. What `Progress` leaves open is where the word
comes from. It is always the end of what has been read, and it starts where its
first character was said to be.

A flush has two ends that no input leads to. It would give up if the operator
state came without an operator, and it would report the pending text if the text
were neither a lexeme nor blank. `Scanner.FlushesWords` says that it is at neither
of them, so what a scanner reports are single characters, each when it is read.

## Main definitions

* `Progress.EndsInput`: The word stands at the end of the input.
* `Scanner.Coherent`: State, pending text, columns and counts go together.
* `Scanner.FlushesWords`: A flush completes a lexeme or has nothing to do.

## Theorems

* `Progress.EndsInput.read`, `Progress.EndsInput.readAll`: The word stays at the
  end of the input.
* `Progress.illegals_read`, `Progress.illegals_readAll`: What is reported.
* `Scanner.Reached.coherent`, `Scanner.Reached.flushesWords`: The parts of a
  scanner that has read some input.
* `Scanner.feed_coherent`: What is true of every scanner that can be reached.
-/

namespace LineCalc

open Findings

namespace Progress

variable {p : Progress} {input : List (Char × Nat)} {ch : Char} {column : Nat}

/-- The word stands at the end of the input, and starts at the column of its first
    character. -/
def EndsInput (input : List (Char × Nat)) (p : Progress) : Prop :=
  ∃ pre post, input = pre ++ post ∧ p.word = post.map Prod.fst ∧ ∀ c ∈ post.head?, p.start = c.2

theorem EndsInput.of_word_eq_nil (h : p.word = []) : p.EndsInput input :=
  ⟨input, [], (List.append_nil _).symm, h, fun c hc => by cases hc⟩

/-- One more character leaves the word at the end of the input, wherever the word begins. -/
theorem EndsInput.read (h : p.EndsInput input) (ch : Char) (column : Nat) :
    (p.read ch column).EndsInput (input ++ [(ch, column)]) := by
  rcases read_cases p ch column with
    ⟨hjoins, hread⟩ | ⟨-, ⟨-, -, hread⟩ | ⟨-, hread⟩ | ⟨-, hread⟩⟩
  · rcases h with ⟨pre, post, rfl, hword, hstart⟩
    rw [hread]
    refine ⟨pre, post ++ [(ch, column)], List.append_assoc _ _ _, ?_, ?_⟩
    · rw [hword, List.map_append, List.map_singleton]
    · -- Nothing joins an empty word, so the first character stays the same.
      cases post with
      | nil =>
          rw [hword] at hjoins
          cases hjoins
      | cons c post => exact hstart
  · rw [hread]
    refine ⟨input, [(ch, column)], rfl, rfl, fun c hc => ?_⟩
    cases hc
    rfl
  · rw [hread]
    exact .of_word_eq_nil rfl
  · rw [hread]
    exact .of_word_eq_nil rfl

/-- So do all characters, one after the other. -/
theorem EndsInput.readAll (h : p.EndsInput input) (more : List (Char × Nat)) :
    (p.readAll more).EndsInput (input ++ more) := by
  induction more generalizing p input with
  | nil =>
      rw [List.append_nil]
      exact h
  | cons c more ih =>
      rw [readAll_cons, List.append_cons]
      exact ih (h.read c.1 c.2)

theorem endsInput_readAll (input : List (Char × Nat)) :
    (Progress.readAll {} input).EndsInput input := by
  have hempty : EndsInput [] {} := .of_word_eq_nil rfl
  exact hempty.readAll input

/-- The report on a character, if it is illegal. -/
def reportOn (ch : Char) (column : Nat) : List LexicalError :=
  if CharClass.of ch = .illegal then [⟨ch.toString, column + 1⟩] else []

/-- A word that is completed is a lexeme, and never an illegal text. -/
theorem illegals_completed (p : Progress) (stop : Nat) : illegals (p.completed stop) = [] := by
  unfold completed
  split
  · rfl
  · split <;> rfl

/-- Nothing is reported but the character itself. -/
theorem illegals_read (p : Progress) (ch : Char) (column : Nat) :
    illegals (p.read ch column).found = illegals p.found ++ reportOn ch column := by
  have hcompleted := illegals_completed p column
  unfold reportOn
  rcases read_cases p ch column with
    ⟨hjoins, hread⟩ | ⟨-, ⟨-, hillegal, hread⟩ | ⟨hblank, hread⟩ | ⟨hillegal, hread⟩⟩
  · -- Only a digit joins a word, and no digit is illegal.
    have hdigit : ch.isDigit = true := by
      by_contra hno
      rw [joins_of_not_isDigit p.word (Bool.eq_false_iff.2 hno)] at hjoins
      cases hjoins
    rw [hread, if_neg (not_illegal_of_isDigit hdigit), List.append_nil]
  · rw [hread, if_neg hillegal, illegals_append, hcompleted]
  · rw [hread, if_neg (by rw [hblank]; decide), flushed, illegals_append, hcompleted]
  · rw [hread, if_pos hillegal, illegals_append, illegals_append, hcompleted, List.append_nil]
    rfl

/-- Every character answers for itself, whatever stands in front of it. -/
theorem illegals_readAll (p : Progress) (input : List (Char × Nat)) :
    illegals (p.readAll input).found =
      illegals p.found ++ input.flatMap fun c => reportOn c.1 c.2 := by
  induction input generalizing p with
  | nil => exact (List.append_nil _).symm
  | cons c input ih =>
      rw [readAll_cons, ih, illegals_read, List.flatMap_cons, List.append_assoc]

/-- What is reported is a single character. -/
theorem length_text_of_mem_reportOn {e : LexicalError} (h : e ∈ reportOn ch column) :
    e.text.length = 1 := by
  unfold reportOn at h
  split at h
  · rw [List.mem_singleton.1 h]
    exact String.length_singleton
  · cases h

end Progress

namespace Scanner

variable {s s' : Scanner} {input : List (Char × Nat)} {ch : Char} {column : Nat}

/-- State, pending text, columns and counts of a scanner that has read some input. -/
structure Coherent (input : List (Char × Nat)) (s : Scanner) : Prop where
  state_ne_error : s.state ≠ .error
  start_iff : s.state = .start ↔ s.pending = ""
  leadingZero : s.state = .leadingZero → s.pending = "0"
  operator : s.state = .operator → s.pending ∈ ["+", "-", "*", "/"]
  inNumber : s.state = .inNumber → ∃ d ds, s.pending = String.ofList (d :: ds) ∧
    ('1' ≤ d ∧ d ≤ '9') ∧ ∀ c ∈ ds, c.isDigit = true
  /-- The pending text is the end of the input, and its column is that of the character
      which it starts with. -/
  pendingStart : s.pending ≠ "" → ∃ pre ch column post, input = pre ++ (ch, column) :: post ∧
    s.pending = String.ofList (ch :: post.map Prod.fst) ∧ s.pendingStart = column
  chars : s.counts.chars = input.length
  tokens : s.counts.tokens = s.lexemes.size
  errors : s.counts.errors = s.errors.size

/-- A flush completes a lexeme or has nothing to do. It is never left without the operator
    that the state promises, and never finds a text to report. The character that makes a
    scanner flush changes neither its state nor its pending text before that. -/
structure FlushesWords (s : Scanner) : Prop where
  operator : s.state = .operator →
    ∃ op, s.pending.toList.head?.bind Operator.ofChar? = some op
  blank : s.state.accepting = false → isBlank s.pending = true

section

variable {st : State} {w : List Char}

namespace State

theorem Holds.ne_error (h : Holds st w) : st ≠ .error := by
  rintro rfl
  cases h

/-- In the start state there is no text, and without a text there is no other state. -/
theorem Holds.start_iff (h : Holds st w) : st = .start ↔ w = [] := by
  constructor
  · rintro rfl
    cases h
    rfl
  · rintro rfl
    exact h.start_of_nil

theorem Holds.eq_zero (h : Holds .leadingZero w) : w = ['0'] := by
  cases h
  rfl

theorem Holds.exists_operator (h : Holds .operator w) : ∃ op : Operator, w = [op.char] := by
  cases h with
  | operator op => exact ⟨op, rfl⟩

theorem Holds.exists_digits (h : Holds .inNumber w) :
    ∃ d ds, w = d :: ds ∧ ('1' ≤ d ∧ d ≤ '9') ∧ ∀ c ∈ ds, c.isDigit = true := by
  cases h with
  | inNumber hd hds => exact ⟨_, _, rfl, CharClass.of_eq_nonZeroDigit_iff.1 hd, hds⟩

theorem Holds.eq_nil_of_not_accepting (h : Holds st w) (hst : st.accepting = false) : w = [] := by
  by_contra hw
  rw [h.accepting hw] at hst
  cases hst

end State

end

/-- Where the pending text of a scanner comes from. -/
theorem Reached.exists_pending (h : s.Reached input) (hne : s.pending ≠ "") :
    ∃ pre ch column post, input = pre ++ (ch, column) :: post ∧
      s.pending = String.ofList (ch :: post.map Prod.fst) ∧ s.pendingStart = column := by
  rcases Progress.endsInput_readAll input with ⟨pre, post, hinput, hword, hfirst⟩
  have hpending := h.simulates.pending
  rw [hword] at hpending
  cases post with
  | nil => exact absurd hpending hne
  | cons c post =>
      refine ⟨pre, c.1, c.2, post, hinput, hpending, ?_⟩
      rw [h.simulates.start, hfirst c rfl]

/-- The state says which form the pending text has, and the findings fix the rest. -/
theorem Reached.coherent (h : s.Reached input) : s.Coherent input := by
  have hsim := h.simulates
  have hholds := hsim.state
  have hpending := hsim.pending
  -- The pending text is a string, and the word a list of characters.
  have hnil : s.pending = "" ↔ (Progress.readAll {} input).word = [] := by
    rw [hpending, ← String.toList_inj, String.toList_ofList]
    rfl
  -- What a state says about the text is known of the word. The counters are those of the lists.
  refine ⟨hholds.ne_error, ?_, ?_, ?_, ?_, h.exists_pending, h.chars, ?_, ?_⟩
  · rw [hnil]
    exact hholds.start_iff
  · intro hst
    rw [hst] at hholds
    rw [hpending, hholds.eq_zero]
  · intro hst
    rw [hst] at hholds
    rcases hholds.exists_operator with ⟨op, hop⟩
    rw [hpending, hop]
    cases op <;> decide
  · intro hst
    rw [hst] at hholds
    rcases hholds.exists_digits with ⟨d, ds, hword, hd, hds⟩
    exact ⟨d, ds, by rw [hpending, hword], hd, hds⟩
  · rw [hsim.tokenCount, ← hsim.lexemes, Array.length_toList]
  · rw [hsim.errorCount, ← hsim.errors, Array.length_toList]

theorem Reached.flushesWords (h : s.Reached input) : s.FlushesWords := by
  have hholds := h.simulates.state
  have hpending := h.simulates.pending
  refine ⟨fun hst => ?_, fun hst => ?_⟩
  · rw [hst] at hholds
    rcases hholds.exists_operator with ⟨op, hop⟩
    refine ⟨op, ?_⟩
    rw [hpending, hop, String.toList_ofList, List.head?_cons, Option.bind_some]
    exact Operator.ofChar?_char op
  · rw [hpending, hholds.eq_nil_of_not_accepting hst]
    rfl

/-- What a scanner has reported are the illegal characters of its input. -/
theorem Reached.errors_eq (h : s.Reached input) :
    s.errors.toList = input.flatMap fun c => Progress.reportOn c.1 c.2 := by
  rw [h.simulates.errors, Progress.illegals_readAll]
  rfl

/-- A character is reported if it is illegal, and nothing else is reported along with it. -/
theorem Reached.errors_push (h : s.Reached input) (hpush : s.push column ch = .ok s') :
    s'.errors.toList = s.errors.toList ++ Progress.reportOn ch column := by
  rw [(h.of_push hpush).2.errors_eq, h.errors_eq, List.flatMap_append, List.flatMap_singleton]

/-- Nothing is reported at the end of a line. -/
theorem Reached.errors_finish (h : s.Reached input) {stop : Nat} {l : Lexed}
    (hfinish : s.finish stop = .ok l) : l.errors = s.errors.toList := by
  have hsettled : (Progress.readAll {} input).Settled := by
    by_contra hno
    rw [h.finish_eq_error hno] at hfinish
    cases hfinish
  rcases h.finish hsettled stop with ⟨l', hl', hlists⟩
  rw [hfinish] at hl'
  cases hl'
  rw [hlists.errors, Progress.finish, illegals_append, Progress.illegals_completed,
    List.append_nil, h.simulates.errors]

/-- Whatever characters have been read, and wherever they were said to be: the parts of the
    scanner fit together, its next flush completes a lexeme or has nothing to do, and what it
    reports is one character each time, when that is read. -/
theorem feed_coherent (h : Scanner.feed {} input = .ok s) :
    s.Coherent input ∧ s.FlushesWords ∧ (∀ e ∈ s.errors, e.text.length = 1) ∧
      (∀ ch column, s.push column ch ≠ .error .strayOperatorState ∧
        ∀ s', s.push column ch = .ok s' → s'.errors.toList = s.errors.toList ++
          if CharClass.of ch = .illegal then [⟨ch.toString, column + 1⟩] else []) ∧
      ∀ stop, s.finish stop ≠ .error .strayOperatorState ∧
        ∀ l, s.finish stop = .ok l → l.errors = s.errors.toList := by
  have hreached := reached_of_feed h
  refine ⟨hreached.coherent, hreached.flushesWords, fun e he => ?_, fun ch column => ?_,
    fun stop => ?_⟩
  · rw [← Array.mem_toList_iff, hreached.errors_eq, List.mem_flatMap] at he
    rcases he with ⟨c, -, hc⟩
    exact Progress.length_text_of_mem_reportOn hc
  · refine ⟨fun hstray => ?_, fun s' hpush => hreached.errors_push hpush⟩
    -- Nothing but a sum stops a scanner, so the stray state never does.
    cases hreached.fault_of_push hstray
  · refine ⟨fun hstray => ?_, fun l hfinish => hreached.errors_finish hfinish⟩
    cases hreached.fault_of_finish hstray

/-- Behind an illegal character at column `9` the number starts at column `5`, the one of its
    first digit, although its last digit was said to stand at column `0`. -/
theorem feed_coherent_scattered :
    let input := [('7', 3), ('é', 9), ('1', 5), ('0', 5), ('2', 0)]
    ∃ s, Scanner.feed {} input = .ok s ∧ s.Coherent input ∧ s.FlushesWords ∧
      s.state = .inNumber ∧ s.pending = "102" ∧ s.pendingStart = 5 ∧
      s.lexemes = #[.number "7" ⟨3, 9⟩] ∧ s.errors = #[⟨"é", 10⟩] := by
  intro input
  have hfeed : ∃ s, Scanner.feed {} input = .ok s ∧ s.state = .inNumber ∧ s.pending = "102" ∧
      s.pendingStart = 5 ∧ s.lexemes = #[.number "7" ⟨3, 9⟩] ∧ s.errors = #[⟨"é", 10⟩] :=
    ⟨_, rfl, rfl, rfl, rfl, rfl, rfl⟩
  rcases hfeed with ⟨s, hs, hparts⟩
  have hcoherent := feed_coherent hs
  exact ⟨s, hs, hcoherent.1, hcoherent.2.1, hparts⟩

end Scanner

end LineCalc
