import LineCalc.Proofs.Scanner.Automaton

/-!
# Simulation

A scanner does what `Progress` says it does, as long as its numbers stay in
range.

Two sums can leave the range, apart from the counters. An illegal character and
an operator need the column after their own, the one as its position and the
other as the end of its span, and the operator needs it late, when its word is
complete. So the invariant has two parts. `Simulates` ties the fields of the
scanner to the progress, and `Progress.Settled` remembers about a pending
operator that its column has a successor.

The counters cannot overflow before the number of characters does, because there
are no more findings than characters.

A scanner writes down what it finds, between records of other things. Only its
journal keeps lexemes and illegal texts in one order, as the progress does.

## Main definitions

* `Scanner.Record.finding?`: What a record says was found.
* `Scanner.Simulates`: A scanner has made the progress that is stated.
* `Progress.Settled`: A pending operator can be completed.
* `HasRoom`: A character that needs the column after its own has one.
* `Lexed.Lists`: What is known of a scan from its findings.

## Theorems

* `Scanner.push_simulates`: One character makes the step of `Progress.read`.
* `Scanner.feed_simulates`, `Scanner.feed_empty_simulates`: So do all characters,
  one after the other.
* `scan_lists`: A scan lists the findings of its input.
* `tokenize_lists`, `tokenize_overflows`: A line is tokenized exactly if its
  length is in range.
-/

namespace LineCalc

namespace Scanner

/-- What a record says was found. -/
def Record.finding? : Record → Option Finding
  | .token l => some (.lexeme l)
  | .lexicalError e => some (.illegal e)
  | .transition _ _ _ _ | .closed _ => none

theorem findings_push (journal : Array Record) (r : Record) :
    (journal.push r).toList.filterMap Record.finding? =
      journal.toList.filterMap Record.finding? ++ r.finding?.toList := by
  rw [Array.toList_push, List.filterMap_append]
  cases r <;> rfl

/-- A scanner has made the progress that is stated. -/
structure Simulates (s : Scanner) (p : Progress) : Prop where
  state : s.state.Holds p.word
  pending : s.pending = String.ofList p.word
  start : s.pendingStart = p.start
  lexemes : s.lexemes.toList = Findings.lexemes p.found
  errors : s.errors.toList = Findings.illegals p.found
  tokenCount : s.counts.tokens = (Findings.lexemes p.found).length
  errorCount : s.counts.errors = (Findings.illegals p.found).length
  journal : s.journal.toList.filterMap Record.finding? = p.found

end Scanner

/-- A pending operator can be completed, because there is a column after it. -/
def Progress.Settled (p : Progress) : Prop :=
  ∀ op : Operator, p.word = [op.char] → p.start + 1 < Checked.limit

/-- A character that needs the column after its own has one. -/
def HasRoom (ch : Char) (column : Nat) : Prop :=
  CharClass.of ch = .operator ∨ CharClass.of ch = .illegal → column + 1 < Checked.limit

/-- If a character starts an operator, it is the operator, and its column is known to have a
    successor. -/
theorem HasRoom.settled_read {ch : Char} {column : Nat} (hroom : HasRoom ch column)
    (p : Progress) : (p.read ch column).Settled := by
  intro op hop
  rcases Progress.read_cases p ch column with
    ⟨hjoins, hread⟩ | ⟨-, ⟨-, -, hread⟩ | ⟨-, hread⟩ | ⟨-, hread⟩⟩
  · -- A word that can be prolonged has two characters now.
    rw [hread, List.append_eq_singleton_iff] at hop
    rcases hop with ⟨hnil, -⟩ | ⟨-, hcons⟩
    · rw [hnil] at hjoins
      cases hjoins
    · cases hcons
  · -- The word is the character itself.
    rw [hread] at hop ⊢
    cases hop
    exact hroom (Or.inl (Operator.of_char op))
  · rw [hread] at hop
    cases hop
  · rw [hread] at hop
    cases hop

namespace Scanner

variable {s : Scanner} {p : Progress} {found : List Finding} {start : Nat}

/-- Before the first character nothing is found and nothing is pending. -/
theorem simulates_empty : Simulates {} {} :=
  ⟨.start, rfl, rfl, rfl, rfl, rfl, rfl, rfl⟩

/-- The scanner after it has kept a finding, counted it and written it down. -/
def noted (s : Scanner) : Finding → Scanner
  | .lexeme l => { s with
      counts := { s.counts with tokens := s.counts.tokens + 1 }
      lexemes := s.lexemes.push l
      journal := s.journal.push (.token l) }
  | .illegal e => { s with
      counts := { s.counts with errors := s.counts.errors + 1 }
      errors := s.errors.push e
      journal := s.journal.push (.lexicalError e) }

@[simp]
theorem noted_chars (s : Scanner) (f : Finding) : (s.noted f).counts.chars = s.counts.chars := by
  cases f <;> rfl

theorem emit_eq (h : s.counts.tokens + 1 < Checked.limit) (l : Lexeme) :
    s.emit l = .ok (s.noted (.lexeme l)) := by
  rw [emit, Checked.succ_eq_ok_iff.2 ⟨h, rfl⟩]
  rfl

theorem report_eq (h : s.counts.errors + 1 < Checked.limit) (e : LexicalError) :
    s.report e = .ok (s.noted (.illegal e)) := by
  rw [report, Checked.succ_eq_ok_iff.2 ⟨h, rfl⟩]
  rfl

/-- What a scanner notes is one finding more. -/
theorem noted_simulates (h : Simulates s ⟨found, [], start⟩) (f : Finding) :
    Simulates (s.noted f) ⟨found ++ [f], [], start⟩ := by
  -- The list of the other kind stays as it is, and so does its counter.
  cases f with
  | lexeme l =>
      refine ⟨h.state, h.pending, h.start, ?_, ?_, ?_, ?_, ?_⟩
      · simp only [noted, Array.toList_push, h.lexemes, Findings.lexemes_append,
          Findings.lexemes_lexeme, Findings.lexemes_nil]
      · simp only [noted, h.errors, Findings.illegals_append, Findings.illegals_lexeme,
          Findings.illegals_nil, List.append_nil]
      · simp only [noted, h.tokenCount, Findings.lexemes_append, Findings.lexemes_lexeme,
          Findings.lexemes_nil, List.length_append, List.length_singleton]
      · simp only [noted, h.errorCount, Findings.illegals_append, Findings.illegals_lexeme,
          Findings.illegals_nil, List.append_nil]
      · simp only [noted, findings_push, h.journal, Record.finding?, Option.toList_some]
  | illegal e =>
      refine ⟨h.state, h.pending, h.start, ?_, ?_, ?_, ?_, ?_⟩
      · simp only [noted, h.lexemes, Findings.lexemes_append, Findings.lexemes_illegal,
          Findings.lexemes_nil, List.append_nil]
      · simp only [noted, Array.toList_push, h.errors, Findings.illegals_append,
          Findings.illegals_illegal, Findings.illegals_nil]
      · simp only [noted, h.tokenCount, Findings.lexemes_append, Findings.lexemes_illegal,
          Findings.lexemes_nil, List.append_nil]
      · simp only [noted, h.errorCount, Findings.illegals_append, Findings.illegals_illegal,
          Findings.illegals_nil, List.length_append, List.length_singleton]
      · simp only [noted, findings_push, h.journal, Record.finding?, Option.toList_some]

/-- Neither counter is ahead of the number of findings. -/
theorem Simulates.counts_le (h : Simulates s p) :
    s.counts.tokens ≤ p.found.length ∧ s.counts.errors ≤ p.found.length := by
  have hlength := Findings.length_lexemes_add_length_illegals p.found
  rw [h.tokenCount, h.errorCount]
  omega

/-- A scanner that drops its text has no word. -/
theorem restart_simulates (h : Simulates s p) : Simulates s.restart { p with word := [] } :=
  ⟨.start, rfl, h.start, h.lexemes, h.errors, h.tokenCount, h.errorCount, h.journal⟩

theorem pendingLexeme_number (h : s.state ≠ .operator) (stop : Nat) :
    s.pendingLexeme stop = .ok (.number s.pending ⟨s.pendingStart, stop⟩) :=
  if_neg h

/-- The end of an operator is the column after its own, and has not been needed before. -/
theorem pendingLexeme_operator {op : Operator} (h : s.state = .operator)
    (hpending : s.pending = String.ofList [op.char])
    (hroom : s.pendingStart + 1 < Checked.limit) (stop : Nat) :
    s.pendingLexeme stop = .ok (.operator op s.pendingStart) := by
  have hop : s.pending.toList.head?.bind Operator.ofChar? = some op := by
    rw [hpending, String.toList_ofList]
    exact Operator.ofChar?_char op
  simp only [pendingLexeme, h, hop, if_true, Lexeme.operatorAt,
    Checked.succ_eq_ok_iff.2 ⟨hroom, rfl⟩]
  rfl

/-- The pending text of a scanner is a lexeme, and never a stray one. -/
theorem pendingLexeme_simulates (h : Simulates s p) (hword : p.word ≠ []) (hsettled : p.Settled)
    (stop : Nat) : ∃ l, s.pendingLexeme stop = .ok l ∧ p.completed stop = [.lexeme l] := by
  rcases p with ⟨found, word, start⟩
  have hstart : s.pendingStart = start := h.start
  have hpending : s.pending = String.ofList word := h.pending
  have hstate : s.state.Holds word := h.state
  -- Each form of text belongs to one state, and only one state makes an operator.
  generalize hs : s.state = st at hstate
  cases hstate with
  | start => exact absurd rfl hword
  | inNumber hd _ =>
      rw [pendingLexeme_number (by rw [hs]; decide), hpending, hstart]
      exact ⟨_, rfl, Progress.completed_number (CharClass.isDigit_iff.2 (Or.inr hd)) _ _ _ _⟩
  | leadingZero =>
      rw [pendingLexeme_number (by rw [hs]; decide), hpending, hstart]
      exact ⟨_, rfl, Progress.completed_number rfl _ _ _ _⟩
  | operator op =>
      have hroom : s.pendingStart + 1 < Checked.limit := by
        rw [hstart]
        exact hsettled op rfl
      rw [pendingLexeme_operator hs hpending hroom, hstart]
      exact ⟨_, rfl, Progress.completed_operator op _ _ _⟩

/-- A flush completes the word. It never reports it, because a pending text that
    is not empty is a lexeme. -/
theorem flush_simulates (h : Simulates s p) (hsize : p.size < Checked.limit)
    (hsettled : p.Settled) (stop : Nat) :
    ∃ s', s.flush stop = .ok s' ∧ s'.counts.chars = s.counts.chars ∧
      Simulates s' (p.flushed stop) := by
  by_cases hword : p.word = []
  · -- The start state does not accept, and the empty text is blank.
    have hstart : s.state = .start := Scanner.State.Holds.start_of_nil (hword ▸ h.state)
    have hpending : s.pending = "" := by rw [h.pending, hword]
    refine ⟨s.restart, ?_, rfl, ?_⟩
    · simp only [flush, hstart, hpending]
      rfl
    · have hflushed : p.flushed stop = { p with word := [] } := by
        rcases p with ⟨found, word, start⟩
        cases hword
        rw [Progress.flushed, Progress.completed_nil, List.append_nil]
      rw [hflushed]
      exact restart_simulates h
  · rcases pendingLexeme_simulates h hword hsettled stop with ⟨l, hl, hcompleted⟩
    -- The word is one of the findings that have been counted, so its counter has room.
    have htokens : s.restart.counts.tokens + 1 < Checked.limit := by
      have hle : s.restart.counts.tokens ≤ p.found.length := h.counts_le.1
      rw [Progress.size, if_neg hword] at hsize
      omega
    refine ⟨s.restart.noted (.lexeme l), ?_, noted_chars _ _, ?_⟩
    · simp only [flush, h.state.accepting hword, if_true, hl]
      exact emit_eq htokens l
    · rw [Progress.flushed, hcompleted]
      exact noted_simulates (restart_simulates h) (.lexeme l)

/-- The scanner after it has counted a character and written it down. -/
def counted (s : Scanner) (ch : Char) : Scanner :=
  { s with
    counts := { s.counts with chars := s.counts.chars + 1 }
    journal := s.journal.push
      (.transition s.state (CharClass.of ch) ch (s.state.next (CharClass.of ch))) }

/-- What a scanner does with a character when no text is pending. -/
def anew (s : Scanner) (column : Nat) (ch : Char) : Checked Scanner :=
  if State.start.next (CharClass.of ch) ≠ .error then
    .ok (s.extend column ch (State.start.next (CharClass.of ch)))
  else
    s.reject column ch

section

variable {ch : Char} {column : Nat}

/-- A record of a character tells no finding. -/
theorem counted_simulates (h : Simulates s p) (ch : Char) : Simulates (s.counted ch) p := by
  refine ⟨h.state, h.pending, h.start, h.lexemes, h.errors, h.tokenCount, h.errorCount, ?_⟩
  simp only [counted, findings_push, h.journal, Record.finding?, Option.toList_none,
    List.append_nil]

/-- Where the automaton goes on, the character is kept. -/
theorem push_eq_extend (hchars : s.counts.chars + 1 < Checked.limit)
    (hnext : s.state.next (CharClass.of ch) ≠ .error) :
    s.push column ch = .ok ((s.counted ch).extend column ch (s.state.next (CharClass.of ch))) := by
  simp only [push, Checked.succ_eq_ok_iff.2 ⟨hchars, rfl⟩]
  exact if_pos hnext

/-- Where it fails, the text is flushed first, and the character is looked at again. -/
theorem push_eq_anew (hchars : s.counts.chars + 1 < Checked.limit)
    (hnext : s.state.next (CharClass.of ch) = .error) :
    s.push column ch = (s.counted ch).flush column >>= fun s => s.anew column ch := by
  simp only [push, Checked.succ_eq_ok_iff.2 ⟨hchars, rfl⟩]
  exact if_neg (not_not_intro hnext)

theorem push_eq_error (hchars : Checked.limit ≤ s.counts.chars + 1) :
    s.push column ch = .error .additionOverflow := by
  simp only [push, Checked.succ_eq_error_iff.2 ⟨hchars, rfl⟩]
  rfl

/-- A character that starts a lexeme is the whole pending text. -/
theorem extend_start_simulates (h : Simulates s ⟨found, [], start⟩)
    (hblank : CharClass.of ch ≠ .whitespace) (hillegal : CharClass.of ch ≠ .illegal)
    (column : Nat) :
    Simulates (s.extend column ch (State.start.next (CharClass.of ch)))
      ⟨found, [ch], column⟩ := by
  have hpending : s.pending = "" := h.pending
  refine ⟨(State.start_next hblank hillegal).2, ?_, ?_, h.lexemes, h.errors, h.tokenCount,
    h.errorCount, h.journal⟩
  · rw [extend, hpending]
    rfl
  · rw [extend, if_pos hpending]

/-- A character that joins the word is put at its end. -/
theorem extend_joins_simulates (h : Simulates s p) (hjoins : Progress.joins p.word ch = true)
    (column : Nat) :
    Simulates (s.extend column ch (s.state.next (CharClass.of ch)))
      { p with word := p.word ++ [ch] } := by
  rcases h.state.next_of_joins hjoins with ⟨hnext, hstate⟩
  -- Nothing joins an empty word, so the column of the first character stays.
  have hpending : s.pending ≠ "" := by
    intro hnil
    have hword : p.word = [] := by
      rw [← String.toList_ofList (l := p.word), ← h.pending, hnil]
      rfl
    rw [hword] at hjoins
    cases hjoins
  refine ⟨by rw [hnext]; exact hstate, ?_, ?_, h.lexemes, h.errors, h.tokenCount, h.errorCount,
    h.journal⟩
  · rw [extend, h.pending, ← String.toList_inj, String.toList_push, String.toList_ofList,
      String.toList_ofList]
  · rw [extend, if_neg hpending]
    exact h.start

/-- What a character does when no text is pending: it starts a lexeme, is dropped
    or is reported. -/
theorem anew_simulates (h : Simulates s ⟨found, [], start⟩)
    (hsize : found.length + 1 < Checked.limit)
    (hroom : CharClass.of ch = .illegal → column + 1 < Checked.limit) :
    ∃ s', s.anew column ch = .ok s' ∧ s'.counts.chars = s.counts.chars ∧
      Simulates s' (Progress.read ⟨found, [], start⟩ ch column) := by
  by_cases hblank : CharClass.of ch = .whitespace
  · -- The scanner is as it was before.
    refine ⟨s, ?_, rfl, ?_⟩
    · rw [anew, reject, hblank]
      rfl
    · rw [Progress.read_blank hblank, Progress.flushed, Progress.completed_nil, List.append_nil]
      exact h
  by_cases hillegal : CharClass.of ch = .illegal
  · -- The position of the character is the column that `hroom` grants.
    have herrors : s.counts.errors + 1 < Checked.limit := by
      have hle : s.counts.errors ≤ found.length := h.counts_le.2
      omega
    refine ⟨s.noted (.illegal ⟨ch.toString, column + 1⟩), ?_, noted_chars _ _, ?_⟩
    · rw [anew, reject, hillegal, Checked.succ_eq_ok_iff.2 ⟨hroom hillegal, rfl⟩]
      exact report_eq herrors _
    · rw [Progress.read_illegal hillegal, Progress.completed_nil, List.append_nil]
      exact noted_simulates h _
  · refine ⟨_, if_pos (State.start_next hblank hillegal).1, rfl, ?_⟩
    rw [Progress.read_start rfl hblank hillegal, Progress.completed_nil, List.append_nil]
    exact extend_start_simulates h hblank hillegal column

/-- One character makes one step of progress. -/
theorem push_simulates (h : Simulates s p) (hchars : s.counts.chars + 1 < Checked.limit)
    (hsize : p.size + 1 < Checked.limit) (hsettled : p.Settled)
    (hroom : CharClass.of ch = .illegal → column + 1 < Checked.limit) :
    ∃ s', s.push column ch = .ok s' ∧ s'.counts.chars = s.counts.chars + 1 ∧
      Simulates s' (p.read ch column) := by
  have hcounted := counted_simulates h ch
  by_cases hjoins : Progress.joins p.word ch = true
  · -- The word goes on, and the automaton goes on with it.
    have hnext : s.state.next (CharClass.of ch) ≠ .error := by
      rw [(h.state.next_of_joins hjoins).1]
      decide
    refine ⟨_, push_eq_extend hchars hnext, rfl, ?_⟩
    rw [Progress.read_of_joins hjoins]
    exact extend_joins_simulates hcounted hjoins column
  have hanew : Progress.joins p.word ch = false := Bool.eq_false_iff.2 hjoins
  by_cases hnext : s.state.next (CharClass.of ch) = .error
  · -- The word is complete. What is left is a scanner without a pending text.
    have hflushed := Progress.length_flushed_le p column
    have hfound : (p.flushed column).found.length + 1 < Checked.limit := by omega
    rcases flush_simulates hcounted (by omega) hsettled column with ⟨s₁, hs₁, hchars₁, hsim₁⟩
    rcases anew_simulates hsim₁ hfound hroom with ⟨s', hs', hchars', hsim'⟩
    refine ⟨s', ?_, ?_, ?_⟩
    · rw [push_eq_anew hchars hnext, hs₁]
      exact hs'
    · rw [hchars', hchars₁]
      rfl
    · rw [← Progress.read_flushed hanew]
      exact hsim'
  -- The automaton goes on although the word does not, so there is no word.
  have hword : p.word = [] :=
    Decidable.byContradiction fun hword => hnext (h.state.next_eq_error hanew hword)
  rcases p with ⟨found, word, start⟩
  simp only at hword
  subst hword
  have hstart : s.state = .start := h.state.start_of_nil
  have hblank : CharClass.of ch ≠ .whitespace := by
    intro hblank
    rw [hstart, hblank] at hnext
    exact hnext rfl
  have hillegal : CharClass.of ch ≠ .illegal := by
    intro hillegal
    rw [hstart, hillegal] at hnext
    exact hnext rfl
  refine ⟨_, push_eq_extend hchars hnext, rfl, ?_⟩
  rw [Progress.read_start hanew hblank hillegal, Progress.completed_nil, List.append_nil, hstart]
  exact extend_start_simulates hcounted hblank hillegal column

/-- All characters make their steps, as long as they can be counted. -/
theorem feed_simulates {input : List (Char × Nat)} (h : Simulates s p)
    (hchars : s.counts.chars + input.length < Checked.limit) (hsize : p.size ≤ s.counts.chars)
    (hsettled : p.Settled) (hroom : ∀ c ∈ input, HasRoom c.1 c.2) :
    ∃ s', s.feed input = .ok s' ∧ s'.counts.chars = s.counts.chars + input.length ∧
      Simulates s' (p.readAll input) ∧ (p.readAll input).Settled := by
  -- By induction on the input. The counters are bounded by the number of characters, and that bound
  -- has to come along, because no single step could know it.
  induction input generalizing s p with
  | nil => exact ⟨s, rfl, rfl, h, hsettled⟩
  | cons c input ih =>
      rcases c with ⟨ch, column⟩
      rw [List.length_cons] at hchars
      have hc : HasRoom ch column := hroom (ch, column) List.mem_cons_self
      have hread := Progress.size_read_le p ch column
      -- After the step there is one character more, and at most one finding more.
      rcases push_simulates h (by omega) (by omega) hsettled (fun hch => hc (Or.inr hch)) with
        ⟨s₁, hs₁, hchars₁, hsim₁⟩
      rcases ih hsim₁ (by omega) (by omega) (hc.settled_read p)
        (fun c' hc' => hroom c' (List.mem_cons_of_mem _ hc')) with
        ⟨s', hs', hchars', hsim', hsettled'⟩
      refine ⟨s', ?_, ?_, hsim', hsettled'⟩
      · rw [feed_cons, hs₁]
        exact hs'
      · rw [hchars', hchars₁, List.length_cons]
        omega

/-- A scanner gets through an input from the start. -/
theorem feed_empty_simulates {input : List (Char × Nat)} (hlength : input.length < Checked.limit)
    (hroom : ∀ c ∈ input, HasRoom c.1 c.2) :
    ∃ s, Scanner.feed {} input = .ok s ∧ s.counts.chars = input.length ∧
      Simulates s (Progress.readAll {} input) ∧ (Progress.readAll {} input).Settled := by
  have hempty : Progress.Settled {} := fun op hop => by cases hop
  have hcount : (0 : Nat) + input.length < Checked.limit := by rwa [Nat.zero_add]
  rcases feed_simulates simulates_empty hcount (Nat.le_refl 0) hempty hroom with
    ⟨s, hs, hchars, hsim, hsettled⟩
  exact ⟨s, hs, hchars.trans (Nat.zero_add _), hsim, hsettled⟩

end

end Scanner

open Scanner

/-- What is known of a scan from its findings: the length is the one that was
    given, the counts are those of the characters and the findings, and the journal
    tells the findings in their order. -/
structure Lexed.Lists (l : Lexed) (chars length : Nat) (fs : List Finding) : Prop where
  lexemes : l.lexemes = Findings.lexemes fs
  errors : l.errors = Findings.illegals fs
  length : l.length = length
  counts : l.counts = ⟨chars, (Findings.lexemes fs).length, (Findings.illegals fs).length⟩
  journal : l.journal.filterMap Record.finding? = fs

namespace Scanner

theorem feed_cons_eq_ok_iff {s s' : Scanner} {ch : Char} {column : Nat}
    {input : List (Char × Nat)} : s.feed ((ch, column) :: input) = .ok s' ↔
      ∃ s₁, s.push column ch = .ok s₁ ∧ s₁.feed input = .ok s' :=
  Checked.bind_eq_ok_iff

theorem finish_of_flush {s s' : Scanner} {stop : Nat} (h : s.flush stop = .ok s') :
    s.finish stop = .ok {
      lexemes := s'.lexemes.toList
      length := stop
      errors := s'.errors.toList
      counts := s'.counts
      journal := (s'.journal.push (.closed s'.counts)).toList } := by
  rw [finish, h]
  rfl

/-- The end of a line completes the word. -/
theorem finish_lists {s : Scanner} {p : Progress} (h : Simulates s p)
    (hsize : p.size < Checked.limit) (hsettled : p.Settled) (stop : Nat) :
    ∃ l, s.finish stop = .ok l ∧ l.Lists s.counts.chars stop (p.finish stop) := by
  rcases flush_simulates h hsize hsettled stop with ⟨s', hs', hchars, hsim⟩
  have htokens : s'.counts.tokens = (Findings.lexemes (p.finish stop)).length := hsim.tokenCount
  have herrors : s'.counts.errors = (Findings.illegals (p.finish stop)).length := hsim.errorCount
  refine ⟨_, finish_of_flush hs', hsim.lexemes, hsim.errors, rfl, ?_, ?_⟩
  · rw [← hchars, ← htokens, ← herrors]
  · -- The record that closes the line tells no finding.
    simp only [findings_push, Record.finding?, Option.toList_none, List.append_nil]
    exact hsim.journal

end Scanner

theorem scan_eq_ok_iff {input : List (Char × Nat)} {stop : Nat} {l : Lexed} :
    scan input stop = .ok l ↔ ∃ s, Scanner.feed {} input = .ok s ∧ s.finish stop = .ok l :=
  Checked.bind_eq_ok_iff

/-- A scan lists what there is to find, whatever the columns are. -/
theorem scan_lists {input : List (Char × Nat)} {stop : Nat} {fs : List Finding}
    (h : Scans stop input fs) (hlength : input.length < Checked.limit)
    (hroom : ∀ c ∈ input, HasRoom c.1 c.2) :
    ∃ l, scan input stop = .ok l ∧ l.Lists input.length stop fs := by
  rcases feed_empty_simulates hlength hroom with ⟨s, hs, hchars, hsim, hsettled⟩
  have hsize : (Progress.readAll {} input).size ≤ 0 + input.length :=
    Progress.size_readAll_le {} input
  rcases finish_lists hsim (by omega) hsettled stop with ⟨l, hl, hlists⟩
  -- The rules have found the same, starting from nothing.
  have hfinish : (Progress.readAll {} input).finish stop = fs := h.finish_readAll {} fun _ _ => rfl
  rw [hfinish, hchars] at hlists
  exact ⟨l, scan_eq_ok_iff.2 ⟨s, hs, hl⟩, hlists⟩

/-- In a line that is short enough no column is the last number. -/
theorem hasRoom_of_mem_zipIdx {chars : List Char} (hlength : chars.length < Checked.limit) :
    ∀ c ∈ chars.zipIdx, HasRoom c.1 c.2 := by
  intro c hc _
  have hcolumn := List.snd_lt_add_of_mem_zipIdx hc
  omega

/-- A line of which all characters can be counted is tokenized into what there is to find in it. -/
theorem tokenize_lists {line : String} (hlength : line.length < Checked.limit) :
    ∃ l fs, tokenize line = .ok l ∧ Scans line.length line.toList.zipIdx fs ∧
      l.Lists line.length line.length fs := by
  rcases exists_scans line.length line.toList.zipIdx with ⟨fs, hfs⟩
  rw [← String.length_toList] at hlength
  rcases scan_lists hfs (by rwa [List.length_zipIdx]) (hasRoom_of_mem_zipIdx hlength) with
    ⟨l, hl, hlists⟩
  rw [List.length_zipIdx, String.length_toList] at hlists
  exact ⟨l, fs, hl, hfs, hlists⟩

/-- The characters before the last one that could have a number are read without
    a fault, and the one after them cannot be counted. -/
theorem tokenize_overflows {line : String} (hlength : Checked.limit ≤ line.length) :
    tokenize line = .error .additionOverflow := by
  have hlimit : 0 < Checked.limit := by decide
  have hsplit := List.take_append_drop (Checked.limit - 1) line.toList
  have htake : (line.toList.take (Checked.limit - 1)).length = Checked.limit - 1 := by
    rw [List.length_take, String.length_toList]
    omega
  -- The line is long enough for one more character than can be counted.
  cases hdrop : line.toList.drop (Checked.limit - 1) with
  | nil =>
      have hzero := congrArg List.length hdrop
      rw [List.length_drop, String.length_toList, List.length_nil] at hzero
      omega
  | cons ch rest =>
      generalize line.toList.take (Checked.limit - 1) = counted at hsplit htake
      have hfits : counted.zipIdx.length < Checked.limit := by
        rw [List.length_zipIdx]
        omega
      rcases feed_empty_simulates hfits (hasRoom_of_mem_zipIdx (by omega)) with
        ⟨s, hs, hchars, -, -⟩
      rw [List.length_zipIdx, htake] at hchars
      -- The counter has reached the last number it can hold.
      have hfault : s.push (0 + counted.length) ch = .error .additionOverflow :=
        push_eq_error (by rw [hchars]; omega)
      rw [tokenize, scan, ← hsplit, hdrop, List.zipIdx_append, List.zipIdx_cons, feed_append, hs]
      simp only [bind, Except.bind, feed_cons, hfault]

end LineCalc
