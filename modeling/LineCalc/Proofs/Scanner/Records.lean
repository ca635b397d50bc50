import LineCalc.Proofs.Scanner.Simulation
import Mathlib.Data.List.Induction

/-!
# What a Scanner Writes Down

The journal of a scan, record by record.

Every character is written down when it is seen, together with the state of the
automaton in front of it. What is found because of it, if anything, is written down
behind that, and the counts come when the line is closed. So the records of a scan are
those of its characters, in order, with findings strewn in between.

The steps of a scanner are inverted here, since only a step that has succeeded leaves a
scanner whose journal could be read. The inversions tell the records of a step and not
what they are about, and for the transitions that is enough. What the findings are, and
in which order, is known from `Simulates`.

## Main definitions

* `Scanner.Record.Kind`: The kinds of records.
* `Scanner.recordsOf`: The records of one kind.
* `Scanner.seen`: The record of a character.
* `Scanner.Follows`: Transitions tell the states that a scanner goes through.

## Theorems

* `Scanner.eq_of_flush`, `Scanner.eq_of_anew`, `Scanner.eq_of_push`: What a step can
  do.
* `Scanner.journal_of_push`, `Scanner.journal_of_finish`: What a step writes down.
* `Scanner.follows_of_feed`: The transitions of a whole input.
* `journal_of_scan`: The journal of a scan.
* `Lexed.Lists.mem_lexemes`: A lexeme that was written down is one of the lexemes.
-/

namespace LineCalc

namespace Scanner

/-- The record of a finding. -/
def Record.ofFinding : Finding → Record
  | .lexeme l => .token l
  | .illegal e => .lexicalError e

/-- The kinds of records. -/
inductive Record.Kind where
  | transition
  | token
  | lexicalError
  | closed
deriving DecidableEq

/-- The kind of a record. -/
def Record.kind : Record → Record.Kind
  | .transition _ _ _ _ => .transition
  | .token _ => .token
  | .lexicalError _ => .lexicalError
  | .closed _ => .closed

/-- The records of one kind. -/
def recordsOf (kind : Record.Kind) (records : List Record) : List Record :=
  records.filter (·.kind = kind)

/-- The record of a character that a scanner sees. -/
def seen (s : Scanner) (ch : Char) : Record :=
  .transition s.state (CharClass.of ch) ch (s.state.next (CharClass.of ch))

section

variable {s s' : Scanner} {ch : Char} {column : Nat}

theorem eq_noted_of_emit {l : Lexeme} (h : s.emit l = .ok s') : s' = s.noted (.lexeme l) := by
  by_cases hroom : s.counts.tokens + 1 < Checked.limit
  · rw [emit_eq hroom] at h
    exact (Except.ok.inj h).symm
  · rw [emit, Checked.succ_eq_error_iff.2 ⟨Nat.not_lt.1 hroom, rfl⟩] at h
    cases h

theorem eq_noted_of_report {e : LexicalError} (h : s.report e = .ok s') :
    s' = s.noted (.illegal e) := by
  by_cases hroom : s.counts.errors + 1 < Checked.limit
  · rw [report_eq hroom] at h
    exact (Except.ok.inj h).symm
  · rw [report, Checked.succ_eq_error_iff.2 ⟨Nat.not_lt.1 hroom, rfl⟩] at h
    cases h

/-- A flush forgets the pending text, and keeps at most one thing. -/
theorem eq_of_flush {stop : Nat} (h : s.flush stop = .ok s') :
    s' = s.restart ∨ ∃ f, s' = s.restart.noted f := by
  unfold flush at h
  split at h
  · rcases Checked.bind_eq_ok_iff.1 h with ⟨l, -, hemit⟩
    exact Or.inr ⟨_, eq_noted_of_emit hemit⟩
  · -- A text that is no lexeme is dropped or reported.
    split at h
    · exact Or.inl (Except.ok.inj h).symm
    · exact Or.inr ⟨_, eq_noted_of_report h⟩

/-- A character that finds no pending text becomes one, is dropped or is reported. -/
theorem eq_of_anew (h : s.anew column ch = .ok s') :
    s' = s.extend column ch (State.start.next (CharClass.of ch)) ∨ s' = s ∨
      ∃ f, s' = s.noted f := by
  unfold anew at h
  split at h
  · exact Or.inl (Except.ok.inj h).symm
  unfold reject at h
  split at h
  · exact Or.inr (Or.inl (Except.ok.inj h).symm)
  · rcases Checked.bind_eq_ok_iff.1 h with ⟨position, -, hreport⟩
    exact Or.inr (Or.inr ⟨_, eq_noted_of_report hreport⟩)

/-- A character that is read is counted. Then it prolongs the pending text, or that text is
    flushed and the character is tried anew. -/
theorem eq_of_push (h : s.push column ch = .ok s') :
    s' = (s.counted ch).extend column ch (s.state.next (CharClass.of ch)) ∨
      ∃ s₁, (s.counted ch).flush column = .ok s₁ ∧ s₁.anew column ch = .ok s' := by
  by_cases hchars : s.counts.chars + 1 < Checked.limit
  · by_cases hnext : s.state.next (CharClass.of ch) = .error
    · rw [push_eq_anew hchars hnext] at h
      exact Or.inr (Checked.bind_eq_ok_iff.1 h)
    · rw [push_eq_extend hchars hnext] at h
      exact Or.inl (Except.ok.inj h).symm
  · rw [push_eq_error (Nat.not_lt.1 hchars)] at h
    cases h

theorem journal_noted (s : Scanner) (f : Finding) :
    (s.noted f).journal.toList = s.journal.toList ++ [Record.ofFinding f] := by
  cases f <;> exact Array.toList_push

theorem journal_counted (s : Scanner) (ch : Char) :
    (s.counted ch).journal.toList = s.journal.toList ++ [s.seen ch] :=
  Array.toList_push

/-- A flush writes down what it finds, and nothing else. -/
theorem journal_of_flush {stop : Nat} (h : s.flush stop = .ok s') :
    ∃ fs : List Finding, s'.journal.toList = s.journal.toList ++ fs.map .ofFinding := by
  rcases eq_of_flush h with rfl | ⟨f, rfl⟩
  · exact ⟨[], (List.append_nil _).symm⟩
  · exact ⟨[f], journal_noted s.restart f⟩

/-- So does a character that is looked at again. -/
theorem journal_of_anew (h : s.anew column ch = .ok s') :
    ∃ fs : List Finding, s'.journal.toList = s.journal.toList ++ fs.map .ofFinding := by
  rcases eq_of_anew h with rfl | rfl | ⟨f, rfl⟩
  · exact ⟨[], (List.append_nil _).symm⟩
  · exact ⟨[], (List.append_nil _).symm⟩
  · exact ⟨[f], journal_noted s f⟩

/-- A character is written down before everything that is found because of it. -/
theorem journal_of_push (h : s.push column ch = .ok s') :
    ∃ fs : List Finding,
      s'.journal.toList = s.journal.toList ++ s.seen ch :: fs.map .ofFinding := by
  rcases eq_of_push h with rfl | ⟨s₁, hflush, hanew⟩
  · exact ⟨[], journal_counted s ch⟩
  · rcases journal_of_flush hflush with ⟨fs, hfs⟩
    rcases journal_of_anew hanew with ⟨gs, hgs⟩
    refine ⟨fs ++ gs, ?_⟩
    rw [hgs, hfs, journal_counted, List.map_append]
    simp only [List.append_assoc, List.cons_append, List.nil_append]

/-- Closing a line writes down what was pending, and then the counts. -/
theorem journal_of_finish {stop : Nat} {l : Lexed} (h : s.finish stop = .ok l) :
    ∃ fs : List Finding,
      l.journal = s.journal.toList ++ fs.map .ofFinding ++ [.closed l.counts] := by
  rcases Checked.bind_eq_ok_iff.1 h with ⟨s', hflush, hclosed⟩
  rcases journal_of_flush hflush with ⟨fs, hfs⟩
  cases hclosed
  refine ⟨fs, ?_⟩
  rw [← hfs]
  exact Array.toList_push

theorem kind_ofFinding_ne (fs : List Finding) {kind : Record.Kind}
    (h : kind = .transition ∨ kind = .closed) : ∀ r ∈ fs.map Record.ofFinding, r.kind ≠ kind := by
  refine List.forall_mem_map.2 fun f _ => ?_
  rcases h with rfl | rfl <;> cases f <;> exact fun h => by cases h

/-- Findings in a journal do not matter for its transitions. -/
theorem recordsOf_transition_append (records : List Record) (fs : List Finding) :
    recordsOf .transition (records ++ fs.map Record.ofFinding) =
      recordsOf .transition records := by
  have hfindings : recordsOf .transition (fs.map Record.ofFinding) = [] :=
    List.filter_eq_nil_iff.2 fun r hr h =>
      kind_ofFinding_ne fs (Or.inl rfl) r hr (of_decide_eq_true h)
  rw [recordsOf, List.filter_append, ← recordsOf, ← recordsOf, hfindings, List.append_nil]

theorem feed_concat_eq_ok_iff {input : List (Char × Nat)} :
    s.feed (input ++ [(ch, column)]) = .ok s' ↔
      ∃ s₁, s.feed input = .ok s₁ ∧ s₁.push column ch = .ok s' := by
  have hsingle (s₁ : Scanner) : s₁.feed [(ch, column)] = s₁.push column ch := bind_pure _
  simp only [feed_append, Checked.bind_eq_ok_iff, hsingle]

end

/-- There is one transition for each character of an input, and it starts in the state that
    a scanner is in after the characters in front of it. -/
structure Follows (transitions : List Record) (input : List (Char × Nat)) : Prop where
  length_eq : transitions.length = input.length
  seen_at : ∀ i c, input[i]? = some c →
    ∃ s, Scanner.feed {} (input.take i) = .ok s ∧ transitions[i]? = some (s.seen c.1)

section

variable {s : Scanner} {input : List (Char × Nat)} {transitions : List Record}

theorem Follows.concat (h : Follows transitions input) (hs : Scanner.feed {} input = .ok s)
    (c : Char × Nat) : Follows (transitions ++ [s.seen c.1]) (input ++ [c]) := by
  refine ⟨?_, fun i c' hc' => ?_⟩
  · rw [List.length_append, List.length_append, h.length_eq, List.length_singleton,
      List.length_singleton]
  · -- The new record is about the last character, and it does not change what the others are about.
    by_cases hi : i < input.length
    · rw [List.getElem?_append_left hi] at hc'
      rw [List.take_append_of_le_length (Nat.le_of_lt hi),
        List.getElem?_append_left (by rwa [h.length_eq])]
      exact h.seen_at i c' hc'
    · have hlt := (List.getElem?_eq_some_iff.1 hc').1
      rw [List.length_append, List.length_singleton] at hlt
      have hlast : i = input.length := by omega
      -- In front of the last character stands the whole input.
      rw [hlast, List.getElem?_concat_length] at hc'
      cases hc'
      rw [hlast, List.take_left]
      refine ⟨s, hs, ?_⟩
      rw [← h.length_eq, List.getElem?_concat_length]

/-- By induction on the input from its end, since what a scanner has read is a list to which
    characters are added there. -/
theorem follows_of_feed (h : Scanner.feed {} input = .ok s) :
    Follows (recordsOf .transition s.journal.toList) input ∧
      ∀ r ∈ s.journal.toList, r.kind ≠ .closed := by
  -- By induction from the end, because a record of a character depends on all the characters in
  -- front of it.
  induction input using List.reverseRecOn generalizing s with
  | nil =>
      cases h
      exact ⟨⟨rfl, fun i c hc => by cases hc⟩, fun r hr => by cases hr⟩
  | append_singleton input c ih =>
      rcases c with ⟨ch, column⟩
      rcases feed_concat_eq_ok_iff.1 h with ⟨s₁, hfeed, hpush⟩
      rcases journal_of_push hpush with ⟨fs, hfs⟩
      rcases ih hfeed with ⟨hfollows, hopen⟩
      rw [List.append_cons] at hfs
      rw [hfs, recordsOf_transition_append, recordsOf, List.filter_append]
      refine ⟨hfollows.concat hfeed (ch, column), ?_⟩
      simp only [List.forall_mem_append, List.forall_mem_singleton]
      exact ⟨⟨hopen, fun h => by cases h⟩, kind_ofFinding_ne fs (Or.inr rfl)⟩

end

end Scanner

open Scanner

/-- The journal of a scan: its transitions are those of the input, and only its last record
    closes the line. -/
theorem journal_of_scan {input : List (Char × Nat)} {stop : Nat} {l : Lexed}
    (h : scan input stop = .ok l) :
    ∃ records, l.journal = records ++ [.closed l.counts] ∧ (∀ r ∈ records, r.kind ≠ .closed) ∧
      Follows (recordsOf .transition records) input := by
  rcases scan_eq_ok_iff.1 h with ⟨s, hfeed, hfinish⟩
  rcases journal_of_finish hfinish with ⟨fs, hfs⟩
  rcases follows_of_feed hfeed with ⟨hfollows, hopen⟩
  refine ⟨_, hfs, List.forall_mem_append.2 ⟨hopen, kind_ofFinding_ne fs (Or.inr rfl)⟩, ?_⟩
  rwa [recordsOf_transition_append]

/-- A lexeme that was written down is one of the lexemes. -/
theorem Lexed.Lists.mem_lexemes {l : Lexed} {chars length : Nat} {fs : List Finding} {x : Lexeme}
    (h : l.Lists chars length fs) (hx : Record.token x ∈ l.journal) : x ∈ l.lexemes := by
  have hfound : Finding.lexeme x ∈ fs := by
    rw [← h.journal]
    exact List.mem_filterMap.2 ⟨_, hx, rfl⟩
  rw [h.lexemes]
  exact List.mem_filterMap.2 ⟨_, hfound, rfl⟩

end LineCalc
