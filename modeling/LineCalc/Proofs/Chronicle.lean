import LineCalc.Proofs.FaultFreedom
import LineCalc.Proofs.SinglePass

/-!
# Chronicle

What the journal of a line tells, from its first record to its last.

The scanner comes first. It has a record for each character, one for each lexeme, one
for each illegal text, and the counts of the three at its end. A number is written down
when the character behind it has been seen, so its record stands behind that of a
character that it does not contain, and an illegal character may follow in the same
step. Still the findings come in the order in which they end, because that is the order
in which they are cut out of the line.

The parser comes second, unless the scanner has found an illegal text. It writes the
last record when it knows how the line comes out. Two of its faults would go without a
record: a sequence that is not closed, and a number whose text cannot be read. No line
leads to either, so the last record always tells the outcome.

## Main definitions

* `Lexeme.kindText`: What a lexeme is called in the journal.
* `Lexed.Recounts`: The records of a scanner tell what a line consists of.
* `Journal.Record.isVerdict`: The records that tell how a reading came out.
* `Evaluation.Tells`: Which outcome a last record tells.
* `Evaluation.Recounts`: The journal of an evaluation tells its outcome.

## Theorems

* `Cuts.pairwise_stop`: Findings come in the order in which they end.
* `exists_recounts_of_tokenize`: What the scanner writes down about a line.
* `Evaluation.recounts_ofLexed`: What an evaluation writes down about it.
* `evaluate_recounted`: The whole journal of a line.
-/

namespace LineCalc

open Findings Grammar

/-- The column behind a finding. -/
def Finding.stop : Finding → Nat
  | .lexeme l => l.span.stop
  | .illegal e => e.position

section

variable {column : Nat} {chars : List Char} {fs : List Finding}

/-- What is cut out of a text from a column on ends behind it. -/
theorem Cuts.lt_stop (h : Cuts column chars fs) : ∀ f ∈ fs, column < f.stop := by
  induction h with
  | nil => exact fun f hf => by cases hf
  | @word column rest fs w _ _ ih =>
      have hpos := w.length_chars_pos
      refine List.forall_mem_cons.2 ⟨?_, fun f hf => ?_⟩
      · rw [Finding.stop, Word.stop_place]
        omega
      · have hlt := ih f hf
        omega
  | blank _ _ ih => exact fun f hf => Nat.lt_of_succ_lt (ih f hf)
  | illegal _ _ ih =>
      exact List.forall_mem_cons.2 ⟨Nat.lt_succ_self _, fun f hf => Nat.lt_of_succ_lt (ih f hf)⟩

/-- Findings come in the order in which they end, and no two of them end together. -/
theorem Cuts.pairwise_stop (h : Cuts column chars fs) :
    fs.Pairwise fun f g => f.stop < g.stop := by
  induction h with
  | nil => exact .nil
  | @word column rest fs w _ hcuts ih =>
      -- What is found behind a word ends behind the column where the word does.
      refine List.pairwise_cons.2 ⟨fun g hg => ?_, ih⟩
      rw [Finding.stop, Word.stop_place]
      exact hcuts.lt_stop g hg
  | blank _ _ ih => exact ih
  | illegal _ hcuts ih => exact List.pairwise_cons.2 ⟨fun g hg => hcuts.lt_stop g hg, ih⟩

end

namespace Scanner

/-- The column behind what a record says was found. -/
def Record.stop? (r : Record) : Option Nat :=
  r.finding?.map Finding.stop

/-- The records of lexemes and those of illegal texts are told by what was found. -/
theorem recordsOf_findings (records : List Record) :
    recordsOf .token records =
        (Findings.lexemes (records.filterMap Record.finding?)).map Record.token ∧
      recordsOf .lexicalError records =
        (Findings.illegals (records.filterMap Record.finding?)).map Record.lexicalError := by
  induction records with
  | nil => exact ⟨rfl, rfl⟩
  | cons r records ih =>
      rcases ih with ⟨htokens, herrors⟩
      cases r with
      | transition source cls ch target => exact ⟨htokens, herrors⟩
      | token l => exact ⟨congrArg (List.cons (Record.token l)) htokens, herrors⟩
      | lexicalError e => exact ⟨htokens, congrArg (List.cons (Record.lexicalError e)) herrors⟩
      | closed counts => exact ⟨htokens, herrors⟩

end Scanner

open Scanner

/-- What a lexeme is called in the journal. -/
def Lexeme.kindText : Lexeme → String
  | .number _ _ => "Number"
  | .operator .plus _ => "Operator(Plus)"
  | .operator .minus _ => "Operator(Minus)"
  | .operator .asterisk _ => "Operator(Asterisk)"
  | .operator .slash _ => "Operator(Slash)"

/-- The journal calls a lexeme by its kind and an operator by its name as well. -/
theorem Lexeme.kindText_eq (x : Lexeme) : Journal.lexemeKind x = x.kindText := by
  rcases x with ⟨text, span⟩ | ⟨_ | _ | _ | _, column⟩ <;> rfl

/-- The journal of a scanner tells what a line consists of. `records` are the records in front
    of the last one. -/
structure Lexed.Recounts (l : Lexed) (chars : List Char) (records : List Scanner.Record) :
    Prop where
  /-- The line is closed once, at the end, and the counts are those of the records. -/
  journal_eq : l.journal = records ++ [.closed l.counts]
  not_closed : ∀ r ∈ records, r.kind ≠ .closed
  counts_eq : l.counts = ⟨(recordsOf .transition records).length,
    (recordsOf .token records).length, (recordsOf .lexicalError records).length⟩
  /-- The characters come in the order of the line. -/
  transitions : Follows (recordsOf .transition records) chars.zipIdx
  tokens : recordsOf .token records = l.lexemes.map .token
  errors : recordsOf .lexicalError records = l.errors.map .lexicalError
  /-- What was found comes in the order in which it ends. -/
  ordered : (records.filterMap Record.stop?).Pairwise (· < ·)
  /-- Columns are counted from one. -/
  tokenText : ∀ x ∈ l.lexemes,
    let place := s!"columns {x.span.start + 1} to {x.span.stop}"
    Journal.scanningText (.token x) =
      .ok s!"TOKEN: {x.kindText} {Quoted.string x.text} at {place}"
  errorText : ∀ e ∈ l.errors, Journal.scanningText (.lexicalError e) =
    .ok s!"LEXICAL ERROR: {Quoted.string e.text} at position {e.position}"
  /-- The counts that are shown are those of the line. -/
  closedText :
    let tokens := l.lexemes.length
    let errors := l.errors.length
    Journal.scanningText (.closed l.counts) =
      .ok s!"Stats: LexerStats \x7b chars: {chars.length}, tokens: {tokens}, errors: {errors} \x7d"

/-- The records of a scanner tell what it found, in the order of the line. -/
theorem exists_recounts_of_tokenize {line : String} {l : Lexed} (h : tokenize line = .ok l) :
    ∃ records, l.Recounts line.toList records := by
  have hlength := length_lt_of_tokenize h
  rcases exists_cuts_of_tokenize h with ⟨fs, hcuts, hlists⟩
  rcases journal_of_scan h with ⟨records, hjournal, hopen, hfollows⟩
  -- The record that closes the line tells no finding.
  have hfound : records.filterMap Record.finding? = fs := by
    rw [← hlists.journal, hjournal, List.filterMap_append]
    exact (List.append_nil _).symm
  rcases recordsOf_findings records with ⟨htokens, herrors⟩
  rw [hfound] at htokens herrors
  refine ⟨records, hjournal, hopen, ?_, hfollows, ?_, ?_, ?_, fun x hx => ?_, fun e _ => rfl, ?_⟩
  · rw [hlists.counts, hfollows.length_eq, htokens, herrors, List.length_map, List.length_map,
      List.length_zipIdx, String.length_toList]
  · rw [htokens, hlists.lexemes]
  · rw [herrors, hlists.errors]
  · -- The findings were cut out in this order.
    have hstops : records.filterMap Record.stop? = fs.map Finding.stop := by
      rw [← hfound, List.map_filterMap]
      rfl
    rw [hstops]
    exact List.pairwise_map.2 hcuts.pairwise_stop
  · have hspan := (hcuts.fits hlists).span x hx
    have hfirst : Checked.succ x.span.start = .ok (x.span.start + 1) :=
      Checked.succ_eq_ok_iff.2 ⟨by omega, rfl⟩
    rw [Journal.scanningText, Span.display, hfirst, Lexeme.kindText_eq]
    rfl
  · rw [hlists.counts, hlists.lexemes, hlists.errors, String.length_toList]
    rfl

/-- True of the records that tell how a reading came out. -/
def Journal.Record.isVerdict : Journal.Record → Bool
  | value _ | reading (.unexpected _ _) => true
  | scanning _ | reading (.entered _ _) => false

namespace Evaluation

/-- The records of the scanner come first, and others follow exactly if there is no illegal
    text. -/
def Continues (e : Evaluation) (l : Lexed) : Prop :=
  ∃ rest, e.journal = l.journal.map .scanning ++ rest ∧
    (∀ r ∈ rest, ∀ x, r ≠ .scanning x) ∧ (rest ≠ [] ↔ l.errors = [])

/-- The journal of an evaluation tells its outcome, with its last record and with no other. -/
structure Recounts (e : Evaluation) (l : Lexed) : Prop where
  continues : e.Continues l
  value_iff : ∀ v, e.journal.getLast? = some (.value v) ↔ e.outcome = .ok v
  unexpected_iff : ∀ text k, (∃ t, t.text = text ∧
    e.journal.getLast? = some (.reading (.unexpected t k))) ↔
      e.outcome = .error (.grammatical ⟨text, k⟩)
  unexpected_token : ∀ t k, e.journal.getLast? = some (.reading (.unexpected t k)) →
    l.tokens[k]? = some t
  closed_iff : (∃ c, e.journal.getLast? = some (.scanning (.closed c))) ↔
    ∃ es, e.outcome = .error (.lexical es)
  verdict_last : ∀ r ∈ e.journal.dropLast, r.isVerdict = false

/-- A last record tells an outcome, in a line with these tokens. -/
inductive Tells (tokens : List Token) : Journal.Record → Except Rejection Float → Prop where
  | value (v : Float) : Tells tokens (.value v) (.ok v)
  | unexpected {t : Token} {k : Nat} : tokens[k]? = some t →
      Tells tokens (.reading (.unexpected t k)) (.error (.grammatical ⟨t.text, k⟩))
  | closed (counts : Scanner.Counts) (errors : List LexicalError) :
      Tells tokens (.scanning (.closed counts)) (.error (.lexical errors))

/-- No outcome is told by two kinds of records, and no record tells two kinds of outcomes. -/
theorem recounts_of_tells {e : Evaluation} {l : Lexed} {records : List Journal.Record}
    {last : Journal.Record} (hjournal : e.journal = records ++ [last])
    (hrecords : ∀ r ∈ records, r.isVerdict = false) (htells : Tells l.tokens last e.outcome)
    (hrest : e.Continues l) : e.Recounts l := by
  have hlast : e.journal.getLast? = some last := by rw [hjournal, List.getLast?_concat]
  have hbefore : ∀ r ∈ e.journal.dropLast, r.isVerdict = false := by
    rwa [hjournal, List.dropLast_concat]
  generalize houtcome : e.outcome = outcome at htells
  cases htells with
  | value v => refine ⟨hrest, ?_, ?_, ?_, ?_, hbefore⟩ <;> simp [hlast, houtcome]
  | unexpected ht => refine ⟨hrest, ?_, ?_, ?_, ?_, hbefore⟩ <;> simp [hlast, houtcome, ht]
  | closed counts errors => refine ⟨hrest, ?_, ?_, ?_, ?_, hbefore⟩ <;> simp [hlast, houtcome]

theorem isVerdict_scanning (records : List Scanner.Record) :
    ∀ r ∈ records.map Journal.Record.scanning, r.isVerdict = false :=
  List.forall_mem_map.2 fun _ _ => rfl

/-- What the parser writes stands behind the records of the scanner, and its calls are no
    verdicts. -/
theorem recounts_of_passing {e : Evaluation} {l : Lexed} {calls : List (Procedure × Nat)}
    {last : Journal.Record} (hjournal : e.journal = l.journal.map .scanning ++ passing calls last)
    (herrors : l.errors = []) (hverdict : last.isVerdict = true)
    (htells : Tells l.tokens last e.outcome) : e.Recounts l := by
  -- A verdict is not a record of the scanner.
  have hlast : ∀ x, last ≠ .scanning x := by
    rintro x rfl
    cases hverdict
  have hsplit : e.journal =
      (l.journal.map .scanning ++ calls.map fun c => .reading (.ofCall c)) ++ [last] := by
    rw [hjournal, passing, List.append_assoc]
  refine recounts_of_tells hsplit ?_ htells ⟨passing calls last, hjournal, ?_, ?_⟩
  · exact List.forall_mem_append.2 ⟨isVerdict_scanning _, List.forall_mem_map.2 fun _ _ => rfl⟩
  · refine List.forall_mem_append.2 ⟨?_, List.forall_mem_singleton.2 hlast⟩
    exact List.forall_mem_map.2 fun _ _ x h => by cases h
  · exact iff_of_true (List.append_ne_nil_of_right_ne_nil _ (List.cons_ne_nil _ _)) herrors

/-- What an evaluation writes down: the scanner alone if there are illegal texts, and
    otherwise the scanner and the parser, which has a verdict for both outcomes. -/
theorem recounts_ofLexed {line : String} {l : Lexed} (h : tokenize line = .ok l) :
    (ofLexed l).Recounts l := by
  -- The verdict is the scanner's if there are illegal texts, and the parser's if not.
  by_cases herrors : l.errors = []
  · rw [ofLexed_of_no_errors herrors]
    rcases ofTokens_cases h with ⟨n, v, -, htokens⟩ | ⟨k, t, ht, htokens⟩
    · rw [htokens]
      exact recounts_of_passing rfl herrors rfl (.value v)
    · rw [htokens]
      exact recounts_of_passing rfl herrors rfl (.unexpected ht)
  · rw [ofLexed_of_errors herrors]
    rcases exists_recounts_of_tokenize h with ⟨records, hrecounts⟩
    have hjournal : l.journal.map Journal.Record.scanning =
        records.map .scanning ++ [.scanning (.closed l.counts)] := by
      rw [hrecounts.journal_eq, List.map_append]
      rfl
    exact recounts_of_tells hjournal (isVerdict_scanning records) (.closed l.counts l.errors)
      ⟨[], (List.append_nil _).symm, fun r hr => (by cases hr),
        iff_of_false (fun h => h rfl) herrors⟩

end Evaluation

end LineCalc
