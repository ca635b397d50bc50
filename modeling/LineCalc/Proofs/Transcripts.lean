import LineCalc.Command.Session
import LineCalc.Proofs.FaultFreedom
import LineCalc.Proofs.Number.ReadBack

/-!
# Transcripts

What a session prints about a line, and with which status it ends.

A session does not ask `evaluate` for the value of a line. It tokenizes the line, keeps
the tokens for the caret line, and puts the other steps together by itself, without a
journal. The listing of tokens does even less, and decides by the illegal characters
alone how to end. So there are three ways to look at a line, and they agree: the two
that compute a value take the same branches at the same places, and an evaluation has a
lexical rejection exactly if there is something to list behind the tokens.

A value can be told from what is printed. The text of a number is read back as the number it was
written from, so a session prints the same line for two values only if they are the same.

## Theorems

* `Session.value_eq`: A session computes the outcome of an evaluation.
* `Session.evalLine_of_value`, `Session.evalLine_of_rejection`: What is printed for either
  outcome.
* `Session.valueTranscript_eq_iff`: Which value was printed.
* `Session.status_tokensLine`: How a listing of tokens ends.
* `Session.evalLine_prints`: A session prints the outcome of its line.
-/

namespace LineCalc

namespace Session

section

variable {line : String} {l : Lexed}

/-- The steps of a session lead to the outcome of an evaluation. -/
theorem value_eq (l : Lexed) : value l = (Evaluation.ofLexed l).outcome := by
  simp only [value, Evaluation.ofLexed]
  -- Both take the same branch, at the illegal texts and at each step behind them.
  cases l.result with
  | error errors => rfl
  | ok tokens =>
      simp only [Evaluation.ofTokens, Except.mapError, Except.bind]
      cases Cursor.ofTokens? tokens with
      | error e => rfl
      | ok cursor =>
          simp only
          cases (Grammar.parse cursor : Grammar.Reading Float).result <;> rfl

/-- A value is printed as it is, and the line is not repeated. -/
theorem evalLine_of_value (hl : tokenize line = .ok l) {v : Float}
    (hv : (Evaluation.ofLexed l).outcome = .ok v) (caret : Bool) :
    evalLine line caret =
      .ok ⟨0, printed ["Value of expression = " ++ Layout.answer.render v], ""⟩ := by
  rw [← value_eq] at hv
  simp only [evalLine, hl, bind, Except.bind, hv]
  rfl

theorem printed_singleton (line : String) : printed [line] = line ++ "\n" := by
  rw [printed, List.map_singleton, String.join_cons, String.join_nil, String.append_empty]

/-- A value can be told from what is printed for it. -/
theorem valueTranscript_eq_iff {v w : Float} :
    (⟨0, printed ["Value of expression = " ++ Layout.answer.render v], ""⟩ : Transcript) =
      ⟨0, printed ["Value of expression = " ++ Layout.answer.render w], ""⟩ ↔ v = w := by
  constructor
  · intro h
    -- The words in front of the number and the line feed behind it are the same.
    have hout : printed ["Value of expression = " ++ Layout.answer.render v] =
        printed ["Value of expression = " ++ Layout.answer.render w] :=
      congrArg Transcript.stdout h
    rw [printed_singleton, printed_singleton, String.append_left_inj,
      String.append_right_inj] at hout
    exact Layout.render_injective _ hout
  · rintro rfl
    rfl

/-- A rejection can be reported in all its parts, and `caret` decides about two of them. -/
theorem evalLine_of_rejection (hl : tokenize line = .ok l) (hfits : l.Fits line.length)
    (hlength : line.length + 1 < Checked.limit) {r : Rejection}
    (hr : (Evaluation.ofLexed l).outcome = .error r) :
    ∃ messages spans carets, r.messages = .ok messages ∧ r.spans l.tokens = .ok spans ∧
      Caret.line line spans = .ok carets ∧ ∀ caret, evalLine line caret =
        .ok ⟨1, printed ((if caret then [line, carets] else []) ++ messages), ""⟩ := by
  rcases (Rejection.exists_messages hfits hlength hr).1 with ⟨messages, hmessages⟩
  rcases Rejection.exists_spans hfits hr with ⟨spans, hspans, hforward⟩
  have hcarets := Caret.line_eq hlength hforward
  refine ⟨messages, spans, _, hmessages, hspans, hcarets, fun caret => ?_⟩
  rw [← value_eq] at hr
  simp only [evalLine, hl, bind, Except.bind, hr, rejectionLines, hspans, hcarets, hmessages]
  cases caret <;> rfl

/-- A listing of tokens ends well if it has nothing to report behind them. -/
theorem status_tokensLine (hl : tokenize line = .ok l) :
    ∃ t, tokensLine line = .ok t ∧ (t.status = 0 ↔ l.errors = []) := by
  refine ⟨_, Checked.bind_eq_ok_iff.2 ⟨l, hl, rfl⟩, ?_⟩
  rw [Lexed.isOk]
  cases l.errors with
  | nil => exact iff_of_true rfl rfl
  | cons e errors => exact iff_of_false Nat.one_ne_zero (List.cons_ne_nil _ _)

end

/-- A session prints the outcome of its line. It ends with status 0 exactly if that is a value,
    and what it prints is the text of a value exactly if the outcome is this value. A rejection
    is reported by its messages, behind the line and its carets if these are asked for. A listing
    of the tokens of the same line ends with status 0 exactly if the line is not rejected for its
    characters, whether its tokens form an expression or not. -/
theorem evalLine_prints {line : String} (hlength : line.length + 1 < Checked.limit)
    (caret : Bool) :
    ∃ l outcome t listing, tokenize line = .ok l ∧ evaluate line = .ok outcome ∧
      evalLine line caret = .ok t ∧ tokensLine line = .ok listing ∧
      (t.status = 0 ↔ ∃ v, outcome = .ok v) ∧
      (∀ v, t = ⟨0, printed ["Value of expression = " ++ Layout.answer.render v], ""⟩ ↔
        outcome = .ok v) ∧
      (∀ r, outcome = .error r → ∃ messages spans carets, r.messages = .ok messages ∧
        r.spans l.tokens = .ok spans ∧ Caret.line line spans = .ok carets ∧
        t = ⟨1, printed ((if caret then [line, carets] else []) ++ messages), ""⟩) ∧
      (listing.status = 0 ↔ ∀ es, outcome ≠ .error (.lexical es)) := by
  rcases exists_fits (by omega : line.length < Checked.limit) with ⟨l, hl, hfits⟩
  rcases status_tokensLine hl with ⟨listing, hlisting, hstatus⟩
  have hlexical : listing.status = 0 ↔
      ∀ es, (Evaluation.ofLexed l).outcome ≠ .error (.lexical es) := by
    rw [hstatus, ← not_iff_not, ← ne_eq, ← outcome_lexical_iff]
    push Not
    exact Iff.rfl
  -- Each part is settled by the outcome: the status, the value and the report.
  cases houtcome : (Evaluation.ofLexed l).outcome with
  | ok v =>
      rw [houtcome] at hlexical
      refine ⟨l, _, _, listing, hl, evaluate_of_tokenize hl, evalLine_of_value hl houtcome caret,
        hlisting, ?_⟩
      rw [houtcome]
      exact ⟨iff_of_true rfl ⟨v, rfl⟩,
        fun w => valueTranscript_eq_iff.trans (Except.ok.injEq v w).symm.to_iff,
        fun r hr => (by cases hr), hlexical⟩
  | error r =>
      rw [houtcome] at hlexical
      rcases evalLine_of_rejection hl hfits hlength houtcome with
        ⟨messages, spans, carets, hmessages, hspans, hcarets, hprinted⟩
      refine ⟨l, _, _, listing, hl, evaluate_of_tokenize hl, hprinted caret, hlisting, ?_⟩
      rw [houtcome]
      -- The status tells a rejection from any value, whatever is printed with it.
      refine ⟨iff_of_false Nat.one_ne_zero ?_, fun v => iff_of_false ?_ ?_, fun r' hr' => ?_,
        hlexical⟩
      · rintro ⟨v, hv⟩
        cases hv
      · intro ht
        cases congrArg Transcript.status ht
      · intro hv
        cases hv
      · cases hr'
        exact ⟨messages, spans, carets, hmessages, hspans, hcarets, rfl⟩

/-- The line `1/4` has a value. In `+&` the sign is not looked at, because the other character is
    illegal. -/
theorem evalLine_prints_either :
    ("1/4".length + 1 < Checked.limit ∧ evaluate "1/4" = .ok (.ok 0.25) ∧
      evalLine "1/4" true = .ok ⟨0, "Value of expression = 0.25\n", ""⟩ ∧
      ∃ listing, tokensLine "1/4" = .ok listing ∧ listing.status = 0) ∧
    ("+&".length + 1 < Checked.limit ∧
      evaluate "+&" = .ok (.error (.lexical [⟨"&", 2⟩])) ∧
      evalLine "+&" true =
        .ok ⟨1, "+&\n ^\nLexical Error at position 2 illegal character: &\n", ""⟩ ∧
      ∃ listing, tokensLine "+&" = .ok listing ∧ listing.status ≠ 0) := by
  constructor
  · have hlength : "1/4".length + 1 < Checked.limit := by decide
    rcases evalLine_prints hlength true with
      ⟨l, outcome, t, listing, hl, hevaluate, ht, hlisting, -, hvalue, -, hstatus⟩
    have hlexed : (tokenize "1/4").map (fun l => (l.lexemes, l.errors)) =
        .ok ([.number "1" ⟨0, 1⟩, .operator .slash 1, .number "4" ⟨2, 3⟩], []) := rfl
    rw [hl] at hlexed
    rcases Prod.mk.inj (Except.ok.inj hlexed) with ⟨hlexemes, herrors⟩
    have houtcome : outcome = .ok 0.25 := by
      have hquotient : ∃ v : Float, v = 0.25 ∧
          (Evaluation.ofLexed l).outcome = .ok v := by
        rw [outcome_of_no_errors herrors, Grammar.result_parse, hlexemes]
        refine ⟨_, ?_, rfl⟩
        decide +kernel
      rcases hquotient with ⟨v, rfl, hv⟩
      rw [evaluate_of_tokenize hl, hv] at hevaluate
      exact (Except.ok.inj hevaluate).symm
    have htext : printed ["Value of expression = " ++ Layout.answer.render 0.25] =
        "Value of expression = 0.25\n" := by
      decide +kernel
    rw [(hvalue 0.25).2 houtcome, htext] at ht
    rw [houtcome] at hevaluate hstatus
    exact ⟨hlength, hevaluate, ht, listing, hlisting, hstatus.2 nofun⟩
  · have hlength : "+&".length + 1 < Checked.limit := by decide
    rcases evalLine_prints hlength true with
      ⟨l, outcome, t, listing, hl, hevaluate, ht, hlisting, -, -, hrejected, hstatus⟩
    have hlexed : (tokenize "+&").map Lexed.errors = .ok [⟨"&", 2⟩] := rfl
    rw [hl] at hlexed
    have herrors : l.errors = [⟨"&", 2⟩] := Except.ok.inj hlexed
    have hne : l.errors ≠ [] := by
      rw [herrors]
      exact List.cons_ne_nil _ _
    have houtcome : outcome = .error (.lexical [⟨"&", 2⟩]) := by
      rw [evaluate_of_tokenize hl, outcome_of_errors hne, herrors] at hevaluate
      exact (Except.ok.inj hevaluate).symm
    rcases hrejected _ houtcome with ⟨messages, spans, carets, hmessages, hspans, hcarets, rfl⟩
    rw [houtcome] at hevaluate
    refine ⟨hlength, hevaluate, ?_, listing, hlisting, fun h => hstatus.1 h _ houtcome⟩
    cases hmessages
    cases hspans
    cases hcarets
    exact ht

end Session

end LineCalc
