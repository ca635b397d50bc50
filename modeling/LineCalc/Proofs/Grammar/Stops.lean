import LineCalc.Proofs.Grammar.Itinerary
import LineCalc.Proofs.Grammar.Visits

/-!
# Where Procedures Stop

Which tokens the procedures of the grammar rest on when they succeed.

Nothing checks that an expression reaches the end marker. The procedures are such that it
could not be otherwise: the tail of a product stops only where a term may end, so the tail
of a sum is entered only there, and a sign is something that it takes up. What is left for
it to stop at is the end marker. So the branch in which the tail of a sum meets anything
else is there for no token at all, and a check behind the expression would never fail.

The first half of this is about where a cursor rests, and holds from any token on. The
second half is about what happens in between, and that is in the journal: where the tail of
a sum was entered, and which procedure was the last one before an error.

## Main definitions

* `Grammar.Stops`: Where each procedure has come to when it succeeds.
* `Grammar.Record.call?`: The call that a record tells.
* `Grammar.parseToEnd`: A parser that looks for the end marker behind the expression.

## Theorems

* `Grammar.afterTerm_iff`: A term may end in front of a sign and at the end marker.
* `Grammar.stops_of_isIn`: The procedures stop in front of what can follow them.
* `Grammar.sumTail_entered`: The tail of a sum is entered where a term may end.
* `Grammar.last_call_of_error`: Only a factor and the tail of a product meet a token that
  does not fit.
* `Grammar.parseToEnd_eq_parse`: Looking for the end marker makes no difference.
* `Grammar.procedures_stop`: All of this for the parser of a closed sequence.
-/

namespace LineCalc

namespace Grammar

section

variable {α : Type} [Arithmetic α] {ts : List Token} {c d : Cursor}

/-- A term may end in front of a sign and at the end marker. -/
theorem afterTerm_iff (h : c.IsIn ts) :
    AfterTerm c ↔ isSignAt ts c.index = true ∨ isEndAt ts c.index = true := by
  rw [isSignAt, isEndAt, h.getElem?_eq]
  unfold AfterTerm
  cases c.peek with
  | endOfInput n => exact iff_of_true (fun l hl => by cases hl) (Or.inr rfl)
  | lexeme l =>
      -- A number is not among the tokens that a term may end at.
      cases l with
      | number text span =>
          refine iff_of_false (fun hafter => ?_) ?_
          · rcases hafter _ rfl with ⟨op, column, hop, -⟩
            cases hop
          · rintro (h | h) <;> cases h
      | operator op column =>
          constructor
          · intro hafter
            rcases hafter _ rfl with ⟨op, column, heq, hop⟩
            cases heq
            exact Or.inl hop
          · rintro (hop | hend)
            · intro l hl
              cases hl
              exact ⟨op, column, rfl, hop⟩
            · cases hend

theorem isEndAt_index (h : c.IsIn ts) : isEndAt ts c.index = c.atEnd := by
  rw [isEndAt, h.getElem?_eq]
  rfl

/-- Of two places in front of the same end marker, the one with less ahead is further on. -/
theorem index_le_of_last_eq (h : last d = last c) (hahead : d.ahead.length ≤ c.ahead.length) :
    c.index ≤ d.index := by
  have hindex := congrArg Cursor.index h
  simp only [last] at hindex
  omega

theorem atEnd_last (c : Cursor) : (last c).atEnd = true :=
  rfl

/-- A factor is read from a number, so there is a token to get past. -/
theorem index_of_factor {x : α} (h : (factor c).result = .ok (x, d)) :
    d.index = c.index + 1 := by
  rw [cursor_of_factor h]
  rcases c with ⟨index, _ | ⟨_ | _, rest⟩, length⟩
  · cases h
  · rfl
  · cases h

/-- The tail of a product may take up nothing. -/
theorem index_of_productTail {x : α} (h : (productTail c).result = .ok (x, d)) :
    c.index ≤ d.index ∧ AfterTerm d := by
  have hahead := length_ahead_of_productTail h
  rcases productTail_reads (α := α) c with ⟨e, he, -⟩ | ⟨ms, d', hd, -, -, hafter, hlast⟩
  · rw [h] at he
    cases he
  · rw [h] at hd
    cases hd
    exact ⟨index_le_of_last_eq hlast hahead, hafter⟩

/-- The factor at its front takes a term forward, and the tail behind it does not go back. -/
theorem index_of_term {x : α} (h : (term c).result = .ok (x, d)) :
    c.index < d.index ∧ AfterTerm d := by
  refine ⟨?_, afterTerm_of_term h⟩
  unfold term at h
  rcases Reading.result_bind_eq_ok_iff.1 h with ⟨_, _, h⟩
  rcases Reading.result_bind_eq_ok_iff.1 h with ⟨y, hy, h⟩
  rcases Reading.result_map_eq_ok_iff.1 h with ⟨z, hz, h⟩
  cases h
  -- Two steps, of which the first one takes a token.
  have hfactor := index_of_factor hy
  have htail := (index_of_productTail hz).1
  omega

/-- Where a sign stands the tail of a sum goes on, and elsewhere it fails unless it has come
    to the end marker. -/
theorem atEnd_of_sumTail {x : α} (h : (sumTail c).result = .ok (x, d)) : d.atEnd = true := by
  by_cases hafter : AfterTerm c
  · rw [result_sumTail hafter] at h
    rcases map_eq_ok_iff.1 h with ⟨ops, -, hd⟩
    cases hd
    exact atEnd_last c
  · -- A number or an operator of a product is ahead, and no branch succeeds with that.
    unfold AfterTerm at hafter
    push Not at hafter
    rcases hafter with ⟨l, hpeek, hl⟩
    rw [sumTail_eq, hpeek] at h
    cases l with
    | number text span => cases h
    | operator op column =>
        have hop : op.isAdditive = false := Bool.eq_false_iff.2 (hl op column rfl)
        cases op <;> first | cases h | cases hop

/-- An expression takes up everything, so it ends at the end marker. -/
theorem atEnd_of_expr {x : α} (h : (expr c).result = .ok (x, d)) : d.atEnd = true := by
  rw [result_expr] at h
  rcases map_eq_ok_iff.1 h with ⟨p, -, hd⟩
  cases hd
  exact atEnd_last c

variable (α) in
/-- Where each procedure has come to when it succeeds, if it was entered at a token of a
    sequence. -/
structure Stops (ts : List Token) (c : Cursor) : Prop where
  factor : ∀ (x : α) (d : Cursor), (factor c).result = .ok (x, d) →
    d.IsIn ts ∧ d.index = c.index + 1
  productTail : ∀ (x : α) (d : Cursor), (productTail c).result = .ok (x, d) →
    d.IsIn ts ∧ c.index ≤ d.index ∧ (isSignAt ts d.index = true ∨ isEndAt ts d.index = true)
  term : ∀ (x : α) (d : Cursor), (term c).result = .ok (x, d) →
    d.IsIn ts ∧ c.index < d.index ∧ (isSignAt ts d.index = true ∨ isEndAt ts d.index = true)
  sumTail : ∀ (x : α) (d : Cursor), (sumTail c).result = .ok (x, d) →
    d.IsIn ts ∧ isEndAt ts d.index = true
  expr : ∀ (x : α) (d : Cursor), (expr c).result = .ok (x, d) →
    d.IsIn ts ∧ isEndAt ts d.index = true

/-- The procedures stop in front of what can follow them, from any token of a sequence on. -/
theorem stops_of_isIn (h : c.IsIn ts) : Stops α ts c := by
  refine ⟨fun x d hd => ?_, fun x d hd => ?_, fun x d hd => ?_, fun x d hd => ?_,
    fun x d hd => ?_⟩
  · exact ⟨(factor_visits h).result _ hd, index_of_factor hd⟩
  · have hin := (productTail_visits h).result _ hd
    rcases index_of_productTail hd with ⟨hindex, hafter⟩
    exact ⟨hin, hindex, (afterTerm_iff hin).1 hafter⟩
  · have hin := (term_visits h).result _ hd
    rcases index_of_term hd with ⟨hindex, hafter⟩
    exact ⟨hin, hindex, (afterTerm_iff hin).1 hafter⟩
  · have hin := (sumTail_visits h).result _ hd
    exact ⟨hin, (isEndAt_index hin).trans (atEnd_of_sumTail hd)⟩
  · have hin := (expr_visits h).result _ hd
    exact ⟨hin, (isEndAt_index hin).trans (atEnd_of_expr hd)⟩

/-- The call that a record tells. -/
def Record.call? : Record → Option (Procedure × Nat)
  | .entered procedure index => some (procedure, index)
  | .unexpected _ _ => none

theorem filterMap_call?_ofCall (calls : List (Procedure × Nat)) :
    (calls.map Record.ofCall).filterMap Record.call? = calls := by
  rw [List.filterMap_map]
  exact List.filterMap_some

/-- The calls of a journal are those of an itinerary, and what else is in it is no call. -/
theorem calls_of_parse (hc : Cursor.ofTokens? ts = .ok c) :
    (∃ n v, (parse c : Reading α).result = .ok v ∧
        (parse c : Reading α).journal.filterMap Record.call? = itinerary ts n) ∨
      ∃ e, (parse c : Reading α).result = .error e ∧
        (parse c : Reading α).journal.filterMap Record.call? = itineraryTo ts e.position := by
  rcases exists_journal_parse (α := α) hc with ⟨records, hjournal, htraces⟩
  have hrange (n : Nat) : rounds ts 0 n = (List.range n).flatMap (round ts) := by
    rw [rounds, Nat.sub_zero, List.range_eq_range']
  rw [hjournal, List.filterMap_cons]
  simp only [Record.call?]
  -- An error leaves one more record than there are calls, or none.
  cases hresult : (parse c : Reading α).result with
  | ok v =>
      rw [hresult] at htraces
      rcases htraces with ⟨n, -, -, rfl⟩
      refine Or.inl ⟨n, v, rfl, ?_⟩
      rw [filterMap_call?_ofCall, hrange, itinerary]
  | error e =>
      rw [hresult] at htraces
      rcases htraces with ⟨t, -, -, -, rest, rfl, hrest⟩
      have hnone : rest.filterMap Record.call? = [] := by
        rcases hrest with rfl | ⟨rfl, -⟩ <;> rfl
      refine Or.inr ⟨e, rfl, ?_⟩
      rw [List.filterMap_append, hnone, filterMap_call?_ofCall, hrange, List.append_nil,
        itineraryTo, itinerary, List.cons_append]

/-- In a round, the tail of a sum is entered under the very condition that is to be shown. -/
theorem sumTail_mem_round {i k : Nat} (h : (.sumTail, k) ∈ round ts i) :
    isSignAt ts k = true ∨ isEndAt ts k = true := by
  rcases List.mem_append.1 h with hopening | hclosing
  · unfold opening termCall at hopening
    split at hopening <;> simp at hopening
  · -- Behind an operand the call is there if the token there allows it.
    unfold closing at hclosing
    split at hclosing
    · rename_i hafter
      simp only [List.mem_cons, Prod.mk.injEq, reduceCtorEq, false_and, List.not_mem_nil,
        or_false, true_and, false_or] at hclosing
      rwa [hclosing]
    · simp at hclosing

/-- So it is in all rounds, and the call for the expression is not one of them. -/
theorem sumTail_mem_itinerary {n k : Nat} (h : (.sumTail, k) ∈ itinerary ts n) :
    isSignAt ts k = true ∨ isEndAt ts k = true := by
  rcases List.mem_cons.1 h with h | h
  · cases h
  · rcases List.mem_flatMap.1 h with ⟨i, -, hround⟩
    exact sumTail_mem_round hround

/-- The round in which a token does not fit ends before the tail of a sum. -/
theorem sumTail_mem_itineraryTo {m k : Nat} (h : (.sumTail, k) ∈ itineraryTo ts m) :
    isSignAt ts k = true ∨ isEndAt ts k = true := by
  rcases List.mem_append.1 h with h | h
  · exact sumTail_mem_itinerary h
  · unfold lastRound opening termCall at h
    split at h <;> split at h <;> simp at h

/-- The tail of a sum is entered where a term may end, in every run of the parser. -/
theorem sumTail_entered (hc : Cursor.ofTokens? ts = .ok c) {k : Nat}
    (h : .entered .sumTail k ∈ (parse c : Reading α).journal) :
    isSignAt ts k = true ∨ isEndAt ts k = true := by
  have hcall : (.sumTail, k) ∈ (parse c : Reading α).journal.filterMap Record.call? :=
    List.mem_filterMap.2 ⟨_, h, rfl⟩
  -- The calls are those of an itinerary, whichever way the parser came out.
  rcases calls_of_parse (α := α) hc with ⟨n, -, -, hcalls⟩ | ⟨e, -, hcalls⟩
  · rw [hcalls] at hcall
    exact sumTail_mem_itinerary hcall
  · rw [hcalls] at hcall
    exact sumTail_mem_itineraryTo hcall

/-- An error ends the reading, so it is the procedure entered last that meets the token that
    does not fit. -/
theorem last_call_of_error (hc : Cursor.ofTokens? ts = .ok c) {e : SyntaxError}
    (h : (parse c : Reading α).result = .error e) :
    ∃ p, (p = .factor ∨ p = .productTail) ∧
      ((parse c : Reading α).journal.filterMap Record.call?).getLast? = some (p, e.position) := by
  rcases calls_of_parse (α := α) hc with ⟨n, v, hv, -⟩ | ⟨e', he, hcalls⟩
  · rw [h] at hv
    cases hv
  · rw [h] at he
    cases he
    -- By the parity of the place: a factor is due at an even one.
    rw [hcalls, getLast?_itineraryTo]
    refine ⟨_, ?_, rfl⟩
    split
    · exact Or.inl rfl
    · exact Or.inr rfl

/-- A parser that looks for the end marker behind the expression, and does something else if
    it is not there. -/
def parseToEnd (reject : Cursor → Reading α) (c : Cursor) : Reading α := do
  let x ← expr c
  if x.2.atEnd then return x.1 else reject x.2

/-- Looking for the end marker makes no difference, because an expression that was read has
    come to it. -/
theorem parseToEnd_eq_parse (reject : Cursor → Reading α) (c : Cursor) :
    parseToEnd reject c = parse c := by
  rw [parse, parseToEnd, Reading.map_eq_bind]
  -- An error is an error for both, and a success has come to the end.
  cases h : (expr c : Reading (α × Cursor)).result with
  | error e => rw [Reading.bind_of_error h, Reading.bind_of_error h]
  | ok x => rw [Reading.bind_of_ok h, Reading.bind_of_ok h, if_pos (atEnd_of_expr h)]

/-- Each procedure that succeeds leaves the cursor in front of what can follow it: a factor
    behind its number, the tail of a product and a term in front of a sign or the end marker,
    the tail of a sum and an expression at the end marker. So the parser never enters the tail
    of a sum at a token that this cannot go on with, its errors come from a factor or from the
    tail of a product, and it does not matter what it would do with an expression that does not
    reach the end marker. -/
theorem procedures_stop (hc : Cursor.ofTokens? ts = .ok c) :
    (∀ d : Cursor, d.IsIn ts → Stops α ts d) ∧
      (∀ k, .entered .sumTail k ∈ (parse c : Reading α).journal →
        isSignAt ts k = true ∨ isEndAt ts k = true) ∧
      (∀ e, (parse c : Reading α).result = .error e →
        ∃ p, (p = .factor ∨ p = .productTail) ∧
          ((parse c : Reading α).journal.filterMap Record.call?).getLast? =
            some (p, e.position)) ∧
      ∀ reject : Cursor → Reading α, parseToEnd reject c = parse c :=
  ⟨fun _ hd => stops_of_isIn hd, fun _ hk => sumTail_entered hc hk,
    fun _ he => last_call_of_error hc he, fun reject => parseToEnd_eq_parse reject c⟩

end

/-- `2*3 4` is rejected at its last number, with the term `2*3` already in front of it. -/
theorem procedures_stop_juxtaposed :
    let c : Cursor := ⟨0, [.number "2" ⟨0, 1⟩, .operator .asterisk 1, .number "3" ⟨2, 3⟩,
      .number "4" ⟨4, 5⟩], 5⟩
    Cursor.ofTokens? c.tokens = .ok c ∧ Stops Float c.tokens c.advance ∧
      (parse c : Reading Float).result = .error ⟨"4", 3⟩ ∧
      ∃ p, (p = .factor ∨ p = .productTail) ∧
        ((parse c : Reading Float).journal.filterMap Record.call?).getLast? = some (p, 3) := by
  intro c
  have hc : Cursor.ofTokens? c.tokens = .ok c := rfl
  have hparse : (parse c : Reading Float).result = .error ⟨"4", 3⟩ := by
    rw [result_parse]
    rfl
  rcases procedures_stop (α := Float) hc with ⟨hstops, -, herror, -⟩
  exact ⟨hc, hstops _ (Cursor.isIn_of_ofTokens? hc).advance, hparse, herror _ hparse⟩

end Grammar

end LineCalc
