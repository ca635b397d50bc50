import LineCalc.Proofs.Grammar.Journal
import Mathlib.Data.List.Flatten

/-!
# Itineraries

In which order the procedures of the grammar are entered, and at which tokens.

The records of the parser follow its recursion. Read by indices they have none any more.
The operand `i` stands at the index `2 * i`, and what is entered because of it depends on
the two tokens at its sides: a term starts behind a sign, and the tail of a sum is looked
for in front of one. `itinerary` says so for one operand after the other, and a token that
does not fit ends it in the middle of a round.

Each round is a part of the same four calls, moved to the place of its operand. What is
true of all the rounds that there could be is therefore true of an itinerary: it does not
go back, it does not come twice to the same call, and it is not long.

## Main definitions

* `Grammar.itinerary`: The calls for some operands, in their order.
* `Grammar.itineraryTo`: The calls up to a token where an expression cannot go on.
* `Grammar.Traces`: How records are made of calls, for every outcome.
* `Grammar.Precedes`: The order in which the procedures take their turns.
* `Grammar.fullItinerary`: All calls that there could be for some operands.

## Theorems

* `Grammar.operandRecords_traces`: The records of the parser, operand by operand.
* `Grammar.exists_journal_parse`: So the whole journal is made of calls.
* `Grammar.orderly_of_sublist`: No call comes twice or goes back, and their number is
  linear in that of the operands.
* `Grammar.getLast?_itinerary`, `Grammar.getLast?_itineraryTo`: Which call is the last.
-/

namespace LineCalc

namespace Grammar

variable {α β : Type}

/-- True of the tokens `+` and `-`. -/
def isSignAt (ts : List Token) (k : Nat) : Bool :=
  ts[k]?.any fun t => t.operator?.any Operator.isAdditive

/-- True of the end marker. -/
def isEndAt (ts : List Token) (k : Nat) : Bool :=
  ts[k]?.any Token.isEnd

/-- The call for a term, where the operand `i` starts one. -/
def termCall (ts : List Token) (i : Nat) : List (Procedure × Nat) :=
  if i = 0 ∨ isSignAt ts (2 * i - 1) then [(.term, 2 * i)] else []

/-- The calls in front of the operand `i`, up to the one that reads it. -/
def opening (ts : List Token) (i : Nat) : List (Procedure × Nat) :=
  termCall ts i ++ [(.factor, 2 * i)]

/-- The calls behind the operand `i`. -/
def closing (ts : List Token) (i : Nat) : List (Procedure × Nat) :=
  (.productTail, 2 * i + 1) ::
    if isSignAt ts (2 * i + 1) ∨ isEndAt ts (2 * i + 1) then [(.sumTail, 2 * i + 1)] else []

/-- The calls because of the operand `i`. -/
def round (ts : List Token) (i : Nat) : List (Procedure × Nat) :=
  opening ts i ++ closing ts i

/-- The calls because of the first `n` operands. -/
def itinerary (ts : List Token) (n : Nat) : List (Procedure × Nat) :=
  (.expr, 0) :: (List.range n).flatMap (round ts)

/-- The calls in the last round, up to the one that meets the token `k`. -/
def lastRound (ts : List Token) (k : Nat) : List (Procedure × Nat) :=
  opening ts (k / 2) ++ if k % 2 = 0 then [] else [(.productTail, k)]

/-- The calls up to the one that meets the token `k`, if an expression cannot go on there. -/
def itineraryTo (ts : List Token) (k : Nat) : List (Procedure × Nat) :=
  itinerary ts (k / 2) ++ lastRound ts k

/-- The record of a call. -/
def Record.ofCall (c : Procedure × Nat) : Record :=
  .entered c.1 c.2

section

variable {read : String → Option α} {ts : List Token} {i k length : Nat}

/-- The calls because of the operands from `i` up to, not including, `n`. -/
def rounds (ts : List Token) (i n : Nat) : List (Procedure × Nat) :=
  (List.range' i (n - i)).flatMap (round ts)

theorem rounds_self (ts : List Token) (i : Nat) : rounds ts i i = [] := by
  rw [rounds, Nat.sub_self, List.range'_zero, List.flatMap_nil]

theorem rounds_of_lt {n : Nat} (h : i < n) : rounds ts i n = round ts i ++ rounds ts (i + 1) n := by
  have hcount : n - i = n - (i + 1) + 1 := by omega
  rw [rounds, rounds, hcount, List.range'_succ, List.flatMap_cons]

/-- How the records from the operand `i` on are made of rounds, if what is spelled there has
    come out in some way. A token that does not fit is written down, unless it is a number
    whose text cannot be read. -/
def Traces (read : String → Option α) (ts : List Token) (i : Nat) (records : List Record) :
    Except SyntaxError β → Prop
  | .ok _ => ∃ n, i ≤ n ∧ ts.length = 2 * n ∧ records = (rounds ts i n).map .ofCall
  | .error e => ∃ t, ts[e.position]? = some t ∧ e.token = t.text ∧ i ≤ e.position / 2 ∧
      ∃ rest, records =
          (rounds ts i (e.position / 2) ++ lastRound ts e.position).map .ofCall ++ rest ∧
        (rest = [.unexpected t e.position] ∨
          rest = [] ∧ ∃ text span, t = .lexeme (.number text span) ∧ read text = none)

/-- What is made of a value leaves no trace. -/
theorem Traces.map {γ : Type} {records : List Record} {r : Except SyntaxError β}
    (h : Traces read ts i records r) (f : β → γ) : Traces read ts i records (r.map f) := by
  cases r <;> exact h

/-- A round in front of the others. -/
theorem Traces.round {records : List Record} {r : Except SyntaxError β}
    (h : Traces read ts (i + 1) records r) :
    Traces read ts i ((round ts i).map .ofCall ++ records) r := by
  cases r with
  | ok x =>
      rcases h with ⟨n, hn, hlength, rfl⟩
      exact ⟨n, Nat.le_of_succ_le hn, hlength, by rw [rounds_of_lt hn, List.map_append]⟩
  | error e =>
      rcases h with ⟨t, ht, htext, hn, rest, rfl, hrest⟩
      refine ⟨t, ht, htext, Nat.le_of_succ_le hn, rest, ?_, hrest⟩
      rw [rounds_of_lt hn]
      simp only [List.map_append, List.append_assoc]

theorem lastRound_even (ts : List Token) (i : Nat) : lastRound ts (2 * i) = opening ts i := by
  have hhalf : 2 * i / 2 = i := by omega
  have hparity : 2 * i % 2 = 0 := by omega
  rw [lastRound, hhalf, if_pos hparity, List.append_nil]

/-- At an odd index an operand has been read, and the tail of a product meets the token. -/
theorem lastRound_odd (ts : List Token) (i : Nat) :
    lastRound ts (2 * i + 1) = opening ts i ++ [(.productTail, 2 * i + 1)] := by
  have hhalf : (2 * i + 1) / 2 = i := by omega
  have hparity : ¬ (2 * i + 1) % 2 = 0 := by omega
  rw [lastRound, hhalf, if_neg hparity]

/-- Nothing that could be read stands where the operand `i` is due. -/
theorem traces_operand {t : Token} {rest : List Record} (ht : ts[2 * i]? = some t)
    (hrest : rest = [.unexpected t (2 * i)] ∨
      rest = [] ∧ ∃ text span, t = .lexeme (.number text span) ∧ read text = none) :
    Traces read ts i ((termCall ts i).map .ofCall ++ .entered .factor (2 * i) :: rest)
      (.error ⟨t.text, 2 * i⟩ : Except SyntaxError β) := by
  have hhalf : 2 * i / 2 = i := by omega
  refine ⟨t, ht, rfl, Nat.le_of_eq hhalf.symm, rest, ?_, hrest⟩
  -- No round is complete, and the last one ends with the factor.
  rw [hhalf, rounds_self, List.nil_append, lastRound_even, opening, List.map_append,
    List.append_assoc]
  rfl

/-- Behind the operand `i` stands a token that cannot follow it. -/
theorem traces_behind {t : Token} (ht : ts[2 * i + 1]? = some t) :
    Traces read ts i ((termCall ts i).map .ofCall ++ [.entered .factor (2 * i),
        .entered .productTail (2 * i + 1), .unexpected t (2 * i + 1)])
      (.error ⟨t.text, 2 * i + 1⟩ : Except SyntaxError β) := by
  have hhalf : (2 * i + 1) / 2 = i := by omega
  refine ⟨t, ht, rfl, Nat.le_of_eq hhalf.symm, [.unexpected t (2 * i + 1)], ?_, Or.inl rfl⟩
  rw [hhalf, rounds_self, List.nil_append, lastRound_odd, opening, List.append_assoc,
    List.map_append, List.append_assoc]
  rfl

/-- Behind the operand `i` stands the end marker. -/
theorem traces_end (x : β) (hend : ts[2 * i + 1]? = some (.endOfInput length))
    (hlength : ts.length = 2 * (i + 1)) :
    Traces read ts i ((termCall ts i).map .ofCall ++ [.entered .factor (2 * i),
      .entered .productTail (2 * i + 1), .entered .sumTail (2 * i + 1)])
      (.ok x : Except SyntaxError β) := by
  have hmarker : isEndAt ts (2 * i + 1) = true := by
    rw [isEndAt, hend]
    rfl
  refine ⟨i + 1, Nat.le_succ i, hlength, ?_⟩
  rw [rounds_of_lt (Nat.lt_succ_self i), rounds_self, List.append_nil, round, opening, closing,
    if_pos (Or.inr hmarker), List.append_assoc, List.map_append]
  rfl

/-- Between two operands, the tail of a sum and a term are entered if the operator is a sign. -/
theorem round_operator {op : Operator} {column : Nat}
    (h : ts[2 * i + 1]? = some (.lexeme (.operator op column))) :
    round ts i ++ termCall ts (i + 1) = opening ts i ++ (.productTail, 2 * i + 1) ::
      if op.isAdditive then [(.sumTail, 2 * i + 1), (.term, 2 * i + 2)] else [] := by
  have hsign : isSignAt ts (2 * i + 1) = op.isAdditive := by
    rw [isSignAt, h]
    rfl
  have hmarker : isEndAt ts (2 * i + 1) = false := by
    rw [isEndAt, h]
    rfl
  have hbefore : 2 * (i + 1) - 1 = 2 * i + 1 := by omega
  have hnext : 2 * (i + 1) = 2 * i + 2 := by omega
  -- The end of one round and the start of the next look at the same token.
  rw [round, closing, termCall, hbefore, hnext, hsign, hmarker, List.append_assoc]
  cases op.isAdditive <;> rfl

/-- Behind the operand `i` stands an operator, and behind that the next operand is due. -/
theorem traces_operator {op : Operator} {column : Nat} {records : List Record}
    {r : Except SyntaxError β} (hop : ts[2 * i + 1]? = some (.lexeme (.operator op column)))
    (h : Traces read ts (i + 1) ((termCall ts (i + 1)).map .ofCall ++ records) r) :
    Traces read ts i ((termCall ts i).map .ofCall ++ .entered .factor (2 * i) ::
      .entered .productTail (2 * i + 1) :: ((if op.isAdditive then
        [.entered .sumTail (2 * i + 1), .entered .term (2 * i + 2)] else []) ++ records)) r := by
  have hround := h.round
  rw [← List.append_assoc, ← List.map_append, round_operator hop, opening] at hround
  simp only [List.map_append, List.append_assoc, List.map_cons, List.cons_append] at hround
  cases hadditive : op.isAdditive <;> rw [hadditive] at hround <;> exact hround

/-- By induction on the lexemes, of which every round takes two away: the operand and the
    operator behind it. -/
theorem operandRecords_traces (ls : List Lexeme) {i : Nat}
    (h : ts.drop (2 * i) = ls.map .lexeme ++ [.endOfInput length]) :
    Traces read ts i ((termCall ts i).map .ofCall ++ operandRecords read length (2 * i) ls)
      (operands? read (2 * i) ls) := by
  have hget (j : Nat) : ts[2 * i + j]? = (ls.map Token.lexeme ++ [.endOfInput length])[j]? := by
    rw [← List.getElem?_drop, h]
  have hfirst := hget 0
  have hsecond := hget 1
  -- Two tokens decide what is entered in this round: the one of the operand and the one behind it.
  cases ls with
  | nil => exact traces_operand hfirst (Or.inl rfl)
  | cons l rest =>
      cases l with
      | operator op column => exact traces_operand hfirst (Or.inl rfl)
      | number text span =>
          unfold operandRecords operands?
          cases hx : read text with
          | none => exact traces_operand hfirst (Or.inr ⟨rfl, text, span, rfl, hx⟩)
          | some x =>
              cases rest with
              | nil =>
                  -- The operand and the end marker are the last two tokens.
                  have hlength := congrArg List.length h
                  rw [List.length_drop] at hlength
                  simp only [List.map_cons, List.map_nil, List.cons_append, List.nil_append,
                    List.length_cons, List.length_nil] at hlength
                  exact traces_end (x, []) hsecond (by omega)
              | cons l rest =>
                  cases l with
                  | number text' span' => exact traces_behind hsecond
                  | operator op column =>
                      -- What is left starts with the next operand, two tokens further.
                      have hdrop : ts.drop (2 * (i + 1)) =
                          rest.map .lexeme ++ [.endOfInput length] := by
                        rw [Nat.mul_add, ← List.drop_drop, h]
                        rfl
                      have hrest := operandRecords_traces rest hdrop
                      exact ((traces_operator hsecond hrest).map _).map _
termination_by ls.length

/-- How a whole journal is made of calls, if the parser has come out in some way. -/
theorem exists_journal_parse [Arithmetic α] {c : Cursor} (hc : Cursor.ofTokens? ts = .ok c) :
    ∃ records, (parse c : Reading α).journal = .entered .expr 0 :: records ∧
      Traces (Arithmetic.literal? (α := α)) ts 0 records (parse c : Reading α).result := by
  rcases Cursor.ofTokens?_eq_ok_iff.1 hc with ⟨hindex, rfl⟩
  rcases c with ⟨index, ahead, length⟩
  cases hindex
  refine ⟨_, journal_parse _, ?_⟩
  rw [result_parse]
  exact (operandRecords_traces (i := 0) ahead rfl).map _

end

/-- The order in which the procedures are entered at one token. -/
def Procedure.rank : Procedure → Nat
  | .expr => 0
  | .term => 1
  | .factor => 2
  | .productTail => 3
  | .sumTail => 4

/-- A call comes before another one: it is at an earlier token, or at the same one and of a
    procedure that is entered earlier there. -/
def Precedes (a b : Procedure × Nat) : Prop :=
  a.2 < b.2 ∨ a.2 = b.2 ∧ a.1.rank < b.1.rank

/-- All calls that there can be because of the operand `i`. -/
def fullRound (i : Nat) : List (Procedure × Nat) :=
  [(.term, 2 * i), (.factor, 2 * i), (.productTail, 2 * i + 1), (.sumTail, 2 * i + 1)]

/-- All calls that there can be because of the first `n` operands. -/
def fullItinerary (n : Nat) : List (Procedure × Nat) :=
  (.expr, 0) :: (List.range n).flatMap fullRound

section

variable (ts : List Token) (n k : Nat)

/-- A round leaves out at most the term in front of its operand and the sum behind it. -/
theorem round_sublist (i : Nat) : (round ts i).Sublist (fullRound i) := by
  have hterm : (termCall ts i).Sublist [(.term, 2 * i)] := by
    unfold termCall
    split
    · exact List.Sublist.refl _
    · exact List.nil_sublist _
  have hclosing : (closing ts i).Sublist [(.productTail, 2 * i + 1), (.sumTail, 2 * i + 1)] := by
    unfold closing
    split
    · exact List.Sublist.refl _
    · exact (List.nil_sublist _).cons_cons _
  exact (hterm.append (List.Sublist.refl [(.factor, 2 * i)])).append hclosing

theorem itinerary_sublist : (itinerary ts n).Sublist (fullItinerary n) :=
  (List.Sublist.flatMap_right _ fun i _ => round_sublist ts i).cons_cons _

/-- An itinerary that ends at a token has one round for it, whole or not. -/
theorem itineraryTo_sublist : (itineraryTo ts k).Sublist (fullItinerary (k / 2 + 1)) := by
  -- A last round is the beginning of a whole one.
  have hlast : (lastRound ts k).Sublist (round ts (k / 2)) := by
    refine (List.Sublist.refl _).append ?_
    by_cases hparity : k % 2 = 0
    · rw [if_pos hparity]
      exact List.nil_sublist _
    · have hodd : 2 * (k / 2) + 1 = k := by omega
      rw [if_neg hparity, closing, hodd]
      exact (List.nil_sublist _).cons_cons _
  have hnext : itinerary ts (k / 2 + 1) = itinerary ts (k / 2) ++ round ts (k / 2) := by
    rw [itinerary, itinerary, List.range_succ, List.flatMap_append, List.flatMap_singleton,
      List.cons_append]
  refine List.Sublist.trans ?_ (itinerary_sublist ts (k / 2 + 1))
  rw [hnext]
  exact (List.Sublist.refl _).append hlast

theorem mem_fullRound {i : Nat} {c : Procedure × Nat} (h : c ∈ fullRound i) :
    c.2 / 2 = i ∧ 0 < c.1.rank := by
  simp only [fullRound, List.mem_cons, List.not_mem_nil, or_false] at h
  rcases h with rfl | rfl | rfl | rfl <;> simp only [Procedure.rank] <;> omega

/-- Two rounds are about different tokens, and within a round the calls are in order. -/
theorem pairwise_fullItinerary : (fullItinerary n).Pairwise Precedes := by
  have hround (i : Nat) : (fullRound i).Pairwise Precedes := by
    simp [fullRound, Precedes, Procedure.rank]
  -- The expression is entered first, at the first token, where its rank is the least.
  refine List.pairwise_cons.2 ⟨fun c hc => ?_, ?_⟩
  · rcases List.mem_flatMap.1 hc with ⟨i, -, hc⟩
    have hrank := (mem_fullRound hc).2
    simp only [Precedes, Procedure.rank] at *
    omega
  · refine List.pairwise_flatMap.2 ⟨fun i _ => hround i, ?_⟩
    -- A later round has later tokens, whichever calls of the two are compared.
    refine List.pairwise_lt_range.imp fun hlt c hc d hd => Or.inl ?_
    have hc := (mem_fullRound hc).1
    have hd := (mem_fullRound hd).1
    omega

theorem length_fullItinerary : (fullItinerary n).length = 4 * n + 1 := by
  rw [fullItinerary, List.length_cons, List.length_flatMap]
  simp [fullRound]
  omega

end

/-- No call comes twice, none is at an earlier token than the one before it, and their number
    is linear in that of the operands. -/
theorem orderly_of_sublist {calls : List (Procedure × Nat)} {n : Nat}
    (h : calls.Sublist (fullItinerary n)) :
    (calls.map Prod.snd).Pairwise (· ≤ ·) ∧ calls.Nodup ∧ calls.length ≤ 4 * n + 1 := by
  -- `Precedes` is strict, so being in its order is more than being in the order of tokens.
  have hpairwise := (pairwise_fullItinerary n).sublist h
  refine ⟨?_, ?_, ?_⟩
  · refine List.pairwise_map.2 (hpairwise.imp fun hab => ?_)
    rcases hab with hlt | ⟨heq, -⟩
    · exact Nat.le_of_lt hlt
    · exact Nat.le_of_eq heq
  · refine hpairwise.imp fun hab heq => ?_
    subst heq
    simp only [Precedes] at hab
    omega
  · rw [← length_fullItinerary n]
    exact h.length_le

/-- The last call before a token that does not fit is the one that meets it. -/
theorem getLast?_itineraryTo (ts : List Token) (k : Nat) :
    (itineraryTo ts k).getLast? = some (if k % 2 = 0 then .factor else .productTail, k) := by
  rw [itineraryTo, lastRound]
  by_cases hparity : k % 2 = 0
  · have hhalf : 2 * (k / 2) = k := by omega
    rw [if_pos hparity, if_pos hparity, List.append_nil, opening, hhalf, ← List.append_assoc,
      List.getLast?_concat]
  · rw [if_neg hparity, if_neg hparity, ← List.append_assoc, List.getLast?_concat]

/-- The last call of an expression is the one that meets the end marker. -/
theorem getLast?_itinerary {ts : List Token} {n : Nat} (hn : 0 < n)
    (hend : isEndAt ts (2 * n - 1) = true) :
    (itinerary ts n).getLast? = some (.sumTail, 2 * n - 1) := by
  rcases Nat.exists_eq_succ_of_ne_zero (Nat.pos_iff_ne_zero.1 hn) with ⟨m, rfl⟩
  have hlast : 2 * m.succ - 1 = 2 * m + 1 := by omega
  -- The end marker is at the odd index of the last round, whose tail of a sum meets it.
  rw [hlast] at hend ⊢
  rw [itinerary, List.range_succ, List.flatMap_append, List.flatMap_singleton, round, closing,
    if_pos (Or.inr hend), ← List.cons_append, ← List.append_assoc]
  exact List.getLast?_append_of_ne_nil _ (List.cons_ne_nil _ _)

end Grammar

end LineCalc
