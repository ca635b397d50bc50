import LineCalc.Cursor.Basic

/-!
# Closed Sequences

What a cursor remembers of the tokens it was made from.

`Cursor.ofTokens?` takes a sequence apart: the lexemes are kept as they are and
the end marker shrinks to a length. Nothing is lost by that, and
`Cursor.tokens` puts the sequence together again. So a sequence is accepted
exactly when it has the form that `tokens` gives it, and a statement about
accepted sequences is a statement about lexemes and a length.

A sequence can fail to be closed in three ways, and in each of them one token is
to blame. `Cursor.Offends` names it by its index in the whole sequence, while
`Cursor.close?` takes the tokens one by one and counts along. The induction
between the two moves the blame one token back with every lexeme.

## Main definitions

* `Cursor.tokens`: The tokens from a cursor on, the end marker included.
* `Cursor.IsClosed`: A sequence has one end marker, and that is its last token.
* `Cursor.Offends`: The token that keeps a sequence from being closed.

## Theorems

* `Cursor.take_tokens`: Before the end marker there are only lexemes.
* `Cursor.close?_eq_ok_iff`: A sequence is closed when it is lexemes and one end
  marker after them.
* `Cursor.ofTokens?_eq_ok_iff`: A cursor starts at index `0` and has the whole
  sequence ahead.
* `Cursor.exists_ofTokens?_eq_ok_iff`: The closed sequences are accepted.
* `Cursor.ofTokens?_eq_error_iff`: The others are rejected for the token to
  blame.
-/

namespace LineCalc

namespace Cursor

/-- The tokens from a cursor on, the end marker included. -/
def tokens (c : Cursor) : List Token :=
  c.ahead.map .lexeme ++ [.endOfInput c.length]

theorem take_tokens {c : Cursor} {k : Nat} (hk : k ≤ c.ahead.length) :
    c.tokens.take k = (c.ahead.take k).map .lexeme := by
  rw [tokens, List.take_append_of_le_length (by rwa [List.length_map]), List.map_take]

/-- Lexemes and one end marker are taken apart without an error, whatever index is counted from. -/
theorem close?_map_append (index : Nat) (ls : List Lexeme) (n : Nat) :
    close? index (ls.map .lexeme ++ [.endOfInput n]) = .ok (ls, n) := by
  induction ls generalizing index with
  | nil => rfl
  | cons l ls ih =>
      -- The rest is never empty, so the third and fourth equations do not apply.
      cases ls with
      | nil => rfl
      | cons l' ls =>
          rw [List.map_cons, List.cons_append, List.map_cons, List.cons_append, close?]
          · have h := ih (index + 1)
            rw [List.map_cons, List.cons_append] at h
            rw [h]
            rfl
          · simp only [reduceCtorEq, imp_false, not_false_eq_true]

/-- A sequence is taken apart into what it is put together from. -/
theorem close?_eq_ok_iff {index n : Nat} {ts : List Token} {ls : List Lexeme} :
    close? index ts = .ok (ls, n) ↔ ts = ls.map .lexeme ++ [.endOfInput n] := by
  constructor
  · intro h
    fun_induction close? index ts generalizing ls with
    | case1 => cases h
    | case2 => cases h; rfl
    | case3 => cases h
    | case4 => cases h
    | case5 index l rest hrest ih =>
        -- Only the last equation recurses, on what follows a lexeme.
        cases hc : close? (index + 1) rest with
        | error e => rw [hc] at h; cases h
        | ok p =>
            rw [hc] at h
            cases h
            rw [ih hc, List.map_cons, List.cons_append]
  · rintro rfl
    exact close?_map_append index ls n

/-- A cursor is made from a sequence exactly if the tokens from it on are this sequence. -/
theorem ofTokens?_eq_ok_iff {ts : List Token} {c : Cursor} :
    ofTokens? ts = .ok c ↔ c.index = 0 ∧ ts = c.tokens := by
  unfold ofTokens? tokens
  constructor
  · intro h
    cases hc : close? 0 ts with
    | error e => rw [hc] at h; cases h
    | ok p =>
        rw [hc] at h
        cases h
        exact ⟨rfl, close?_eq_ok_iff.1 hc⟩
  · intro h
    rcases h with ⟨hi, rfl⟩
    rw [close?_map_append]
    -- The index is the one thing that the tokens do not tell.
    rcases c with ⟨i, ls, n⟩
    cases hi
    rfl

/-- A sequence with one end marker, which is its last token. -/
def IsClosed (ts : List Token) : Prop :=
  ts.countP Token.isEnd = 1 ∧ ∃ t, ts.getLast? = some t ∧ t.isEnd = true

theorem exists_lexemes {ts : List Token} (h : ∀ t ∈ ts, t.isEnd = false) :
    ∃ ls : List Lexeme, ts = ls.map .lexeme := by
  induction ts with
  | nil => exact ⟨[], rfl⟩
  | cons t ts ih =>
      rcases List.forall_mem_cons.1 h with ⟨ht, hts⟩
      rcases ih hts with ⟨ls, rfl⟩
      cases t with
      | lexeme l => exact ⟨l :: ls, rfl⟩
      | endOfInput n => cases ht

theorem isEnd_of_mem_map {ls : List Lexeme} {t : Token} (h : t ∈ ls.map Token.lexeme) :
    t.isEnd = false := by
  rcases List.mem_map.1 h with ⟨l, -, rfl⟩
  rfl

/-- One end marker, and that at the end, means lexemes and one end marker. -/
theorem isClosed_iff {ts : List Token} :
    IsClosed ts ↔ ∃ (ls : List Lexeme) (n : Nat), ts = ls.map .lexeme ++ [.endOfInput n] := by
  constructor
  · intro h
    rcases h with ⟨hcount, t, hlast, ht⟩
    rcases List.getLast?_eq_some_iff.1 hlast with ⟨front, rfl⟩
    -- The last token is the one end marker that was counted.
    rw [List.countP_append, List.countP_singleton, if_pos ht, Nat.add_eq_right,
      List.countP_eq_zero] at hcount
    rcases exists_lexemes fun u hu => Bool.eq_false_iff.2 (hcount u hu) with ⟨ls, rfl⟩
    cases t with
    | lexeme l => cases ht
    | endOfInput n => exact ⟨ls, n, rfl⟩
  · intro h
    rcases h with ⟨ls, n, rfl⟩
    refine ⟨?_, .endOfInput n, List.getLast?_concat, rfl⟩
    have hfront : (ls.map Token.lexeme).countP Token.isEnd = 0 :=
      List.countP_eq_zero.2 fun t ht => Bool.eq_false_iff.1 (isEnd_of_mem_map ht)
    rw [List.countP_append, hfront]
    rfl

/-- The closed sequences are those that a cursor can be made from. -/
theorem exists_ofTokens?_eq_ok_iff {ts : List Token} :
    (∃ c, ofTokens? ts = .ok c) ↔ IsClosed ts := by
  rw [isClosed_iff]
  constructor
  · intro h
    rcases h with ⟨c, hc⟩
    exact ⟨c.ahead, c.length, (ofTokens?_eq_ok_iff.1 hc).2⟩
  · intro h
    rcases h with ⟨ls, n, rfl⟩
    exact ⟨⟨0, ls, n⟩, ofTokens?_eq_ok_iff.2 ⟨rfl, rfl⟩⟩

/-- The token that keeps a sequence from being closed, with its index. The first token has
    the index `start`. -/
inductive Offends (start : Nat) (ts : List Token) : SyntaxError → Prop where
  /-- There is no token at all. -/
  | missing : ts = [] → Offends start ts ⟨Token.endText, start⟩
  /-- The first end marker is not the last token. -/
  | early {k : Nat} {t : Token} : ts[k]? = some t → t.isEnd = true →
      (∀ j < k, ∀ u, ts[j]? = some u → u.isEnd = false) → k + 1 < ts.length →
      Offends start ts ⟨t.text, start + k⟩
  /-- There is no end marker, and the tokens end with another one. -/
  | unmarked {t : Token} : (∀ u ∈ ts, u.isEnd = false) → ts.getLast? = some t →
      Offends start ts ⟨t.text, start + (ts.length - 1)⟩

section

variable {start : Nat} {ts : List Token} {e e' : SyntaxError}

/-- The blame moves one index back behind a lexeme, unless there is nothing to blame. -/
theorem Offends.cons {l : Lexeme} (h : Offends (start + 1) ts e) (hts : ts ≠ []) :
    Offends start (.lexeme l :: ts) e := by
  -- By what the blame is for.
  cases h with
  | missing hnil => exact absurd hnil hts
  | @early k t hk ht hbefore hlt =>
      rw [Nat.add_right_comm, Nat.add_assoc]
      refine .early hk ht ?_ (Nat.succ_lt_succ hlt)
      rintro (_ | j) hj u hu
      · cases hu
        rfl
      · exact hbefore j (Nat.lt_of_succ_lt_succ hj) u hu
  | @unmarked t hall hlast =>
      have hplace : start + 1 + (ts.length - 1) =
          start + ((Token.lexeme l :: ts).length - 1) := by
        have hpos := List.length_pos_iff.2 hts
        rw [List.length_cons]
        omega
      rw [hplace]
      refine .unmarked (List.forall_mem_cons.2 ⟨rfl, hall⟩) ?_
      rw [List.getLast?_cons, hlast, Option.getD_some]

/-- An error of the recursion names the token to blame, counted from the same start. -/
theorem offends_of_close? (h : close? start ts = .error e) : Offends start ts e := by
  -- One case for each equation, of which only the last goes on.
  fun_induction close? start ts with
  | case1 start =>
      cases h
      exact .missing rfl
  | case2 => cases h
  | case3 start n t rest =>
      cases h
      exact .early (k := 0) rfl rfl (fun j hj => absurd hj (Nat.not_lt_zero j))
        (Nat.succ_lt_succ (Nat.succ_pos _))
  | case4 start l =>
      cases h
      exact .unmarked (List.forall_mem_singleton.2 rfl) rfl
  | case5 start l rest hrest ih =>
      -- The blame is with a token of the rest, because a lexeme stands before some token.
      cases hc : close? (start + 1) rest with
      | error e' =>
          rw [hc] at h
          cases h
          exact (ih hc).cons hrest
      | ok p =>
          rw [hc] at h
          cases h

/-- No more than one token is to blame. -/
theorem Offends.unique (h : Offends start ts e) (h' : Offends start ts e') : e = e' := by
  -- Two reasons exclude each other, or name the same token.
  cases h with
  | missing hnil =>
      subst hnil
      cases h' with
      | missing _ => rfl
      | early hk => cases hk
      | unmarked _ hlast => cases hlast
  | @early k t hk ht hbefore _ =>
      cases h' with
      | missing hnil =>
          subst hnil
          cases hk
      | @early k' t' hk' ht' hbefore' _ =>
          -- Before the first end marker there is no other.
          rcases Nat.lt_trichotomy k k' with hlt | rfl | hlt
          · rw [hbefore' k hlt t hk] at ht
            cases ht
          · rw [hk] at hk'
            cases hk'
            rfl
          · rw [hbefore k' hlt t' hk'] at ht'
            cases ht'
      | unmarked hall _ =>
          rw [hall t (List.mem_of_getElem? hk)] at ht
          cases ht
  | unmarked hall hlast =>
      cases h' with
      | missing hnil =>
          subst hnil
          cases hlast
      | @early k t hk ht _ _ =>
          rw [hall t (List.mem_of_getElem? hk)] at ht
          cases ht
      | unmarked _ hlast' =>
          rw [hlast] at hlast'
          cases hlast'
          rfl

/-- In a closed sequence no token is to blame. -/
theorem IsClosed.not_offends (h : IsClosed ts) : ¬ Offends start ts e := by
  rcases isClosed_iff.1 h with ⟨ls, n, rfl⟩
  intro hoffends
  cases hoffends with
  | missing hnil => exact List.append_ne_nil_of_right_ne_nil _ (List.cons_ne_nil _ _) hnil
  | @early k t hk ht _ hlt =>
      -- In front of the last token there are only lexemes.
      rw [List.length_append, List.length_singleton] at hlt
      rw [List.getElem?_append_left (by omega)] at hk
      rw [isEnd_of_mem_map (List.mem_of_getElem? hk)] at ht
      cases ht
  | unmarked hall _ =>
      have hmarker := hall (.endOfInput n) (List.mem_append_right _ List.mem_cons_self)
      cases hmarker

/-- A sequence that is not accepted is rejected for the token to blame. -/
theorem ofTokens?_eq_error_iff : ofTokens? ts = .error e ↔ Offends 0 ts e := by
  -- The outcome is known in both cases, so each side is decided by it.
  cases hresult : ofTokens? ts with
  | ok c =>
      refine iff_of_false (fun h => by cases h) ?_
      exact (exists_ofTokens?_eq_ok_iff.1 ⟨c, hresult⟩).not_offends
  | error e' =>
      have hoffends : Offends 0 ts e' := by
        unfold ofTokens? at hresult
        cases hc : close? 0 ts with
        | ok p =>
            rw [hc] at hresult
            cases hresult
        | error e'' =>
            rw [hc] at hresult
            cases hresult
            exact offends_of_close? hc
      constructor
      · intro h
        cases h
        exact hoffends
      · intro h
        rw [hoffends.unique h]

end

end Cursor

end LineCalc
