import LineCalc.Cursor.Walk
import LineCalc.Proofs.Grammar.Visits

/-!
# Walks along a Sequence

Where a cursor can get to, by any commands in any order.

That no command leads past the end marker is decided when a sequence is accepted: from
there on a cursor has the end marker ahead of it, and advancing keeps it there. What is
left to say is where exactly a walk is. Without going back its index would be the number
of advances, cut off at the end marker. Going back undoes moves, so the advances have to
be counted in the moves that are still in force, and `Walk.history` picks these out. It
reads the moves from the latest one backwards, because it is the last save that a walk
goes back to.

A walk has two cursors, and the saved one may become the current one at any time.
`Walk.Follows` says the same of both, each with a history of its own, and this is what
one move preserves.

## Main definitions

* `Walk.history`, `Walk.savedHistory`: The moves that are still in force, for the current
  cursor and for the saved one.
* `Cursor.IsAfter`: A cursor to which a number of advances leads.
* `Walk.Follows`: A walk is where its moves lead to.
* `Walk.places`: The cursors of a walk, the one where it starts included.
* `Walk.Obeys`: What a walk does at each of its moves.

## Theorems

* `Cursor.IsIn.atEnd_iff`, `Cursor.IsIn.index_advance`: The end marker is the last token,
  and no advance leads past it.
* `Walk.Follows.step`, `Walk.Follows.after`: One move, and then all of them.
* `Walk.index_le_index_after`: Without going back a walk does not go back.
* `Walk.walks_closed_sequence`: Which sequences can be walked along, and how.
-/

namespace LineCalc

namespace Cursor

variable {ts : List Token} {c : Cursor} {n : Nat}

/-- The tokens from a cursor on are the last ones of its sequence. -/
theorem IsIn.index_add_length (h : c.IsIn ts) : c.index + c.ahead.length = ts.length - 1 := by
  have hlt := h.index_lt
  have hlength := congrArg List.length h
  rw [tokens, List.length_drop, List.length_append, List.length_map,
    List.length_singleton] at hlength
  omega

/-- The end marker has the last index. -/
theorem IsIn.atEnd_iff (h : c.IsIn ts) : c.atEnd = true ↔ c.index = ts.length - 1 := by
  have hlength := h.index_add_length
  rw [Cursor.atEnd_iff, ← List.length_eq_zero_iff]
  omega

theorem advance_of_atEnd (h : c.atEnd = true) : c.advance = c := by
  rw [Cursor.atEnd_iff] at h
  unfold advance
  rw [h]

/-- The index grows by one, unless it is the last. -/
theorem IsIn.index_advance (h : c.IsIn ts) :
    c.advance.index = min (ts.length - 1) (c.index + 1) := by
  have hlength := h.index_add_length
  unfold Cursor.advance
  split <;> rename_i hahead
  · rw [hahead, List.length_nil] at hlength
    omega
  · rw [hahead, List.length_cons] at hlength
    simp only
    omega

/-- A cursor to which `n` advances lead from the first token of a sequence. -/
def IsAfter (ts : List Token) (n : Nat) (c : Cursor) : Prop :=
  c.IsIn ts ∧ c.index = min (ts.length - 1) n

theorem isAfter_zero (h : ofTokens? ts = .ok c) : c.IsAfter ts 0 := by
  refine ⟨isIn_of_ofTokens? h, ?_⟩
  rw [(ofTokens?_eq_ok_iff.1 h).1, Nat.min_zero]

/-- One more advance leads one token further, as long as there is one. -/
theorem IsAfter.advance (h : c.IsAfter ts n) : c.advance.IsAfter ts (n + 1) := by
  rcases h with ⟨hin, hindex⟩
  refine ⟨hin.advance, ?_⟩
  rw [hin.index_advance, hindex]
  omega

end Cursor

namespace Walk

mutual

/-- The moves that are still in force for the place of a walk, from all its moves. The
    latest move is the first one of both lists. -/
def history : List Move → List Move
  | [] => []
  | .restore :: earlier => savedHistory earlier
  | m :: earlier => m :: history earlier

/-- The moves that are still in force for the saved place. This is the place where the walk
    was when it saved last, or its start. -/
def savedHistory : List Move → List Move
  | [] => []
  | .save :: earlier => .save :: history earlier
  | _ :: earlier => savedHistory earlier

end

/-- The number of advances that are still in force after some moves. -/
def advances (moves : List Move) : Nat :=
  (history moves.reverse).count .advance

example : advances [.advance, .save, .advance, .advance, .restore, .advance] = 2 := by decide

/-- A walk is where its moves lead to, and so is the place that it has saved. `earlier` are
    its moves, the latest first. -/
structure Follows (ts : List Token) (earlier : List Move) (w : Walk) : Prop where
  cursor : w.cursor.IsAfter ts ((history earlier).count .advance)
  saved : w.saved.IsAfter ts ((savedHistory earlier).count .advance)

section

variable {ts : List Token} {earlier moves : List Move} {w : Walk} {c : Cursor}

theorem follows_start (h : Cursor.ofTokens? ts = .ok c) : (start c).Follows ts [] :=
  ⟨Cursor.isAfter_zero h, Cursor.isAfter_zero h⟩

/-- One move keeps both places where their moves lead to. -/
theorem Follows.step (h : w.Follows ts earlier) (m : Move) :
    (w.step m).2.Follows ts (m :: earlier) := by
  rcases h with ⟨hcursor, hsaved⟩
  -- Saving and going back make one of the two places the other.
  cases m with
  | peek => exact ⟨hcursor, hsaved⟩
  | advance =>
      refine ⟨?_, hsaved⟩
      rw [history, List.count_cons_self]
      · exact hcursor.advance
      · exact fun h => by cases h
  | save => exact ⟨hcursor, hcursor⟩
  | restore => exact ⟨hsaved, hsaved⟩

/-- The walk after some commands. -/
def after (w : Walk) (moves : List Move) : Walk :=
  moves.foldl (fun w m => (w.step m).2) w

theorem after_append (w : Walk) (front rest : List Move) :
    w.after (front ++ rest) = (w.after front).after rest :=
  List.foldl_append

/-- All moves do. By induction on them, for every walk that has come somewhere already. -/
theorem Follows.after (h : w.Follows ts earlier) :
    (w.after moves).Follows ts (moves.reverse ++ earlier) := by
  induction moves generalizing w earlier with
  | nil => exact h
  | cons m moves ih =>
      rw [List.reverse_cons, List.append_assoc]
      exact ih (h.step m)

/-- A walk that does not go back does not go back to an earlier token. -/
theorem index_le_index_after (h : .restore ∉ moves) :
    w.cursor.index ≤ (w.after moves).cursor.index := by
  induction moves generalizing w with
  | nil => exact Nat.le_refl _
  | cons m moves ih =>
      rcases not_or.1 (fun hmem => h (List.mem_cons.2 hmem)) with ⟨hm, hrest⟩
      -- No other move leads to a smaller index.
      have hstep : w.cursor.index ≤ (w.step m).2.cursor.index := by
        cases m with
        | peek => exact Nat.le_refl _
        | advance =>
            rw [step, Cursor.advance]
            split
            · exact Nat.le_refl _
            · exact Nat.le_succ _
        | save => exact Nat.le_refl _
        | restore => exact absurd rfl hm
      exact Nat.le_trans hstep (ih hrest)

/-- Every move is answered once. -/
theorem length_run (w : Walk) (moves : List Move) : (w.run moves).length = moves.length := by
  induction moves generalizing w with
  | nil => rfl
  | cons m moves ih => exact congrArg Nat.succ (ih (w.step m).2)

/-- The answer to a move is given where the moves before it have led to. -/
theorem getElem?_run (w : Walk) (moves : List Move) (k : Nat) :
    (w.run moves)[k]? = moves[k]?.map fun m =>
      (((w.after (moves.take k)).step m).1, ((w.after (moves.take k)).step m).2.cursor) := by
  -- By induction on the moves, for every walk. The first move is the first answer.
  induction moves generalizing w k with
  | nil => rfl
  | cons m moves ih =>
      cases k with
      | zero => rfl
      | succ k => exact ih (w.step m).2 k

/-- The cursors of a walk: the one where it starts, and the one after each command. -/
def places (w : Walk) (moves : List Move) : List Cursor :=
  w.cursor :: (w.run moves).map Prod.snd

/-- A place is where the moves before it lead to. -/
theorem eq_after_of_places {k : Nat} {d : Cursor} (h : (w.places moves)[k]? = some d) :
    d = (w.after (moves.take k)).cursor := by
  -- The first place is where the walk starts, and every other one belongs to a move.
  cases k with
  | zero =>
      cases h
      rfl
  | succ k =>
      rw [places, List.getElem?_cons_succ, List.getElem?_map, getElem?_run] at h
      rcases Option.map_eq_some_iff.1 h with ⟨p, hp, rfl⟩
      rcases Option.map_eq_some_iff.1 hp with ⟨m, hm, rfl⟩
      rw [List.take_add_one, hm, Option.toList_some, after_append]
      rfl

end

/-- What a walk from the start of a sequence does. The place before the command `k` is the
    entry `k` of `places`, and the answer to it and the place after it are the entry `k` of
    `run`. -/
structure Obeys (ts : List Token) (c : Cursor) (moves : List Move) : Prop where
  /-- Every command is answered. -/
  length_run : ((start c).run moves).length = moves.length
  /-- Every place is a token of the sequence, and the token to be seen there. -/
  inside : ∀ d ∈ (start c).places moves, d.index ≤ ts.length - 1 ∧ ts[d.index]? = some d.peek
  index_eq : ∀ (k : Nat) (d : Cursor), ((start c).places moves)[k]? = some d →
    d.index = min (ts.length - 1) (advances (moves.take k))
  atEnd_iff : ∀ d ∈ (start c).places moves, d.atEnd = true ↔ d.index = ts.length - 1
  peek : ∀ (k : Nat) (d : Cursor), moves[k]? = some Move.peek →
    ((start c).places moves)[k]? = some d → ((start c).run moves)[k]? = some (ts[d.index]?, d)
  /-- The answer is the token that is passed, and the end marker is not passed. -/
  advance : ∀ (k : Nat) (d : Cursor), moves[k]? = some Move.advance →
    ((start c).places moves)[k]? = some d →
    ∃ d', ((start c).run moves)[k]? = some (ts[d.index]?, d') ∧ (d.atEnd = true → d' = d)
  save : ∀ (k : Nat) (d : Cursor), moves[k]? = some Move.save →
    ((start c).places moves)[k]? = some d → ((start c).run moves)[k]? = some (none, d)
  /-- Between two places without going back, the index does not decrease. -/
  index_mono : ∀ (j k : Nat) (d d' : Cursor), j ≤ k → Move.restore ∉ (moves.take k).drop j →
    ((start c).places moves)[j]? = some d → ((start c).places moves)[k]? = some d' →
    d.index ≤ d'.index

section

variable {ts : List Token} {c : Cursor}

/-- What has been shown of a walk holds of all its beginnings. -/
theorem follows_take (h : Cursor.ofTokens? ts = .ok c) (moves : List Move) (k : Nat) :
    ((start c).after (moves.take k)).Follows ts (moves.take k).reverse := by
  have hfollows : ((start c).after (moves.take k)).Follows ts ((moves.take k).reverse ++ []) :=
    (follows_start h).after
  rwa [List.append_nil] at hfollows

theorem isIn_of_mem_places (h : Cursor.ofTokens? ts = .ok c) {moves : List Move} {d : Cursor}
    (hd : d ∈ (start c).places moves) : d.IsIn ts := by
  rcases List.mem_iff_getElem?.1 hd with ⟨k, hk⟩
  rw [eq_after_of_places hk]
  exact (follows_take h moves k).cursor.1

theorem run_of_getElem? {w : Walk} {moves : List Move} {k : Nat} {m : Move}
    (hm : moves[k]? = some m) : (w.run moves)[k]? =
      some (((w.after (moves.take k)).step m).1, ((w.after (moves.take k)).step m).2.cursor) := by
  rw [getElem?_run, hm, Option.map_some]

/-- A walk along a closed sequence does at each of its moves what is asked for. -/
theorem obeys_of_ofTokens? (h : Cursor.ofTokens? ts = .ok c) (moves : List Move) :
    Obeys ts c moves := by
  -- Both `peek` and `advance` answer with the token at the index of the place.
  have hseen (k : Nat) : some ((start c).after (moves.take k)).cursor.peek =
      ts[((start c).after (moves.take k)).cursor.index]? :=
    (follows_take h moves k).cursor.1.getElem?_eq.symm
  refine ⟨Walk.length_run _ _, fun d hd => ?_, fun k d hd => ?_, fun d hd => ?_,
    fun k d hm hd => ?_, fun k d hm hd => ?_, fun k d hm hd => ?_,
    fun j k d d' hjk hmoves hd hd' => ?_⟩
  · have hin := isIn_of_mem_places h hd
    exact ⟨Nat.le_sub_one_of_lt hin.index_lt, hin.getElem?_eq⟩
  · rw [eq_after_of_places hd]
    exact (follows_take h moves k).cursor.2
  · exact (isIn_of_mem_places h hd).atEnd_iff
  · rw [run_of_getElem? hm, eq_after_of_places hd, ← hseen]
    rfl
  · rw [run_of_getElem? hm, eq_after_of_places hd, ← hseen]
    exact ⟨_, rfl, Cursor.advance_of_atEnd⟩
  · rw [run_of_getElem? hm, eq_after_of_places hd]
    rfl
  · -- What is between the two places are the moves that do not go back.
    have htake : moves.take k = moves.take j ++ (moves.take k).drop j := by
      have hsplit := List.take_append_drop j (moves.take k)
      rw [List.take_take, Nat.min_eq_left hjk] at hsplit
      exact hsplit.symm
    rw [eq_after_of_places hd, eq_after_of_places hd', htake, after_append]
    exact index_le_index_after hmoves

end

/-- A sequence can be walked along if it has one end marker and that is its last token, and
    every other sequence is rejected for the token to blame. A walk starts at the first token.
    It never leaves the sequence, whatever the commands are: its index is the number of
    advances that are still in force, but no more than the index of the end marker. -/
theorem walks_closed_sequence (ts : List Token) :
    ((∃ c, Cursor.ofTokens? ts = .ok c) ↔ Cursor.IsClosed ts) ∧
      (∀ e, Cursor.ofTokens? ts = .error e ↔ Cursor.Offends 0 ts e) ∧
      ∀ c, Cursor.ofTokens? ts = .ok c → c.index = 0 ∧ ∀ moves, Obeys ts c moves :=
  ⟨Cursor.exists_ofTokens?_eq_ok_iff, fun _ => Cursor.ofTokens?_eq_error_iff,
    fun _ hc => ⟨(Cursor.ofTokens?_eq_ok_iff.1 hc).1, obeys_of_ofTokens? hc⟩⟩

/-- Along `5 + 3` and back: the third advance meets the end marker, and what was advanced
    behind the saved place does not count any more. -/
theorem walks_closed_sequence_back :
    let c : Cursor := ⟨0, [.number "5" ⟨0, 1⟩, .operator .plus 2, .number "3" ⟨4, 5⟩], 5⟩
    let moves : List Move := [.advance, .save, .advance, .advance, .advance, .restore, .peek]
    Cursor.ofTokens? c.tokens = .ok c ∧ Obeys c.tokens c moves ∧
      ((start c).places moves).map Cursor.index = [0, 1, 1, 2, 3, 3, 1, 1] := by
  intro c moves
  have hc : Cursor.ofTokens? c.tokens = .ok c := rfl
  exact ⟨hc, ((walks_closed_sequence c.tokens).2.2 c hc).2 moves, rfl⟩

end Walk

end LineCalc
