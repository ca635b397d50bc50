import LineCalc.Grammar.Basic
import LineCalc.Proofs.ClosedSequence

/-!
# Visits

Which tokens of a sequence a grammar procedure looks at.

A cursor counts its tokens and holds those ahead of it, and nothing in a cursor ties
the two together. `Cursor.IsIn` does: what is ahead of the cursor is what the
sequence has from its index on. Such a cursor shows the token at its index, so there
is a token at its index, and advancing keeps it in the sequence.

A procedure looks only at the token where it is entered, and writes down the index of
it. So that every token a procedure looks at is one of the sequence is a statement
about its records. Records are written before it is known how a reading ends, and
`Grammar.Reading.Yields` therefore has one part for the records of any reading and
another part for the value of one that succeeds.

## Main definitions

* `Cursor.IsIn`: A cursor at one of the tokens of a sequence.
* `Grammar.Record.IsAbout`: A record about one of the tokens of a sequence.
* `Grammar.Reading.Yields`: What is true of the records of a reading, and of its
  value.

## Theorems

* `Cursor.IsIn.getElem?_eq`: The token at a cursor is the one at its index.
* `Grammar.Reading.Yields.bind`: Two steps keep what each of them keeps.
* `Grammar.factor_visits`, `Grammar.productTail_visits`, `Grammar.term_visits`,
  `Grammar.sumTail_visits`, `Grammar.expr_visits`: No procedure leaves the sequence.
* `Grammar.parse_visits`: Neither does the parser.
-/

namespace LineCalc

namespace Cursor

/-- The tokens from the cursor on are those of a sequence from its index on. -/
def IsIn (ts : List Token) (c : Cursor) : Prop :=
  ts.drop c.index = c.tokens

variable {ts : List Token} {c : Cursor}

/-- The token at a cursor is the one at its index. -/
theorem IsIn.getElem?_eq (h : c.IsIn ts) : ts[c.index]? = some c.peek := by
  have hhead : ts[c.index]? = (ts.drop c.index)[0]? := by
    rw [List.getElem?_drop, Nat.add_zero]
  -- What is ahead of the cursor starts with the token that it shows.
  rw [hhead, h, tokens, peek]
  cases c.ahead <;> rfl

theorem IsIn.index_lt (h : c.IsIn ts) : c.index < ts.length :=
  (List.getElem?_eq_some_iff.1 h.getElem?_eq).1

/-- The next token of the sequence is the next one of the cursor. -/
theorem IsIn.advance (h : c.IsIn ts) : c.advance.IsIn ts := by
  rcases c with ⟨index, ahead, length⟩
  cases ahead with
  -- At the end marker a cursor stays where it is.
  | nil => exact h
  | cons l rest =>
      have hdrop : ts.drop index = .lexeme l :: (⟨index + 1, rest, length⟩ : Cursor).tokens := h
      change ts.drop (index + 1) = _
      rw [← List.drop_drop, hdrop, List.drop_succ_cons, List.drop_zero]
      rfl

/-- A cursor that is made of a sequence is at its first token. -/
theorem isIn_of_ofTokens? (h : ofTokens? ts = .ok c) : c.IsIn ts := by
  rcases ofTokens?_eq_ok_iff.1 h with ⟨hindex, rfl⟩
  rw [IsIn, hindex, List.drop_zero]

end Cursor

namespace Grammar

/-- A record about one of the tokens of a sequence. -/
def Record.IsAbout (ts : List Token) : Record → Prop
  | .entered _ index => index < ts.length
  | .unexpected token index => ts[index]? = some token

namespace Reading

variable {α β : Type} {P : Record → Prop} {Q : α → Prop} {R : β → Prop}

/-- The records of a reading have one property, and its value has another one. -/
structure Yields (P : Record → Prop) (Q : α → Prop) (p : Reading α) : Prop where
  journal : ∀ r ∈ p.journal, P r
  result : ∀ x, p.result = .ok x → Q x

theorem yields_note {r : Record} (h : P r) : (note r).Yields P fun _ => True :=
  ⟨fun _ hr => (List.mem_singleton.1 hr) ▸ h, fun _ _ => trivial⟩

theorem yields_fail (e : SyntaxError) : (fail e : Reading α).Yields P Q :=
  ⟨fun _ hr => absurd hr List.not_mem_nil, fun _ hx => by cases hx⟩

theorem yields_pure {x : α} (h : Q x) : (pure x : Reading α).Yields P Q := by
  refine ⟨fun _ hr => absurd hr List.not_mem_nil, fun y hy => ?_⟩
  cases hy
  exact h

/-- The second step may rely on the value of the first. Its records are kept if the first
    step succeeds, and those of the first step in any case. -/
theorem Yields.bind {p : Reading α} {f : α → Reading β} (hp : p.Yields P Q)
    (hf : ∀ x, p.result = .ok x → Q x → (f x).Yields P R) : (p >>= f).Yields P R := by
  cases hresult : p.result with
  -- The second step is not taken, so there are no records of it.
  | error e =>
      rw [bind_of_error hresult]
      exact ⟨hp.journal, fun _ hx => by cases hx⟩
  | ok x =>
      have hsecond := hf x hresult (hp.result x hresult)
      rw [bind_of_ok hresult]
      exact ⟨List.forall_mem_append.2 ⟨hp.journal, hsecond.journal⟩, hsecond.result⟩

/-- The property of the value is carried along. -/
theorem Yields.map {p : Reading α} {f : α → β} (hp : p.Yields P Q) (hf : ∀ x, Q x → R (f x)) :
    (p.map f).Yields P R := by
  rw [map_eq_bind]
  exact hp.bind fun x _ hx => yields_pure (hf x hx)

end Reading

section

variable {α β : Type} [Arithmetic α] {ts : List Token} {c : Cursor}

/-- A procedure starts with a record of the place where it is entered. -/
theorem entered_visits {p : Reading β} {Q : β → Prop} (h : c.IsIn ts) (procedure : Procedure)
    (hp : p.Yields (Record.IsAbout ts) Q) :
    (Reading.note (.entered procedure c.index) >>= fun _ => p).Yields (Record.IsAbout ts) Q :=
  (Reading.yields_note h.index_lt).bind fun _ _ _ => hp

theorem unexpected_visits {Q : β → Prop} (h : c.IsIn ts) :
    (unexpected c : Reading β).Yields (Record.IsAbout ts) Q :=
  (Reading.yields_note h.getElem?_eq).bind fun _ _ _ => Reading.yields_fail _

/-- A factor looks at one token, and gets past it only if it is a number. -/
theorem factor_visits (h : c.IsIn ts) :
    (factor c : Reading (α × Cursor)).Yields (Record.IsAbout ts) fun x => x.2.IsIn ts := by
  refine entered_visits h .factor ?_
  split
  · split
    · exact Reading.yields_pure h.advance
    · exact Reading.yields_fail _
  · exact unexpected_visits h

/-- By induction on the lexemes ahead, of which a factor takes one away. -/
theorem productTail_visits {c : Cursor} (h : c.IsIn ts) :
    (productTail c : Reading (α × Cursor)).Yields (Record.IsAbout ts) fun x => x.2.IsIn ts := by
  rw [productTail_eq]
  refine entered_visits h .productTail ?_
  -- A multiplier, a sign, a number or the end marker is ahead.
  split
  · rename_i hpeek
    split
    · refine (factor_visits h.advance).bind fun x hx hin => ?_
      have hlt : x.2.ahead.length < c.ahead.length := by
        have hadvance := Cursor.length_ahead_advance_lt hpeek
        rw [cursor_of_factor hx, Cursor.ahead_advance, List.length_tail]
        omega
      exact (productTail_visits hin).map fun _ hy => hy
    · exact Reading.yields_pure h
  · exact unexpected_visits h
  · exact Reading.yields_pure h
termination_by c.ahead.length

/-- The factor of a term leaves its tail a cursor in the sequence. -/
theorem term_visits (h : c.IsIn ts) :
    (term c : Reading (α × Cursor)).Yields (Record.IsAbout ts) fun x => x.2.IsIn ts := by
  refine entered_visits h .term ((factor_visits h).bind fun x _ hin => ?_)
  exact (productTail_visits hin).map fun _ hy => hy

/-- By induction on the lexemes ahead, of which the operator takes one away. -/
theorem sumTail_visits {c : Cursor} (h : c.IsIn ts) :
    (sumTail c : Reading (α × Cursor)).Yields (Record.IsAbout ts) fun x => x.2.IsIn ts := by
  rw [sumTail_eq]
  refine entered_visits h .sumTail ?_
  split
  · rename_i hpeek
    split
    · refine (term_visits h.advance).bind fun x hx hin => ?_
      have hlt : x.2.ahead.length < c.ahead.length :=
        Nat.lt_of_le_of_lt (length_ahead_of_term hx) (Cursor.length_ahead_advance_lt hpeek)
      exact (sumTail_visits hin).map fun _ hy => hy
    · exact unexpected_visits h
  · exact unexpected_visits h
  · exact Reading.yields_pure h
termination_by c.ahead.length

/-- So does the first term of an expression. -/
theorem expr_visits (h : c.IsIn ts) :
    (expr c : Reading (α × Cursor)).Yields (Record.IsAbout ts) fun x => x.2.IsIn ts := by
  refine entered_visits h .expr ((term_visits h).bind fun x _ hin => ?_)
  exact (sumTail_visits hin).map fun _ hy => hy

/-- Every token that is looked at while a sequence is parsed is one of the sequence. -/
theorem parse_visits (h : c.IsIn ts) :
    ∀ r ∈ (parse c : Reading α).journal, r.IsAbout ts :=
  (expr_visits h).journal

end

end Grammar

end LineCalc
