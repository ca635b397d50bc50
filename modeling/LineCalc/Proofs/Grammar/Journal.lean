import LineCalc.Proofs.Grammar.Procedures

/-!
# The Parser's Journal

Which records the procedures of the grammar write, from any cursor on.

A journal joins the records of many calls, and the value that a call hands on has no
part in it. `Reading.Writes` leaves the values out and says how far a call gets through
a list of records that is known beforehand: to its end if the call fails, and otherwise
up to the records that are left for the place where it stopped. Calls that follow each
other pass the list along, so each procedure is looked at once and by itself.

The list is `operandRecords`, which takes the lexemes one by one and takes turns with
`tailRecords` as the procedures do. It needs the operands for nothing but the question
whether they can be read.

## Main definitions

* `Grammar.Reading.Writes`: How far a reading gets through a list of records.
* `Grammar.operandRecords`, `Grammar.tailRecords`: The records from an operand on, or
  from what follows one.

## Theorems

* `Grammar.Reading.Writes.bind`: Two steps pass the list along.
* `Grammar.factor_writes`, `Grammar.productTail_writes`, `Grammar.term_writes`,
  `Grammar.sumTail_writes`, `Grammar.expr_writes`: What each procedure writes.
* `Grammar.journal_parse`: The whole journal of the parser.
-/

namespace LineCalc

namespace Grammar

variable {α β : Type}

namespace Reading

variable {whole : List Record} {p : Reading α}

/-- A reading writes the first records of a list: all of them if it fails, and otherwise all
    but those that `rest` keeps for its value. -/
structure Writes (whole : List Record) (rest : α → List Record) (p : Reading α) : Prop where
  of_ok : ∀ x, p.result = .ok x → p.journal ++ rest x = whole
  of_error : ∀ e, p.result = .error e → p.journal = whole

theorem writes_note (r : Record) (rest : List Record) :
    (note r).Writes (r :: rest) fun _ => rest :=
  ⟨fun _ _ => rfl, fun _ h => by cases h⟩

theorem writes_fail (e : SyntaxError) (rest : α → List Record) :
    (fail e : Reading α).Writes [] rest :=
  ⟨fun _ h => (by cases h), fun _ _ => rfl⟩

/-- A value that is handed on at once leaves the whole list for the place where it is used. -/
theorem writes_pure {x : α} {rest : α → List Record} (h : rest x = whole) :
    (pure x : Reading α).Writes whole rest := by
  refine ⟨fun y hy => ?_, fun _ he => by cases he⟩
  cases hy
  exact h

/-- What the first step leaves is what the second one has to get through. -/
theorem Writes.bind {middle : α → List Record} {rest : β → List Record} {f : α → Reading β}
    (hp : p.Writes whole middle)
    (hf : ∀ x, p.result = .ok x → (f x).Writes (middle x) rest) : (p >>= f).Writes whole rest := by
  cases hresult : p.result with
  | error e =>
      rw [bind_of_error hresult]
      exact ⟨fun x hx => (by cases hx), fun _ _ => hp.of_error e hresult⟩
  | ok x =>
      have hsecond := hf x hresult
      have hwhole := hp.of_ok x hresult
      rw [bind_of_ok hresult]
      -- The outcome of both steps is that of the second.
      refine ⟨fun y hy => ?_, fun e he => ?_⟩
      · rw [List.append_assoc, hsecond.of_ok y hy, hwhole]
      · rw [← hwhole, ← hsecond.of_error e he]

/-- What is made of a value leaves what the value leaves. -/
theorem Writes.map {middle : α → List Record} {rest : β → List Record} {f : α → β}
    (hp : p.Writes whole middle) (hf : ∀ x, rest (f x) = middle x) :
    (p.map f).Writes whole rest := by
  rw [map_eq_bind]
  exact hp.bind fun x _ => writes_pure (hf x)

/-- A reading that leaves nothing writes the whole list, however it comes out. -/
theorem Writes.journal_eq (h : p.Writes whole fun _ => []) : p.journal = whole := by
  cases hresult : p.result with
  | error e => exact h.of_error e hresult
  | ok x =>
      have hwhole := h.of_ok x hresult
      rwa [List.append_nil] at hwhole

end Reading

section

variable (read : String → Option α) (length : Nat)

mutual

/-- The records from a place on where an operand is due. -/
def operandRecords (index : Nat) : List Lexeme → List Record
  | [] => [.entered .factor index, .unexpected (.endOfInput length) index]
  | .operator op column :: _ =>
    [.entered .factor index, .unexpected (.lexeme (.operator op column)) index]
  | .number text _ :: rest =>
    .entered .factor index ::
      match read text with
      | some _ => tailRecords (index + 1) rest
      | none => []

/-- The records from a place on where an operand has just been read. -/
def tailRecords (index : Nat) : List Lexeme → List Record
  | [] => [.entered .productTail index, .entered .sumTail index]
  | .number text span :: _ =>
    [.entered .productTail index, .unexpected (.lexeme (.number text span)) index]
  | .operator op _ :: rest =>
    .entered .productTail index ::
      ((if op.isAdditive then [.entered .sumTail index, .entered .term (index + 1)] else []) ++
        operandRecords (index + 1) rest)

end

end

section

variable [Arithmetic α]

variable (α) in
/-- The records from a cursor on, if an operand is due there. -/
def operandRecordsAt (c : Cursor) : List Record :=
  operandRecords (Arithmetic.literal? (α := α)) c.length c.index c.ahead

variable (α) in
/-- The records from a cursor on, if an operand has just been read. -/
def tailRecordsAt (c : Cursor) : List Record :=
  tailRecords (Arithmetic.literal? (α := α)) c.length c.index c.ahead

/-- Whatever follows an operand, the tail of a product is entered first. -/
theorem tailRecordsAt_eq (c : Cursor) :
    tailRecordsAt α c = .entered .productTail c.index :: (tailRecordsAt α c).tail := by
  rcases c with ⟨index, _ | ⟨_ | _, rest⟩, length⟩ <;> rfl

/-- In front of a sign the rest starts with a sum and a term, and in front of any other operator
    with the operand. -/
theorem tail_tailRecordsAt_operator {c : Cursor} {op : Operator} {column : Nat}
    (hc : c.peek = .lexeme (.operator op column)) :
    (tailRecordsAt α c).tail =
      (if op.isAdditive then [.entered .sumTail c.index, .entered .term c.advance.index] else []) ++
        operandRecordsAt α c.advance := by
  rcases c with ⟨index, ls, length⟩
  rcases Cursor.peek_eq_lexeme_iff.1 hc with ⟨rest, rfl⟩
  rfl

theorem tail_tailRecordsAt_number {c : Cursor} {text : String} {span : Span}
    (hc : c.peek = .lexeme (.number text span)) :
    (tailRecordsAt α c).tail = [.unexpected c.peek c.index] := by
  rcases c with ⟨index, ls, length⟩
  rcases Cursor.peek_eq_lexeme_iff.1 hc with ⟨rest, rfl⟩
  rfl

theorem tail_tailRecordsAt_end {c : Cursor} {n : Nat} (hc : c.peek = .endOfInput n) :
    (tailRecordsAt α c).tail = [.entered .sumTail c.index] := by
  rcases c with ⟨index, ls, length⟩
  rcases peek_eq_endOfInput_iff.1 hc with ⟨rfl, rfl⟩
  rfl

theorem unexpected_writes (c : Cursor) (rest : β → List Record) :
    (unexpected c : Reading β).Writes [.unexpected c.peek c.index] rest :=
  (Reading.writes_note _ _).bind fun _ _ => Reading.writes_fail _ _

theorem factor_writes (c : Cursor) :
    (factor c : Reading (α × Cursor)).Writes (operandRecordsAt α c)
      fun x => tailRecordsAt α x.2 := by
  -- By the token ahead: the marker, a number or an operator.
  rcases c with ⟨index, _ | ⟨_ | ⟨op, column⟩, rest⟩, length⟩
  · exact (Reading.writes_note _ _).bind fun _ _ => unexpected_writes ⟨index, [], length⟩ _
  · rename_i text span
    refine (Reading.writes_note _ _).bind fun _ _ => ?_
    -- A text that cannot be read ends the records without a word about it.
    cases hx : (Arithmetic.literal? text : Option α) with
    | none =>
        simp only [Cursor.peek, hx]
        exact Reading.writes_fail _ _
    | some x =>
        simp only [Cursor.peek, hx]
        exact Reading.writes_pure rfl
  · exact (Reading.writes_note _ _).bind fun _ _ =>
      unexpected_writes ⟨index, .operator op column :: rest, length⟩ _

/-- The tail of a product leaves the records of the place where it stops, without the one of
    its own call there. -/
theorem productTail_writes (c : Cursor) :
    (productTail c : Reading (α × Cursor)).Writes (tailRecordsAt α c)
      fun x => (tailRecordsAt α x.2).tail := by
  rw [productTail_eq, tailRecordsAt_eq]
  refine (Reading.writes_note _ _).bind fun _ _ => ?_
  -- Its own call is written. The rest is left if the product ends here, and gone through if not.
  cases hc : c.peek with
  | endOfInput n => exact Reading.writes_pure rfl
  | lexeme l =>
      cases l with
      | number text span =>
          rw [tail_tailRecordsAt_number hc]
          exact unexpected_writes c _
      | operator op column =>
          cases hop : op.isAdditive with
          | true =>
              simp only [multiplier?_of_additive hop]
              exact Reading.writes_pure rfl
          | false =>
              have hlt := Cursor.length_ahead_advance_lt hc
              simp only [multiplier?_of_not_additive hop]
              rw [tail_tailRecordsAt_operator hc, hop]
              refine (factor_writes c.advance).bind fun x hx => ?_
              -- The call for what follows the factor has less ahead of it.
              have hle : x.2.ahead.length < c.ahead.length := by
                rw [cursor_of_factor hx, Cursor.ahead_advance, List.length_tail]
                omega
              exact (productTail_writes x.2).map fun _ => rfl
termination_by c.ahead.length

/-- A term hands the tail of a product the place behind its factor. -/
theorem term_writes (c : Cursor) :
    (term c : Reading (α × Cursor)).Writes (.entered .term c.index :: operandRecordsAt α c)
      fun x => (tailRecordsAt α x.2).tail := by
  refine (Reading.writes_note _ _).bind fun _ _ => (factor_writes c).bind fun x _ => ?_
  exact (productTail_writes x.2).map fun _ => rfl

/-- A term stops where a term may end. -/
theorem afterTerm_of_term {c : Cursor} {x : α × Cursor} (h : (term c).result = .ok x) :
    AfterTerm x.2 := by
  rcases term_reads (α := α) c with ⟨e, he, -⟩ | ⟨y, ms, d, hd, -, -, hafter, -⟩
  · rw [h] at he
    cases he
  · rw [h] at hd
    cases hd
    exact hafter

/-- The tail of a sum writes all records that are left. -/
theorem sumTail_writes {c : Cursor} (hafter : AfterTerm c) :
    (sumTail c : Reading (α × Cursor)).Writes (tailRecordsAt α c).tail fun _ => [] := by
  rw [sumTail_eq]
  cases hc : c.peek with
  | endOfInput n =>
      rw [tail_tailRecordsAt_end hc]
      exact (Reading.writes_note _ _).bind fun _ _ => Reading.writes_pure rfl
  | lexeme l =>
      rcases hafter l hc with ⟨op, column, rfl, hop⟩
      rcases addend?_of_additive (α := α) hop with ⟨f, hf, -⟩
      have hlt := Cursor.length_ahead_advance_lt hc
      -- Only a sign is left here, and with it a whole term.
      rw [tail_tailRecordsAt_operator hc, hop]
      refine (Reading.writes_note _ _).bind fun _ _ => ?_
      simp only [hf]
      refine (term_writes c.advance).bind fun x hx => ?_
      have hle := length_ahead_of_term hx
      exact (sumTail_writes (afterTerm_of_term hx)).map fun _ => rfl
termination_by c.ahead.length

/-- Behind its first term an expression is the tail of a sum, and that leaves nothing. -/
theorem expr_writes (c : Cursor) :
    (expr c : Reading (α × Cursor)).Writes
      (.entered .expr c.index :: .entered .term c.index :: operandRecordsAt α c) fun _ => [] := by
  refine (Reading.writes_note _ _).bind fun _ _ => (term_writes c).bind fun x hx => ?_
  exact (sumTail_writes (afterTerm_of_term hx)).map fun _ => rfl

/-- The journal of the parser is known from the lexemes, however the parser comes out. -/
theorem journal_parse (c : Cursor) :
    (parse c : Reading α).journal =
      .entered .expr c.index :: .entered .term c.index :: operandRecordsAt α c :=
  (expr_writes c).journal_eq

end

end Grammar

end LineCalc
