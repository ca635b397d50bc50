import LineCalc.Rejection
import LineCalc.Token

/-!
# Readings

The outcome of a grammar procedure, together with what was written down on the
way to it.

A grammar procedure writes a record when it is entered and another one when it
meets a token that does not fit. The records of a reading that fails are kept:
they tell how far it came. So a `Reading` pairs the records with the outcome,
and putting two readings one after the other joins their records, up to the
first that fails.

`andThen` is the sequencing operation for recursive procedures. It tells the
second step how the first one came out, which is what shows that the second
step has less left to read.

## Main definitions

* `Grammar.Procedure`: The procedures of the grammar.
* `Grammar.Record`: One thing that a grammar procedure did.
* `Grammar.Reading`: An outcome and the records that led to it.

## Theorems

* `Grammar.Reading.andThen_eq_bind`: A second step that does not ask how the
  first one came out is an ordinary one.
* `Grammar.Reading.result_bind`, `Grammar.Reading.result_map`: The outcome of a
  reading does not depend on its records.
* `Grammar.Reading.result_bind_eq_ok_iff`: Two steps succeed when both do.
* `Grammar.Reading.map_eq_bind`: Another value is a second step without records.
-/

namespace LineCalc

namespace Grammar

/-- The procedures of the grammar. -/
inductive Procedure where
  | expr
  | sumTail
  | term
  | productTail
  | factor
deriving DecidableEq

/-- The name a procedure has in the journal. -/
def Procedure.name : Procedure → String
  | expr => "EXPR"
  | sumTail => "ER"
  | term => "TERM"
  | productTail => "TR"
  | factor => "FACTOR"

/-- One thing that a grammar procedure did. -/
inductive Record where
  /-- It was entered at the token with this index. -/
  | entered (procedure : Procedure) (index : Nat)
  /-- It met a token that does not fit. -/
  | unexpected (token : Token) (index : Nat)
deriving DecidableEq

theorem map_eq_ok_iff {ε α β : Type} {r : Except ε α} {f : α → β} {y : β} :
    r.map f = .ok y ↔ ∃ x, r = .ok x ∧ f x = y := by
  cases r <;>
    simp only [Except.map, Except.ok.injEq, exists_eq_left', reduceCtorEq, false_and, exists_false]

theorem exists_map_eq_ok_iff {ε α β : Type} {r : Except ε α} {f : α → β} :
    (∃ y, r.map f = .ok y) ↔ ∃ x, r = .ok x := by
  cases r with
  | ok x => exact iff_of_true ⟨f x, rfl⟩ ⟨x, rfl⟩
  | error e => simp only [Except.map, reduceCtorEq, exists_false]

/-- The outcome of a procedure and the records that led to it. -/
structure Reading (α : Type) where
  journal : List Record
  result : Except SyntaxError α

namespace Reading

variable {α β : Type}

/-- A reading that writes one record. -/
def note (r : Record) : Reading Unit :=
  ⟨[r], .ok ()⟩

/-- A reading that fails. -/
def fail (e : SyntaxError) : Reading α :=
  ⟨[], .error e⟩

/-- One reading after another, which is told how the first came out. -/
def andThen (p : Reading α) (f : (x : α) → p.result = .ok x → Reading β) : Reading β :=
  match h : p.result with
  | .ok x =>
    let q := f x h
    ⟨p.journal ++ q.journal, q.result⟩
  | .error e => ⟨p.journal, .error e⟩

/-- A reading with another value. -/
def map (f : α → β) (p : Reading α) : Reading β :=
  ⟨p.journal, p.result.map f⟩

instance : Monad Reading where
  pure x := ⟨[], .ok x⟩
  bind p f := p.andThen fun x _ => f x

theorem andThen_eq_bind (p : Reading α) (f : α → Reading β) :
    (p.andThen fun x _ => f x) = p >>= f :=
  rfl

theorem pure_eq (x : α) : (pure x : Reading α) = ⟨[], .ok x⟩ :=
  rfl

theorem bind_of_ok {p : Reading α} {x : α} (h : p.result = .ok x) (f : α → Reading β) :
    p >>= f = ⟨p.journal ++ (f x).journal, (f x).result⟩ := by
  rcases p with ⟨j, r⟩
  cases h
  rfl

theorem bind_of_error {p : Reading α} {e : SyntaxError} (h : p.result = .error e)
    (f : α → Reading β) : p >>= f = ⟨p.journal, .error e⟩ := by
  rcases p with ⟨j, r⟩
  cases h
  rfl

@[simp]
theorem result_bind (p : Reading α) (f : α → Reading β) :
    (p >>= f).result = p.result >>= fun x => (f x).result := by
  cases h : p.result with
  | ok x => rw [bind_of_ok h]; rfl
  | error e => rw [bind_of_error h]; rfl

@[simp]
theorem result_map (f : α → β) (p : Reading α) : (p.map f).result = p.result.map f :=
  rfl

@[simp]
theorem result_note (r : Record) : (note r).result = .ok () :=
  rfl

@[simp]
theorem result_fail (e : SyntaxError) : (fail e : Reading α).result = .error e :=
  rfl

@[simp]
theorem result_pure (x : α) : (pure x : Reading α).result = .ok x :=
  rfl

theorem result_bind_eq_ok_iff {p : Reading α} {f : α → Reading β} {y : β} :
    (p >>= f).result = .ok y ↔ ∃ x, p.result = .ok x ∧ (f x).result = .ok y := by
  cases h : p.result with
  | ok x => simp only [bind_of_ok h, Except.ok.injEq, exists_eq_left']
  | error e => simp only [bind_of_error h, reduceCtorEq, false_and, exists_false]

theorem result_map_eq_ok_iff {p : Reading α} {f : α → β} {y : β} :
    (p.map f).result = .ok y ↔ ∃ x, p.result = .ok x ∧ f x = y :=
  map_eq_ok_iff

theorem map_eq_bind (f : α → β) (p : Reading α) :
    p.map f = p >>= fun x => (pure (f x) : Reading β) := by
  cases h : p.result with
  | ok x => simp only [bind_of_ok h, map, h, Except.map, pure_eq, List.append_nil]
  | error e => simp only [bind_of_error h, map, h, Except.map]

end Reading

end Grammar

end LineCalc
