/-!
# Checked Arithmetic

Columns, lengths, positions and counters are unsigned 64-bit numbers.

A number that would leave the range is never wrapped around or clamped. The
computation that needs it stops with a `Fault`, so every operation that counts
columns or moves one returns a `Checked` value. Numbers are held as `Nat` and
the range is tested where a number grows or shrinks, which keeps the facts
about columns in plain arithmetic.

`Fault` has one more constructor, for a scanner that claims to have read an
operator without holding one.

## Main definitions

* `Fault`: Why a computation cannot go on.
* `Checked`: A result, or the fault that stopped it.
* `Checked.succ`: The next number, if it is still in range.
* `Checked.sub`: The difference, if it is not below zero.

## Theorems

* `Checked.succ_eq_ok_iff`: The next number exists exactly below the limit.
* `Checked.succ_eq_error_iff`: At the limit there is none.
* `Checked.sub_eq_ok_iff`: A difference exists exactly when it is a number.
* `Checked.sub_eq_error_iff`: Otherwise there is none.
* `Checked.bind_eq_ok_iff`: Two steps succeed when both do.
* `Checked.mapM_eq_ok`, `Checked.exists_mapM_eq_ok`, `Checked.anyM_eq_ok`: Going
  through a list succeeds if every step does.
-/

namespace LineCalc

/-- Why a computation cannot go on. -/
inductive Fault where
  /-- A sum left the range of 64-bit numbers. -/
  | additionOverflow
  /-- A difference fell below zero. -/
  | subtractionOverflow
  /-- The scanner is in the operator state, but its pending text does not
      start with an operator. -/
  | strayOperatorState
deriving DecidableEq

/-- The text that describes a fault. -/
def Fault.message : Fault → String
  | .additionOverflow => "attempt to add with overflow"
  | .subtractionOverflow => "attempt to subtract with overflow"
  | .strayOperatorState => "internal error: entered unreachable code"

/-- A result, or the fault that stopped its computation. -/
abbrev Checked (α : Type) : Type := Except Fault α

namespace Checked

/-- The first number that is out of range. -/
def limit : Nat := Nat.pow 2 64

/-- The number after `n`. -/
def succ (n : Nat) : Checked Nat :=
  if n + 1 < limit then .ok (n + 1) else .error .additionOverflow

/-- The difference `a - b`. -/
def sub (a b : Nat) : Checked Nat :=
  if b ≤ a then .ok (a - b) else .error .subtractionOverflow

theorem succ_eq_ok_iff {n m : Nat} : succ n = .ok m ↔ n + 1 < limit ∧ m = n + 1 := by
  unfold succ
  split <;> rename_i h
  · simp only [Except.ok.injEq, h, true_and]
    exact eq_comm
  · simp only [reduceCtorEq, h, false_and]

theorem succ_eq_error_iff {n : Nat} {e : Fault} :
    succ n = .error e ↔ limit ≤ n + 1 ∧ e = .additionOverflow := by
  unfold succ
  split <;> rename_i h
  · simp only [reduceCtorEq, Nat.not_le.2 h, false_and]
  · simp only [Except.error.injEq, Nat.not_lt.1 h, true_and]
    exact eq_comm

theorem sub_eq_ok_iff {a b d : Nat} : sub a b = .ok d ↔ b ≤ a ∧ d = a - b := by
  unfold sub
  split <;> rename_i h
  · simp only [Except.ok.injEq, h, true_and]
    exact eq_comm
  · simp only [reduceCtorEq, h, false_and]

theorem sub_eq_error_iff {a b : Nat} {e : Fault} :
    sub a b = .error e ↔ a < b ∧ e = .subtractionOverflow := by
  unfold sub
  split <;> rename_i h
  · simp only [reduceCtorEq, Nat.not_lt.2 h, false_and]
  · simp only [Except.error.injEq, Nat.not_le.1 h, true_and]
    exact eq_comm

section

variable {α β : Type} {xs : List α}

theorem bind_eq_ok_iff {x : Checked α} {f : α → Checked β} {y : β} :
    x >>= f = .ok y ↔ ∃ a, x = .ok a ∧ f a = .ok y := by
  cases x with
  | ok a => simp only [bind, Except.bind, Except.ok.injEq, exists_eq_left']
  | error e => simp only [bind, Except.bind, reduceCtorEq, false_and, exists_false]

theorem mapM_eq_ok {f : α → Checked β} {g : α → β} (h : ∀ x ∈ xs, f x = .ok (g x)) :
    xs.mapM f = .ok (xs.map g) := by
  induction xs with
  | nil => rfl
  | cons x xs ih =>
      rw [List.mapM_cons, h x List.mem_cons_self,
        ih fun y hy => h y (List.mem_cons_of_mem x hy)]
      rfl

theorem exists_mapM_eq_ok [Inhabited β] {f : α → Checked β} (h : ∀ x ∈ xs, ∃ y, f x = .ok y) :
    ∃ ys, xs.mapM f = .ok ys := by
  refine ⟨_, mapM_eq_ok (g := fun x => (f x).toOption.getD default) fun x hx => ?_⟩
  rcases h x hx with ⟨y, hy⟩
  rw [hy]
  rfl

theorem anyM_eq_ok {f : α → Checked Bool} {p : α → Bool} (h : ∀ x ∈ xs, f x = .ok (p x)) :
    xs.anyM f = .ok (xs.any p) := by
  induction xs with
  | nil => rfl
  | cons x xs ih =>
      have hrest := ih fun y hy => h y (List.mem_cons_of_mem x hy)
      rw [List.anyM, h x List.mem_cons_self, List.any_cons]
      cases p x
      · exact hrest
      · rfl

end

end Checked

end LineCalc
