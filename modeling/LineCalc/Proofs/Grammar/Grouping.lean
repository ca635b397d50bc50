import LineCalc.Proofs.Grammar.Operands
import Mathlib.Data.List.SplitBy

/-!
# Grouping

The value of operands and operators, computed on two levels.

The operators `+` and `-` cut a sequence of operands into groups. The operands of
a group are multiplied and the groups are added up, both from the right and both
down to the neutral number, so that `8/4-2` becomes
`8 * (1/4 * 1) + (-(2 * 1) + 0)`. No law of arithmetic is used here. The order
of the operations is part of what `total` says.

Every operand comes with the operator in front of it. The first one has none,
and a plus sign is put there.

## Main definitions

* `Grammar.groups`: The operands, cut in front of every `+` and `-`.
* `Grammar.Multiplicative`, `Grammar.StartsAdditive`, `Grammar.IsTerm`: The inside
  of a group, the place where one ends, and a whole group.
* `Grammar.product`, `Grammar.groupValue`, `Grammar.total`: The value of a group
  without its first operand, of a group, and of all groups.

## Theorems

* `Grammar.groups_cons_append`: Where the first group ends.
* `Grammar.isTerm_of_mem_groups`: Every group is one term.
* `Grammar.total_cons_append`: The first group is added to the total of the rest.
-/

namespace LineCalc

namespace Grammar

variable {α : Type}

/-- Operands with an operator in front of each, cut in front of every additive
    operator. -/
def groups (ops : List (Operator × α)) : List (List (Operator × α)) :=
  ops.splitBy fun _ p => !p.1.isAdditive

/-- Every operand is joined to the one before it by `*` or `/`. -/
def Multiplicative (ops : List (Operator × α)) : Prop :=
  ∀ p ∈ ops, p.1.isAdditive = false

/-- There is no operand, or the first one is joined by `+` or `-`. -/
def StartsAdditive (ops : List (Operator × α)) : Prop :=
  ∀ p ∈ ops.head?, p.1.isAdditive = true

/-- Operands that are multiplied are not cut, whatever stands in front of the first of them. -/
theorem isChain_of_multiplicative (p : Operator × α) {ms : List (Operator × α)}
    (hms : Multiplicative ms) : (p :: ms).IsChain fun _ q => (!q.1.isAdditive) = true := by
  induction ms generalizing p with
  | nil => exact List.isChain_singleton p
  | cons q ms ih =>
      have hq : q.1.isAdditive = false := hms q List.mem_cons_self
      rw [List.isChain_cons_cons, hq]
      exact ⟨rfl, ih q fun r hr => hms r (List.mem_cons_of_mem q hr)⟩

/-- The first group ends in front of the first additive operator. -/
theorem groups_cons_append {p : Operator × α} {ms rest : List (Operator × α)}
    (hms : Multiplicative ms) (hrest : StartsAdditive rest) :
    groups (p :: ms ++ rest) = (p :: ms) :: groups rest := by
  unfold groups
  rw [List.splitBy_append, List.splitBy_of_isChain (List.cons_ne_nil p ms)
    (isChain_of_multiplicative p hms)]
  · rfl
  · -- The cut between the two parts is made because `rest` starts with `+` or `-`.
    intro _ _ q hq
    rw [hrest q hq]
    rfl

/-- Operands that form one term: a first one with an additive operator in front
    of it, and others joined to it by `*` or `/`. -/
def IsTerm (g : List (Operator × α)) : Prop :=
  ∃ p ms, g = p :: ms ∧ p.1.isAdditive = true ∧ Multiplicative ms

/-- Operands can be split in front of the first additive operator. -/
theorem exists_multiplicative_append (ops : List (Operator × α)) :
    ∃ ms rest, ops = ms ++ rest ∧ Multiplicative ms ∧ StartsAdditive rest := by
  induction ops with
  | nil => exact ⟨[], [], rfl, fun p hp => (by cases hp), fun p hp => (by cases hp)⟩
  | cons p ops ih =>
      -- An additive operator at the front leaves the multiplicative part empty.
      cases hp : p.1.isAdditive with
      | true =>
          refine ⟨[], p :: ops, rfl, fun q hq => (by cases hq), ?_⟩
          intro q hq
          rcases hq with ⟨⟩
          exact hp
      | false =>
          rcases ih with ⟨ms, rest, rfl, hms, hrest⟩
          refine ⟨p :: ms, rest, rfl, fun q hq => ?_, hrest⟩
          rcases List.mem_cons.1 hq with rfl | hq
          · exact hp
          · exact hms q hq

/-- The groups of operands that start with an additive operator are terms. By induction on the
    length, because a group takes several operands away. -/
theorem isTerm_of_mem_groups {g : List (Operator × α)} :
    ∀ {ops : List (Operator × α)}, StartsAdditive ops → g ∈ groups ops → IsTerm g
  | [], _, hg => by cases hg
  | p :: tail, hops, hg => by
      -- The first group is `p :: ms`, and the others are the groups of `rest`.
      rcases exists_multiplicative_append tail with ⟨ms, rest, htail, hms, hrest⟩
      have hle : rest.length ≤ tail.length := by
        rw [htail, List.length_append]
        omega
      rw [htail, ← List.cons_append, groups_cons_append hms hrest] at hg
      rcases List.mem_cons.1 hg with rfl | hg
      · exact ⟨p, ms, rfl, hops p rfl, hms⟩
      · exact isTerm_of_mem_groups hrest hg
termination_by ops => ops.length
decreasing_by
  rw [List.length_cons]
  omega

variable [Arithmetic α]

/-- What an operand contributes to a product: itself, or its reciprocal if it is
    divided by. -/
def factorValue : Operator × α → α
  | (.slash, x) => Arithmetic.recip x
  | (_, x) => x

/-- The product of operands, combined from the right. -/
def product (ms : List (Operator × α)) : α :=
  ms.foldr (fun p y => Arithmetic.mul (factorValue p) y) Arithmetic.one

/-- What a group contributes to a sum: its product, or the opposite of it if it
    is subtracted. -/
def groupValue : List (Operator × α) → α
  | [] => Arithmetic.zero
  | (.minus, x) :: ms => Arithmetic.neg (Arithmetic.mul x (product ms))
  | (_, x) :: ms => Arithmetic.mul x (product ms)

/-- The sum of the groups of operands, combined from the right. -/
def total (ops : List (Operator × α)) : α :=
  ((groups ops).map groupValue).foldr Arithmetic.add Arithmetic.zero

/-- The first group is added to the total of the others, from the left of it. -/
theorem total_cons_append {p : Operator × α} {ms rest : List (Operator × α)}
    (hms : Multiplicative ms) (hrest : StartsAdditive rest) :
    total (p :: ms ++ rest) = Arithmetic.add (groupValue (p :: ms)) (total rest) := by
  unfold total
  rw [groups_cons_append hms hrest, List.map_cons, List.foldr_cons]

end Grammar

end LineCalc
