import LineCalc.Proofs.Grammar.Precedence
import Mathlib.Algebra.GroupWithZero.Nat

/-!
# Whole Numbers

How far whole numbers can be computed with before anything is rounded.

Without a division every operand is a whole number and so is every intermediate value, but
which values there are depends on the order of the operations. The grammar combines from the
right, so it computes the product of the last factors of a term and the sum of the last terms
of an expression. These can be larger than the result: before `0*7*8` becomes zero, `7*8` has
been computed, and `3-9+8` contains `-9+8`. What bounds them all is the size of an expression,
in which zeros count as ones and all terms are added.

Nothing else has to be known of the number domain than that it is exact as long as the results
stay below a bound. `ExactOnWholes` says this of any domain, and then the induction over terms
and factors is about whole numbers only. It runs through the fractions at the same time, where
the value is known.

## Main definitions

* `ExactOnWholes`: A number domain that is exact on whole numbers up to a bound.
* `Grammar.weight`, `Grammar.size`: Bounds on what is computed for a term, and for an
  expression.
* `Grammar.Agree`: Two number domains have come to the same whole number.

## Theorems

* `Grammar.agree_product`, `Grammar.agree_groupValue`, `Grammar.agree_total`: The factors of
  a term, a term and an expression are computed exactly.
* `Grammar.exists_total_eq`: An expression of whole numbers has its usual value.
-/

namespace LineCalc

/-- Whole numbers are computed with exactly, unless the result is larger than a bound.
    `IsWhole x z` says that `x` is the whole number `z`, and `read n` is what digits that spell
    `n` are read as. -/
structure ExactOnWholes (α : Type) [Arithmetic α] (bound : Nat) (IsWhole : α → Int → Prop)
    (read : Nat → α) : Prop where
  zero : IsWhole Arithmetic.zero 0
  one : IsWhole Arithmetic.one 1
  add : ∀ {x y : α} {a b : Int}, IsWhole x a → IsWhole y b → (a + b).natAbs ≤ bound →
    IsWhole (Arithmetic.add x y) (a + b)
  mul : ∀ {x y : α} {a b : Int}, IsWhole x a → IsWhole y b → (a * b).natAbs ≤ bound →
    IsWhole (Arithmetic.mul x y) (a * b)
  neg : ∀ {x : α} {a : Int}, IsWhole x a → IsWhole (Arithmetic.neg x) (-a)
  whole : ∀ {n : Nat}, n ≤ bound → IsWhole (read n) n
  literal : ∀ {text : String} {n : Nat}, wholeNumber? text = some n →
    Arithmetic.literal? text = some (read n)

namespace Grammar

/-- The product of the operands of a term, with each zero taken as a one. -/
def weight (g : List (Operator × Nat)) : Nat :=
  (g.map fun p => max 1 p.2).prod

/-- The sum of the weights of all terms. -/
def size (ops : List (Operator × Nat)) : Nat :=
  ((groups ops).map weight).sum

example : size [(.plus, 7), (.asterisk, 0), (.minus, 3)] = 10 := by decide

variable {α : Type} [Arithmetic α] {bound : Nat} {IsWhole : α → Int → Prop} {read : Nat → α}
  {ms ops rest : List (Operator × Nat)} {p : Operator × Nat}

theorem weight_cons (p : Operator × Nat) (ms : List (Operator × Nat)) :
    weight (p :: ms) = max 1 p.2 * weight ms :=
  List.prod_cons

/-- The first term and the others are counted by themselves. -/
theorem size_cons_append (hms : Multiplicative ms) (hrest : StartsAdditive rest) :
    size (p :: ms ++ rest) = weight (p :: ms) + size rest := by
  unfold size
  rw [groups_cons_append hms hrest, List.map_cons, List.sum_cons]

/-- A factor of zero makes a product smaller, but not its weight, which counts a one for it. -/
theorem natAbs_mul_le {n w : Nat} {z : Int} (hz : z.natAbs ≤ w) : (n * z).natAbs ≤ max 1 n * w := by
  rw [Int.natAbs_mul, Int.natAbs_natCast]
  exact Nat.mul_le_mul (Nat.le_max_right 1 n) hz

/-- No term has a weight of zero, even if its value is zero. -/
theorem weight_pos (ms : List (Operator × Nat)) : 0 < weight ms := by
  induction ms with
  | nil => exact Nat.one_pos
  | cons p ms ih =>
      rw [weight_cons]
      exact Nat.mul_pos (by omega) ih

theorem multiplicative_map {β : Type} (f : Nat → β) (hms : Multiplicative ms) :
    Multiplicative (ms.map fun p => (p.1, f p.2)) :=
  List.forall_mem_map.2 hms

theorem startsAdditive_map {β : Type} (f : Nat → β) (hrest : StartsAdditive rest) :
    StartsAdditive (rest.map fun p => (p.1, f p.2)) := by
  intro q hq
  rw [List.head?_map, Option.mem_map] at hq
  rcases hq with ⟨p, hp, rfl⟩
  exact hrest p hp

/-- The total splits behind the first term in every number domain, and at the same place. -/
theorem total_map_cons_append {β : Type} [Arithmetic β] (f : Nat → β) (hms : Multiplicative ms)
    (hrest : StartsAdditive rest) :
    total ((p :: ms ++ rest).map fun q => (q.1, f q.2)) =
      Arithmetic.add (groupValue ((p :: ms).map fun q => (q.1, f q.2)))
        (total (rest.map fun q => (q.1, f q.2))) := by
  rw [List.map_append, List.map_cons]
  exact total_cons_append (multiplicative_map f hms) (startsAdditive_map f hrest)

theorem factorValue_of_ne_slash {β : Type} [Arithmetic β] {op : Operator} (h : op ≠ .slash)
    (x : β) : factorValue (op, x) = x := by
  cases op with
  | plus => rfl
  | minus => rfl
  | asterisk => rfl
  | slash => exact absurd rfl h

/-- A number of some domain and a fraction are the same whole number, which is not larger than
    a bound. -/
def Agree (IsWhole : α → Int → Prop) (bound : Nat) (x : α) (q : ℚ) : Prop :=
  ∃ z : Int, (z : ℚ) = q ∧ IsWhole x z ∧ z.natAbs ≤ bound

section

variable (hexact : ExactOnWholes α bound IsWhole read)

include hexact

/-- A factor in front of a product. It may be zero, and then the product behind it still has
    to be exact. -/
theorem agree_mul {n w : Nat} {x : α} {q : ℚ} (h : Agree IsWhole w x q) (hw : 0 < w)
    (hbound : max 1 n * w ≤ bound) :
    Agree IsWhole (max 1 n * w) (Arithmetic.mul (read n) x) (n * q) := by
  rcases h with ⟨z, hz, hx, hle⟩
  have hprod := natAbs_mul_le (n := n) hle
  have hn : n ≤ max 1 n * w := Nat.le_trans (Nat.le_max_right 1 n) (Nat.le_mul_of_pos_right _ hw)
  -- The product is within the bound, and so is the factor, since the weight is not zero.
  refine ⟨n * z, ?_, hexact.mul (hexact.whole (hn.trans hbound)) hx (hprod.trans hbound), hprod⟩
  rw [← hz, Int.cast_mul, Int.cast_natCast]

/-- By induction on the factors. Behind each of them stands the product of the others. -/
theorem agree_product (hslash : ∀ p ∈ ms, p.1 ≠ .slash) (hweight : weight ms ≤ bound) :
    Agree IsWhole (weight ms) (product (ms.map fun p => (p.1, read p.2)))
      (product (ms.map fun p => (p.1, (p.2 : ℚ)))) := by
  induction ms with
  | nil => exact ⟨1, Int.cast_one, hexact.one, Nat.le_refl 1⟩
  | cons p ms ih =>
      rcases List.forall_mem_cons.1 hslash with ⟨hp, hms⟩
      have hpos := weight_pos ms
      rw [weight_cons] at hweight ⊢
      have hrest := ih hms (Nat.le_trans (Nat.le_mul_of_pos_left _ (by omega)) hweight)
      -- The weight of the other factors is within the bound because that of this one is not zero.
      have hstep := agree_mul hexact hrest hpos hweight
      rw [List.map_cons, List.map_cons]
      unfold product at hstep ⊢
      rw [List.foldr_cons, List.foldr_cons, factorValue_of_ne_slash hp,
        factorValue_of_ne_slash hp]
      exact hstep

/-- A term is a factor in front of a product, and a minus sign does not change its size. -/
theorem agree_groupValue (hp : p.1.isAdditive = true) (hslash : ∀ q ∈ ms, q.1 ≠ .slash)
    (hweight : weight (p :: ms) ≤ bound) :
    Agree IsWhole (weight (p :: ms)) (groupValue ((p :: ms).map fun q => (q.1, read q.2)))
      (groupValue ((p :: ms).map fun q => (q.1, (q.2 : ℚ)))) := by
  rcases p with ⟨op, n⟩
  rw [weight_cons] at hweight ⊢
  have hrest := agree_product hexact hslash
    (Nat.le_trans (Nat.le_mul_of_pos_left _ (by omega)) hweight)
  -- The first number of a term is one more factor.
  have hterm := agree_mul hexact hrest (weight_pos ms) hweight
  cases op with
  | plus => exact hterm
  | minus =>
      rcases hterm with ⟨z, hz, hx, hle⟩
      refine ⟨-z, ?_, hexact.neg hx, by rwa [Int.natAbs_neg]⟩
      rw [Int.cast_neg, hz]
      rfl
  | asterisk => cases hp
  | slash => cases hp

/-- By induction on the terms. Behind each of them stands the sum of the others. -/
theorem agree_total : ∀ {ops : List (Operator × Nat)}, StartsAdditive ops →
    (∀ p ∈ ops, p.1 ≠ .slash) → size ops ≤ bound →
    Agree IsWhole (size ops) (total (ops.map fun p => (p.1, read p.2)))
      (total (ops.map fun p => (p.1, (p.2 : ℚ))))
  | [], _, _, _ => ⟨0, Int.cast_zero, hexact.zero, Nat.le_refl 0⟩
  | p :: tail, hops, hslash, hsize => by
      -- A step takes the first term away, which is more than one operand.
      rcases exists_multiplicative_append tail with ⟨ms, rest, htail, hms, hrest⟩
      have hlt : rest.length < (p :: tail).length := by
        rw [htail, List.length_cons, List.length_append]
        omega
      rw [htail, ← List.cons_append] at hslash hsize ⊢
      rcases List.forall_mem_append.1 hslash with ⟨hfirst, hothers⟩
      rw [size_cons_append hms hrest] at hsize ⊢
      rw [total_map_cons_append read hms hrest, total_map_cons_append _ hms hrest]
      rcases agree_groupValue hexact (hops p rfl) (List.forall_mem_cons.1 hfirst).2 (by omega)
        with ⟨a, ha, hx, hle⟩
      rcases agree_total hrest hothers (by omega) with ⟨b, hb, hy, hle'⟩
      -- Both numbers may be negative, so only their sizes add up.
      have hsum : (a + b).natAbs ≤ weight (p :: ms) + size rest :=
        (Int.natAbs_add_le a b).trans (Nat.add_le_add hle hle')
      refine ⟨a + b, ?_, hexact.add hx hy (hsum.trans hsize), hsum⟩
      rw [Int.cast_add, ha, hb]
      rfl
termination_by ops => ops.length

/-- An expression of whole numbers without a division has its usual value, if its size is not
    larger than what the number domain is exact up to. -/
theorem exists_total_eq {n : Nat} (hslash : ∀ p ∈ ops, p.1 ≠ .slash)
    (hsize : size ((.plus, n) :: ops) ≤ bound) :
    ∃ z : Int, (z : ℚ) = standardValue ((.plus, (n : ℚ)) :: ops.map fun p => (p.1, (p.2 : ℚ))) ∧
      IsWhole (total ((.plus, read n) :: ops.map fun p => (p.1, read p.2))) z := by
  -- A plus sign is put in front of the first operand.
  have hstart : StartsAdditive ((Operator.plus, n) :: ops) := by
    intro p hp
    cases hp
    rfl
  have hall : ∀ p ∈ (Operator.plus, n) :: ops, p.1 ≠ .slash :=
    List.forall_mem_cons.2 ⟨fun h => (by cases h), hslash⟩
  rcases agree_total hexact hstart hall hsize with ⟨z, hz, hx, -⟩
  refine ⟨z, ?_, hx⟩
  rw [← total_eq_standardValue, hz]
  rfl

end

end Grammar

end LineCalc
