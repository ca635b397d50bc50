import LineCalc.Proofs.ClosedSequence
import LineCalc.Grammar.Basic

/-!
# Operands

What a sequence of lexemes spells, before any value is computed from it.

An expression is an operand, an operator, an operand and so on. Precedence plays
no part in that: whether a sequence has this form can be decided from left to
right with one lexeme of memory, and so can the first place where it stops
having it. `operands?` does both. It reads the operands and the operators in
front of them into a list, or gives up at the first lexeme that does not fit,
in the words the grammar would use.

`Spells` is the same form as a relation, without the failures. It takes the
reading of a number text as a parameter, so that one sequence can be read as
floats, as fractions or as whole numbers.

## Main definitions

* `Grammar.operands?`, `Grammar.tail?`: The operands of a sequence that starts
  with an operand, or with an operator.
* `Grammar.Spells`: A sequence has the form of an expression.

## Theorems

* `Grammar.operands?_eq_ok_iff`: What is read is what is spelled.
* `Grammar.Spells.map`, `Grammar.Spells.exists_spells`: Another reading of the same texts.
* `Grammar.Spells.exists_operator_mem`: The operators are those of the sequence.
-/

namespace LineCalc

namespace Grammar

variable {α β : Type}

section

variable (read : String → Option α)

mutual

/-- The first operand and the operands after it, each with the operator in front
    of it. `index` is the index of the first lexeme. -/
def operands? (index : Nat) : List Lexeme → Except SyntaxError (α × List (Operator × α))
  | [] => .error ⟨Token.endText, index⟩
  | .operator op _ :: _ => .error ⟨op.char.toString, index⟩
  | .number text _ :: rest =>
    match read text with
    | some x => (tail? (index + 1) rest).map (x, ·)
    | none => .error ⟨text, index⟩

/-- The operands after an operand, each with the operator in front of it. -/
def tail? (index : Nat) : List Lexeme → Except SyntaxError (List (Operator × α))
  | [] => .ok []
  | .number text _ :: _ => .error ⟨text, index⟩
  | .operator op _ :: rest => (operands? (index + 1) rest).map fun p => (op, p.1) :: p.2

end

/-- The lexemes spell the operand `x` and after it the operands of a list, each
    with the operator in front of it. -/
inductive Spells : List Lexeme → α → List (Operator × α) → Prop where
  | single {text : String} {span : Span} {x : α} :
      read text = some x → Spells [.number text span] x []
  | more {text : String} {span : Span} {op : Operator} {column : Nat} {ls : List Lexeme}
      {x y : α} {ops : List (Operator × α)} :
      read text = some x → Spells ls y ops →
        Spells (.number text span :: .operator op column :: ls) x ((op, y) :: ops)

end

variable {read : String → Option α}

/-- What is spelled is read, at any index. -/
theorem operands?_eq_ok {ls : List Lexeme} {x : α} {ops : List (Operator × α)}
    (h : Spells read ls x ops) (index : Nat) : operands? read index ls = .ok (x, ops) := by
  induction h generalizing index with
  | single hx => simp only [operands?, tail?, hx, Except.map]
  | more hx _ ih => simp only [operands?, tail?, hx, ih, Except.map]

/-- One induction serves both functions, because each hands the rest of the
    sequence to the other. -/
theorem spells_of_eq_ok (ls : List Lexeme) :
    (∀ index x ops, operands? read index ls = .ok (x, ops) → Spells read ls x ops) ∧
      (∀ index ops, tail? read index ls = .ok ops → ls = [] ∧ ops = [] ∨
        ∃ op column rest y more, ls = .operator op column :: rest ∧ ops = (op, y) :: more ∧
          Spells read rest y more) := by
  -- A tail that was read is empty, or an operator with operands behind it.
  induction ls with
  | nil =>
      refine ⟨fun index x ops h => ?_, fun index ops h => ?_⟩
      · cases h
      · cases h
        exact Or.inl ⟨rfl, rfl⟩
  | cons l rest ih =>
      rcases ih with ⟨ihOperands, ihTail⟩
      cases l with
      | number text span =>
          refine ⟨fun index x ops h => ?_, fun index ops h => by cases h⟩
          unfold operands? at h
          split at h
          · rename_i x' hx
            rcases map_eq_ok_iff.1 h with ⟨ops', ht, hp⟩
            cases hp
            -- What follows the operand is nothing, or an operator and operands.
            rcases ihTail _ _ ht with ⟨rfl, rfl⟩ | ⟨op, column, rest', y, more, rfl, rfl, hs⟩
            · exact Spells.single hx
            · exact Spells.more hx hs
          · cases h
      | operator op column =>
          refine ⟨fun index x ops h => (by cases h), fun index ops h => ?_⟩
          unfold tail? at h
          rcases map_eq_ok_iff.1 h with ⟨p, hp, rfl⟩
          exact Or.inr ⟨op, column, rest, p.1, p.2, rfl, rfl, ihOperands _ _ _ hp⟩

theorem operands?_eq_ok_iff {index : Nat} {ls : List Lexeme} {x : α}
    {ops : List (Operator × α)} :
    operands? read index ls = .ok (x, ops) ↔ Spells read ls x ops :=
  ⟨(spells_of_eq_ok ls).1 index x ops, fun h => operands?_eq_ok h index⟩

/-- Reading the same texts in another way changes the operands and nothing
    else. -/
theorem Spells.map {read' : String → Option β} {f : α → β}
    (hread : ∀ text x, read text = some x → read' text = some (f x))
    {ls : List Lexeme} {x : α} {ops : List (Operator × α)} (h : Spells read ls x ops) :
    Spells read' ls (f x) (ops.map fun p => (p.1, f p.2)) := by
  induction h with
  | single hx => exact Spells.single (hread _ _ hx)
  | more hx _ ih => exact Spells.more (hread _ _ hx) ih

/-- Texts that can be read in another way as well spell operands in that way. -/
theorem Spells.exists_spells {read' : String → Option β} {ls : List Lexeme} {x : α}
    {ops : List (Operator × α)} (h : Spells read ls x ops)
    (hread : ∀ text span, .number text span ∈ ls → ∃ y, read' text = some y) :
    ∃ y ops', Spells read' ls y ops' := by
  -- By induction on what is spelled, which has every number of the sequence as an operand.
  induction h with
  | single _ =>
      rcases hread _ _ List.mem_cons_self with ⟨y, hy⟩
      exact ⟨y, [], .single hy⟩
  | more _ _ ih =>
      rcases hread _ _ List.mem_cons_self with ⟨y, hy⟩
      rcases ih fun text span hmem =>
        hread text span (List.mem_cons_of_mem _ (List.mem_cons_of_mem _ hmem)) with ⟨z, ops, hrest⟩
      exact ⟨y, _, .more hy hrest⟩

/-- The operators between the operands are those of the sequence. -/
theorem Spells.exists_operator_mem {ls : List Lexeme} {x : α} {ops : List (Operator × α)}
    (h : Spells read ls x ops) {p : Operator × α} (hp : p ∈ ops) :
    ∃ column, .operator p.1 column ∈ ls := by
  induction h with
  | single _ => cases hp
  | @more text span op column ls x y ops _ _ ih =>
      rcases List.mem_cons.1 hp with rfl | hp
      · exact ⟨column, List.mem_cons_of_mem _ List.mem_cons_self⟩
      · rcases ih hp with ⟨column', hmem⟩
        exact ⟨column', List.mem_cons_of_mem _ (List.mem_cons_of_mem _ hmem)⟩

end Grammar

end LineCalc
