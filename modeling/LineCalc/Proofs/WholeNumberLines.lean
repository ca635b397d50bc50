import LineCalc.Proofs.Number.FloatBits
import LineCalc.Proofs.SinglePass

/-!
# Lines of Whole Numbers

The value of a line without a division.

Such a line spells whole numbers, added, subtracted and multiplied, and its exact value is a
whole number as well. The parser reads the same operands as floats, and computes with floats.
If the line is small, which is a condition on the numbers in it and not on what is computed,
nothing is rounded on the way and the answer is the exact value.

The condition cannot be about the value alone. The value of `9007199254740993-9007199254740992`
is one, but the first number is read as the same float as the second, and the answer is zero.

## Theorems

* `exists_spells_of_evaluate`: The whole numbers that an accepted line spells.
* `evaluate_whole`: A small line without a division has its exact value.
-/

namespace LineCalc

open Findings Grammar Whole

section

variable {line : String} {l : Lexed}

/-- The operators of a line are characters of it. -/
theorem char_mem_of_operator (h : tokenize line = .ok l) {op : Operator} {column : Nat}
    (hx : .operator op column ∈ l.lexemes) : op.char ∈ line.toList := by
  rcases exists_cuts_of_tokenize h with ⟨fs, hcuts, hlists⟩
  rw [hlists.lexemes] at hx
  rcases hcuts.exists_split hx with ⟨pre, w, post, hline, hw, -⟩
  rw [hline]
  refine List.mem_append_right _ (List.mem_append_left _ ?_)
  cases w with
  | zero => cases hw
  | numeral d ds hd hds => cases hw
  | operator op' =>
      cases hw
      exact List.mem_singleton_self _

theorem exists_wholeNumber_of_tokenize (h : tokenize line = .ok l) {text : String} {span : Span}
    (hx : .number text span ∈ l.lexemes) : ∃ n, wholeNumber? text = some n := by
  rcases digits_of_tokenize h hx with ⟨d, ds, rfl, hdigits⟩
  exact ⟨_, wholeNumber?_ofList hdigits⟩

/-- An accepted line spells whole numbers, and its value is the total of the floats that they
    are read as. -/
theorem exists_spells_of_evaluate {v : Float} (hl : tokenize line = .ok l)
    (hv : evaluate line = .ok (.ok v)) :
    ∃ n ops, Spells wholeNumber? l.lexemes n ops ∧
      v = total ((.plus, Literal.toFloat ⟨false, .decimal n 0⟩) ::
        ops.map fun p => (p.1, Literal.toFloat ⟨false, .decimal p.2 0⟩)) := by
  rcases exists_parse_of_evaluate hv with ⟨l', hl', -, hparse⟩
  cases hl.symm.trans hl'
  rw [result_parse] at hparse
  rcases map_eq_ok_iff.1 hparse with ⟨p, hoperands, rfl⟩
  have hfloats := operands?_eq_ok_iff.1 hoperands
  rcases hfloats.exists_spells fun text span hx => exists_wholeNumber_of_tokenize hl hx
    with ⟨n, ops, hwhole⟩
  -- The same lexemes spell the same operands, whichever way they are read.
  have hread := operands?_eq_ok (hwhole.map fun _ _ => float_literal?_of_wholeNumber?) 0
  have hsame := hoperands.symm.trans hread
  cases hsame
  exact ⟨n, ops, hwhole, rfl⟩

end

/-- A line without a division that has a value spells whole numbers. If its size is not larger
    than `2 ^ 53`, its value is the whole number that the usual rules give, exactly. -/
theorem evaluate_whole {line : String} {v : Float} (hv : evaluate line = .ok (.ok v))
    (hslash : '/' ∉ line.toList) :
    ∃ l n ops, tokenize line = .ok l ∧ Spells wholeNumber? l.lexemes n ops ∧
      (size ((.plus, n) :: ops) ≤ 2 ^ 53 → ∃ z : Int,
        (z : ℚ) = standardValue ((.plus, (n : ℚ)) :: ops.map fun p => (p.1, (p.2 : ℚ))) ∧
          floatValue? v = some (z : ℚ)) := by
  rcases Checked.bind_eq_ok_iff.1 hv with ⟨e, hrun, -⟩
  rcases Checked.bind_eq_ok_iff.1 hrun with ⟨l, hl, -⟩
  rcases exists_spells_of_evaluate hl hv with ⟨n, ops, hspells, rfl⟩
  refine ⟨l, n, ops, hl, hspells, fun hsize => ?_⟩
  -- An operator of the operands is a character of the line, and this one is not there.
  have hoperators : ∀ p ∈ ops, p.1 ≠ .slash := by
    intro p hp hop
    rcases hspells.exists_operator_mem hp with ⟨column, hx⟩
    have hchar := char_mem_of_operator hl hx
    rw [hop] at hchar
    exact hslash hchar
  rcases exists_total_eq exactOnWholes hoperators hsize with ⟨z, hz, hwhole⟩
  exact ⟨z, hz, hwhole.floatValue?_eq⟩

/-- `2+3*4-20` is minus six. -/
theorem evaluate_whole_mixed :
    ∃ v, evaluate "2+3*4-20" = .ok (.ok v) ∧ '/' ∉ "2+3*4-20".toList ∧
      size [(.plus, 2), (.plus, 3), (.asterisk, 4), (.minus, 20)] ≤ 2 ^ 53 ∧
      floatValue? v = some (-6) := by
  have hlexed : (tokenize "2+3*4-20").map (fun l => (l.lexemes, l.errors)) =
      .ok ([.number "2" ⟨0, 1⟩, .operator .plus 1, .number "3" ⟨2, 3⟩, .operator .asterisk 3,
        .number "4" ⟨4, 5⟩, .operator .minus 5, .number "20" ⟨6, 8⟩], []) := rfl
  have hslash : '/' ∉ "2+3*4-20".toList := by decide
  have hsize : size [(.plus, 2), (.plus, 3), (.asterisk, 4), (.minus, 20)] ≤ 2 ^ 53 := by decide
  rcases map_eq_ok_iff.1 hlexed with ⟨l, hl, hread⟩
  rcases Prod.mk.inj hread with ⟨hlexemes, herrors⟩
  have haccepted : ∃ v, evaluate "2+3*4-20" = .ok (.ok v) := by
    rw [evaluate_of_tokenize hl, outcome_of_no_errors herrors, result_parse, hlexemes]
    exact ⟨_, rfl⟩
  rcases haccepted with ⟨v, hv⟩
  rcases evaluate_whole hv hslash with ⟨l', n, ops, hl', hspells, hexact⟩
  cases hl.symm.trans hl'
  -- The line spells no other numbers than these.
  rw [hlexemes] at hspells
  have hoperands : (2, [(.plus, 3), (.asterisk, 4), (.minus, 20)]) = (n, ops) :=
    Except.ok.inj (operands?_eq_ok hspells 0)
  cases hoperands
  rcases hexact hsize with ⟨z, hz, hvalue⟩
  refine ⟨v, hv, hslash, hsize, ?_⟩
  rw [hvalue, hz]
  decide +kernel

end LineCalc
