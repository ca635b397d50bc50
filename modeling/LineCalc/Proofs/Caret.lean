import LineCalc.Caret

/-!
# Caret Lines without Faults

The caret line of spans that run forward, as plain text.

`Caret.line` subtracts columns in two places, and both are safe for the same reason:
a caret is only asked for at columns from the start of a span on, and a span stops
behind its start. So the columns under which a span puts its carets are a range,
which is the span itself, widened to one column if it is empty.

## Main definitions

* `Span.marks`: The columns that get a caret because of a span.
* `Caret.marking`: The characters of a caret line.

## Theorems

* `Caret.covers_eq`: A span that runs forward covers what it marks.
* `Caret.line_eq`: The caret line of such spans.
* `Rejection.spans_lexical`: What illegal texts point at, if none of them is longer
  than its position allows.
-/

namespace LineCalc

/-- True of the columns that get a caret because of a span. -/
def Span.marks (s : Span) (column : Nat) : Bool :=
  s.start ≤ column ∧ column < max s.stop (s.start + 1)

/-- The columns of illegal texts, counted back from their positions. -/
theorem Rejection.spans_lexical {errors : List LexicalError}
    (h : ∀ e ∈ errors, e.text.length ≤ e.position) (tokens : List Token) :
    (Rejection.lexical errors).spans tokens =
      .ok (errors.map fun e => ⟨e.position - e.text.length, e.position⟩) := by
  refine Checked.mapM_eq_ok fun e he => ?_
  rw [Checked.sub_eq_ok_iff.2 ⟨h e he, rfl⟩]
  rfl

namespace Caret

variable {spans : List Span}

/-- Under a column that is not in front of a span, no subtraction goes below zero. -/
theorem covers_eq {s : Span} (h : s.start ≤ s.stop) (column : Nat) :
    covers column s = .ok (s.marks column) := by
  unfold covers Span.marks
  by_cases hstart : s.start ≤ column
  · -- An empty span gets one column, whether it is counted from its start or not.
    have hwidth : column - s.start < max (s.stop - s.start) 1 ↔
        column < max s.stop (s.start + 1) := by omega
    rw [if_pos hstart, Span.length, Checked.sub_eq_ok_iff.2 ⟨h, rfl⟩]
    simp only [hstart, true_and, ← hwidth]
    rfl
  · simp only [hstart, if_false, false_and, decide_false]

/-- The characters under the columns of a line, up to one column past it. -/
def marking (width : Nat) (spans : List Span) : List Char :=
  (List.range width).map fun column => if spans.any (Span.marks · column) then '^' else ' '

/-- The mark of a column is a caret if any span asks for it. -/
theorem mark_eq (h : ∀ s ∈ spans, s.start ≤ s.stop) (column : Nat) :
    mark spans column = .ok (if spans.any (Span.marks · column) then '^' else ' ') := by
  have hany : spans.anyM (covers column) = .ok (spans.any (Span.marks · column)) :=
    Checked.anyM_eq_ok fun s hs => covers_eq (h s hs) column
  rw [mark, hany]
  cases spans.any (Span.marks · column) <;> rfl

/-- The caret line of spans that run forward. -/
theorem line_eq {text : String} (hlength : text.length + 1 < Checked.limit)
    (h : ∀ s ∈ spans, s.start ≤ s.stop) :
    line text spans = .ok (String.ofList (trimEnd (marking (text.length + 1) spans))) := by
  have hmarks : (List.range (text.length + 1)).mapM (mark spans) =
      .ok (marking (text.length + 1) spans) :=
    Checked.mapM_eq_ok fun column _ => mark_eq h column
  -- The row is one column wider than the line, which is why the length needs a successor.
  have hwidth : Checked.succ text.length = .ok (text.length + 1) :=
    Checked.succ_eq_ok_iff.2 ⟨hlength, rfl⟩
  exact Checked.bind_eq_ok_iff.2 ⟨_, hwidth, Checked.bind_eq_ok_iff.2 ⟨_, hmarks, rfl⟩⟩

end Caret

end LineCalc
