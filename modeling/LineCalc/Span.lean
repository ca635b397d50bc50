import LineCalc.Checked

/-!
# Spans

Where a lexeme stands in its line.

A line is one row of characters, so a pair of columns is enough. Columns count
characters from zero, and a span holds its first column but not its last. People
count columns from one and name the last one they mean, so the readable form of
the span from `2` to `6` is `columns 3 to 6`.

Nothing forces `start ≤ stop`. The length of a span that runs backwards is a
fault, and so is the readable form of a span at the end of the number range.

## Main definitions

* `Span`: A range of columns.
* `Span.length`: The number of columns in it.
* `Span.display`: Its readable form.
* `Span.sort`: Spans in order.
-/

namespace LineCalc

/-- The columns from `start` up to, not including, `stop`. Spans are ordered by
    their start, then by their stop. -/
structure Span where
  start : Nat
  stop : Nat
deriving DecidableEq, Ord, Inhabited

namespace Span

/-- True if a span starts where it stops. -/
def isEmpty (s : Span) : Bool :=
  s.start = s.stop

/-- The number of columns in a span. -/
def length (s : Span) : Checked Nat :=
  Checked.sub s.stop s.start

/-- The columns of a span as people count them, from one. -/
def display (s : Span) : Checked String := do
  let first ← Checked.succ s.start
  return s!"columns {first} to {s.stop}"

/-- Spans in increasing order. -/
def sort (spans : List Span) : List Span :=
  spans.mergeSort fun a b => (compare a b).isLE

end Span

end LineCalc
