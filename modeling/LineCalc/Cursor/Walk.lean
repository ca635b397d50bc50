import LineCalc.Cursor.Basic

/-!
# Cursor Walks

Moving a cursor by commands, with one place to come back to.

A walk remembers one saved cursor besides the current one. At the outset both
are the place where the walk starts.

## Main definitions

* `Move`: One command of a walk.
* `Walk`: The current cursor and the saved one.
* `Walk.step`: Obeying one command.
* `Walk.run`: Obeying commands in order.
-/

namespace LineCalc

/-- One command of a walk. -/
inductive Move where
  /-- Look at the token under the cursor. -/
  | peek
  /-- Look at the token under the cursor and move past it. -/
  | advance
  /-- Remember the cursor. -/
  | save
  /-- Go back to the remembered cursor. -/
  | restore
deriving DecidableEq

/-- A cursor on its way, and the cursor it can go back to. -/
structure Walk where
  cursor : Cursor
  saved : Cursor
deriving DecidableEq

namespace Walk

/-- A walk that starts at `c`. -/
def start (c : Cursor) : Walk :=
  ⟨c, c⟩

/-- The token that a command answers with, and the walk after it. -/
def step (w : Walk) : Move → Option Token × Walk
  | .peek => (some w.cursor.peek, w)
  | .advance => (some w.cursor.peek, { w with cursor := w.cursor.advance })
  | .save => (none, { w with saved := w.cursor })
  | .restore => (none, { w with cursor := w.saved })

/-- The answer to each command and the cursor after it. -/
def run (w : Walk) : List Move → List (Option Token × Cursor)
  | [] => []
  | m :: rest =>
    let (answer, next) := w.step m
    (answer, next.cursor) :: next.run rest

end Walk

end LineCalc
