import LineCalc.Proofs.Scanner.Findings

/-!
# Progress

Scanning without a machine: what has been found so far, and the word that is
still being read.

`Progress.read` is one step of a scanner in which nothing is counted, nothing is
written down and nothing can fail. The state of the automaton is gone as well,
because the word tells it. What is left is the decision of the scanner at every
character: either it joins the word, or the word is complete and the character
starts anew.

The rules of `Scans` take a number away as a whole, and a step sees one
character of it. They meet in `Scans.finish_readAll`, which starts in the middle of
a line with any word that the next character does not join.

## Main definitions

* `Progress`: Findings, and the word that is being read with its column.
* `Progress.joins`: The characters that a word can be prolonged by.
* `Progress.completed`: What a word is, once it is known where it stops.
* `Progress.read`, `Progress.readAll`: Reading characters.
* `Progress.finish`: The findings at the end of a line.
* `Progress.size`: The number of findings, with the word as one of them.

## Theorems

* `Scans.finish_readAll`: Reading finds what there is to find.
* `Progress.size_readAll_le`: There are no more findings than characters.
-/

namespace LineCalc

open Findings

/-- What has been found in the characters read so far. `word` holds those at the
    end that may belong to one more lexeme, and `start` the column of the first
    of them. -/
structure Progress where
  found : List Finding := []
  word : List Char := []
  start : Nat := 0

namespace Progress

/-- True if a character prolongs a word. Only a digit does, and only a number
    that does not start with `0`. -/
def joins : List Char → Char → Bool
  | [], _ => false
  | d :: _, ch => CharClass.of d = .nonZeroDigit && ch.isDigit

/-- What the word is, if `stop` is the column after it. -/
def completed (p : Progress) (stop : Nat) : List Finding :=
  match p.word with
  | [] => []
  | ch :: _ =>
    match Operator.ofChar? ch with
    | some op => [.lexeme (.operator op p.start)]
    | none => [.lexeme (.number (String.ofList p.word) ⟨p.start, stop⟩)]

/-- The word is complete. -/
def flushed (p : Progress) (stop : Nat) : Progress :=
  { p with found := p.found ++ p.completed stop, word := [] }

/-- Read the character `ch` at `column`. -/
def read (p : Progress) (ch : Char) (column : Nat) : Progress :=
  if joins p.word ch then
    { p with word := p.word ++ [ch] }
  else
    let p := p.flushed column
    match CharClass.of ch with
    | .whitespace => p
    | .illegal => { p with found := p.found ++ [.illegal ⟨ch.toString, column + 1⟩] }
    | _ => { p with word := [ch], start := column }

/-- Read characters, each at its column. -/
def readAll (p : Progress) (input : List (Char × Nat)) : Progress :=
  input.foldl (fun p c => p.read c.1 c.2) p

/-- The findings at the end of a line. -/
def finish (p : Progress) (stop : Nat) : List Finding :=
  p.found ++ p.completed stop

/-- The number of findings, with the word as one of them. -/
def size (p : Progress) : Nat :=
  p.found.length + if p.word = [] then 0 else 1

section

variable {p : Progress} {ch : Char} {column : Nat}

theorem readAll_cons (c : Char × Nat) (input : List (Char × Nat)) :
    p.readAll (c :: input) = (p.read c.1 c.2).readAll input := rfl

theorem readAll_append (input input' : List (Char × Nat)) :
    p.readAll (input ++ input') = (p.readAll input).readAll input' :=
  List.foldl_append

theorem read_of_joins (h : joins p.word ch = true) :
    p.read ch column = { p with word := p.word ++ [ch] } := by
  rw [read, if_pos h]

theorem joins_of_isDigit {d : Char} {w : List Char} (hd : CharClass.of d = .nonZeroDigit)
    (hch : ch.isDigit = true) : joins (d :: w) ch = true := by
  rw [joins, hd, hch]
  rfl

@[simp]
theorem completed_nil (found : List Finding) (start stop : Nat) :
    completed ⟨found, [], start⟩ stop = [] := rfl

/-- A word is one finding, and none if it is empty. -/
theorem length_completed_le (p : Progress) (stop : Nat) :
    (p.completed stop).length ≤ if p.word = [] then 0 else 1 := by
  unfold completed
  split
  · exact Nat.zero_le _
  · rename_i hw
    rw [hw]
    split <;> exact Nat.le_refl _

/-- No digit is an operator, so a word that starts with one is a number. -/
theorem completed_number {d : Char} (hd : d.isDigit = true) (found : List Finding)
    (w : List Char) (start stop : Nat) :
    completed ⟨found, d :: w, start⟩ stop =
      [.lexeme (.number (String.ofList (d :: w)) ⟨start, stop⟩)] := by
  have hop : Operator.ofChar? d = none := by
    -- An operator is told from its character, and none of the four characters is a digit.
    rw [Option.eq_none_iff_forall_ne_some]
    intro op hop
    rw [Operator.ofChar?_eq_some_iff.1 hop] at hd
    cases op <;> cases hd
  simp only [completed, hop]

/-- A word that is an operator stands in one column, wherever it stops. -/
theorem completed_operator (op : Operator) (found : List Finding) (start stop : Nat) :
    completed ⟨found, [op.char], start⟩ stop = [.lexeme (.operator op start)] := by
  simp only [completed, Operator.ofChar?_char]

/-- Digits join a number one after the other. -/
theorem readAll_digits {d : Char} {w : List Char} (hw : p.word = d :: w)
    (hd : CharClass.of d = .nonZeroDigit) {ds : List (Char × Nat)}
    (hds : ∀ c ∈ ds, c.1.isDigit = true) :
    p.readAll ds = { p with word := p.word ++ ds.map Prod.fst } := by
  induction ds generalizing p w with
  | nil => rw [List.map_nil, List.append_nil]; rfl
  | cons c ds ih =>
      have hjoins : joins p.word c.1 = true := by
        rw [hw]
        exact joins_of_isDigit hd (hds c List.mem_cons_self)
      -- The word still starts with `d`, which is all that the next digit asks for.
      have hword : p.word ++ [c.1] = d :: (w ++ [c.1]) := by rw [hw, List.cons_append]
      rw [readAll_cons, read_of_joins hjoins,
        ih hword fun c' hc' => hds c' (List.mem_cons_of_mem c hc')]
      rw [List.map_cons, List.append_assoc, List.singleton_append]

theorem joins_of_not_isDigit (w : List Char) (h : ch.isDigit = false) : joins w ch = false := by
  cases w with
  | nil => rfl
  | cons d w => rw [joins, h, Bool.and_false]

/-- Nothing joins a word of one character, unless that is a digit from `1` to `9`. -/
theorem joins_singleton {d : Char} (hd : CharClass.of d ≠ .nonZeroDigit) :
    joins [d] ch = false := by
  rw [joins, decide_eq_false hd, Bool.false_and]

/-- A character that can start a lexeme starts a word. -/
theorem read_start (hjoins : joins p.word ch = false) (hblank : CharClass.of ch ≠ .whitespace)
    (hillegal : CharClass.of ch ≠ .illegal) :
    p.read ch column = ⟨p.found ++ p.completed column, [ch], column⟩ := by
  rw [read, hjoins]
  cases hch : CharClass.of ch with
  | whitespace => exact absurd hch hblank
  | illegal => exact absurd hch hillegal
  | nonZeroDigit => rfl
  | zero => rfl
  | operator => rfl

theorem not_isDigit (hzero : CharClass.of ch ≠ .zero) (hdigit : CharClass.of ch ≠ .nonZeroDigit) :
    ch.isDigit = false := by
  rw [Bool.eq_false_iff, ne_eq, CharClass.isDigit_iff]
  exact fun h => h.elim hzero hdigit

/-- A blank completes the word, and nothing is left of it. -/
theorem read_blank (h : CharClass.of ch = .whitespace) :
    p.read ch column = p.flushed column := by
  have hdigit : ch.isDigit = false := not_isDigit (by rw [h]; decide) (by rw [h]; decide)
  rw [read, joins_of_not_isDigit p.word hdigit, h]
  rfl

/-- An illegal character completes the word and is reported behind it. -/
theorem read_illegal (h : CharClass.of ch = .illegal) :
    p.read ch column =
      ⟨p.found ++ p.completed column ++ [.illegal ⟨ch.toString, column + 1⟩], [], p.start⟩ := by
  have hdigit : ch.isDigit = false := not_isDigit (by rw [h]; decide) (by rw [h]; decide)
  rw [read, joins_of_not_isDigit p.word hdigit, h]
  rfl

/-- A character that does not join the word sees no more of it than that it is
    complete. -/
theorem read_flushed (hjoins : joins p.word ch = false) :
    (p.flushed column).read ch column = p.read ch column := by
  have hflushed : (p.flushed column).flushed column = p.flushed column := by
    simp only [flushed, completed_nil, List.append_nil]
  have hnil : joins (p.flushed column).word ch = false := rfl
  rw [read, read, hjoins, hnil, hflushed]
  rfl

/-- What one character does: it prolongs the word, or it completes the word and
    then starts another one, is dropped or is reported. -/
theorem read_cases (p : Progress) (ch : Char) (column : Nat) :
    (joins p.word ch = true ∧ p.read ch column = { p with word := p.word ++ [ch] }) ∨
      joins p.word ch = false ∧
        (CharClass.of ch ≠ .whitespace ∧ CharClass.of ch ≠ .illegal ∧
            p.read ch column = ⟨p.found ++ p.completed column, [ch], column⟩ ∨
          CharClass.of ch = .whitespace ∧ p.read ch column = p.flushed column ∨
          CharClass.of ch = .illegal ∧ p.read ch column =
            ⟨p.found ++ p.completed column ++ [.illegal ⟨ch.toString, column + 1⟩], [],
              p.start⟩) := by
  by_cases hjoins : joins p.word ch = true
  · exact Or.inl ⟨hjoins, read_of_joins hjoins⟩
  have hanew : joins p.word ch = false := Bool.eq_false_iff.2 hjoins
  refine Or.inr ⟨hanew, ?_⟩
  by_cases hblank : CharClass.of ch = .whitespace
  · exact Or.inr (Or.inl ⟨hblank, read_blank hblank⟩)
  by_cases hillegal : CharClass.of ch = .illegal
  · exact Or.inr (Or.inr ⟨hillegal, read_illegal hillegal⟩)
  exact Or.inl ⟨hblank, hillegal, read_start hanew hblank hillegal⟩

theorem length_flushed_le (p : Progress) (stop : Nat) :
    (p.flushed stop).found.length ≤ p.size := by
  have hcompleted := length_completed_le p stop
  rw [flushed, List.length_append, size]
  omega

/-- A character adds at most one finding, itself or the word that it starts. What
    it completes has been counted before. -/
theorem size_read_le (p : Progress) (ch : Char) (column : Nat) :
    (p.read ch column).size ≤ p.size + 1 := by
  have hcompleted := length_completed_le p column
  rcases read_cases p ch column with
    ⟨-, hread⟩ | ⟨-, ⟨-, -, hread⟩ | ⟨-, hread⟩ | ⟨-, hread⟩⟩
  · -- The word has been counted, if it was there at all.
    have hword : (if p.word ++ [ch] = [] then 0 else 1) ≤ 1 := by split <;> omega
    simp only [hread, size]
    omega
  · simp only [hread, size, List.length_append, List.cons_ne_nil, if_false]
    omega
  · simp only [hread, size, flushed, List.length_append, if_true]
    omega
  · simp only [hread, size, List.length_append, List.length_singleton, if_true]
    omega

/-- So there are no more findings than characters. -/
theorem size_readAll_le (p : Progress) (input : List (Char × Nat)) :
    (p.readAll input).size ≤ p.size + input.length := by
  induction input generalizing p with
  | nil => exact Nat.le_refl _
  -- The word may go on from one character to the next, so it is the size that is counted and not
  -- the findings.
  | cons c input ih =>
      have hread := size_read_le p c.1 c.2
      have hrest := ih (p.read c.1 c.2)
      rw [readAll_cons, List.length_cons]
      omega

end

end Progress

open Progress

/-- Reading finds what there is to find, after a word that the first character
    does not join. The rule for numbers needs this generality, because a number
    may be followed by another one. -/
theorem Scans.finish_readAll {stop : Nat} {input : List (Char × Nat)} {fs : List Finding}
    (h : Scans stop input fs) (p : Progress) (hp : ∀ c ∈ input.head?, joins p.word c.1 = false) :
    (p.readAll input).finish stop = p.found ++ p.completed (nextColumn stop input) ++ fs := by
  induction h generalizing p with
  | nil => exact (List.append_nil _).symm
  | @number d column ds rest fs hd hds hrest _ ih =>
      have hdigit : d.isDigit = true := CharClass.isDigit_iff.2 (Or.inr hd)
      have hstart : p.read d column = ⟨p.found ++ p.completed column, [d], column⟩ :=
        read_start (hp _ rfl) (by rw [hd]; decide) (by rw [hd]; decide)
      rw [readAll_cons, readAll_append, hstart, readAll_digits rfl hd hds, List.singleton_append]
      -- The number is complete in front of `rest`, where the word is all of it.
      rw [ih, completed_number hdigit]
      · rw [nextColumn, List.append_assoc, List.singleton_append]
      · exact fun c hc => joins_of_not_isDigit _ (hrest c hc)
  | @zero column rest fs _ ih =>
      have hstart : p.read '0' column = ⟨p.found ++ p.completed column, ['0'], column⟩ :=
        read_start (hp _ rfl) (by decide) (by decide)
      -- Nothing joins a leading zero, whatever `rest` starts with.
      rw [readAll_cons, hstart, ih, completed_number (by decide)]
      · rw [nextColumn, List.append_assoc, List.singleton_append]
      · exact fun c _ => joins_singleton (by decide)
  -- Nothing joins an operator either, because its character is not a digit.
  | @operator op column rest fs _ ih =>
      have hclass := Operator.of_char op
      have hstart : p.read op.char column = ⟨p.found ++ p.completed column, [op.char], column⟩ :=
        read_start (hp _ rfl) (by rw [hclass]; decide) (by rw [hclass]; decide)
      rw [readAll_cons, hstart, ih, completed_operator]
      · rw [nextColumn, List.append_assoc, List.singleton_append]
      · exact fun c _ => joins_singleton (by rw [hclass]; decide)
  -- No word is left behind these two, so any character may follow.
  | @blank ch column rest fs hch _ ih =>
      rw [readAll_cons, read_blank hch, ih, flushed, completed_nil, List.append_nil]
      · rfl
      · exact fun c _ => rfl
  | @illegal ch column rest fs hch _ ih =>
      rw [readAll_cons, read_illegal hch, ih, completed_nil, List.append_nil]
      · rw [nextColumn, List.append_assoc, List.singleton_append]
      · exact fun c _ => rfl

end LineCalc
