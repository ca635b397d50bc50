import LineCalc.Proofs.Scanner.Simulation

/-!
# Cutting a Line

What there is to find in a line, whose characters stand in consecutive columns.

`Scans` leaves the columns open, so it has to carry them along with the
characters. In a line the column of a character is the number of characters in
front of it, and a text alone tells where everything is. `Cuts` says again what
there is to find, now for a text and the column at which it starts. What
prolongs a lexeme and what does not is said in one rule for all three forms of a
lexeme, which is what most inductions over a line want.

The forms themselves are the constructors of `Word`. A word is a lexeme that has
not been put anywhere yet, and it cannot be anything else than a lexeme.

## Main definitions

* `Word`: A lexeme without a place.
* `Word.chars`: The characters of a word.
* `Word.place`: The lexeme that a word forms at a column.
* `Word.isOpen`: The words that a digit prolongs.
* `Cuts`: What there is to find in a text that starts at a column.

## Theorems

* `Cuts.scans`, `Scans.cuts`: The two ways to say what there is to find agree on
  consecutive columns.
* `Cuts.tokenize_lists`: What is cut out of a line is what its tokens are made of.
* `exists_cuts`: Every text can be cut.
* `exists_cuts_of_tokenize`: A line that has been tokenized has been cut.
-/

namespace LineCalc

open Findings

/-- A lexeme without a place. -/
inductive Word where
  /-- The number `0`. -/
  | zero
  /-- Any other number, by its first digit and the digits that follow it. -/
  | numeral (d : Char) (ds : List Char) (hd : '1' ≤ d ∧ d ≤ '9')
      (hds : ∀ c ∈ ds, c.isDigit = true)
  | operator (op : Operator)

namespace Word

/-- The characters of a word. -/
def chars : Word → List Char
  | zero => ['0']
  | numeral d ds _ _ => d :: ds
  | operator op => [op.char]

/-- The lexeme that a word forms at a column. -/
def place (column : Nat) : Word → Lexeme
  | zero => .number "0" ⟨column, column + 1⟩
  | numeral d ds _ _ => .number (String.ofList (d :: ds)) ⟨column, column + (ds.length + 1)⟩
  | operator op => .operator op column

/-- True of numbers. -/
def isNumber : Word → Bool
  | zero | numeral _ _ _ _ => true
  | operator _ => false

/-- True of the words that a digit prolongs, which are the numbers other than
    `0`. -/
def isOpen : Word → Bool
  | numeral _ _ _ _ => true
  | zero | operator _ => false

theorem chars_ne_nil (w : Word) : w.chars ≠ [] := by
  cases w <;> exact List.cons_ne_nil _ _

theorem length_chars_pos (w : Word) : 0 < w.chars.length :=
  List.length_pos_iff.2 w.chars_ne_nil

/-- A number is made of nothing but digits. -/
theorem isDigit_of_mem {w : Word} (h : w.isNumber = true) : ∀ c ∈ w.chars, c.isDigit = true := by
  cases w with
  | zero => exact List.forall_mem_singleton.2 rfl
  | numeral d ds hd hds =>
      refine List.forall_mem_cons.2 ⟨?_, hds⟩
      exact CharClass.isDigit_iff.2 (Or.inr (CharClass.of_eq_nonZeroDigit_iff.2 hd))
  | operator op => cases h

/-- Digits behind an open word make one open word with it. -/
theorem exists_prolonged {w : Word} (h : w.isOpen = true) {ds : List Char}
    (hds : ∀ c ∈ ds, c.isDigit = true) : ∃ u : Word, u.isOpen = true ∧ u.chars = w.chars ++ ds := by
  cases w with
  | zero => cases h
  | numeral d ds' hd hds' =>
      exact ⟨.numeral d (ds' ++ ds) hd (List.forall_mem_append.2 ⟨hds', hds⟩), rfl, rfl⟩
  | operator op => cases h

theorem text_place (w : Word) (column : Nat) : (w.place column).text = String.ofList w.chars := by
  cases w <;> rfl

@[simp]
theorem start_place (w : Word) (column : Nat) : (w.place column).span.start = column := by
  cases w <;> rfl

@[simp]
theorem stop_place (w : Word) (column : Nat) :
    (w.place column).span.stop = column + w.chars.length := by
  cases w <;> rfl

end Word

/-- A text that starts at a column holds the findings of a list. -/
inductive Cuts : Nat → List Char → List Finding → Prop where
  | nil {column : Nat} : Cuts column [] []
  | word {column : Nat} {rest : List Char} {fs : List Finding} (w : Word) :
      (w.isOpen = true → ∀ c ∈ rest.head?, c.isDigit = false) →
        Cuts (column + w.chars.length) rest fs →
        Cuts column (w.chars ++ rest) (.lexeme (w.place column) :: fs)
  | blank {column : Nat} {ch : Char} {rest : List Char} {fs : List Finding} :
      CharClass.of ch = .whitespace → Cuts (column + 1) rest fs → Cuts column (ch :: rest) fs
  | illegal {column : Nat} {ch : Char} {rest : List Char} {fs : List Finding} :
      CharClass.of ch = .illegal → Cuts (column + 1) rest fs →
        Cuts column (ch :: rest) (.illegal ⟨ch.toString, column + 1⟩ :: fs)

section

variable {column stop : Nat} {chars : List Char} {fs : List Finding}

/-- The column behind a character and a text. -/
theorem add_length_cons (column : Nat) (ch : Char) (rest : List Char) :
    column + (ch :: rest).length = column + 1 + rest.length := by
  rw [List.length_cons]
  omega

/-- The column behind two texts. -/
theorem add_length_append (column : Nat) (chars rest : List Char) :
    column + (chars ++ rest).length = column + chars.length + rest.length := by
  rw [List.length_append, Nat.add_assoc]

/-- Nothing is found in an empty text. -/
theorem Cuts.eq_nil (h : Cuts column [] fs) : fs = [] := by
  -- A word stands in front of a text here, so the text has to be a variable before the cases can be
  -- told apart.
  generalize hchars : ([] : List Char) = chars at h
  cases h with
  | nil => rfl
  | word w _ _ => exact absurd (List.append_eq_nil_iff.1 hchars.symm).1 w.chars_ne_nil
  | blank _ _ => cases hchars
  | illegal _ _ => cases hchars

/-- A word is found where it stands, in front of a rest that does not prolong it. -/
theorem Scans.word {rest : List (Char × Nat)} (w : Word)
    (hopen : w.isOpen = true → ∀ p ∈ rest.head?, p.1.isDigit = false)
    (hnext : nextColumn stop rest = column + w.chars.length) (h : Scans stop rest fs) :
    Scans stop (w.chars.zipIdx column ++ rest) (.lexeme (w.place column) :: fs) := by
  cases w with
  | zero =>
      have hscan : Scans stop (('0', column) :: rest) _ := .zero h
      rwa [hnext] at hscan
  -- The rule for numbers has a list of columns, and those of a word are consecutive.
  | numeral d ds hd hds =>
      have hdigits : ∀ p ∈ ds.zipIdx (column + 1), p.1.isDigit = true :=
        fun p hp => hds p.1 (List.fst_mem_of_mem_zipIdx hp)
      have hscan : Scans stop ((d, column) :: (ds.zipIdx (column + 1) ++ rest)) _ :=
        .number (CharClass.of_eq_nonZeroDigit_iff.2 hd) hdigits (hopen rfl) h
      rwa [hnext, List.zipIdx_map_fst] at hscan
  | operator op => exact .operator h

/-- A text starts at its own column, even if it is empty. -/
theorem nextColumn_zipIdx (hstop : column + chars.length = stop) :
    nextColumn stop (chars.zipIdx column) = column := by
  cases chars with
  | nil => exact hstop.symm
  | cons ch rest => rfl

/-- What starts the columns of a text starts the text. -/
theorem fst_mem_head? {p : Char × Nat} (h : p ∈ (chars.zipIdx column).head?) :
    p.1 ∈ chars.head? := by
  cases chars with
  | nil => cases h
  | cons ch rest =>
      cases h
      rfl

/-- What is cut out of a text is found by a scan of its columns. -/
theorem Cuts.scans (h : Cuts column chars fs) (hstop : column + chars.length = stop) :
    Scans stop (chars.zipIdx column) fs := by
  -- By induction on the cuts. Every rule has the end of the text where it was, so the bound on it
  -- only has to be split in another way.
  induction h with
  | nil => exact .nil
  | @word column rest fs w hopen _ ih =>
      rw [add_length_append] at hstop
      rw [List.zipIdx_append]
      exact Scans.word w (fun hw p hp => hopen hw p.1 (fst_mem_head? hp))
        (nextColumn_zipIdx hstop) (ih hstop)
  | blank hch _ ih => exact .blank hch (ih (by rw [← hstop, add_length_cons]))
  | illegal hch _ ih => exact .illegal hch (ih (by rw [← hstop, add_length_cons]))

/-- The first of some columns is the one where their text starts. -/
theorem exists_of_zipIdx_eq_cons {ch : Char} {first : Nat} {rest : List (Char × Nat)}
    (h : chars.zipIdx column = (ch, first) :: rest) (hstop : column + chars.length = stop) :
    ∃ tail, chars = ch :: tail ∧ column = first ∧ tail.zipIdx (first + 1) = rest ∧
      first + 1 + tail.length = stop := by
  rcases List.zipIdx_eq_cons_iff.1 h with ⟨_, tail, rfl, hfirst, rfl⟩
  cases hfirst
  exact ⟨tail, rfl, rfl, rfl, by rw [← hstop, add_length_cons]⟩

theorem forall_mem_of_zipIdx {p : Char → Prop} (h : ∀ c ∈ chars.zipIdx column, p c.1) :
    ∀ c ∈ chars, p c := by
  rw [← List.zipIdx_map_fst column chars]
  exact List.forall_mem_map.2 h

/-- What a scan of consecutive columns finds is cut out of their text. -/
theorem Scans.cuts {input : List (Char × Nat)} (h : Scans stop input fs)
    (hinput : chars.zipIdx column = input) (hstop : column + chars.length = stop) :
    Cuts column chars fs := by
  -- By induction on the rules, which take columns away. The text that they belong to is found again
  -- from the front.
  induction h generalizing column chars with
  | nil =>
      rw [List.zipIdx_eq_nil_iff.1 hinput]
      exact .nil
  | @number d column ds rest fs hd hds hrest _ ih =>
      rcases exists_of_zipIdx_eq_cons hinput hstop with ⟨tail, rfl, rfl, htail, hnext⟩
      -- The digits and what follows them have consecutive columns as well.
      rcases List.zipIdx_eq_append_iff.1 htail with ⟨ds, rest, rfl, rfl, rfl⟩
      have hlength := (add_length_cons column d ds).symm
      rw [add_length_append, hlength] at hnext
      -- What comes behind the digits is known as a column with a character, and the word asks for
      -- the character alone.
      have hhead : ∀ c ∈ rest.head?, c.isDigit = false := by
        cases rest with
        | nil => exact fun c hc => by cases hc
        | cons ch rest => exact fun c hc => by cases hc; exact hrest _ rfl
      rw [hlength] at ih ⊢
      rw [List.zipIdx_map_fst, nextColumn_zipIdx hnext]
      exact .word (.numeral d ds (CharClass.of_eq_nonZeroDigit_iff.1 hd) (forall_mem_of_zipIdx hds))
        (fun _ => hhead) (ih rfl hnext)
  | zero _ ih =>
      rcases exists_of_zipIdx_eq_cons hinput hstop with ⟨tail, rfl, rfl, rfl, hnext⟩
      rw [nextColumn_zipIdx hnext]
      exact .word .zero (fun hopen => by cases hopen) (ih rfl hnext)
  | @operator op _ _ _ _ ih =>
      rcases exists_of_zipIdx_eq_cons hinput hstop with ⟨tail, rfl, rfl, rfl, hnext⟩
      exact .word (.operator op) (fun hopen => by cases hopen) (ih rfl hnext)
  | blank hch _ ih =>
      rcases exists_of_zipIdx_eq_cons hinput hstop with ⟨tail, rfl, rfl, rfl, hnext⟩
      exact .blank hch (ih rfl hnext)
  | illegal hch _ ih =>
      rcases exists_of_zipIdx_eq_cons hinput hstop with ⟨tail, rfl, rfl, rfl, hnext⟩
      exact .illegal hch (ih rfl hnext)

end

/-- What is cut out of a line is what its tokens are made of. -/
theorem Cuts.tokenize_lists {line : String} {fs : List Finding} (h : Cuts 0 line.toList fs)
    (hlength : line.length < Checked.limit) :
    ∃ l, tokenize line = .ok l ∧ l.Lists line.length line.length fs := by
  rw [← String.length_toList] at hlength
  have hscans : Scans line.length line.toList.zipIdx fs := h.scans (Nat.zero_add _)
  rcases scan_lists hscans (by rwa [List.length_zipIdx]) (hasRoom_of_mem_zipIdx hlength) with
    ⟨l, hl, hlists⟩
  rw [List.length_zipIdx, String.length_toList] at hlists
  exact ⟨l, hl, hlists⟩

/-- Every text can be cut, because every input can be scanned. -/
theorem exists_cuts (column : Nat) (chars : List Char) : ∃ fs, Cuts column chars fs := by
  rcases exists_scans (column + chars.length) (chars.zipIdx column) with ⟨fs, hfs⟩
  exact ⟨fs, hfs.cuts rfl rfl⟩

/-- Only a line that can be counted is tokenized. -/
theorem length_lt_of_tokenize {line : String} {l : Lexed} (h : tokenize line = .ok l) :
    line.length < Checked.limit := by
  refine Nat.lt_of_not_le fun hlength => ?_
  rw [tokenize_overflows hlength] at h
  cases h

/-- What a line has been tokenized into was cut out of it. -/
theorem exists_cuts_of_tokenize {line : String} {l : Lexed} (h : tokenize line = .ok l) :
    ∃ fs, Cuts 0 line.toList fs ∧ l.Lists line.length line.length fs := by
  rcases exists_cuts 0 line.toList with ⟨fs, hcuts⟩
  rcases hcuts.tokenize_lists (length_lt_of_tokenize h) with ⟨l', hl', hlists⟩
  -- There is only one result, so the lists that were found are those of this one.
  rw [h] at hl'
  cases hl'
  exact ⟨fs, hcuts, hlists⟩

end LineCalc
