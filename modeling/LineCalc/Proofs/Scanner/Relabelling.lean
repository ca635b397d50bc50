import LineCalc.Proofs.Scanner.Cuts
import LineCalc.Proofs.Scanner.Overflow

/-!
# Relabelling

Reading a text whose columns have other names.

Whoever feeds a scanner names the column of each character, and no name has to
make sense: columns can repeat, go backwards or leave gaps. What is found does not
depend on them. The same lexemes are found as in the line of the same characters,
with the same texts and in the same order, and every place in the line appears
under the name that was given to it. The place behind the last character is the
one that is named at the end.

A number is the only thing with two places of its own, and they are named by
different characters, the one that starts it and the one behind it. An operator
and an illegal character have one place, and the column after it is counted from
there.

## Main definitions

* `columnAt`: The name of a place in a line.
* `Lexeme.relabel`, `Token.relabel`, `LexicalError.relabel`: Places under their
  names.

## Theorems

* `Scans.word_relabel`: A word is found where it stands, under any names.
* `Cuts.scans_relabel`: What is cut out of a text is found under any names.
* `scan_relabel`: A scan finds what there is in the line, under the names that
  were given.
-/

namespace LineCalc

open Findings

/-- The name of a place in a line, which is the column of the character there, or `stop`
    behind the last one. -/
def columnAt (stop : Nat) (input : List (Char × Nat)) (place : Nat) : Nat :=
  (input.map Prod.snd).getD place stop

/-- A lexeme whose places appear under their names. -/
def Lexeme.relabel (name : Nat → Nat) : Lexeme → Lexeme
  | .number text span => .number text ⟨name span.start, name span.stop⟩
  | .operator op column => .operator op (name column)

/-- A token whose places appear under their names. -/
def Token.relabel (name : Nat → Nat) : Token → Token
  | .lexeme l => .lexeme (l.relabel name)
  | .endOfInput length => .endOfInput (name length)

/-- An illegal text whose place appears under its name. Its position is the column after
    that place. -/
def LexicalError.relabel (name : Nat → Nat) (e : LexicalError) : LexicalError :=
  ⟨e.text, name (e.position - 1) + 1⟩

namespace Token

@[simp]
theorem text_relabel (t : Token) (name : Nat → Nat) : (t.relabel name).text = t.text := by
  rcases t with ⟨_ | _⟩ | _ <;> rfl

@[simp]
theorem kind_relabel (t : Token) (name : Nat → Nat) : (t.relabel name).kind = t.kind := by
  rcases t with ⟨_ | _⟩ | _ <;> rfl

@[simp]
theorem operator?_relabel (t : Token) (name : Nat → Nat) :
    (t.relabel name).operator? = t.operator? := by
  rcases t with ⟨_ | _⟩ | _ <;> rfl

end Token

section

variable {stop column : Nat} {input ws rest : List (Char × Nat)} {chars : List Char}
  {fs : List Finding} {name : Nat → Nat}

theorem nextColumn_eq (stop : Nat) (input : List (Char × Nat)) :
    nextColumn stop input = columnAt stop input 0 := by
  cases input <;> rfl

theorem columnAt_length (stop : Nat) (input : List (Char × Nat)) :
    columnAt stop input input.length = stop := by
  have hle : (input.map Prod.snd).length ≤ input.length := Nat.le_of_eq (List.length_map _)
  rw [columnAt, List.getD_eq_getElem?_getD, List.getElem?_eq_none hle, Option.getD_none]

/-- Behind some characters, columns are counted from those that follow. -/
theorem columnAt_append (stop : Nat) (ws rest : List (Char × Nat)) (i : Nat) :
    columnAt stop (ws ++ rest) (ws.length + i) = columnAt stop rest i := by
  induction ws with
  | nil => rw [List.nil_append, List.length_nil, Nat.zero_add]
  | cons w ws ih =>
      rw [List.cons_append, List.length_cons, Nat.add_right_comm, ← ih]
      rfl

/-- A word is found under the names of its first place and of the place behind it. -/
theorem Scans.word_relabel (w : Word) (hws : ws.map Prod.fst = w.chars)
    (hopen : w.isOpen = true → ∀ p ∈ rest.head?, p.1.isDigit = false)
    (hstart : name column = nextColumn stop (ws ++ rest))
    (hstop : name (column + w.chars.length) = nextColumn stop rest) (h : Scans stop rest fs) :
    Scans stop (ws ++ rest) (.lexeme ((w.place column).relabel name) :: fs) := by
  -- The columns within a word have no name in the lexeme, only its first one and the one behind it.
  cases w with
  | zero =>
      rcases List.map_eq_singleton_iff.1 hws with ⟨⟨d, first⟩, rfl, rfl⟩
      have hstop' : name (column + 1) = nextColumn stop rest := hstop
      rw [Word.place, Lexeme.relabel, hstart, hstop']
      exact .zero h
  | numeral d ds hd hds =>
      rcases List.map_eq_cons_iff.1 hws with ⟨⟨d, first⟩, ws, rfl, rfl, rfl⟩
      have hstop' : name (column + ((ws.map Prod.fst).length + 1)) = nextColumn stop rest := hstop
      rw [Word.place, Lexeme.relabel, hstart, hstop']
      exact .number (CharClass.of_eq_nonZeroDigit_iff.2 hd) (List.forall_mem_map.1 hds)
        (hopen rfl) h
  | operator op =>
      rcases List.map_eq_singleton_iff.1 hws with ⟨⟨d, first⟩, rfl, rfl⟩
      rw [Word.place, Lexeme.relabel, hstart]
      exact .operator h

/-- What is cut out of a text is found in the characters of the text, whatever their columns
    are, as long as `name` knows them. -/
theorem Cuts.scans_relabel (h : Cuts column chars fs) (hchars : input.map Prod.fst = chars)
    (hname : ∀ i, name (column + i) = columnAt stop input i) :
    Scans stop input (fs.map (Finding.map (Lexeme.relabel name) (LexicalError.relabel name))) := by
  -- By induction on the cuts, with the names of the columns that are left.
  induction h generalizing input with
  | nil =>
      rw [List.map_eq_nil_iff.1 hchars]
      exact .nil
  | @word column tail fs w hopen _ ih =>
      rcases List.map_eq_append_iff.1 hchars with ⟨ws, rest, rfl, hws, rfl⟩
      have hlength : ws.length = w.chars.length := by rw [← hws, List.length_map]
      have hrest : ∀ i, name (column + w.chars.length + i) = columnAt stop rest i := by
        intro i
        rw [Nat.add_assoc, hname, ← hlength, columnAt_append]
      refine .word_relabel w hws (fun hw p hp => hopen hw p.1 ?_) ?_ ?_ (ih rfl hrest)
      · rw [List.head?_map]
        exact Option.mem_map_of_mem _ hp
      · rw [nextColumn_eq, ← hname, Nat.add_zero]
      · rw [nextColumn_eq, ← hrest, Nat.add_zero]
  | @blank column ch tail fs hch _ ih =>
      rcases List.map_eq_cons_iff.1 hchars with ⟨⟨ch, first⟩, rest, rfl, rfl, rfl⟩
      refine .blank hch (ih rfl fun i => ?_)
      rw [Nat.add_assoc, Nat.add_comm 1, hname]
      rfl
  | @illegal column ch tail fs hch _ ih =>
      rcases List.map_eq_cons_iff.1 hchars with ⟨⟨ch, first⟩, rest, rfl, rfl, rfl⟩
      have hfirst : name column = first := hname 0
      rw [List.map_cons, Finding.map, LexicalError.relabel, Nat.add_sub_cancel, hfirst]
      refine .illegal hch (ih rfl fun i => ?_)
      rw [Nat.add_assoc, Nat.add_comm 1, hname]
      rfl

/-- A scan that comes to its end has counted its input and found the room it needed. -/
theorem room_of_scan {l : Lexed} (h : scan input stop = .ok l) :
    input.length < Checked.limit ∧ ∀ c ∈ input, HasRoom c.1 c.2 := by
  rcases scan_eq_ok_iff.1 h with ⟨s, hfeed, -⟩
  have hlength := (Scanner.reached_of_feed hfeed).length_lt
  refine ⟨hlength, ?_⟩
  by_contra hno
  push Not at hno
  rw [scan_of_not_hasRoom hlength hno stop] at h
  cases h

end

/-- A scan that comes to its end finds what there is in the line of its characters: the same
    tokens and illegal texts in the same order, with the same counts. Every place in the line
    appears under the column that its character was given, and the end of the line under the
    column that the scan was closed with. -/
theorem scan_relabel {input : List (Char × Nat)} {stop : Nat} {l : Lexed}
    (h : scan input stop = .ok l) :
    ∃ l', tokenize (String.ofList (input.map Prod.fst)) = .ok l' ∧
      l.tokens = l'.tokens.map (Token.relabel (columnAt stop input)) ∧
      l.errors = l'.errors.map (LexicalError.relabel (columnAt stop input)) ∧
      l.counts = l'.counts ∧ l.tokens.map Token.text = l'.tokens.map Token.text ∧
      l.tokens.map Token.kind = l'.tokens.map Token.kind ∧
      l.tokens.map Token.operator? = l'.tokens.map Token.operator? ∧
      l.errors.map LexicalError.text = l'.errors.map LexicalError.text := by
  rcases room_of_scan h with ⟨hlength, hroom⟩
  generalize hline : String.ofList (input.map Prod.fst) = line
  have hchars : line.toList = input.map Prod.fst := by rw [← hline, String.toList_ofList]
  have hlines : line.length = input.length := by
    rw [← String.length_toList, hchars, List.length_map]
  rcases exists_cuts 0 line.toList with ⟨fs, hcuts⟩
  rcases hcuts.tokenize_lists (by omega) with ⟨l', hl', hlists'⟩
  -- The scan finds the same things, and nothing but them.
  have hscans : Scans stop input (fs.map (Finding.map (Lexeme.relabel (columnAt stop input))
      (LexicalError.relabel (columnAt stop input)))) :=
    hcuts.scans_relabel hchars.symm fun i => by rw [Nat.zero_add]
  rcases scan_lists hscans hlength hroom with ⟨l₁, hl₁, hlists⟩
  rw [h] at hl₁
  cases hl₁
  have htokens : l.tokens = l'.tokens.map (Token.relabel (columnAt stop input)) := by
    have hmarker : columnAt stop input l'.length = stop := by
      rw [hlists'.length, hlines, columnAt_length]
    rw [Lexed.tokens, Lexed.tokens, hlists.lexemes, hlists'.lexemes, lexemes_map, List.map_append,
      List.map_map, List.map_map, hlists.length, List.map_singleton, Token.relabel, hmarker]
    rfl
  have herrors : l.errors = l'.errors.map (LexicalError.relabel (columnAt stop input)) := by
    rw [hlists.errors, hlists'.errors, illegals_map]
  have hcounts : l.counts = l'.counts := by
    rw [hlists.counts, hlists'.counts, hlines, lexemes_map, illegals_map, List.length_map,
      List.length_map]
  refine ⟨l', hl', htokens, herrors, hcounts, ?_, ?_, ?_, ?_⟩
  · -- What a token or an illegal text reads has no place in it.
    rw [htokens, List.map_map]
    exact List.map_congr_left fun t _ => t.text_relabel _
  · rw [htokens, List.map_map]
    exact List.map_congr_left fun t _ => t.kind_relabel _
  · rw [htokens, List.map_map]
    exact List.map_congr_left fun t _ => t.operator?_relabel _
  · rw [herrors, List.map_map]
    rfl

/-- In `10é0+` with scattered columns the first number stops at column `6`, the one of the
    illegal character behind it, and the second number at column `7`, the one of the plus
    sign. -/
theorem scan_relabel_scattered :
    let input := [('1', 8), ('0', 8), ('é', 6), ('0', 5), ('+', 7)]
    ∃ l l', scan input 3 = .ok l ∧ tokenize (String.ofList (input.map Prod.fst)) = .ok l' ∧
      l'.tokens = [.lexeme (.number "10" ⟨0, 2⟩), .lexeme (.number "0" ⟨3, 4⟩),
        .lexeme (.operator .plus 4), .endOfInput 5] ∧
      l.tokens = [.lexeme (.number "10" ⟨8, 6⟩), .lexeme (.number "0" ⟨5, 7⟩),
        .lexeme (.operator .plus 7), .endOfInput 3] ∧
      l'.errors = [⟨"é", 3⟩] ∧ l.errors = [⟨"é", 7⟩] ∧ l.counts = l'.counts := by
  intro input
  have hscan : ∃ l, scan input 3 = .ok l := ⟨_, rfl⟩
  have hline : tokenize (String.ofList (input.map Prod.fst)) =
      scan (input.map Prod.fst).zipIdx input.length := by
    rw [tokenize, String.toList_ofList, String.length_ofList, List.length_map]
  have htokens' : (scan (input.map Prod.fst).zipIdx input.length).map Lexed.tokens =
      .ok [.lexeme (.number "10" ⟨0, 2⟩), .lexeme (.number "0" ⟨3, 4⟩),
        .lexeme (.operator .plus 4), .endOfInput 5] := rfl
  have herrors' : (scan (input.map Prod.fst).zipIdx input.length).map Lexed.errors =
      .ok [⟨"é", 3⟩] := rfl
  -- The line of the same characters, in consecutive columns, has the tokens that are renamed.
  rcases hscan with ⟨l, hl⟩
  rcases scan_relabel hl with ⟨l', hl', htokens, herrors, hcounts, -⟩
  rw [← hline, hl'] at htokens' herrors'
  replace htokens' := Except.ok.inj htokens'
  replace herrors' := Except.ok.inj herrors'
  rw [htokens'] at htokens
  rw [herrors'] at herrors
  exact ⟨l, l', hl, hl', htokens', htokens, herrors', herrors, hcounts⟩

end LineCalc
