import LineCalc.Proofs.Scanner.Reachable

/-!
# Overflow

Which columns stop a scanner, and when.

Two characters ask for the column after their own, an operator for the end of its
span and an illegal character for its position. At the last column there is none.
An illegal character is reported at once and stops the scanner right there. An
operator is kept until the next call wants it out of the way, so the scanner
survives the operator itself and stops at whatever comes next, a character or the
end of the line.

Nothing else can stop a scanner that does not run out of numbers to count with. A
number stops at a column that somebody else has named, white space leaves no
trace, and the end marker stands where it is told to stand.

## Main definitions

* `Overflows`: The characters that need a column which does not exist.

## Theorems

* `Scanner.Reached.push_operator`: An operator at the last column is read, and
  stops the scanner afterwards.
* `scan_of_hasRoom`, `scan_of_not_hasRoom`: A scan comes to its end exactly if
  every character has the room that it needs.
* `scan_overflow`: Which scans stop, and where.
-/

namespace LineCalc

/-- An operator or an illegal character at the last column. -/
def Overflows (c : Char × Nat) : Prop :=
  c.2 + 1 = Checked.limit ∧ (CharClass.of c.1 = .operator ∨ CharClass.of c.1 = .illegal)

section

variable {ch : Char} {column : Nat}

/-- Within the range of columns there is only one that has no successor. -/
theorem hasRoom_iff (hcolumn : column < Checked.limit) :
    HasRoom ch column ↔ ¬ Overflows (ch, column) := by
  constructor
  · rintro hroom ⟨hlast, hclass⟩
    have hlt := hroom hclass
    omega
  · intro hover hclass
    by_contra hno
    exact hover ⟨by omega, hclass⟩

theorem limit_le_of_not_hasRoom (h : ¬ HasRoom ch column) : Checked.limit ≤ column + 1 :=
  Nat.not_lt.1 (Classical.not_imp.1 h).2

theorem class_of_not_hasRoom (h : ¬ HasRoom ch column) :
    CharClass.of ch = .operator ∨ CharClass.of ch = .illegal :=
  (Classical.not_imp.1 h).1

/-- An operator at the last column cannot be completed. -/
theorem Progress.not_settled_read (p : Progress) (hclass : CharClass.of ch = .operator)
    (hlast : Checked.limit ≤ column + 1) : ¬ (p.read ch column).Settled := by
  have hdigit : ch.isDigit = false :=
    Progress.not_isDigit (by rw [hclass]; decide) (by rw [hclass]; decide)
  have hread : p.read ch column = ⟨p.found ++ p.completed column, [ch], column⟩ :=
    Progress.read_start (Progress.joins_of_not_isDigit p.word hdigit) (by rw [hclass]; decide)
      (by rw [hclass]; decide)
  rcases Operator.exists_char hclass with ⟨op, rfl⟩
  intro hsettled
  rw [hread] at hsettled
  have hroom : column + 1 < Checked.limit := hsettled op rfl
  omega

end

namespace Scanner

variable {s : Scanner} {input : List (Char × Nat)} {ch : Char} {column : Nat}

/-- The scanner stops at an illegal character that has no position. -/
theorem Reached.push_illegal (h : s.Reached input) (hclass : CharClass.of ch = .illegal)
    (hlast : Checked.limit ≤ column + 1) : s.push column ch = .error .additionOverflow := by
  refine h.push_eq_error fun hadmits => ?_
  have hroom := hadmits.2 hclass
  omega

/-- The scanner reads an operator at the last column, and stops at the next call. -/
theorem Reached.push_operator (h : s.Reached input) (hlength : input.length + 1 < Checked.limit)
    (hsettled : (Progress.readAll {} input).Settled) (hclass : CharClass.of ch = .operator)
    (hlast : Checked.limit ≤ column + 1) :
    ∃ s', s.push column ch = .ok s' ∧
      (∀ column' ch', s'.push column' ch' = .error .additionOverflow) ∧
      ∀ stop, s'.finish stop = .error .additionOverflow := by
  have hadmits : (Progress.readAll {} input).Admits ch column :=
    ⟨hsettled, fun hillegal => by rw [hclass] at hillegal; cases hillegal⟩
  rcases h.push hlength hadmits with ⟨s', hs', hreached⟩
  -- The operator is read and waits for its end, which it does not have.
  have hpending : ¬ (Progress.readAll {} (input ++ [(ch, column)])).Settled := by
    rw [Progress.readAll_append]
    exact Progress.not_settled_read _ hclass hlast
  exact ⟨s', hs', fun _ _ => hreached.push_eq_error fun hadmits => hpending hadmits.1,
    fun stop => hreached.finish_eq_error hpending stop⟩

/-- As long as every character has the room that it needs, the scanner gets through its
    input, and what is pending can be completed. -/
theorem exists_feed (hlength : input.length < Checked.limit)
    (hroom : ∀ c ∈ input, HasRoom c.1 c.2) :
    ∃ s, Scanner.feed {} input = .ok s ∧ s.Reached input ∧
      (Progress.readAll {} input).Settled := by
  rcases feed_empty_simulates hlength hroom with ⟨s, hs, hchars, hsim, hsettled⟩
  exact ⟨s, hs, ⟨hsim, hchars, hlength⟩, hsettled⟩

end Scanner

open Scanner

section

variable {input pre post : List (Char × Nat)} {ch : Char} {column : Nat}

/-- A scan in which every character has the room it needs gets to its end. -/
theorem scan_of_hasRoom (hlength : input.length < Checked.limit)
    (hroom : ∀ c ∈ input, HasRoom c.1 c.2) (stop : Nat) : ∃ l, scan input stop = .ok l := by
  rcases exists_feed hlength hroom with ⟨s, hs, hreached, hsettled⟩
  rcases hreached.finish hsettled stop with ⟨l, hl, -⟩
  exact ⟨l, scan_eq_ok_iff.2 ⟨s, hs, hl⟩⟩

/-- What happens at the first character that does not have the room it needs. -/
theorem exists_feed_until (hlength : (pre ++ (ch, column) :: post).length < Checked.limit)
    (hpre : ∀ c ∈ pre, HasRoom c.1 c.2) (hlast : Checked.limit ≤ column + 1) :
    ∃ s, Scanner.feed {} pre = .ok s ∧
      (CharClass.of ch = .illegal → s.push column ch = .error .additionOverflow) ∧
      (CharClass.of ch = .operator → ∃ s', s.push column ch = .ok s' ∧
        (∀ column' ch', s'.push column' ch' = .error .additionOverflow) ∧
        ∀ stop, s'.finish stop = .error .additionOverflow) := by
  rw [List.length_append, List.length_cons] at hlength
  rcases exists_feed (by omega) hpre with ⟨s, hs, hreached, hsettled⟩
  exact ⟨s, hs, fun hclass => hreached.push_illegal hclass hlast,
    fun hclass => hreached.push_operator (by omega) hsettled hclass hlast⟩

/-- Such a character stops the scan, at once or at the next call. -/
theorem scan_split (hlength : (pre ++ (ch, column) :: post).length < Checked.limit)
    (hpre : ∀ c ∈ pre, HasRoom c.1 c.2) (hroom : ¬ HasRoom ch column) (stop : Nat) :
    scan (pre ++ (ch, column) :: post) stop = .error .additionOverflow := by
  rcases exists_feed_until hlength hpre (limit_le_of_not_hasRoom hroom) with
    ⟨s, hs, hillegal, hoperator⟩
  rw [scan, feed_append, hs]
  change (s.feed ((ch, column) :: post) >>= fun s => s.finish stop) = _
  rw [feed_cons]
  -- An operator is a fault of what comes next, be it a character or the end. An illegal character
  -- is one by itself.
  rcases class_of_not_hasRoom hroom with hclass | hclass
  · rcases hoperator hclass with ⟨s', hs', hpush, hfinish⟩
    rw [hs']
    cases post with
    | nil => exact hfinish stop
    | cons c post =>
        change (s'.push c.2 c.1 >>= fun s => s.feed post) >>= _ = _
        rw [hpush]
        rfl
  · rw [hillegal hclass]
    rfl

/-- A scan in which some character has no room does not get to its end. -/
theorem scan_of_not_hasRoom (hlength : input.length < Checked.limit)
    (hroom : ∃ c ∈ input, ¬ HasRoom c.1 c.2) (stop : Nat) :
    scan input stop = .error .additionOverflow := by
  classical
  rcases hroom with ⟨c, hc, hno⟩
  -- The first of the characters without room is the one that stops the scan.
  cases hfind : input.find? fun c => decide (¬ HasRoom c.1 c.2) with
  | none => exact absurd (decide_eq_true hno) (List.find?_eq_none.1 hfind c hc)
  | some c' =>
      rcases List.find?_eq_some_iff_append.1 hfind with ⟨hc', pre, post, rfl, hpre⟩
      refine scan_split hlength (fun d hd => ?_) (of_decide_eq_true hc') stop
      by_contra hno
      have hd' := hpre d hd
      rw [decide_eq_true hno] at hd'
      cases hd'

/-- A scan comes to its end exactly if no operator and no illegal character stands at the last
    column, and otherwise a sum stops it. The first such character decides when: if it is
    illegal, the scan stops there, and if it is an operator, at the next call. -/
theorem scan_overflow (hlength : input.length < Checked.limit)
    (hcolumns : ∀ c ∈ input, c.2 < Checked.limit) (stop : Nat) :
    ((∃ l, scan input stop = .ok l) ↔ ∀ c ∈ input, ¬ Overflows c) ∧
      (scan input stop = .error .additionOverflow ↔ ∃ c ∈ input, Overflows c) ∧
      ∀ pre ch column post, input = pre ++ (ch, column) :: post →
        (∀ c ∈ pre, ¬ Overflows c) → Overflows (ch, column) →
        ∃ s, Scanner.feed {} pre = .ok s ∧
          (CharClass.of ch = .illegal → s.push column ch = .error .additionOverflow) ∧
          (CharClass.of ch = .operator → ∃ s', s.push column ch = .ok s' ∧
            (∀ column' ch', s'.push column' ch' = .error .additionOverflow) ∧
            ∀ stop', s'.finish stop' = .error .additionOverflow) := by
  -- A scan ends in one of two ways, and room or no room decides between them.
  have hok : (∀ c ∈ input, ¬ Overflows c) → ∃ l, scan input stop = .ok l := fun h =>
    scan_of_hasRoom hlength (fun c hc => (hasRoom_iff (hcolumns c hc)).2 (h c hc)) stop
  have herror : (∃ c ∈ input, Overflows c) → scan input stop = .error .additionOverflow := by
    rintro ⟨c, hc, hover⟩
    refine scan_of_not_hasRoom hlength ⟨c, hc, fun hroom => ?_⟩ stop
    exact (hasRoom_iff (hcolumns c hc)).1 hroom hover
  refine ⟨⟨fun h c hc hover => ?_, hok⟩, ⟨fun h => ?_, herror⟩, ?_⟩
  · rcases h with ⟨l, hl⟩
    rw [herror ⟨c, hc, hover⟩] at hl
    cases hl
  · by_contra hno
    rcases hok fun c hc hover => hno ⟨c, hc, hover⟩ with ⟨l, hl⟩
    rw [h] at hl
    cases hl
  · rintro pre ch column post rfl hpre hover
    refine exists_feed_until hlength (fun c hc => ?_) (Nat.le_of_eq hover.1.symm)
    exact (hasRoom_iff (hcolumns c (List.mem_append_left _ hc))).2 (hpre c hc)

end

/-- Digits and white space get through at the last column. A plus sign is read there, and
    stops the scan at the white space behind it. -/
theorem scan_overflow_sign :
    ∃ last, last + 1 = Checked.limit ∧
      (∃ l, scan [('1', last), ('0', last), (' ', last), ('0', last)] last = .ok l) ∧
      scan [('1', 0), ('+', last), (' ', 3)] 4 = .error .additionOverflow ∧
      ∃ s s', Scanner.feed {} [('1', 0)] = .ok s ∧ s.push last '+' = .ok s' ∧
        s'.push 3 ' ' = .error .additionOverflow := by
  rcases Nat.exists_eq_add_of_lt (show 4 < Checked.limit by decide) with ⟨k, hk⟩
  have hlast : 4 + k + 1 = Checked.limit := hk.symm
  generalize hcolumn : 4 + k = last at hlast
  refine ⟨last, hlast, ?_, ?_⟩
  · have hlength : [('1', last), ('0', last), (' ', last), ('0', last)].length < Checked.limit := by
      simp only [List.length_cons, List.length_nil]
      omega
    refine (scan_overflow hlength ?_ last).1.2 ?_
    · simp only [List.forall_mem_cons]
      refine ⟨?_, ?_, ?_, ?_, List.forall_mem_nil _⟩ <;> omega
    · -- No class among the four is one that `Overflows` asks for.
      simp only [List.forall_mem_cons, Overflows]
      refine ⟨?_, ?_, ?_, ?_, List.forall_mem_nil _⟩ <;>
        exact fun hover => absurd hover.2 (by decide)
  · have hover : Overflows ('+', last) := ⟨hlast, Or.inl rfl⟩
    have hcolumns : ∀ c ∈ [('1', 0), ('+', last), (' ', 3)], c.2 < Checked.limit := by
      simp only [List.forall_mem_cons]
      refine ⟨?_, ?_, ?_, List.forall_mem_nil _⟩ <;> omega
    have hlength : [('1', 0), ('+', last), (' ', 3)].length < Checked.limit := by
      simp only [List.length_cons, List.length_nil]
      omega
    have hbefore : ∀ c ∈ [('1', 0)], ¬ Overflows c := by
      simp only [List.forall_mem_cons, Overflows]
      exact ⟨fun hover => absurd hover.2 (by decide), List.forall_mem_nil _⟩
    rcases scan_overflow hlength hcolumns 4 with ⟨-, herror, hfirst⟩
    refine ⟨herror.2 ⟨_, List.mem_cons_of_mem _ List.mem_cons_self, hover⟩, ?_⟩
    rcases hfirst [('1', 0)] '+' last [(' ', 3)] rfl hbefore hover with ⟨s, hs, -, hoperator⟩
    rcases hoperator rfl with ⟨s', hs', hpush, -⟩
    exact ⟨s, s', hs, hs', hpush 3 ' '⟩

end LineCalc
