import LineCalc.Proofs.Grammar.Procedures

/-!
# Misfits

Where a sequence of tokens stops being an expression.

Whether a token fits depends on its kind and on the parity of its index: operands
stand at even indices, operators at odd ones, and the end marker takes the place
of an operator. The procedures of the grammar never look at an index. They agree
with the parity because `operands?` and `tail?` take turns, and by
`Grammar.result_parse` the parser fails where these two do.

## Main definitions

* `Grammar.Misfit`: A token does not fit at an index.
* `Grammar.FirstMisfit`: It is the first one in a sequence that does not.
* `Grammar.Diagnoses`: An outcome reports the first misfit, or there is none.

## Theorems

* `Grammar.operands?_diagnoses`, `Grammar.parse_diagnoses`: Reading operands and
  parsing find the first misfit.
* `Grammar.FirstMisfit.of_take`: What stands after it makes no difference.
* `Grammar.FirstMisfit.exists_continuation`: What stands before it can be
  continued.
* `Grammar.parse_misfit`: When a sequence is accepted, and the error if it is not.
-/

namespace LineCalc

namespace Grammar

variable {α β : Type}

/-- The token does not fit at an index: a number at an odd index, anything but a
    number at an even one, and there also a number whose text cannot be read. -/
def Misfit (read : String → Option α) (index : Nat) : Token → Prop
  | .lexeme (.number text _) => index % 2 = 1 ∨ read text = none
  | .lexeme (.operator _ _) => index % 2 = 0
  | .endOfInput _ => index % 2 = 0

/-- The token at index `k` of a sequence is the first one that does not fit, if
    the sequence itself starts at an index. -/
def FirstMisfit (read : String → Option α) (start : Nat) (ts : List Token) (k : Nat)
    (t : Token) : Prop :=
  ts[k]? = some t ∧ Misfit read (k + start) t ∧
    ∀ j < k, ∀ u, ts[j]? = some u → ¬ Misfit read (j + start) u

section

variable {read : String → Option α} {start k : Nat} {t u : Token} {ts : List Token}

theorem firstMisfit_zero (h : Misfit read start t) : FirstMisfit read start (t :: ts) 0 t :=
  ⟨rfl, by rwa [Nat.zero_add], fun j hj => absurd hj (Nat.not_lt_zero j)⟩

/-- A token that fits can be put in front, and moves the first misfit by one. -/
theorem FirstMisfit.succ (ht : ¬ Misfit read start t)
    (h : FirstMisfit read (start + 1) ts k u) : FirstMisfit read start (t :: ts) (k + 1) u := by
  rcases h with ⟨hk, hu, hbefore⟩
  refine ⟨hk, by rwa [Nat.add_right_comm], ?_⟩
  -- The tokens before it are the new one and those that were before it already.
  rintro (_ | j) hj v hv
  · cases hv
    rwa [Nat.zero_add]
  · rw [Nat.add_right_comm]
    exact hbefore j (by omega) v hv

theorem not_misfit_cons (ht : ¬ Misfit read start t)
    (h : ∀ k u, ts[k]? = some u → ¬ Misfit read (k + (start + 1)) u) :
    ∀ k u, (t :: ts)[k]? = some u → ¬ Misfit read (k + start) u := by
  rintro (_ | k) u hu
  · cases hu
    rwa [Nat.zero_add]
  · rw [Nat.add_right_comm]
    exact h k u hu

/-- Of two misfits in a sequence, the later one is not the first. -/
theorem FirstMisfit.unique {k' : Nat} {t' : Token} (h : FirstMisfit read start ts k t)
    (h' : FirstMisfit read start ts k' t') : k = k' ∧ t = t' := by
  rcases h with ⟨hk, ht, hbefore⟩
  rcases h' with ⟨hk', ht', hbefore'⟩
  rcases Nat.lt_trichotomy k k' with hlt | rfl | hlt
  · exact absurd ht (hbefore' k hlt t hk)
  · rw [hk, Option.some.injEq] at hk'
    exact ⟨rfl, hk'⟩
  · exact absurd ht' (hbefore k' hlt t' hk')

end

/-- What the outcome of reading a sequence says about its misfits. -/
def Diagnoses (read : String → Option α) (start : Nat) (ts : List Token) :
    Except SyntaxError β → Prop
  | .ok _ => ∀ k t, ts[k]? = some t → ¬ Misfit read (k + start) t
  | .error e => ∃ k t, FirstMisfit read start ts k t ∧ e = ⟨t.text, k + start⟩

section

variable {γ : Type} {read : String → Option α} {start : Nat} {t : Token} {ts : List Token}

theorem diagnoses_of_misfit (h : Misfit read start t) :
    Diagnoses read start (t :: ts) (.error ⟨t.text, start⟩ : Except SyntaxError β) :=
  ⟨0, t, firstMisfit_zero h, by rw [Nat.zero_add]⟩

/-- A diagnosis is one index further on behind a token that fits. -/
theorem Diagnoses.cons {r : Except SyntaxError β} (ht : ¬ Misfit read start t)
    (h : Diagnoses read (start + 1) ts r) (f : β → γ) :
    Diagnoses read start (t :: ts) (r.map f) := by
  cases r with
  | ok x => exact not_misfit_cons ht h
  | error e =>
      rcases h with ⟨k, u, hu, rfl⟩
      exact ⟨k + 1, u, hu.succ ht, by rw [Nat.add_right_comm, Nat.add_assoc]⟩

/-- Reading operands finds the first misfit. An operand is expected at even
    indices and an operator at odd ones, and the two functions take turns. -/
theorem operands?_diagnoses (read : String → Option α) (ls : List Lexeme) (n : Nat) :
    (∀ i, i % 2 = 0 →
        Diagnoses read i (ls.map .lexeme ++ [.endOfInput n]) (operands? read i ls)) ∧
      ∀ i, i % 2 = 1 →
        Diagnoses read i (ls.map .lexeme ++ [.endOfInput n]) (tail? read i ls) := by
  -- One induction for both, as each function hands the rest to the other at the other parity.
  induction ls with
  | nil =>
      -- The end marker is a misfit where an operand is due, and fits elsewhere.
      refine ⟨fun i hi => diagnoses_of_misfit hi, fun i hi => ?_⟩
      refine not_misfit_cons (fun hm => ?_) fun k u hu => by cases hu
      simp only [Misfit] at hm
      omega
  | cons l ls ih =>
      rcases ih with ⟨ihOperands, ihTail⟩
      rw [List.map_cons, List.cons_append]
      cases l with
      | number text span =>
          refine ⟨fun i hi => ?_, fun i hi => diagnoses_of_misfit (Or.inl hi)⟩
          unfold operands?
          cases hx : read text with
          | none => exact diagnoses_of_misfit (Or.inr hx)
          | some x =>
              refine Diagnoses.cons (fun hm => ?_) (ihTail (i + 1) (by omega)) _
              simp only [Misfit, hx, reduceCtorEq, or_false] at hm
              omega
      | operator op column =>
          refine ⟨fun i hi => diagnoses_of_misfit hi, fun i hi => ?_⟩
          unfold tail?
          refine Diagnoses.cons (fun hm => ?_) (ihOperands (i + 1) (by omega)) _
          simp only [Misfit] at hm
          omega

theorem Diagnoses.map {r : Except SyntaxError β} (h : Diagnoses read start ts r) (f : β → γ) :
    Diagnoses read start ts (r.map f) := by
  cases r <;> exact h

end

theorem misfit_congr {read : String → Option α} {read' : String → Option β}
    (h : ∀ text, read text = none ↔ read' text = none) (i : Nat) (t : Token) :
    Misfit read i t ↔ Misfit read' i t := by
  rcases t with ⟨_ | _⟩ | _ <;> simp only [Misfit, h]

theorem firstMisfit_congr {read : String → Option α} {read' : String → Option β}
    (h : ∀ text, read text = none ↔ read' text = none) (start : Nat) (ts : List Token) (k : Nat)
    (t : Token) : FirstMisfit read start ts k t ↔ FirstMisfit read' start ts k t := by
  simp only [FirstMisfit, misfit_congr h]

/-- Nothing after the first misfit matters for it. -/
theorem FirstMisfit.of_take {read : String → Option α} {start k : Nat} {t : Token}
    {ts ts' : List Token} (h : FirstMisfit read start ts k t)
    (htake : ts'.take (k + 1) = ts.take (k + 1)) : FirstMisfit read start ts' k t := by
  -- Up to the misfit the two sequences have the same tokens.
  have hget : ∀ j, j < k + 1 → ts'[j]? = ts[j]? := by
    intro j hj
    rw [← List.getElem?_take_of_lt hj, htake, List.getElem?_take_of_lt hj]
  rcases h with ⟨hk, ht, hbefore⟩
  refine ⟨by rw [hget k (by omega), hk], ht, fun j hj u hu => ?_⟩
  rw [hget j (by omega)] at hu
  exact hbefore j hj u hu

/-- Tokens that fit can be followed by lexemes and an end marker that fit at the
    indices from there on. -/
theorem exists_fitting_append {read : String → Option α} {c : Cursor} {k : Nat}
    (hk : k ≤ c.ahead.length)
    (hbefore : ∀ j < k, ∀ u, c.tokens[j]? = some u → ¬ Misfit read j u) (ls : List Lexeme)
    (hls : ∀ m u, (ls.map Token.lexeme ++ [.endOfInput c.length])[m]? = some u →
      ¬ Misfit read (m + k) u) :
    ∃ (rest : List Token) (c' : Cursor), Cursor.ofTokens? (c.tokens.take k ++ rest) = .ok c' ∧
      ∀ i u, (c.tokens.take k ++ rest)[i]? = some u → ¬ Misfit read i u := by
  have hlength : (c.tokens.take k).length = k := by
    rw [Cursor.take_tokens hk, List.length_map, List.length_take]
    omega
  refine ⟨ls.map .lexeme ++ [.endOfInput c.length], ⟨0, c.ahead.take k ++ ls, c.length⟩, ?_,
    fun i u hu => ?_⟩
  · refine Cursor.ofTokens?_eq_ok_iff.2 ⟨rfl, ?_⟩
    rw [Cursor.take_tokens hk, Cursor.tokens, List.map_append, List.append_assoc]
  · -- Up to `k` the token is an old one, and from there on it is one of `ls`.
    by_cases hi : i < k
    · rw [List.getElem?_append_left (by omega), List.getElem?_take_of_lt hi] at hu
      exact hbefore i hi u hu
    · rw [List.getElem?_append_right (by omega), hlength] at hu
      have hm := hls (i - k) u hu
      rwa [Nat.sub_add_cancel (by omega)] at hm

/-- The tokens before the first misfit can be continued so that everything
    fits: by an operand where one is expected, and by the end marker. -/
theorem FirstMisfit.exists_continuation {read : String → Option α} (hzero : read "0" ≠ none)
    {c : Cursor} {k : Nat} {t : Token} (h : FirstMisfit read 0 c.tokens k t) :
    ∃ (rest : List Token) (c' : Cursor), Cursor.ofTokens? (c.tokens.take k ++ rest) = .ok c' ∧
      ∀ i u, (c.tokens.take k ++ rest)[i]? = some u → ¬ Misfit read i u := by
  rcases h with ⟨hk, _, hbefore⟩
  have hlt : k < c.tokens.length := (List.getElem?_eq_some_iff.1 hk).1
  have hle : k ≤ c.ahead.length := by
    rw [Cursor.tokens, List.length_append, List.length_map, List.length_singleton] at hlt
    omega
  rcases Nat.mod_two_eq_zero_or_one k with heven | hodd
  · -- An operand is due: supply one and then the end marker.
    refine exists_fitting_append hle hbefore [.number "0" ⟨0, 1⟩] ?_
    rintro (_ | _ | m) u hu
    · cases hu
      simp only [Misfit, hzero, or_false]
      omega
    · cases hu
      simp only [Misfit]
      omega
    · cases hu
  · -- An operator is due, and the end marker will do as well.
    refine exists_fitting_append hle hbefore [] ?_
    rintro (_ | m) u hu
    · cases hu
      simp only [Misfit]
      omega
    · cases hu

section

variable [Arithmetic α]

/-- The parser fails where the operands cannot be read, so it finds the first misfit as well. -/
theorem parse_diagnoses {ts : List Token} {c : Cursor} (hc : Cursor.ofTokens? ts = .ok c) :
    Diagnoses (Arithmetic.literal? (α := α)) 0 ts (parse (α := α) c).result := by
  rcases Cursor.ofTokens?_eq_ok_iff.1 hc with ⟨hi, rfl⟩
  have h := (operands?_diagnoses (Arithmetic.literal? (α := α)) c.ahead c.length).1 0 rfl
  rw [result_parse, operandsAt?, hi]
  exact h.map _

/-- A sequence without a misfit is accepted, and no other. -/
theorem exists_parse_eq_ok_iff {ts : List Token} {c : Cursor}
    (hc : Cursor.ofTokens? ts = .ok c) :
    (∃ v : α, (parse c).result = .ok v) ↔
      ∀ k t, ts[k]? = some t → ¬ Misfit (Arithmetic.literal? (α := α)) k t := by
  have h := parse_diagnoses (α := α) hc
  cases hr : (parse (α := α) c).result with
  | ok v =>
      rw [hr] at h
      exact ⟨fun _ => h, fun _ => ⟨v, rfl⟩⟩
  | error e =>
      rw [hr] at h
      rcases h with ⟨k, t, ⟨hk, ht, _⟩, _⟩
      exact ⟨fun ⟨_, hv⟩ => (by cases hv), fun hno => absurd ht (hno k t hk)⟩

/-- The error of the parser names the first misfit and its index. -/
theorem parse_eq_error_iff {ts : List Token} {c : Cursor} (hc : Cursor.ofTokens? ts = .ok c)
    {e : SyntaxError} :
    (parse (α := α) c).result = .error e ↔
      ∃ k t, FirstMisfit (Arithmetic.literal? (α := α)) 0 ts k t ∧ e = ⟨t.text, k⟩ := by
  have hd := parse_diagnoses (α := α) hc
  cases hr : (parse (α := α) c).result with
  | ok v =>
      rw [hr] at hd
      refine iff_of_false (fun h => by cases h) ?_
      intro h
      rcases h with ⟨k, t, ⟨hk, ht, _⟩, _⟩
      exact hd k t hk ht
  | error e' =>
      rw [hr] at hd
      rcases hd with ⟨k, t, h, rfl⟩
      constructor
      · intro he
        cases he
        exact ⟨k, t, h, rfl⟩
      · -- The first misfit is unique, and so is the error made from it.
        intro hfirst
        rcases hfirst with ⟨k', t', h', rfl⟩
        rcases h.unique h' with ⟨rfl, rfl⟩
        rfl

end

/-- A text is a float if it is a number at all, because rounding never fails. -/
theorem float_literal?_eq_none_iff (text : String) :
    (Arithmetic.literal? text : Option Float) = none ↔ Literal.read? text = none :=
  Option.map_eq_none_iff

/-- A sequence of tokens is accepted when every token of it fits, and otherwise it
    is rejected at the first misfit. What stands before that token can still become
    an expression, and what stands after it makes no difference. -/
theorem parse_misfit {ts : List Token} {c : Cursor} (hc : Cursor.ofTokens? ts = .ok c) :
    ((∃ v : Float, (parse c).result = .ok v) ↔
        ∀ k t, ts[k]? = some t → ¬ Misfit Literal.read? k t) ∧
      (∀ e, (parse (α := Float) c).result = .error e ↔
        ∃ k t, FirstMisfit Literal.read? 0 ts k t ∧ e = ⟨t.text, k⟩) ∧
      ∀ k t, FirstMisfit Literal.read? 0 ts k t →
        (∃ rest c' v, Cursor.ofTokens? (ts.take k ++ rest) = .ok c' ∧
          (parse (α := Float) c').result = .ok v) ∧
        ∀ ts' c', ts'.take (k + 1) = ts.take (k + 1) → Cursor.ofTokens? ts' = .ok c' →
          (parse (α := Float) c').result = (parse c).result := by
  have hread := float_literal?_eq_none_iff
  refine ⟨?_, fun e => ?_, fun k t h => ?_⟩
  · rw [exists_parse_eq_ok_iff hc]
    simp only [misfit_congr hread]
  · rw [parse_eq_error_iff hc]
    simp only [firstMisfit_congr hread]
  -- The float reading fails on the same texts, so it has the same first misfit.
  have hfloat := (firstMisfit_congr hread 0 ts k t).2 h
  refine ⟨?_, fun ts' c' htake hc' => ?_⟩
  · rcases Cursor.ofTokens?_eq_ok_iff.1 hc with ⟨_, rfl⟩
    have hzero : Arithmetic.literal? (α := Float) "0" ≠ none := by
      rw [ne_eq, hread]
      decide
    rcases hfloat.exists_continuation hzero with ⟨rest, c', hc', hfits⟩
    rcases (exists_parse_eq_ok_iff hc').2 hfits with ⟨v, hv⟩
    exact ⟨rest, c', v, hc', hv⟩
  · rw [(parse_eq_error_iff hc).2 ⟨k, t, hfloat, rfl⟩]
    exact (parse_eq_error_iff hc').2 ⟨k, t, hfloat.of_take htake, rfl⟩

/-- `5 + + 3` is rejected at its second plus sign. -/
theorem parse_misfit_doubled :
    let c : Cursor := ⟨0, [.number "5" ⟨0, 1⟩, .operator .plus 2, .operator .plus 4,
      .number "3" ⟨6, 7⟩], 7⟩
    Cursor.ofTokens? c.tokens = .ok c ∧ (parse (α := Float) c).result = .error ⟨"+", 2⟩ := by
  intro c
  have hc : Cursor.ofTokens? c.tokens = .ok c := rfl
  -- The two tokens before it are a number at `0` and an operator at `1`.
  refine ⟨hc, ((parse_misfit hc).2.1 _).2 ⟨2, .lexeme (.operator .plus 4), ⟨rfl, rfl, ?_⟩, rfl⟩⟩
  rintro (_ | _ | j) hj u hu
  · cases hu
    intro h
    rcases h with h | h
    · cases h
    · exact absurd h (by decide)
  · cases hu
    exact fun h => by cases h
  · omega

end Grammar

end LineCalc
