import LineCalc.Number.Layout
import LineCalc.Number.Literal
import LineCalc.Proofs.Number.RoundingInterval
import Mathlib

/-!
# Number Text

What the text of a float is read as.

A float is written in one of a few forms: digits only, digits with a point among them, or digits
with an exponent. Each of them is a literal, and the digits and the exponent that are read are
those of the decimal that was written, except that zeros before a point, or after one, have become
digits. So the number is the same, and so is the sign.

Nothing is said here about floats that are read. A text is read as a decimal, and rounding comes
after that.

## Main definitions

* `Literal.Denotes`: An unsigned text is read as a decimal with this value.

## Theorems

* `Literal.decimal?_whole`, `Literal.decimal?_point`: The two forms of a decimal number.
* `Layout.denotes_positional`, `Layout.denotes_scientific`: The two ways to write a decimal.
* `Layout.exists_read?_render`: What the text of a finite float is read as.
-/

namespace LineCalc

namespace Literal

section

variable {ds whole fraction tail : List Char} {z : Int}

/-- Digits end where something follows that is not one. -/
theorem digits_append (hds : ∀ c ∈ ds, c.isDigit = true)
    (htail : ∀ c ∈ tail.head?, c.isDigit = false) : digits (ds ++ tail) = (ds, tail) := by
  rw [digits, List.takeWhile_append_of_pos hds, List.dropWhile_append_of_pos hds]
  -- The digits are taken, and nothing of what follows.
  cases tail with
  | nil => rw [List.takeWhile_nil, List.dropWhile_nil, List.append_nil]
  | cons c cs =>
      have hc : ¬ c.isDigit = true := by
        rw [htail c rfl]
        exact Bool.false_ne_true
      rw [List.takeWhile_cons_of_neg hc, List.dropWhile_cons_of_neg hc, List.append_nil]

theorem isDigit_of_mem_toDigits {n : Nat} : ∀ c ∈ Nat.toDigits 10 n, c.isDigit = true :=
  fun _ hc => Nat.isDigit_of_mem_toDigits (by norm_num) (by norm_num) hc

theorem value_toDigits (n : Nat) : value (Nat.toDigits 10 n) = n :=
  Nat.ofDigitChars_ten_toDigits

/-- A zero behind some digits multiplies their number by ten. -/
theorem value_append_zeros (ds : List Char) (k : Nat) :
    value (ds ++ List.replicate k '0') = 10 ^ k * value ds := by
  change Nat.ofDigitChars 10 (ds ++ List.replicate k '0') 0 = _
  rw [Nat.ofDigitChars_append, Nat.ofDigitChars_replicate_zero]
  rfl

/-- A zero in front of them does nothing. -/
theorem value_zeros_append (ds : List Char) (k : Nat) :
    value (List.replicate k '0' ++ ds) = value ds := by
  change Nat.ofDigitChars 10 (List.replicate k '0' ++ ds) 0 = _
  rw [Nat.ofDigitChars_append, Nat.ofDigitChars_replicate_zero, Nat.mul_zero]
  rfl

/-- Digits, and an exponent if there is one. -/
theorem decimal?_whole (hwhole : ∀ c ∈ whole, c.isDigit = true) (hne : whole ≠ [])
    (htail : ∀ c ∈ tail.head?, c.isDigit = false ∧ c ≠ '.') (hexponent : exponent? tail = some z) :
    decimal? (whole ++ tail) = some (.decimal (value whole) z) := by
  rw [decimal?, digits_append hwhole fun c hc => (htail c hc).1]
  dsimp only
  -- A point would begin a fraction, and there is none.
  split
  · exact absurd rfl (htail '.' rfl).2
  · simp only [hne, false_and, if_false, hexponent, List.append_nil]
    exact congrArg (fun e => some (Magnitude.decimal (value whole) e)) (Int.sub_zero z)

/-- Digits with a point among them. The digits after the point count against the exponent. -/
theorem decimal?_point (hwhole : ∀ c ∈ whole, c.isDigit = true) (hne : whole ≠ [])
    (hfraction : ∀ c ∈ fraction, c.isDigit = true) (htail : ∀ c ∈ tail.head?, c.isDigit = false)
    (hexponent : exponent? tail = some z) :
    decimal? (whole ++ '.' :: (fraction ++ tail)) =
      some (.decimal (value (whole ++ fraction)) (z - fraction.length)) := by
  have hpoint : ∀ c ∈ ('.' :: (fraction ++ tail)).head?, c.isDigit = false := by
    rintro c ⟨⟩
    rfl
  rw [decimal?, digits_append hwhole hpoint]
  simp only [digits_append hfraction htail, hne, false_and, if_false, hexponent]
  rfl

/-- An exponent is read as the number that it was written from. -/
theorem exponent?_toString (z : Int) : exponent? ('e' :: (toString z).toList) = some z := by
  have hdigits (n : Nat) : digits (Nat.toDigits 10 n) = (Nat.toDigits 10 n, []) :=
    digits_eq isDigit_of_mem_toDigits
  rw [Int.toString_eq_repr, Int.repr_eq_if]
  -- A minus sign is a sign for the reader, and a digit is none.
  split
  · rename_i hz
    have hsign : sign (Nat.toDigits 10 z.toNat) = (false, Nat.toDigits 10 z.toNat) := by
      have hne : Nat.toDigits 10 z.toNat ≠ [] := Nat.toDigits_ne_nil
      rcases List.exists_cons_of_ne_nil hne with ⟨c, cs, hcs⟩
      have hc := isDigit_of_mem_toDigits c (hcs ▸ List.mem_cons_self)
      rw [hcs]
      exact sign_cons_of_isDigit hc cs
    rw [Nat.toList_repr, exponent?]
    simp only [hsign, hdigits, Nat.toDigits_ne_nil, value_toDigits, true_or, if_true, ne_eq,
      not_true_eq_false, or_self, if_false, Bool.false_eq_true]
    rw [Int.toNat_of_nonneg hz]
  · rename_i hz
    have htext : ("-" ++ (-z).toNat.repr).toList = '-' :: Nat.toDigits 10 (-z).toNat := by
      rw [String.toList_append, Nat.toList_repr]
      rfl
    have hsign : sign ('-' :: Nat.toDigits 10 (-z).toNat) =
        (true, Nat.toDigits 10 (-z).toNat) := rfl
    rw [htext, exponent?]
    simp only [hsign, hdigits, Nat.toDigits_ne_nil, value_toDigits, true_or, if_true, ne_eq,
      not_true_eq_false, or_self, if_false]
    rw [Int.toNat_of_nonneg (by omega), neg_neg]

/-- A text without a sign that is read as a decimal with this value. -/
structure Denotes (text : List Char) (q : ℚ) : Prop where
  exists_decimal?_eq : ∃ n z, decimal? text = some (.decimal n z) ∧ (n : ℚ) * 10 ^ z = q
  sign_eq : sign text = (false, text)

theorem sign_append (hwhole : ∀ c ∈ whole, c.isDigit = true) (hne : whole ≠ []) :
    sign (whole ++ tail) = (false, whole ++ tail) := by
  rcases List.exists_cons_of_ne_nil hne with ⟨c, cs, rfl⟩
  exact sign_cons_of_isDigit (hwhole c List.mem_cons_self) _

/-- Digits that are followed by an exponent, or by nothing, are a decimal. -/
theorem denotes_whole (hwhole : ∀ c ∈ whole, c.isDigit = true) (hne : whole ≠ [])
    (htail : ∀ c ∈ tail.head?, c.isDigit = false ∧ c ≠ '.') (hexponent : exponent? tail = some z) :
    Denotes (whole ++ tail) (value whole * 10 ^ z) where
  exists_decimal?_eq := ⟨_, _, decimal?_whole hwhole hne htail hexponent, rfl⟩
  sign_eq := sign_append hwhole hne

/-- So are digits with a point among them, where the places behind the point count against the
    exponent. -/
theorem denotes_point (hwhole : ∀ c ∈ whole, c.isDigit = true) (hne : whole ≠ [])
    (hfraction : ∀ c ∈ fraction, c.isDigit = true) (htail : ∀ c ∈ tail.head?, c.isDigit = false)
    (hexponent : exponent? tail = some z) :
    Denotes (whole ++ '.' :: (fraction ++ tail))
      (value (whole ++ fraction) * 10 ^ (z - fraction.length)) where
  exists_decimal?_eq := ⟨_, _, decimal?_point hwhole hne hfraction htail hexponent, rfl⟩
  sign_eq := sign_append hwhole hne

end

end Literal

namespace Layout

open Literal

theorem isDigit_of_mem_digits {n : Nat} : ∀ c ∈ digits n, c.isDigit = true :=
  isDigit_of_mem_toDigits

theorem isDigit_of_mem_zeros {k : Nat} : ∀ c ∈ List.replicate k '0', c.isDigit = true := by
  intro c hc
  rw [List.eq_of_mem_replicate hc]
  rfl

/-- A whole number is written with all of its zeros. -/
theorem denotes_zeros (n k : Nat) (wholePoint : Bool) :
    Denotes (digits n ++ List.replicate k '0' ++ if wholePoint then ".0".toList else [])
      (n * 10 ^ k) := by
  have hwhole : ∀ c ∈ digits n ++ List.replicate k '0', c.isDigit = true :=
    fun c hc => (List.mem_append.1 hc).elim (isDigit_of_mem_digits c) (isDigit_of_mem_zeros c)
  have hne : digits n ++ List.replicate k '0' ≠ [] :=
    List.append_ne_nil_of_left_ne_nil Nat.toDigits_ne_nil _
  have hvalue : value (digits n ++ List.replicate k '0') = 10 ^ k * n := by
    rw [value_append_zeros, digits, value_toDigits]
  cases wholePoint
  · have hdenotes : Denotes (digits n ++ List.replicate k '0' ++ []) _ :=
      denotes_whole hwhole hne nofun rfl
    have hnumber : (n : ℚ) * 10 ^ k = (10 ^ k * n : Nat) * 10 ^ (0 : Int) := by
      rw [zpow_zero, mul_one, mul_comm]
      push_cast
      rfl
    rw [hvalue, ← hnumber] at hdenotes
    exact hdenotes
  · -- The zero after the point is one more digit, and it counts against the exponent.
    have hdenotes : Denotes (digits n ++ List.replicate k '0' ++
        '.' :: (List.replicate 1 '0' ++ [])) _ :=
      denotes_point hwhole hne isDigit_of_mem_zeros nofun rfl
    have hnumber : (n : ℚ) * 10 ^ k =
        (10 ^ 1 * (10 ^ k * n) : Nat) * 10 ^ ((0 : Int) - (List.replicate 1 '0').length) := by
      have hten : (10 : ℚ) ^ ((0 : Int) - (List.replicate 1 '0').length) = 10⁻¹ := zpow_neg_one 10
      rw [hten, eq_mul_inv_iff_mul_eq₀ (by norm_num)]
      push_cast
      ring
    rw [value_append_zeros, hvalue, ← hnumber] at hdenotes
    exact hdenotes

/-- Digits are split by a point at a place counted from the end. -/
theorem denotes_split {ds : List Char} {places : Nat} (hds : ∀ c ∈ ds, c.isDigit = true)
    (hplaces : places < ds.length) :
    Denotes (ds.take (ds.length - places) ++ '.' :: ds.drop (ds.length - places))
      (value ds * 10 ^ (-places : Int)) := by
  have hwhole : ∀ c ∈ ds.take (ds.length - places), c.isDigit = true :=
    fun c hc => hds c (List.mem_of_mem_take hc)
  have hfraction : ∀ c ∈ ds.drop (ds.length - places), c.isDigit = true :=
    fun c hc => hds c (List.mem_of_mem_drop hc)
  have hne : ds.take (ds.length - places) ≠ [] := by
    rw [ne_eq, List.take_eq_nil_iff, ← List.length_eq_zero_iff]
    omega
  have hlength : ((0 : Int) - (ds.drop (ds.length - places)).length) = -places := by
    rw [List.length_drop]
    omega
  have hdenotes : Denotes (ds.take (ds.length - places) ++
      '.' :: (ds.drop (ds.length - places) ++ [])) _ :=
    denotes_point hwhole hne hfraction nofun rfl
  rwa [List.take_append_drop, List.append_nil, hlength] at hdenotes

/-- A decimal that is written in full has its own value. -/
theorem denotes_positional (wholePoint : Bool) (d : Decimal) :
    Denotes (positional wholePoint d) d.value := by
  unfold positional
  dsimp only
  -- Zeros are written behind the digits, or in front of them so that there is a place for the
  -- point.
  split
  · rename_i hexponent
    have hdenotes := denotes_zeros d.digits d.exponent.toNat wholePoint
    rwa [← zpow_natCast, Int.toNat_of_nonneg hexponent] at hdenotes
  · rename_i hexponent
    generalize hplaces : (-d.exponent).toNat = places
    generalize hpadded : List.replicate (places + 1 - (digits d.digits).length) '0' ++
      digits d.digits = padded
    have hds : ∀ c ∈ padded, c.isDigit = true := by
      intro c hc
      rw [← hpadded] at hc
      exact (List.mem_append.1 hc).elim (isDigit_of_mem_zeros c) (isDigit_of_mem_digits c)
    have hlength : places < padded.length := by
      rw [← hpadded, List.length_append, List.length_replicate]
      omega
    have hvalue : value padded = d.digits := by
      rw [← hpadded, value_zeros_append, digits, value_toDigits]
    have hdenotes := denotes_split hds hlength
    have hz : (-places : Int) = d.exponent := by omega
    rw [hvalue, hz] at hdenotes
    exact hdenotes

/-- A decimal that is written with an exponent has its own value. -/
theorem denotes_scientific (d : Decimal) : Denotes (scientific d) d.value := by
  have hnonempty : 0 < (digits d.digits).length := Nat.length_toDigits_pos
  have hvalue : value (digits d.digits) = d.digits := value_toDigits d.digits
  have hexponent := exponent?_toString (leadExponent d)
  unfold scientific
  dsimp only
  -- One digit has no point behind it.
  split
  · rename_i hsingle
    have hdenotes := denotes_whole (isDigit_of_mem_digits (n := d.digits)) Nat.toDigits_ne_nil
      (by rintro c ⟨⟩; exact ⟨rfl, by decide⟩) hexponent
    have hlead : leadExponent d = d.exponent := by
      rw [leadExponent, hsingle]
      omega
    rw [hvalue, hlead] at hdenotes
    rw [List.take_of_length_le hsingle.le, List.append_nil, hlead]
    exact hdenotes
  · have hwhole : ∀ c ∈ (digits d.digits).take 1, c.isDigit = true :=
      fun c hc => isDigit_of_mem_digits c (List.mem_of_mem_take hc)
    have hfraction : ∀ c ∈ (digits d.digits).drop 1, c.isDigit = true :=
      fun c hc => isDigit_of_mem_digits c (List.mem_of_mem_drop hc)
    have hne : (digits d.digits).take 1 ≠ [] := by
      rw [ne_eq, List.take_eq_nil_iff, ← List.length_eq_zero_iff]
      omega
    have hdenotes := denotes_point hwhole hne hfraction (by rintro c ⟨⟩; rfl) hexponent
    have hlead : leadExponent d - ((digits d.digits).drop 1).length = d.exponent := by
      rw [leadExponent, List.length_drop]
      omega
    rw [List.take_append_drop, hvalue, hlead] at hdenotes
    rw [List.append_assoc]
    exact hdenotes

/-- The number that the digits of a float are those of. -/
def writtenValue (d : Dyadic) : ℚ :=
  if d.significand = 0 then 0 else d.shortest.value

/-- The form is chosen by the exponent, and neither form changes the number. -/
theorem denotes_size (l : Layout) (d : Dyadic) : Denotes (l.size d) (writtenValue d) := by
  have hwritten : writtenValue d =
      (if d.significand = 0 then ⟨0, 0⟩ else d.shortest : Decimal).value := by
    unfold writtenValue
    split
    · rw [Decimal.value, Nat.cast_zero, zero_mul]
    · rfl
  rw [hwritten]
  unfold size
  dsimp only
  -- Which decimal it is does not matter from here on.
  generalize (if d.significand = 0 then ⟨0, 0⟩ else d.shortest : Decimal) = decimal
  split
  · exact denotes_positional l.wholePoint decimal
  · exact denotes_scientific decimal

section

variable {l : Layout} {x : Float} {negative : Bool} {d : Dyadic}

/-- A finite float is written as a decimal with its sign. -/
theorem exists_read?_render (h : FloatParts.ofBits x.toBits = .finite negative d) :
    ∃ n z, read? (l.render x) = some ⟨negative, .decimal n z⟩ ∧
      (n : ℚ) * 10 ^ z = writtenValue d := by
  rcases denotes_size l d with ⟨⟨n, z, hdecimal, hvalue⟩, hsign⟩
  refine ⟨n, z, ?_, hvalue⟩
  rw [render, h, read?]
  cases negative
  · simp only [Bool.false_eq_true, if_false, String.toList_ofList, hsign, hdecimal]
    rfl
  · have hminus : sign ('-' :: l.size d) = (true, l.size d) := rfl
    simp only [if_true, String.toList_ofList, hminus, hdecimal]
    rfl

theorem read?_render_infinite (h : FloatParts.ofBits x.toBits = .infinite negative) :
    read? (l.render x) = some ⟨negative, .infinity⟩ := by
  rw [render, h]
  cases negative
  · change read? "inf" = _
    decide +kernel
  · change read? "-inf" = _
    decide +kernel

theorem read?_render_nan (h : FloatParts.ofBits x.toBits = .nan) :
    read? (l.render x) = some ⟨false, .nan⟩ := by
  rw [render, h]
  change read? "NaN" = _
  decide +kernel

end

end Layout

end LineCalc
