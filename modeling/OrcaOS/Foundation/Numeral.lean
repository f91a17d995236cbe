import Mathlib

/-!
Positional numerals with the highest digit first.
-/

namespace Foundation

/-- The digits of a radix read as the value. -/
structure ReadsAs (radix value : Nat) (digits : List Nat) : Prop where
  digit : ∀ digit ∈ digits, digit < radix
  value : Nat.ofDigits radix digits.reverse = value

/-- A numeral has no leading zero, except for the numeral of zero. -/
structure IsNumeral (radix value : Nat) (digits : List Nat) : Prop extends ReadsAs radix value digits where
  leading : digits = [0] ∨ ∃ head rest, digits = head :: rest ∧ head ≠ 0

variable {radix value : Nat} {digits : List Nat}

theorem isNumeral_zero (positive : 0 < radix) : IsNumeral radix 0 [0] where
  digit digit member := by
    rw [List.mem_singleton.mp member]
    exact positive
  value := rfl
  leading := .inl rfl

/-- The digits that repeated division gives are the numeral in reverse. -/
theorem isNumeral_digits (large : 1 < radix) (nonzero : value ≠ 0) :
    IsNumeral radix value (Nat.digits radix value).reverse where
  digit digit member := Nat.digits_lt_base large (List.mem_reverse.mp member)
  value := by rw [List.reverse_reverse, Nat.ofDigits_digits]
  leading := by
    have some : Nat.digits radix value ≠ [] := Nat.digits_ne_nil_iff_ne_zero.mpr nonzero
    refine .inr ⟨(Nat.digits radix value).getLast some, (Nat.digits radix value).dropLast.reverse, ?_,
      Nat.getLast_digit_ne_zero radix nonzero⟩
    conv_lhs => rw [← List.dropLast_append_getLast some]
    rw [List.reverse_append, List.reverse_singleton, List.singleton_append]

/-- The canonical numeral of a value. -/
def numeralOf (radix value : Nat) : List Nat := if value = 0 then [0] else (Nat.digits radix value).reverse

theorem isNumeral_numeralOf (large : 1 < radix) (value : Nat) : IsNumeral radix value (numeralOf radix value) := by
  rw [numeralOf]
  split_ifs with zero
  · rw [zero]
    exact isNumeral_zero (by omega)
  · exact isNumeral_digits large zero

/-- Digits of one length that read as one value are the same. -/
theorem ReadsAs.unique {other : List Nat} (reads : ReadsAs radix value digits) (large : 1 < radix)
    (alike : ReadsAs radix value other) (length : digits.length = other.length) : digits = other := by
  refine List.reverse_injective (Nat.ofDigits_inj_of_len_eq large ?_ (fun digit member => ?_) (fun digit member => ?_) ?_)
  · rw [List.length_reverse, List.length_reverse, length]
  · exact reads.digit digit (List.mem_reverse.mp member)
  · exact alike.digit digit (List.mem_reverse.mp member)
  · rw [reads.value, alike.value]

/-- Leading zeros do not change the value. -/
theorem ReadsAs.pad (reads : ReadsAs radix value digits) (positive : 0 < radix) (count : Nat) :
    ReadsAs radix value (List.replicate count 0 ++ digits) where
  digit digit member := by
    obtain zero | own := List.mem_append.mp member
    · rw [List.eq_of_mem_replicate zero]
      exact positive
    · exact reads.digit digit own
  value := by
    rw [List.reverse_append, List.reverse_replicate, Nat.ofDigits_append_replicate_zero]
    exact reads.value

/-- Without a leading zero the digits are those that repeated division gives. -/
theorem IsNumeral.digits_eq (numeral : IsNumeral radix value digits) (large : 1 < radix) (several : digits ≠ [0]) :
    Nat.digits radix value = digits.reverse := by
  obtain ⟨head, rest, rfl, nonzero⟩ := numeral.leading.resolve_left several
  rw [← numeral.value]
  refine Nat.digits_ofDigits radix large _ (fun digit member => numeral.digit digit (List.mem_reverse.mp member)) ?_
  intro some
  rw [List.getLast_reverse]
  exact nonzero

/-- A value has one numeral. -/
theorem IsNumeral.eq (numeral : IsNumeral radix value digits) (large : 1 < radix) : digits = numeralOf radix value := by
  rw [numeralOf]
  by_cases single : digits = [0]
  · have zero : value = 0 := by
      rw [← numeral.value, single]
      rfl
    rw [if_pos zero, single]
  · have own := numeral.digits_eq large single
    have nonzero : value ≠ 0 := by
      rintro rfl
      rw [Nat.digits_zero] at own
      obtain ⟨_, _, rfl, -⟩ := numeral.leading.resolve_left single
      exact List.reverse_ne_nil_iff.mpr (List.cons_ne_nil _ _) own.symm
    rw [if_neg nonzero, own, List.reverse_reverse]

/-- A number below a power of the radix has no more digits than the exponent. -/
theorem IsNumeral.length_le (numeral : IsNumeral radix value digits) (large : 1 < radix) {count : Nat}
    (positive : 0 < count) (small : value < radix ^ count) : digits.length ≤ count := by
  by_cases single : digits = [0]
  · rw [single]
    exact positive
  · have length := (Nat.digits_length_le_iff large value).mpr small
    rwa [numeral.digits_eq large single, List.length_reverse] at length

/-- Digits that read as a value are its numeral behind zeros. -/
theorem ReadsAs.eq_padded (reads : ReadsAs radix value digits) (large : 1 < radix) (some : 0 < digits.length) :
    digits = List.replicate (digits.length - (numeralOf radix value).length) 0 ++ numeralOf radix value := by
  have numeral := isNumeral_numeralOf large value
  have small : value < radix ^ digits.length := by
    have bounded := Nat.ofDigits_lt_base_pow_length large fun digit member => reads.digit digit (List.mem_reverse.mp member)
    rwa [reads.value, List.length_reverse] at bounded
  have fits := numeral.length_le large some small
  refine reads.unique large (numeral.toReadsAs.pad (by omega) _) ?_
  rw [List.length_append, List.length_replicate]
  omega

end Foundation
