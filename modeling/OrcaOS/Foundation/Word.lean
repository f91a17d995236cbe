import Mathlib

namespace Foundation

/-- This function reduces an integer to an unsigned 32-bit word. -/
def wrap32 (value : Int) : Nat := (value % 4294967296).toNat

/-- This function reads an unsigned 32-bit word as a signed integer. -/
def signed32 (word : Nat) : Int :=
  if word < 2147483648 then word else (word : Int) - 4294967296

theorem wrap32_lt (value : Int) : wrap32 value < 4294967296 := by
  unfold wrap32
  omega

/-- A value that fits in a word is not changed. -/
theorem wrap32_of_bounds {value : Int} (low : 0 ≤ value) (high : value < 4294967296) :
    wrap32 value = value.toNat := by
  unfold wrap32
  rw [Int.emod_eq_of_lt low high]

theorem wrap32_natCast {word : Nat} (fits : word < 4294967296) : wrap32 word = word := by
  rw [wrap32_of_bounds (by omega) (by omega), Int.toNat_natCast]

theorem signed32_of_small {word : Nat} (small : word < 2147483648) : signed32 word = word :=
  if_pos small

/-- Only the word with all bits set reads as minus one. -/
theorem signed32_eq_neg_one_iff {word : Nat} (fits : word < 4294967296) :
    signed32 word = -1 ↔ word = 4294967295 := by
  unfold signed32
  split <;> omega

end Foundation
