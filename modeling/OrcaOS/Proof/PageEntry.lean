import OrcaOS.Construction.Paging

/-!
Packed page-table entries as a frame followed by flag bits.
-/

namespace OrcaOS

/-- Writing a bit of the low part keeps the high part. -/
theorem setBit_append {high low : Nat} (upper : BitVec high) (lower : BitVec low) {index : Nat}
    (inside : index < low) (value : Bool) :
    setBit (upper ++ lower) index value = upper ++ setBit lower index value := by
  apply BitVec.eq_of_getLsbD_eq
  intro position bound
  have total : index < high + low := by omega
  cases value <;>
    simp only [setBit, if_true, Bool.false_eq_true, if_false, BitVec.getLsbD_or, BitVec.getLsbD_and,
      BitVec.getLsbD_not, BitVec.getLsbD_append, BitVec.getLsbD_twoPow, bound, decide_true,
      Bool.true_and] <;>
    by_cases small : position < low <;> by_cases same : index = position <;>
    simp [small, same, total] <;> omega

theorem getLsbD_append_low {high low : Nat} (upper : BitVec high) (lower : BitVec low) {index : Nat}
    (inside : index < low) : (upper ++ lower).getLsbD index = lower.getLsbD index := by
  rw [BitVec.getLsbD_append, if_pos inside]

theorem EntryFlag.index_lt (flag : EntryFlag) : flag.index < 12 := by
  cases flag <;> decide

section LargePage
variable (frame : BitVec 10) (flags : BitVec 22)

theorem setFlag_largePage (flag : EntryFlag) (value : Bool) :
    setFlag (frame ++ flags) flag value = frame ++ setBit flags flag.index value :=
  setBit_append frame flags (by have := flag.index_lt; omega) value

theorem flagOf_largePage (flag : EntryFlag) :
    flagOf (frame ++ flags) flag = flags.getLsbD flag.index :=
  getLsbD_append_low frame flags (by have := flag.index_lt; omega)

@[simp] theorem setUpperAddress_largePage (next : BitVec 10) :
    setUpperAddress (frame ++ flags) next = next ++ flags := by
  unfold setUpperAddress
  rw [BitVec.extractLsb'_append_eq_right]

@[simp] theorem upperAddress_largePage : upperAddress (frame ++ flags) = frame :=
  BitVec.extractLsb'_append_eq_left

end LargePage

section SmallPage
variable (frame : BitVec 20) (flags : BitVec 12)

theorem setFlag_smallPage (flag : EntryFlag) (value : Bool) :
    setFlag (frame ++ flags) flag value = frame ++ setBit flags flag.index value :=
  setBit_append frame flags flag.index_lt value

theorem flagOf_smallPage (flag : EntryFlag) :
    flagOf (frame ++ flags) flag = flags.getLsbD flag.index :=
  getLsbD_append_low frame flags flag.index_lt

@[simp] theorem addressOf_smallPage : addressOf (frame ++ flags) = frame :=
  BitVec.extractLsb'_append_eq_left

end SmallPage

/-- An entry is its frame followed by its flags. -/
theorem largePage_eq (entry : BitVec 32) :
    entry = upperAddress entry ++ entry.extractLsb' 0 22 := by
  have whole := @BitVec.extractLsb'_append_extractLsb' 10 22 entry
  exact whole.symm

/-- Mapping a program puts its frame in entry 32, whatever was there before. -/
theorem upperAddress_mapProgram (tables : PageTables) (processNum : Nat) :
    upperAddress ((mapProgram tables processNum).pageDirectory 32) =
      BitVec.ofNat 10 (2 + processNum) := by
  unfold mapProgram setEntry
  simp only [if_true, Nat.mul_one]
  rw [largePage_eq (tables.pageDirectory 32)]
  simp only [setUpperAddress_largePage, setFlag_largePage, upperAddress_largePage]

/-- Mapping a program changes entry 32 only. -/
theorem mapProgram_pageDirectory_of_ne (tables : PageTables) (processNum : Nat) {index : Nat}
    (different : index ≠ 32) :
    (mapProgram tables processNum).pageDirectory index = tables.pageDirectory index := by
  unfold mapProgram setEntry
  exact if_neg different

end OrcaOS
