import OrcaOS.Construction.FileSystem

/-!
What a successful `strncmp` says about the two strings.
-/

namespace OrcaOS
open Foundation

@[simp] theorem cString_nil (index : Nat) : cString [] index = 0 := rfl
@[simp] theorem cString_cons_zero (first : UInt8) (rest : List UInt8) : cString (first :: rest) 0 = first := rfl

theorem strncmpFrom_succ (first second : Buffer) (remaining index : Nat) :
    strncmpFrom first second remaining (index + 1) =
      strncmpFrom (fun offset => first (offset + 1)) (fun offset => second (offset + 1)) remaining index := by
  induction remaining generalizing index with
  | zero => rfl
  | succ remaining ih =>
      rw [strncmpFrom, strncmpFrom, ih]

/-- Different characters have a difference that is not zero. -/
theorem signed8_sub_eq_zero_iff (first second : UInt8) : signed8 first - signed8 second = 0 ↔ first = second := by
  rw [Int.sub_eq_zero, signed8, signed8, Int8.toInt_inj]
  exact ⟨fun equal => by rw [← UInt8.toUInt8_toInt8 first, equal, UInt8.toUInt8_toInt8], congrArg _⟩

/-- The comparison succeeds when the name and the string behind the pointer agree in `n` characters. -/
theorem strncmp_eq_zero_iff {name : List UInt8} (ended : 0 ∉ name) (second : Buffer) (n : Nat) :
    strncmp (cString name) second n = 0 ↔
      name.take n = ((List.range n).map second).takeWhile (· ≠ 0) := by
  unfold strncmp
  induction n generalizing name second with
  | zero => exact iff_of_true rfl List.take_zero
  | succ n ih =>
      rw [List.range_succ_eq_map, List.map_cons, List.map_map, strncmpFrom]
      cases name with
      | nil =>
          rw [if_pos (Or.inr (cString_nil 0)), signed8_sub_eq_zero_iff, cString_nil, List.take_nil]
          by_cases zero : second 0 = 0
          · simp [zero]
          · exact iff_of_false (Ne.symm zero) fun equal => by simp [zero] at equal
      | cons character rest =>
          obtain ⟨positive, ended⟩ := not_or.mp (List.mem_cons.not.mp ended)
          rw [cString_cons_zero, List.take_succ_cons]
          by_cases same : character = second 0
          · rw [if_neg (by simpa [same] using Ne.symm positive), strncmpFrom_succ,
              List.takeWhile_cons_of_pos (by simpa [← same] using Ne.symm positive), ← same,
              List.cons_inj_right]
            exact ih ended _
          · rw [if_pos (Or.inl same), signed8_sub_eq_zero_iff]
            refine iff_of_false same fun equal => ?_
            by_cases zero : second 0 = 0
            · simp [zero] at equal
            · rw [List.takeWhile_cons_of_pos (by simpa using zero)] at equal
              exact same (List.cons.inj equal).1

/-- A comparison with characters that are not zero succeeds when all of them agree. -/
theorem strncmpFrom_eq_zero_iff {first second : Buffer} {remaining index : Nat}
    (nonzero : ∀ offset, index ≤ offset → offset < index + remaining → second offset ≠ 0) :
    strncmpFrom first second remaining index = 0 ↔
      ∀ offset, index ≤ offset → offset < index + remaining → first offset = second offset := by
  induction remaining generalizing index with
  | zero => exact iff_of_true rfl fun offset low high => absurd low (by omega)
  | succ remaining ih =>
      rw [strncmpFrom]
      by_cases same : first index = second index
      · have proper : ¬(first index ≠ second index ∨ first index = 0) := by
          rw [same]
          simpa using nonzero index (Nat.le_refl _) (by omega)
        rw [if_neg proper, ih fun offset low high => nonzero offset (by omega) (by omega)]
        constructor
        · intro later offset low high
          obtain rfl | above := Nat.eq_or_lt_of_le low
          · exact same
          · exact later offset above (by omega)
        · intro all offset low high
          exact all offset (by omega) (by omega)
      · rw [if_pos (Or.inl same), signed8_sub_eq_zero_iff]
        exact iff_of_false same fun all => same (all index (Nat.le_refl _) (by omega))

end OrcaOS
