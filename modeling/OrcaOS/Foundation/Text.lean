import Mathlib

/-!
Texts that end before the first zero of a buffer.
-/

namespace Foundation.Text

variable {α : Type*} [DecidableEq α] [Zero α]

/-- The text in the first `count` places of the buffer. -/
def upTo (buffer : Nat → α) (count : Nat) : List α := ((List.range count).map buffer).takeWhile (· ≠ 0)

/-- The buffer holds the text and a zero after it. -/
def Held (buffer : Nat → α) (text : List α) : Prop := ∀ index ≤ text.length, buffer index = text.getD index 0

variable {buffer : Nat → α} {text : List α} {count : Nat}

theorem upTo_isPrefix (buffer : Nat → α) (count : Nat) : upTo buffer count <+: (List.range count).map buffer :=
  List.takeWhile_prefix _

theorem length_upTo_le (buffer : Nat → α) (count : Nat) : (upTo buffer count).length ≤ count := by
  have shorter := (upTo_isPrefix buffer count).length_le
  rwa [List.length_map, List.length_range] at shorter

/-- The characters before a zero are the text that precedes it. -/
theorem takeWhile_append_zero (nonzero : 0 ∉ text) (rest : List α) :
    (text ++ 0 :: rest).takeWhile (· ≠ 0) = text := by
  have characters : ∀ character ∈ text, decide (character ≠ 0) = true := by
    intro character member
    have different : character ≠ 0 := by
      rintro rfl
      exact nonzero member
    simpa using different
  rw [List.takeWhile_append_of_pos characters, List.takeWhile_cons_of_neg (by simp), List.append_nil]

/-- A text that is held within the count is the one found there. -/
theorem upTo_of_held (held : Held buffer text) (nonzero : 0 ∉ text) (inside : text.length < count) :
    upTo buffer count = text := by
  obtain ⟨rest, rfl⟩ := Nat.exists_eq_add_of_lt inside
  have own : (List.range text.length).map buffer = text := by
    apply List.ext_getElem
    · rw [List.length_map, List.length_range]
    · intro index _ small
      rw [List.getElem_map, List.getElem_range, held index (Nat.le_of_lt small), List.getD_eq_getElem _ _ small]
  have ended : buffer text.length = 0 := by
    rw [held _ (Nat.le_refl _), List.getD_eq_default _ _ (Nat.le_refl _)]
  rw [upTo, Nat.add_assoc, List.range_add, List.map_append, own, List.range_succ_eq_map, List.map_cons,
    List.map_cons, Nat.add_zero, ended, takeWhile_append_zero nonzero]

/-- Before its end the text is what the buffer holds. -/
theorem getD_upTo {index : Nat} (inside : index < (upTo buffer count).length) :
    (upTo buffer count).getD index 0 = buffer index := by
  have same := (upTo_isPrefix buffer count).getElem inside
  rw [List.getElem_map, List.getElem_range] at same
  rw [List.getD_eq_getElem _ _ inside, same]

theorem upTo_ne_zero {index : Nat} (inside : index < (upTo buffer count).length) : buffer index ≠ 0 := by
  have member : (upTo buffer count).getD index 0 ∈ upTo buffer count := by
    rw [List.getD_eq_getElem _ _ inside]
    exact List.getElem_mem inside
  rw [getD_upTo inside] at member
  simpa using List.mem_takeWhile_imp member

/-- Where zeros follow the text, it holds all characters of the buffer that are not zero. -/
theorem countP_map_range (padded : ∀ index < count, (upTo buffer count).length ≤ index → buffer index = 0)
    {n : Nat} (within : n ≤ count) :
    ((List.range n).map buffer).countP (· ≠ 0) = ((upTo buffer count).take n).length := by
  rw [List.length_take]
  induction n with
  | zero => rfl
  | succ n ih =>
      rw [List.range_succ, List.map_append, List.countP_append, ih (by omega), List.map_singleton,
        List.countP_singleton]
      by_cases inside : n < (upTo buffer count).length
      · rw [if_pos (by simpa using upTo_ne_zero inside)]
        omega
      · rw [if_neg (by simpa using padded n (by omega) (by omega))]
        omega

end Foundation.Text
