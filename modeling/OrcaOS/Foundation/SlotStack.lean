import Mathlib

namespace Foundation

/-!
A fixed table of slots marks each unused slot with a `free` value. A table that is filled from the
first free slot and emptied from the last used one is a stack.
-/

section
variable {A : Type} [DecidableEq A] (free : A)

/-- The search runs upwards and stops at the first free slot. -/
def firstFree (entries : Nat → A) (capacity : Nat) : Option Nat :=
  (List.range capacity).find? fun index => entries index = free

/-- The search runs downwards and stops at the last used slot. -/
def lastUsed (entries : Nat → A) : Nat → Option Nat
  | 0 => none
  | index + 1 => if entries index ≠ free then some index else lastUsed entries index

variable {free} {entries : Nat → A} {capacity : Nat}

theorem firstFree_eq_none_iff :
    firstFree free entries capacity = none ↔ ∀ index < capacity, entries index ≠ free := by
  simp [firstFree]

theorem firstFree_eq_some_iff {index : Nat} :
    firstFree free entries capacity = some index ↔
      index < capacity ∧ entries index = free ∧ ∀ earlier < index, entries earlier ≠ free := by
  simp only [firstFree, List.find?_range_eq_some, decide_eq_true_eq, List.mem_range,
    Bool.not_eq_true', decide_eq_false_iff_not]
  tauto

/-- The search depends on the entries of the table only. -/
theorem firstFree_congr {other : Nat → A} (same : ∀ index < capacity, entries index = other index) :
    firstFree free entries capacity = firstFree free other capacity := by
  cases found : firstFree free other capacity with
  | none =>
      rw [firstFree_eq_none_iff] at found ⊢
      intro index small
      rw [same index small]
      exact found index small
  | some index =>
      rw [firstFree_eq_some_iff] at found ⊢
      obtain ⟨small, isFree, earlier⟩ := found
      refine ⟨small, (same index small).trans isFree, fun before less => ?_⟩
      rw [same before (by omega)]
      exact earlier before less

theorem lastUsed_eq_none_iff :
    lastUsed free entries capacity = none ↔ ∀ index < capacity, entries index = free := by
  induction capacity with
  | zero => simp [lastUsed]
  | succ capacity ih =>
      by_cases used : entries capacity = free
      · simp only [lastUsed, used, ne_eq, not_true_eq_false, if_false, ih]
        constructor
        · intro earlier index small
          rcases Nat.lt_succ_iff_lt_or_eq.mp small with small | rfl
          · exact earlier index small
          · exact used
        · intro all index small
          exact all index (Nat.lt_succ_of_lt small)
      · simp only [lastUsed, used, ne_eq, not_false_eq_true, if_true, reduceCtorEq, false_iff]
        exact fun all => used (all capacity (Nat.lt_succ_self _))

theorem lastUsed_some {index : Nat} (found : lastUsed free entries capacity = some index) :
    index < capacity ∧ entries index ≠ free := by
  induction capacity with
  | zero => simp [lastUsed] at found
  | succ capacity ih =>
      rw [lastUsed] at found
      split at found
      · obtain rfl := Option.some.inj found
        exact ⟨Nat.lt_succ_self _, by assumption⟩
      · obtain ⟨small, used⟩ := ih found
        exact ⟨Nat.lt_succ_of_lt small, used⟩

theorem lastUsed_congr {other : Nat → A} (same : ∀ index < capacity, entries index = other index) :
    lastUsed free entries capacity = lastUsed free other capacity := by
  induction capacity with
  | zero => rfl
  | succ capacity ih =>
      rw [lastUsed, lastUsed, same capacity (Nat.lt_succ_self _),
        ih fun index small => same index (Nat.lt_succ_of_lt small)]

end

section
variable {A : Type} {free : A} {entries : Nat → A} {capacity : Nat}

variable (free entries capacity) in
/-- The table holds a stack when the stack fills its first slots and the others are free. -/
structure HoldsStack (stack : List A) : Prop where
  room : stack.length ≤ capacity
  used : ∀ index (inside : index < stack.length), entries index = stack[index]
  rest : ∀ index, stack.length ≤ index → index < capacity → entries index = free
  proper : ∀ value ∈ stack, value ≠ free

namespace HoldsStack
variable {stack : List A} {value : A}

theorem congr {other : Nat → A} (holds : HoldsStack free entries capacity stack)
    (same : ∀ index < capacity, other index = entries index) :
    HoldsStack free other capacity stack where
  room := holds.room
  used index inside := (same index (by have := holds.room; omega)).trans (holds.used index inside)
  rest index low high := (same index high).trans (holds.rest index low high)
  proper := holds.proper

variable [DecidableEq A] in
/-- The first free slot of a stack that is not full is the one above its top. -/
theorem firstFree_eq (holds : HoldsStack free entries capacity stack)
    (room : stack.length < capacity) : firstFree free entries capacity = some stack.length := by
  rw [firstFree_eq_some_iff]
  refine ⟨room, holds.rest _ (Nat.le_refl _) room, fun earlier small => ?_⟩
  rw [holds.used earlier small]
  exact holds.proper _ (List.getElem_mem small)

/-- Filling the first free slot pushes on the stack. -/
theorem push (holds : HoldsStack free entries capacity stack) (room : stack.length < capacity)
    (proper : value ≠ free) :
    HoldsStack free (Function.update entries stack.length value) capacity (stack ++ [value]) where
  room := by
    rw [List.length_append]
    exact room
  used index inside := by
    rcases Nat.lt_or_ge index stack.length with small | large
    · rw [Function.update_of_ne (by omega), List.getElem_append_left small, holds.used index small]
    · have top : index = stack.length := by
        rw [List.length_append, List.length_singleton] at inside
        omega
      subst top
      simp
  rest index low high := by
    rw [List.length_append, List.length_singleton] at low
    rw [Function.update_of_ne (by omega)]
    exact holds.rest index (by omega) high
  proper other member := by
    rcases List.mem_append.mp member with member | member
    · exact holds.proper other member
    · rw [List.mem_singleton.mp member]
      exact proper

variable [DecidableEq A] in
/-- An empty stack uses no slot. -/
theorem lastUsed_nil (holds : HoldsStack free entries capacity []) :
    lastUsed free entries capacity = none :=
  lastUsed_eq_none_iff.mpr fun index small => holds.rest index (Nat.zero_le _) small

variable [DecidableEq A] in
/-- The last used slot holds the top of the stack. -/
theorem lastUsed_eq (holds : HoldsStack free entries capacity (stack ++ [value])) :
    lastUsed free entries capacity = some stack.length ∧ entries stack.length = value := by
  have top : entries stack.length = value := by
    rw [holds.used stack.length (by simp)]
    simp
  have used : value ≠ free := holds.proper value (by simp)
  have room : stack.length < capacity := by
    have := holds.room
    rw [List.length_append, List.length_singleton] at this
    omega
  refine ⟨?_, top⟩
  have above : ∀ bound, stack.length < bound → bound ≤ capacity →
      lastUsed free entries bound = some stack.length := by
    intro bound low high
    -- The search passes the free slots above the top one by one.
    induction bound with
    | zero => omega
    | succ bound ih =>
        rcases Nat.lt_or_ge stack.length bound with small | large
        · rw [lastUsed, if_neg (by
            simp only [ne_eq, not_not]
            exact holds.rest bound (by simp; omega) (by omega))]
          exact ih small (by omega)
        · have same : bound = stack.length := by omega
          rw [lastUsed, if_pos (by rw [same, top]; exact used), same]
  exact above capacity room (Nat.le_refl _)

/-- Freeing the last used slot pops the stack. -/
theorem pop (holds : HoldsStack free entries capacity (stack ++ [value])) :
    HoldsStack free (Function.update entries stack.length free) capacity stack where
  room := by
    have := holds.room
    rw [List.length_append] at this
    omega
  used index inside := by
    rw [Function.update_of_ne (by omega), holds.used index (by simp; omega),
      List.getElem_append_left inside]
  rest index low high := by
    by_cases top : index = stack.length
    · rw [top, Function.update_self]
    · rw [Function.update_of_ne top]
      exact holds.rest index (by simp; omega) high
  proper other member := holds.proper other (List.mem_append_left _ member)

end HoldsStack

end

end Foundation
