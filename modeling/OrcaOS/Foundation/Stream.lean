import Mathlib

/-!
Consecutive reads of a stream. An empty delivery moves the position to the end, and every other
delivery advances it by the number of items that were requested.
-/

namespace Foundation.Stream

variable {α : Type*} (contents : List α)

/-- One read delivers at most `count` items from the position. -/
def deliver (position count : Nat) : List α := (contents.drop position).take count

/-- This function gives the position after one read. -/
def advance (position count : Nat) : Nat :=
  if (deliver contents position count).length = 0 then contents.length else position + count

/-- The deliveries of consecutive reads. -/
def deliveries : Nat → List Nat → List (List α)
  | _, [] => []
  | position, count :: rest =>
      deliver contents position count :: deliveries (advance contents position count) rest

/-- No empty request before the end of the contents is followed by a request that is not empty. -/
def NoEarlyEmpty (position : Nat) (requests : List Nat) : Prop :=
  ∀ before after, requests = before ++ 0 :: after → position + before.sum < contents.length →
    ∀ count ∈ after, count = 0

variable {contents} {position count : Nat} {requests : List Nat}

theorem length_deliver (contents : List α) (position count : Nat) :
    (deliver contents position count).length = min count (contents.length - position) := by
  rw [deliver, List.length_take, List.length_drop]

theorem deliver_of_end (passed : contents.length ≤ position) (count : Nat) :
    deliver contents position count = [] := by
  rw [deliver, List.drop_eq_nil_of_le passed, List.take_nil]

theorem advance_of_end (passed : contents.length ≤ position) (count : Nat) :
    advance contents position count = contents.length := by
  rw [advance, deliver_of_end passed, if_pos List.length_nil]

/-- Nothing is delivered from the end on. -/
theorem deliveries_of_end (passed : contents.length ≤ position) :
    ∀ delivery ∈ deliveries contents position requests, delivery = [] := by
  induction requests generalizing position with
  | nil =>
      intro delivery member
      cases member
  | cons count rest ih =>
      intro delivery member
      rw [deliveries, advance_of_end passed] at member
      obtain first | later := List.mem_cons.mp member
      · rw [first, deliver_of_end passed]
      · exact ih (Nat.le_refl _) delivery later

theorem flatten_deliveries_of_end (passed : contents.length ≤ position) :
    (deliveries contents position requests).flatten = [] :=
  List.flatten_eq_nil_iff.mpr (deliveries_of_end passed)

/-- The position stays within the contents or moves by the requested count. -/
theorem length_deliver_le_advance (contents : List α) (position count : Nat) :
    min (position + (deliver contents position count).length) contents.length ≤
      advance contents position count := by
  have length := length_deliver contents position count
  unfold advance
  split <;> omega

/-- Once everything was delivered, nothing more is. -/
theorem deliveries_ended {earlier later : List (List α)}
    (split : deliveries contents position requests = earlier ++ later)
    (all : contents.length ≤ position + earlier.flatten.length) :
    ∀ delivery ∈ later, delivery = [] := by
  induction earlier generalizing position requests with
  | nil =>
      rw [List.nil_append] at split
      rw [← split]
      exact deliveries_of_end (by simpa using all)
  | cons delivery earlier ih =>
      cases requests with
      | nil => simp [deliveries] at split
      | cons count rest =>
          rw [deliveries, List.cons_append, List.cons.injEq] at split
          obtain ⟨rfl, split⟩ := split
          apply ih split
          have moved := length_deliver_le_advance contents position count
          rw [List.flatten_cons, List.length_append] at all
          omega

theorem noEarlyEmpty_cons_of_pos (positive : 0 < count) (requests : List Nat) :
    NoEarlyEmpty contents position (count :: requests) ↔
      NoEarlyEmpty contents (position + count) requests := by
  constructor
  · intro holds before after split early
    apply holds (count :: before) after (by rw [split, List.cons_append])
    rw [List.sum_cons]
    omega
  · intro holds before after split early
    cases before with
    | nil =>
        obtain ⟨equal, _⟩ := List.cons.inj split
        omega
    | cons first before =>
        obtain ⟨rfl, rest⟩ := List.cons.inj split
        rw [List.sum_cons] at early
        exact holds before after rest (by omega)

theorem noEarlyEmpty_cons_zero (early : position < contents.length) (requests : List Nat) :
    NoEarlyEmpty contents position (0 :: requests) ↔ ∀ count ∈ requests, count = 0 := by
  constructor
  · intro holds
    exact holds [] requests rfl (by simpa using early)
  · intro zero before after split _ count member
    cases before with
    | nil =>
        obtain ⟨_, rfl⟩ := List.cons.inj split
        exact zero count member
    | cons first before =>
        obtain ⟨_, rfl⟩ := List.cons.inj split
        exact zero count (by simp [member])

theorem noEarlyEmpty_of_end (passed : contents.length ≤ position) (requests : List Nat) :
    NoEarlyEmpty contents position requests := by
  intro before after split early
  omega

/-- The reads lose nothing exactly when no early empty request is followed by another request. -/
theorem flatten_deliveries_iff (contents : List α) (position : Nat) (requests : List Nat) :
    (deliveries contents position requests).flatten = deliver contents position requests.sum ↔
      NoEarlyEmpty contents position requests := by
  induction requests generalizing position with
  | nil =>
      constructor
      · intro _ before after split
        simp at split
      · intro _
        rw [deliveries, deliver, List.flatten_nil, List.sum_nil, List.take_zero]
  | cons count rest ih =>
      by_cases passed : contents.length ≤ position
      · rw [flatten_deliveries_of_end passed, deliver_of_end passed]
        exact iff_of_true rfl (noEarlyEmpty_of_end passed _)
      obtain rfl | positive := Nat.eq_zero_or_pos count
      · -- The position jumps to the end, so the remaining requests must ask for nothing.
        have nothing : deliver contents position 0 = [] := by rw [deliver, List.take_zero]
        have jump : advance contents position 0 = contents.length := by
          rw [advance, nothing, if_pos List.length_nil]
        rw [deliveries, nothing, jump, List.flatten_cons, flatten_deliveries_of_end (Nat.le_refl _),
          noEarlyEmpty_cons_zero (by omega), List.append_nil, List.sum_cons, Nat.zero_add, eq_comm,
          ← List.length_eq_zero_iff, length_deliver, ← List.sum_eq_zero_iff]
        omega
      · -- A request that delivers something only leaves the rest to the later requests.
        have moved : advance contents position count = position + count := by
          rw [advance, length_deliver, if_neg (by omega)]
        have parts : deliver contents position (count + rest.sum) =
            deliver contents position count ++ deliver contents (position + count) rest.sum := by
          rw [deliver, deliver, deliver, List.take_add, List.drop_drop]
        rw [deliveries, moved, List.flatten_cons, List.sum_cons, parts, List.append_cancel_left_eq,
          noEarlyEmpty_cons_of_pos positive]
        exact ih (position + count)

/-- The items of equal blocks are counted through. -/
theorem flatMap_blocks (size count : Nat) (item : Nat → Nat → α) :
    ((List.range count).flatMap fun block => (List.range size).map (item block)) =
      (List.range (count * size)).map fun index => item (index / size) (index % size) := by
  induction count with
  | zero => simp
  | succ count ih =>
      rw [List.range_succ, List.flatMap_append, ih, List.flatMap_singleton, Nat.succ_mul,
        List.range_add, List.map_append, List.map_map]
      congr 1
      apply List.map_congr_left
      intro index member
      have small : index < size := List.mem_range.mp member
      have positive : 0 < size := by omega
      have block : (count * size + index) / size = count := by
        rw [Nat.mul_comm, Nat.mul_add_div positive, Nat.div_eq_of_lt small, Nat.add_zero]
      have offset : (count * size + index) % size = index := by
        rw [Nat.mul_comm, Nat.mul_add_mod, Nat.mod_eq_of_lt small]
      rw [Function.comp_apply, block, offset]

end Foundation.Stream
