import Mathlib

/-!
What the process manager is for: nested programs start and finish in stack order above a base shell.
-/

namespace OrcaOS

/-- Program `3 + i` was started while terminal `homes[i]` was on display, above one base shell. -/
structure Session where
  base : Fin 3
  homes : List (Fin 3)
  deriving DecidableEq

namespace Session
variable (s : Session) (terminal : Fin 3)

/-- The third base shell runs when the system has booted. -/
def initial : Session := ⟨Fin.last 2, []⟩

/-- The number that the next program gets. -/
def next : Nat := 3 + s.homes.length

/-- The number of the running process. -/
def running : Nat := if s.homes = [] then s.base else 2 + s.homes.length

def start : Session := { s with homes := s.homes ++ [terminal] }

/-- The third base shell runs again when the last program has finished. -/
def finish : Session where
  base := if s.homes.length ≤ 1 then Fin.last 2 else s.base
  homes := s.homes.dropLast

def restart : Session := ⟨terminal, []⟩

/-- The numbers of the programs that were started on one terminal, the oldest first. -/
def numbersAt : List Nat :=
  ((s.homes.zipIdx 3).filter fun program => program.1 = terminal).map Prod.snd

@[simp] theorem next_start : (s.start terminal).next = s.next + 1 := by
  simp [next, start, Nat.add_assoc]

@[simp] theorem running_start : (s.start terminal).running = s.next := by
  simp [running, start, next]
  omega

@[simp] theorem numbersAt_nil (base : Fin 3) : (⟨base, []⟩ : Session).numbersAt terminal = [] := rfl

theorem numbersAt_start (other : Fin 3) :
    (s.start other).numbersAt terminal =
      s.numbersAt terminal ++ if other = terminal then [s.next] else [] := by
  unfold numbersAt start next
  rw [List.zipIdx_append, List.filter_append, List.map_append]
  by_cases same : other = terminal <;> simp [same, Nat.add_comm]

/-- Programs have numbers from 3 up to the next one. -/
theorem numbersAt_bounds {number : Nat} (member : number ∈ s.numbersAt terminal) :
    3 ≤ number ∧ number < s.next := by
  unfold numbersAt at member
  obtain ⟨⟨home, index⟩, filtered, rfl⟩ := List.mem_map.mp member
  have bounds := List.mem_zipIdx (List.mem_of_mem_filter filtered)
  unfold next
  omega

theorem numbersAt_length : (s.numbersAt terminal).length ≤ s.homes.length := by
  unfold numbersAt
  rw [List.length_map]
  have fewer := List.length_filter_le (fun program : Fin 3 × Nat => program.1 = terminal)
    (s.homes.zipIdx 3)
  rwa [List.length_zipIdx] at fewer

/-- Without programs no terminal has one. -/
theorem numbersAt_of_empty (empty : s.homes = []) : s.numbersAt terminal = [] := by
  unfold numbersAt
  rw [empty]
  rfl

/-- A session with programs is one in which the last of them was started. -/
theorem eq_start_of_ne_nil (nested : s.homes ≠ []) :
    ∃ (earlier : Session) (home : Fin 3), s = earlier.start home ∧ earlier.base = s.base := by
  obtain ⟨homes, home, same⟩ := (List.eq_nil_or_concat' s.homes).resolve_left nested
  exact ⟨⟨s.base, homes⟩, home, by rw [start, ← same], rfl⟩

theorem finish_start_homes : (s.start terminal).finish.homes = s.homes := by
  simp [finish, start]

theorem next_finish_start : (s.start terminal).finish.next = s.next := by
  rw [next, finish_start_homes, next]

theorem running_finish_start : (s.start terminal).finish.running + 1 = s.next := by
  unfold running next
  rw [finish_start_homes]
  by_cases empty : s.homes = []
  · simp [empty, finish, start]
  · rw [if_neg empty]
    omega

theorem numbersAt_finish_start (other : Fin 3) :
    (s.start other).finish.numbersAt terminal = s.numbersAt terminal := by
  unfold numbersAt
  rw [finish_start_homes]

/-- Finishing undoes starting, except that the base shell becomes the third one. -/
theorem finish_start (third : s.homes = [] → s.base = 2) : (s.start terminal).finish = s := by
  rcases s with ⟨base, homes⟩
  cases homes with
  | nil =>
      obtain rfl : base = 2 := third rfl
      rfl
  | cons home homes =>
      unfold finish start
      rw [List.dropLast_concat, if_neg (by simp)]

end Session

end OrcaOS
