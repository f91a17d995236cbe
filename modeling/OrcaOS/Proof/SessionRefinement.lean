import OrcaOS.Construction.Scheduling
import OrcaOS.Proof.ExecuteEffect
import OrcaOS.Proof.HaltEffect
import OrcaOS.Proof.PageEntry
import OrcaOS.Specification.Session

/-!
The kernel's counter, tables and records represent a session, and the system calls follow it.
-/

namespace OrcaOS
open Foundation Kernel

/-- The kernel's records of the processes are those of the session. -/
structure Represents (k : Kernel) (s : Session) : Prop where
  room : s.homes.length ≤ 3
  processNumber : k.processNumber = s.next
  currentPcb : k.currentPcb = pcbAddress s.running
  numbers : ∀ number < s.next, readField k.memory (pcbAddress number) .processNum = number
  parents : ∀ index (inside : index < s.homes.length),
    readField k.memory (pcbAddress (3 + index)) .parentTerminal = s.homes[index]
  tables : ∀ terminal : Fin 3,
    HoldsStack 0 (activeProcesses k.memory (pcbAddress terminal)) 4 (s.numbersAt terminal)
  recoverNum : k.recoverNum ≤ 3
  program : upperAddress (k.pageTables.pageDirectory 32) = BitVec.ofNat 10 (2 + s.running)
  esp0 : k.esp0 = stackTop s.running

/-- Registering a number pushes it on the stack of a terminal. -/
theorem registered_push {entries : Nat → Nat} {stack : List Nat} {number : Nat}
    (holds : HoldsStack 0 entries 4 stack) (room : stack.length < 4) (proper : number ≠ 0) :
    HoldsStack 0 (registered entries number) 4 (stack ++ [number]) := by
  unfold registered
  rw [holds.firstFree_eq room]
  exact holds.push room proper

namespace Represents
variable {k after : Kernel} {s : Session}

theorem running_lt (represents : Represents k s) : s.running < s.next ∧ s.next ≤ 6 := by
  have room := represents.room
  have base := s.base.isLt
  unfold Session.running Session.next
  split <;> omega

theorem aligned (represents : Represents k s) : k.currentPcb % 8192 = 0 := by
  rw [represents.currentPcb]
  exact pcbAddress_aligned _

/-- The running block names the running process. -/
theorem current_processNum (represents : Represents k s) : k.current .processNum = s.running := by
  rw [current, represents.currentPcb]
  exact represents.numbers _ represents.running_lt.1

/-- Switching the terminal on display changes no record. -/
theorem switchTerminal (represents : Represents k s) (terminal : Int) :
    Represents (k.switchTerminal terminal) s := { represents with }

/-- Starting a program follows the session. -/
theorem entered (represents : Represents k s) {processName text : List UInt8}
    (effect : Entered processName text k after) (fits : text.length ≤ 7900) :
    Represents after (s.start k.console.terminalOnDisplay) where
  room := by
    have valid := effect.valid
    rw [represents.processNumber] at valid
    simp only [Session.next, Session.start, List.length_append, List.length_singleton] at valid ⊢
    omega
  processNumber := by
    have recover := represents.recoverNum
    rw [effect.processNumber, represents.processNumber, Session.next_start]
    unfold Session.next
    omega
  currentPcb := by rw [effect.currentPcb, represents.processNumber, Session.running_start]
  numbers number small := by
    have claimed := effect.slots fits
    have valid := effect.valid
    rw [Session.next_start, ← represents.processNumber] at small
    by_cases own : number = k.processNumber
    · rw [own]
      exact claimed.processNum
    · rw [claimed.others number (by omega) own .processNum trivial (by simp)]
      exact represents.numbers number (by rw [← represents.processNumber]; omega)
  parents index inside := by
    have claimed := effect.slots fits
    have valid := effect.valid
    have next := represents.processNumber
    unfold Session.next at next
    simp only [Session.start, List.length_append, List.length_singleton] at inside ⊢
    by_cases own : index = s.homes.length
    · subst own
      have parent := claimed.parentTerminal
      rw [next] at parent
      simpa using parent
    · rw [claimed.others (3 + index) (by omega) (by omega) .parentTerminal trivial (by simp),
        List.getElem_append_left (by omega)]
      exact represents.parents index (by omega)
  tables terminal := by
    have claimed := effect.slots fits
    have nested : 2 < k.processNumber := by
      rw [represents.processNumber]
      unfold Session.next
      omega
    have room : (s.numbersAt terminal).length < 4 := by
      have fewer := s.numbersAt_length terminal
      have all := represents.room
      omega
    have earlier := represents.tables terminal
    refine HoldsStack.congr ?_ (claimed.tables terminal terminal.isLt)
    rw [Session.numbersAt_start, tableAfter]
    by_cases shown : k.console.terminalOnDisplay = terminal
    · subst shown
      rw [if_pos ⟨nested, rfl⟩, if_pos rfl, ← represents.processNumber]
      exact registered_push earlier room (by omega)
    · rw [if_neg shown, List.append_nil,
        if_neg fun both => shown (Fin.ext both.2.symm)]
      exact earlier
  recoverNum := effect.recoverNum ▸ represents.recoverNum
  program := by
    rw [effect.pageTables, Session.running_start, ← represents.processNumber]
    exact upperAddress_mapProgram _ _
  esp0 := by rw [effect.esp0, represents.processNumber, Session.running_start]

/-- The halting program finds its own number on top of its terminal's stack. -/
theorem lastEntry (home : Fin 3) (represents : Represents k (s.start home)) :
    k.homePcb = pcbAddress home ∧ k.lastEntry = some (s.numbersAt home).length ∧
      k.returnNumber = s.next := by
  have running : k.currentPcb = pcbAddress (3 + s.homes.length) := by
    rw [represents.currentPcb, Session.running_start, Session.next]
  have parent := represents.parents s.homes.length (by simp [Session.start])
  rw [← running] at parent
  have homePcb : k.homePcb = pcbAddress home := by
    rw [Kernel.homePcb, current, parent]
    simp [Session.start]
  have stack := represents.tables home
  rw [Session.numbersAt_start, if_pos rfl] at stack
  have last : k.lastEntry = some (s.numbersAt home).length := by
    rw [Kernel.lastEntry, homePcb]
    exact stack.lastUsed_eq.1
  refine ⟨homePcb, last, ?_⟩
  rw [returnNumber, last, homePcb]
  exact stack.lastUsed_eq.2


/-- Halting pops the stack of the program's terminal and keeps the others. -/
theorem halted_tables (home : Fin 3) (represents : Represents k (s.start home)) (effect : Halted k after)
    (terminal : Fin 3) :
    HoldsStack 0 (activeProcesses after.memory (pcbAddress terminal)) 4 (s.numbersAt terminal) := by
  obtain ⟨homePcb, last, _⟩ := represents.lastEntry home
  have stack := represents.tables terminal
  rw [Session.numbersAt_start] at stack
  by_cases own : home = terminal
  · subst own
    rw [if_pos rfl] at stack
    refine stack.pop.congr fun index small => ?_
    rw [← homePcb, effect.table index small, last, Function.update_apply]
    simp [eq_comm]
  · rw [if_neg own, List.append_nil] at stack
    refine stack.congr fun index small => ?_
    refine effect.otherTable represents.aligned (pcbAddress_aligned _) ?_ small
    rw [homePcb]
    intro equal
    have same := (pcbAddress_inj (by omega) (by omega)).mp equal
    exact own (Fin.ext same.symm)

/-- Finishing a program follows the session. -/
theorem halted (home : Fin 3) (represents : Represents k (s.start home)) (effect : Halted k after) :
    Represents after (s.start home).finish := by
  obtain ⟨_, _, number⟩ := represents.lastEntry home
  have room := represents.room
  simp only [Session.start, List.length_append, List.length_singleton] at room
  have homes : (s.start home).finish.homes = s.homes := s.finish_start_homes home
  have next := s.next_finish_start home
  have running := s.running_finish_start home
  have current : after.currentPcb = pcbAddress (s.start home).finish.running := by
    rw [effect.currentPcb, number, pcbAddress, running]
  have kept {n : Nat} (small : n < s.next) :
      readField after.memory (pcbAddress n) .processNum = n := by
    rw [effect.kept represents.aligned (pcbAddress_aligned n) (.inl (by decide))]
    exact represents.numbers n (by rw [Session.next_start]; omega)
  have processNum : after.current .processNum = (s.start home).finish.running := by
    rw [Kernel.current, current]
    exact kept (by omega)
  exact {
    room := by rw [homes]; omega
    processNumber := by rw [effect.processNumber, number, next]
    currentPcb := current
    numbers := fun n small => kept (by rwa [next] at small)
    parents := fun index inside => by
      have earlier := represents.parents index (by
        simp only [homes] at inside
        simp only [Session.start, List.length_append, List.length_singleton]
        omega)
      rw [effect.kept represents.aligned (pcbAddress_aligned _) (.inl (by decide)), earlier]
      simp only [homes] at inside ⊢
      simp only [Session.start, List.getElem_append_left inside]
    tables := fun terminal => by
      rw [Session.numbersAt_finish_start]
      exact represents.halted_tables home effect terminal
    recoverNum := effect.recoverNum ▸ represents.recoverNum
    program := by
      rw [effect.pageTables, processNum]
      exact upperAddress_mapProgram _ _
    esp0 := by rw [effect.esp0, processNum] }

/-- Restarting a base shell without programs follows the session. -/
theorem restarted (represents : Represents k s) (empty : s.homes = []) {processName text : List UInt8}
    (effect : Entered processName text { k with
      currentPcb := 0
      recoverNum := k.processNumber
      processNumber := k.console.terminalOnDisplay } after) (fits : text.length ≤ 7900) :
    Represents after (.restart k.console.terminalOnDisplay) := by
  have claimed := effect.slots fits
  have shown := k.console.terminalOnDisplay.isLt
  have number : k.processNumber = 3 := by rw [represents.processNumber, Session.next, empty]; rfl
  have running : Session.running (.restart k.console.terminalOnDisplay) =
      k.console.terminalOnDisplay := rfl
  exact {
    room := Nat.zero_le 3
    processNumber := by
      rw [effect.processNumber]
      change max (k.console.terminalOnDisplay.val + 1) k.processNumber = 3
      omega
    currentPcb := effect.currentPcb
    numbers := fun other small => by
      by_cases own : other = k.console.terminalOnDisplay
      · rw [own]
        exact claimed.processNum
      · change other < 3 at small
        rw [claimed.others other (by omega) own .processNum trivial (by simp)]
        exact represents.numbers other (by rw [Session.next]; omega)
    parents := fun index inside => absurd inside (Nat.not_lt_zero index)
    tables := fun terminal => by
      have stack := represents.tables terminal
      rw [Session.numbersAt_of_empty _ _ empty] at stack
      refine stack.congr fun index small => ?_
      rw [claimed.tables terminal terminal.isLt index small, tableAfter,
        if_neg (fun both => by have := both.1; simp only at this; omega)]
    recoverNum := by
      rw [effect.recoverNum]
      exact Nat.le_of_eq number
    program := by
      rw [effect.pageTables]
      exact upperAddress_mapProgram _ _
    esp0 := effect.esp0 }

end Represents

end OrcaOS
