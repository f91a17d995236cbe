import OrcaOS.Proof.BootSequence

/-!
A timer tick saves the stack pointer in the block that it restores it from, unless the search of
`save_registers_esp` ends at the entry past the array of active processes.
-/

namespace OrcaOS
open Foundation Kernel

/-- Two numbers address one block when they agree in their low 19 bits. -/
theorem pcbAddress_eq_iff (first second : Nat) :
    pcbAddress first = pcbAddress second ↔ first % 524288 = second % 524288 := by
  unfold pcbAddress stackTop eightMb eightKb wrap32
  omega

section Field
variable (memory : Memory) (first second word : Nat)

/-- The stack pointer of a block lies before the table of every block. -/
theorem activeProcesses_schedulingEsp {index : Nat} (inside : index < 5) :
    activeProcesses (writeField memory (pcbAddress first) .schedulingEsp word) (pcbAddress second) index =
      activeProcesses memory (pcbAddress second) index := by
  have low := pcbAddress_aligned first
  have high := pcbAddress_aligned second
  refine memory.load32_store32_outside word ?_
  simp only [PcbField.offset]
  omega

theorem schedulingEsp_of_ne (different : pcbAddress first ≠ pcbAddress second) :
    readField (writeField memory (pcbAddress first) .schedulingEsp word) (pcbAddress second) .schedulingEsp =
      readField memory (pcbAddress second) .schedulingEsp := by
  have low := pcbAddress_aligned first
  have high := pcbAddress_aligned second
  refine memory.load32_store32_outside word ?_
  simp only [PcbField.offset]
  omega

end Field

namespace Kernel
variable (k : Kernel)

/-- The entry past the array of the scheduled terminal. -/
def display (k : Kernel) : Nat := readField k.memory (pcbAddress k.terminalCounter) (.terminalDisplays 0)

/-- The process of a terminal that runs: the last active one, or its base shell. -/
def runningOn (k : Kernel) (terminal : Nat) : Nat :=
  match lastUsed 0 (activeProcesses k.memory (pcbAddress terminal)) 4 with
  | some index => activeProcesses k.memory (pcbAddress terminal) index
  | none => terminal

/-- The process whose block receives the stack pointer. -/
def savedProcess (k : Kernel) : Nat :=
  if k.display ≠ 0 then k.display else k.runningOn k.terminalCounter

theorem saveRegistersEsp_eq (registerEsp : Nat) : k.saveRegistersEsp registerEsp =
    { k with memory := writeField k.memory (pcbAddress k.savedProcess) .schedulingEsp registerEsp } := by
  have searched : lastUsed 0 (activeProcesses k.memory (pcbAddress k.terminalCounter)) 5 =
      if k.display ≠ 0 then some 4
      else lastUsed 0 (activeProcesses k.memory (pcbAddress k.terminalCounter)) 4 := rfl
  unfold saveRegistersEsp savedProcess runningOn
  dsimp only
  rw [searched]
  by_cases used : k.display ≠ 0
  · rw [if_pos used, if_pos used]
    rfl
  · rw [if_neg used, if_neg used]
    cases lastUsed 0 (activeProcesses k.memory (pcbAddress k.terminalCounter)) 4 <;> rfl

theorem restoreRegisterEsp_eq : k.restoreRegisterEsp =
    readField k.memory (pcbAddress (k.runningOn k.terminalCounter)) .schedulingEsp := by
  unfold restoreRegisterEsp runningOn
  dsimp only
  cases lastUsed 0 (activeProcesses k.memory (pcbAddress k.terminalCounter)) 4 <;> rfl

theorem saveRegistersEsp_active (registerEsp terminal : Nat) {index : Nat} (inside : index < 4) :
    activeProcesses (k.saveRegistersEsp registerEsp).memory (pcbAddress terminal) index =
      activeProcesses k.memory (pcbAddress terminal) index := by
  rw [saveRegistersEsp_eq]
  exact activeProcesses_schedulingEsp _ _ _ _ (by omega)

/-- Saving a stack pointer does not change the process that runs on a terminal. -/
theorem saveRegistersEsp_runningOn (registerEsp terminal : Nat) :
    (k.saveRegistersEsp registerEsp).runningOn terminal = k.runningOn terminal := by
  have kept (index : Nat) (small : index < 4) := k.saveRegistersEsp_active registerEsp terminal small
  have searched : lastUsed 0 (activeProcesses (k.saveRegistersEsp registerEsp).memory (pcbAddress terminal)) 4 =
      lastUsed 0 (activeProcesses k.memory (pcbAddress terminal)) 4 := lastUsed_congr kept
  cases found : lastUsed 0 (activeProcesses k.memory (pcbAddress terminal)) 4 with
  | none =>
      rw [found] at searched
      rw [runningOn, searched, runningOn, found]
  | some index =>
      rw [found] at searched
      rw [runningOn, searched, runningOn, found]
      exact kept index (lastUsed_some found).1

/-- What `restore_register_esp` returns after a save. -/
theorem restoreRegisterEsp_save (registerEsp : Nat) (fits : registerEsp < 4294967296) :
    (k.saveRegistersEsp registerEsp).restoreRegisterEsp =
      if pcbAddress k.savedProcess = pcbAddress (k.runningOn k.terminalCounter) then registerEsp
      else k.restoreRegisterEsp := by
  have counter : (k.saveRegistersEsp registerEsp).terminalCounter = k.terminalCounter := by
    rw [saveRegistersEsp_eq]
  rw [restoreRegisterEsp_eq, counter, saveRegistersEsp_runningOn, saveRegistersEsp_eq]
  split
  · rename_i same
    rw [← same]
    exact readField_writeField _ _ _ fits
  · rename_i different
    rw [schedulingEsp_of_ne _ _ _ _ different, restoreRegisterEsp_eq]

/-- Each stack pointer is restored exactly when both searches end at one block. -/
theorem restoreRegisterEsp_iff :
    (∀ registerEsp < 4294967296, (k.saveRegistersEsp registerEsp).restoreRegisterEsp = registerEsp) ↔
      pcbAddress k.savedProcess = pcbAddress (k.runningOn k.terminalCounter) := by
  constructor
  · intro resumes
    by_contra different
    have zero := resumes 0 (by decide)
    have one := resumes 1 (by decide)
    rw [k.restoreRegisterEsp_save _ (by decide), if_neg different] at zero one
    omega
  · intro same registerEsp fits
    rw [k.restoreRegisterEsp_save _ fits, if_pos same]

/-- With an active process the terminal on display resumes as the scheduled terminal does. -/
theorem restoreRegisterEspTerminal_of_active (shown : k.console.terminalOnDisplay.val = k.terminalCounter)
    (active : ∃ index < 4, activeProcesses k.memory (pcbAddress k.terminalCounter) index ≠ 0) :
    k.restoreRegisterEspTerminal = k.restoreRegisterEsp := by
  unfold restoreRegisterEspTerminal restoreRegisterEsp
  dsimp only
  rw [shown]
  cases found : lastUsed 0 (activeProcesses k.memory (pcbAddress k.terminalCounter)) 4 with
  | none =>
      obtain ⟨index, small, used⟩ := active
      exact absurd (lastUsed_eq_none_iff.mp found index small) used
  | some index => rfl

/-- Without an active process the stack pointer itself is taken for a process number. -/
theorem restoreRegisterEspTerminal_of_idle
    (idle : ∀ index < 4, activeProcesses k.memory (pcbAddress k.console.terminalOnDisplay) index = 0) :
    k.restoreRegisterEspTerminal = readField k.memory
      (pcbAddress (readField k.memory (pcbAddress k.console.terminalOnDisplay) .schedulingEsp)) .schedulingEsp := by
  unfold restoreRegisterEspTerminal
  dsimp only
  rw [lastUsed_eq_none_iff.mpr idle]

/-- The running process has a small number, so its block has one address below 19 bits. -/
theorem runningOn_lt {terminal : Nat} (few : terminal < 6)
    (numbers : ∀ index < 4, activeProcesses k.memory (pcbAddress terminal) index < 6) : k.runningOn terminal < 6 := by
  unfold runningOn
  split
  · rename_i index found
    exact numbers index (lastUsed_some found).1
  · exact few

theorem savedProcess_block_iff (few : k.terminalCounter < 3)
    (numbers : ∀ index < 4, activeProcesses k.memory (pcbAddress k.terminalCounter) index < 6) :
    pcbAddress k.savedProcess = pcbAddress (k.runningOn k.terminalCounter) ↔
      k.display = 0 ∨ k.display % 524288 = k.runningOn k.terminalCounter := by
  have small := k.runningOn_lt (by omega) numbers
  rw [pcbAddress_eq_iff, savedProcess]
  split <;> omega

/-- Without an active process no tick resumes the terminal on display through the second function:
two stack pointers that address one block would both have to be stored there. -/
theorem restoreRegisterEspTerminal_idle (shown : k.console.terminalOnDisplay.val = k.terminalCounter)
    (few : k.terminalCounter < 3)
    (idle : ∀ index < 4, activeProcesses k.memory (pcbAddress k.terminalCounter) index = 0)
    (saved : pcbAddress k.savedProcess = pcbAddress k.terminalCounter) :
    ∃ registerEsp < 4294967296, (k.saveRegistersEsp registerEsp).restoreRegisterEspTerminal ≠ registerEsp := by
  by_contra resumes
  push Not at resumes
  have block (registerEsp : Nat) (fits : registerEsp < 4294967296)
      (elsewhere : pcbAddress k.terminalCounter ≠ pcbAddress registerEsp) :
      readField k.memory (pcbAddress registerEsp) .schedulingEsp = registerEsp := by
    have terminal : (k.saveRegistersEsp registerEsp).console.terminalOnDisplay.val = k.terminalCounter := by
      rw [saveRegistersEsp_eq]
      exact shown
    have resumed := resumes registerEsp fits
    rw [restoreRegisterEspTerminal_of_idle _ (by
        intro index small
        rw [terminal, saveRegistersEsp_active _ _ _ small]
        exact idle index small),
      terminal, saveRegistersEsp_eq, saved] at resumed
    dsimp only at resumed
    rw [readField_writeField _ _ _ fits, schedulingEsp_of_ne _ _ _ _ elsewhere] at resumed
    exact resumed
  have apart (number : Nat) (large : 3 ≤ number % 524288) :
      pcbAddress k.terminalCounter ≠ pcbAddress number := by
    rw [Ne, pcbAddress_eq_iff]
    exact Nat.ne_of_lt (Nat.lt_of_le_of_lt (Nat.mod_le _ _) (Nat.lt_of_lt_of_le few large))
  have low := block 10 (by decide) (apart 10 (by decide))
  have high := block 524298 (by decide) (apart 524298 (by decide))
  rw [(pcbAddress_eq_iff 524298 10).mpr rfl, low] at high
  omega

end Kernel

/-- Each tick resumes what it interrupted exactly when the entry past the array is zero or names the
block of the running process and, on the terminal on display, a process is active. -/
theorem tick_resumes_iff (k : Kernel) (few : k.terminalCounter < 3)
    (numbers : ∀ index < 4, activeProcesses k.memory (pcbAddress k.terminalCounter) index < 6) :
    (∀ registerEsp < 4294967296, (k.saveRegistersEsp registerEsp).restoreRegisterEsp = registerEsp ∧
      (k.console.terminalOnDisplay.val = k.terminalCounter →
        (k.saveRegistersEsp registerEsp).restoreRegisterEspTerminal = registerEsp)) ↔
      (k.display = 0 ∨ k.display % 524288 = k.runningOn k.terminalCounter) ∧
        (k.console.terminalOnDisplay.val = k.terminalCounter →
          ∃ index < 4, activeProcesses k.memory (pcbAddress k.terminalCounter) index ≠ 0) := by
  rw [← k.savedProcess_block_iff few numbers, ← k.restoreRegisterEsp_iff]
  constructor
  · intro resumes
    refine ⟨fun registerEsp fits => (resumes registerEsp fits).1, fun shown => ?_⟩
    by_contra none
    push Not at none
    have running : k.runningOn k.terminalCounter = k.terminalCounter := by
      rw [runningOn, lastUsed_eq_none_iff.mpr none]
    have saved := k.restoreRegisterEsp_iff.mp fun registerEsp fits => (resumes registerEsp fits).1
    rw [running] at saved
    obtain ⟨registerEsp, fits, lost⟩ := k.restoreRegisterEspTerminal_idle shown few none saved
    exact lost ((resumes registerEsp fits).2 shown)
  · intro condition registerEsp fits
    obtain ⟨restored, active⟩ := condition
    refine ⟨restored registerEsp fits, fun shown => ?_⟩
    obtain ⟨index, small, used⟩ := active shown
    have same : (k.saveRegistersEsp registerEsp).console.terminalOnDisplay.val =
        (k.saveRegistersEsp registerEsp).terminalCounter := by
      rw [saveRegistersEsp_eq]
      exact shown
    have counter : (k.saveRegistersEsp registerEsp).terminalCounter = k.terminalCounter := by
      rw [saveRegistersEsp_eq]
    rw [restoreRegisterEspTerminal_of_active _ same
      ⟨index, small, by rwa [counter, saveRegistersEsp_active _ _ _ small]⟩]
    exact restored registerEsp fits

section Sample

/-- A program runs on the first terminal, which is on display and scheduled. -/
def scheduledKernel : Kernel := { sampleKernel with
  terminalCounter := 0
  memory := writeField sampleKernel.memory (pcbAddress 0) (.activeProcesses 0) 3 }

theorem tick_resumes_iff_sample :
    (scheduledKernel.saveRegistersEsp 0x7fff00).restoreRegisterEsp = 0x7fff00 ∧
      (scheduledKernel.saveRegistersEsp 0x7fff00).restoreRegisterEspTerminal = 0x7fff00 := by
  have scheduled : scheduledKernel.console.terminalOnDisplay.val = scheduledKernel.terminalCounter ∧
      (∀ index < 4, activeProcesses scheduledKernel.memory (pcbAddress scheduledKernel.terminalCounter) index < 6) ∧
      activeProcesses scheduledKernel.memory (pcbAddress scheduledKernel.terminalCounter) 0 ≠ 0 ∧
      scheduledKernel.display = 0 := by decide +kernel
  obtain ⟨shown, numbers, active, display⟩ := scheduled
  have resumes := (tick_resumes_iff scheduledKernel (by decide) numbers).mpr
    ⟨.inl display, fun _ => ⟨0, by decide, active⟩⟩
  obtain ⟨restored, terminal⟩ := resumes 0x7fff00 (by decide)
  exact ⟨restored, terminal shown⟩

/-- The entry past the array names another process, whose block receives the stack pointer. -/
theorem tick_resumes_elsewhere : ∃ k : Kernel, k.terminalCounter < 3 ∧
    (∀ terminal < 3, ∀ index < 4, activeProcesses k.memory (pcbAddress terminal) index < 6) ∧
    ∃ registerEsp < 4294967296, (k.saveRegistersEsp registerEsp).restoreRegisterEsp ≠ registerEsp :=
  ⟨{ scheduledKernel with memory := writeField scheduledKernel.memory (pcbAddress 0) (.terminalDisplays 0) 5 },
    by decide, by decide +kernel, 0x7fff00, by decide, by decide +kernel⟩

end Sample

end OrcaOS
