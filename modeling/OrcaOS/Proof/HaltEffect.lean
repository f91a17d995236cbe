import OrcaOS.Proof.ExecuteEffect

/-!
What `sys_halt` does to the descriptors of the halting process and to the table of its terminal.
-/

namespace OrcaOS
open Foundation

/-- A loop whose turns preserve a relation to the start preserves it as a whole. -/
theorem foldlM_related {State Turn : Type} {body : State → Turn → Option State}
    {related : State → Prop} {turns : List Turn} {start final : State} (initial : related start)
    (preserved : ∀ before turn after, turn ∈ turns → related before → body before turn = some after →
      related after) (finished : turns.foldlM body start = some final) : related final := by
  induction turns generalizing start with
  | nil =>
      obtain rfl := Option.some.inj finished
      exact initial
  | cons turn turns ih =>
      rw [List.foldlM_cons] at finished
      obtain ⟨middle, taken, rest⟩ := Option.bind_eq_some_iff.mp finished
      exact ih (preserved start turn middle (by simp) initial taken)
        (fun before turn after member => preserved before turn after (by simp [member])) rest

namespace Kernel
variable {k : Kernel}

/-- The drivers of the devices do not touch the slots. -/
theorem setDevices_changesOnly (region : Set Nat) (console : Console) (rtc : Rtc)
    (same : console.terminalOnDisplay = k.console.terminalOnDisplay) :
    ChangesOnly region k { k with console, rtc } :=
  ⟨fun _ _ => rfl, rfl, rfl, rfl, rfl, rfl, rfl, rfl, same, rfl, rfl⟩

theorem directoryClose_changesOnly (fd : Int) :
    ChangesOnly (descriptorWords k.currentPcb fd.toNat) k (k.directoryClose fd).2 := by
  unfold directoryClose
  split
  · exact .refl _ _
  · exact (k.setDescriptor_changesOnly fd.toNat .position 0).trans
      ((k.setCurrent (.fileArray fd.toNat .position) 0).setDescriptor_changesOnly fd.toNat .flags 0)

/-- Every close function changes at most the given descriptor. -/
theorem callClose_changesOnly {address : Nat} {fd result : Int} {after : Kernel}
    (closed : k.callClose address fd = some (result, after)) :
    ChangesOnly (descriptorWords k.currentPcb fd.toNat) k after := by
  unfold callClose at closed
  split at closed
  · obtain ⟨rfl, rfl⟩ := closed
    exact setDevices_changesOnly _ _ _ rfl
  · obtain ⟨rfl, rfl⟩ := closed
    exact setDevices_changesOnly _ _ _ rfl
  · obtain rfl : (k.directoryClose fd).2 = after := congrArg Prod.snd (Option.some.inj closed)
    exact directoryClose_changesOnly fd
  · obtain rfl : (k.fileClose fd).2 = after := congrArg Prod.snd (Option.some.inj closed)
    exact k.fileClose_changesOnly fd
  · obtain ⟨rfl, rfl⟩ := closed
    exact setDevices_changesOnly _ _ _ rfl
  · obtain ⟨rfl, rfl⟩ := closed
    exact setDevices_changesOnly _ _ _ rfl
  iterate 4
    · obtain ⟨rfl, rfl⟩ := closed
      exact .refl _ _
  · cases closed

theorem closeDescriptor_changesOnly {fd : Nat} {after : Kernel}
    (closed : k.closeDescriptor fd = some after) :
    ChangesOnly (descriptorWords k.currentPcb fd) k after := by
  obtain ⟨middle, first, rfl⟩ := Option.map_eq_some_iff.mp closed
  have one : ChangesOnly (descriptorWords k.currentPcb fd) k middle := by
    split at first
    · obtain ⟨⟨result, called⟩, call, rfl⟩ := Option.map_eq_some_iff.mp first
      exact callClose_changesOnly call
    · obtain rfl := Option.some.inj first
      exact .refl _ _
  have two := middle.setDescriptor_changesOnly fd .flags 0
  rw [one.currentPcb] at two
  exact one.trans two

/-- Closing all descriptors changes only the descriptors of the running process. -/
theorem closeDescriptors_changesOnly {after : Kernel} (closed : k.closeDescriptors = some after) :
    ChangesOnly (descriptorTable k.currentPcb) k after := by
  refine foldlM_related (.refl _ k) ?_ closed
  intro before fd next member earlier turn
  have later := closeDescriptor_changesOnly turn
  rw [earlier.currentPcb] at later
  exact earlier.trans (later.mono (descriptorWords_subset _ (List.mem_range.mp member)))

end Kernel

/-- The functions that a close pointer may name. -/
def Operation.isClose : Operation → Bool
  | .terminalClose => true
  | .rtcClose => true
  | .directoryClose => true
  | .fileClose => true
  | _ => false

/-- The address of a function leads back to it. -/
theorem Symbols.resolve_address (symbols : Symbols) (operation : Operation) :
    symbols.resolve (symbols.address operation) = some operation := by
  have found : (Operation.all.find? fun other =>
      symbols.address other = symbols.address operation) = some operation := by
    simp only [symbols.injective.eq_iff]
    cases operation <;> decide
  exact found

/-- Each descriptor in use has no close function or one that the kernel knows. -/
def Closable (symbols : Symbols) (memory : Memory) (pcb : Nat) : Prop :=
  ∀ fd < 8, readField memory pcb (.fileArray fd .flags) = 1 →
    readField memory pcb (.fileArray fd .closeOp) ≠ 0 →
    (symbols.resolve (readField memory pcb (.fileArray fd .closeOp))).any Operation.isClose = true

/-- Only the descriptors decide. -/
theorem Closable.congr {symbols : Symbols} {memory other : Memory} {pcb : Nat}
    (closable : Closable symbols memory pcb)
    (same : ∀ fd < 8, ∀ field : FdField, readField other pcb (.fileArray fd field) =
      readField memory pcb (.fileArray fd field)) : Closable symbols other pcb := by
  intro fd small used close
  rw [same fd small] at used close ⊢
  exact closable fd small used close

namespace Kernel
variable {k : Kernel}

theorem callClose_returns {address : Nat}
    (close : (k.symbols.resolve address).any Operation.isClose = true) (fd : Int) :
    ∃ outcome, k.callClose address fd = some outcome := by
  unfold callClose
  cases resolved : k.symbols.resolve address with
  | none =>
      rw [resolved] at close
      cases close
  | some operation =>
      rw [resolved] at close
      cases operation <;> first
        | exact ⟨_, rfl⟩
        | cases close

/-- One turn of the loop returns and leaves the rest closable. -/
theorem closeDescriptor_returns {fd : Nat} (inside : fd < 8)
    (closable : Closable k.symbols k.memory k.currentPcb) :
    ∃ after, k.closeDescriptor fd = some after ∧
      Closable after.symbols after.memory after.currentPcb := by
  have returns : ∃ after, k.closeDescriptor fd = some after := by
    unfold closeDescriptor
    dsimp only
    split
    · rename_i used
      obtain ⟨outcome, called⟩ := callClose_returns (closable fd inside used.1 used.2) fd
      rw [current, called]
      exact ⟨_, rfl⟩
    · exact ⟨_, rfl⟩
  obtain ⟨after, closed⟩ := returns
  have changes := closeDescriptor_changesOnly closed
  refine ⟨after, closed, ?_⟩
  rw [changes.symbols, changes.currentPcb]
  intro other small used close
  by_cases own : other = fd
  · obtain ⟨middle, first, rfl⟩ := Option.map_eq_some_iff.mp closed
    have cleared := middle.current_setCurrent (.fileArray fd .flags) (show 0 < 4294967296 by decide)
    have position : middle.currentPcb = k.currentPcb := changes.currentPcb
    rw [current, setCurrent_currentPcb, position] at cleared
    rw [own, cleared] at used
    cases used
  · have kept (field : FdField) : readField after.memory k.currentPcb (.fileArray other field) =
        readField k.memory k.currentPcb (.fileArray other field) := by
      apply changes.readField
      have bound := field.offset_le
      apply Memory.window_disjoint
      simp only [PcbField.offset]
      omega
    rw [kept] at used close ⊢
    exact closable other small used close

/-- Closing all descriptors returns when each of them can be closed. -/
theorem closeDescriptors_returns (closable : Closable k.symbols k.memory k.currentPcb) :
    ∃ after, k.closeDescriptors = some after := by
  have turns : ∀ (fds : List Nat) (k : Kernel), (∀ fd ∈ fds, fd < 8) →
      Closable k.symbols k.memory k.currentPcb → ∃ after, fds.foldlM closeDescriptor k = some after := by
    intro fds
    induction fds with
    | nil => exact fun k _ _ => ⟨k, rfl⟩
    | cons fd fds ih =>
        intro k inside closable
        obtain ⟨next, closed, rest⟩ := closeDescriptor_returns (inside fd (by simp)) closable
        obtain ⟨after, finished⟩ := ih next (fun other member => inside other (by simp [member])) rest
        exact ⟨after, by rw [List.foldlM_cons, closed]; exact finished⟩
  exact turns _ k (fun fd member => List.mem_range.mp member) closable

/-- The block of the terminal that the running process was started on. -/
def homePcb (k : Kernel) : Nat := pcbAddress (k.current .parentTerminal)

/-- The last used entry of that terminal's table. -/
def lastEntry (k : Kernel) : Option Nat := lastUsed 0 (activeProcesses k.memory k.homePcb) 4

/-- The number that a halt gives to the counter. -/
def returnNumber (k : Kernel) : Nat :=
  match k.lastEntry with
  | some index => activeProcesses k.memory k.homePcb index
  | none => 3

end Kernel

/-- A halted process frees an entry of its terminal, and the slot above its number runs again. -/
structure Halted (before after : Kernel) : Prop where
  symbols : after.symbols = before.symbols
  fileSystem : after.fileSystem = before.fileSystem
  recoverNum : after.recoverNum = before.recoverNum
  terminalOnDisplay : after.console.terminalOnDisplay = before.console.terminalOnDisplay
  memory : Set.EqOn after.memory before.memory
    (descriptorTable before.currentPcb ∪ Memory.window (before.homePcb + 16) 32)ᶜ
  table : ∀ index < 4, activeProcesses after.memory before.homePcb index =
    if before.lastEntry = some index then 0 else activeProcesses before.memory before.homePcb index
  processNumber : after.processNumber = before.returnNumber
  currentPcb : after.currentPcb = stackTop before.returnNumber
  esp0 : after.esp0 = stackTop (after.current .processNum)
  pageTables : after.pageTables = systemCallPaging before.pageTables (after.current .processNum)

namespace Kernel
variable {k : Kernel}

theorem homePcb_aligned (k : Kernel) : k.homePcb % 8192 = 0 := by
  rw [homePcb]
  exact pcbAddress_aligned _

/-- Two slot bottoms are equal or a slot apart. -/
theorem aligned_apart {first second : Nat} (firstAligned : first % 8192 = 0)
    (secondAligned : second % 8192 = 0) :
    first = second ∨ first + 8192 ≤ second ∨ second + 8192 ≤ first := by
  omega

/-- The effect of `leaveTerminal` on the memory. -/
theorem leaveTerminal_eqOn (k : Kernel) (terminalPcb : Nat) :
    Set.EqOn (k.leaveTerminal terminalPcb).memory k.memory (Memory.window (terminalPcb + 16) 32)ᶜ := by
  unfold leaveTerminal
  split
  · rename_i index found
    have inside := (lastUsed_some found).1
    have one := writeField_eqOn k.memory terminalPcb (.activeProcesses index) 0
    have two := writeField_eqOn (writeField k.memory terminalPcb (.activeProcesses index) 0) terminalPcb
      (.terminalDisplays index) 0
    simp only [PcbField.offset] at one two
    exact (Memory.eqOn_widen two (by omega) (by omega)).trans
      (Memory.eqOn_widen one (by omega) (by omega))
  · exact fun _ _ => rfl

theorem leaveTerminal_table (k : Kernel) (terminalPcb : Nat) {index : Nat} (small : index < 4) :
    activeProcesses (k.leaveTerminal terminalPcb).memory terminalPcb index =
      if lastUsed 0 (activeProcesses k.memory terminalPcb) 4 = some index then 0
      else activeProcesses k.memory terminalPcb index := by
  unfold leaveTerminal
  cases found : lastUsed 0 (activeProcesses k.memory terminalPcb) 4 with
  | none => simp
  | some last =>
      have inside := (lastUsed_some found).1
      dsimp only [activeProcesses]
      have display : PcbField.activeProcesses index ≠ .terminalDisplays last := by simp
      rw [readField_writeField_of_ne _ _ _ display inside small]
      by_cases same : last = index
      · subst same
        simp
      · have different : PcbField.activeProcesses index ≠ .activeProcesses last := by
          simpa using Ne.symm same
        rw [readField_writeField_of_ne _ _ _ different inside small, if_neg (by simpa using same)]

/-- The effect of a successful `sys_halt`. -/
theorem sysHalt_halted {after : Kernel} {result : Int} (aligned : k.currentPcb % 8192 = 0)
    (nested : 2 < k.processNumber) (halted : k.sysHalt = some (result, after)) :
    result = 0 ∧ Halted k after := by
  rw [sysHalt, if_neg (by omega)] at halted
  obtain ⟨closed, closing, same⟩ := Option.map_eq_some_iff.mp halted
  have changes := closeDescriptors_changesOnly closing
  have home : pcbAddress (closed.current .parentTerminal) = k.homePcb := by
    rw [current, changes.currentPcb]
    refine congrArg pcbAddress (changes.readField ?_)
    apply Memory.window_disjoint
    simp only [PcbField.offset]
    omega
  have tables : ∀ index < 4, activeProcesses closed.memory k.homePcb index =
      activeProcesses k.memory k.homePcb index := by
    intro index small
    apply changes.readField
    have apart := aligned_apart aligned k.homePcb_aligned
    apply Memory.window_disjoint
    simp only [PcbField.offset]
    omega
  have last : lastUsed 0 (activeProcesses closed.memory k.homePcb) 4 = k.lastEntry :=
    lastUsed_congr tables
  rw [home] at same
  obtain ⟨rfl, rfl⟩ := Prod.mk.inj same
  have number : (closed.leaveTerminal k.homePcb).processNumber = k.returnNumber := by
    rw [leaveTerminal, returnNumber, last]
    cases found : k.lastEntry with
    | none => rfl
    | some index => exact tables index (lastUsed_some found).1
  have setting : (closed.leaveTerminal k.homePcb).symbols = closed.symbols ∧
      (closed.leaveTerminal k.homePcb).fileSystem = closed.fileSystem ∧
      (closed.leaveTerminal k.homePcb).recoverNum = closed.recoverNum ∧
      (closed.leaveTerminal k.homePcb).console = closed.console ∧
      (closed.leaveTerminal k.homePcb).pageTables = closed.pageTables := by
    unfold leaveTerminal
    split <;> exact ⟨rfl, rfl, rfl, rfl, rfl⟩
  obtain ⟨symbols, fileSystem, recoverNum, console, pageTables⟩ := setting
  refine ⟨rfl, ?_⟩
  exact {
    symbols := symbols.trans changes.symbols
    fileSystem := fileSystem.trans changes.fileSystem
    recoverNum := recoverNum.trans changes.recoverNum
    terminalOnDisplay :=
      (congrArg Console.terminalOnDisplay console).trans changes.terminalOnDisplay
    memory := ((leaveTerminal_eqOn closed k.homePcb).mono
      (Set.compl_subset_compl.mpr Set.subset_union_right)).trans
      (changes.memory.mono (Set.compl_subset_compl.mpr Set.subset_union_left))
    table := fun index small => by
      refine (leaveTerminal_table closed k.homePcb small).trans ?_
      rw [last, tables index small]
    processNumber := number
    currentPcb := congrArg stackTop number
    esp0 := rfl
    pageTables := by
      rw [← changes.pageTables, ← pageTables]
      rfl }

/-- A halting program with closable descriptors gives way to another. -/
theorem sysHalt_returns (nested : 2 < k.processNumber)
    (closable : Closable k.symbols k.memory k.currentPcb) : ∃ after, k.sysHalt = some (0, after) := by
  obtain ⟨closed, closing⟩ := closeDescriptors_returns closable
  rw [sysHalt, if_neg (by omega), closing]
  exact ⟨_, rfl⟩

end Kernel

namespace Halted
variable {before after : Kernel} {pcb : Nat}

/-- A word outside the descriptors of the process and the table of its terminal survives. -/
theorem field (halted : Halted before after) {field : PcbField}
    (descriptors : pcb + field.offset + 4 ≤ before.currentPcb + 64 ∨
      before.currentPcb + 64 + 224 ≤ pcb + field.offset)
    (table : pcb + field.offset + 4 ≤ before.homePcb + 16 ∨
      before.homePcb + 16 + 32 ≤ pcb + field.offset) :
    readField after.memory pcb field = readField before.memory pcb field := by
  apply readField_outside halted.memory
  rw [Set.disjoint_union_right]
  exact ⟨Memory.window_disjoint descriptors, Memory.window_disjoint table⟩

/-- The words below the tables and above the descriptors survive in every block. -/
theorem kept (halted : Halted before after) (aligned : before.currentPcb % 8192 = 0)
    (pcbAligned : pcb % 8192 = 0) {field : PcbField}
    (outside : field.offset + 4 ≤ 16 ∨ 288 ≤ field.offset ∧ field.offset ≤ 420) :
    readField after.memory pcb field = readField before.memory pcb field := by
  have home := before.homePcb_aligned
  apply halted.field <;> omega

/-- The other terminals keep their tables. -/
theorem otherTable (halted : Halted before after) (aligned : before.currentPcb % 8192 = 0)
    (pcbAligned : pcb % 8192 = 0) (different : pcb ≠ before.homePcb) {index : Nat} (small : index < 4) :
    activeProcesses after.memory pcb index = activeProcesses before.memory pcb index := by
  have home := before.homePcb_aligned
  apply halted.field
  all_goals
    simp only [PcbField.offset]
    omega

/-- The other processes keep their descriptors. -/
theorem otherDescriptor (halted : Halted before after) (aligned : before.currentPcb % 8192 = 0)
    (pcbAligned : pcb % 8192 = 0) (different : pcb ≠ before.currentPcb) {fd : Nat} (small : fd < 8)
    (field : FdField) :
    readField after.memory pcb (.fileArray fd field) =
      readField before.memory pcb (.fileArray fd field) := by
  have home := Kernel.aligned_apart pcbAligned before.homePcb_aligned
  have own := Kernel.aligned_apart pcbAligned aligned
  have bound := field.offset_le
  apply halted.field
  all_goals
    simp only [PcbField.offset]
    omega

end Halted

/-- The wrapper halts the process or starts the base shell of the terminal on display again. -/
inductive SystemHaltOutcome (k : Kernel) (literalTail : List UInt8) : Kernel → Prop where
  | halted {after : Kernel} {result : Int} (direct : k.haltsDirectly = true)
      (returned : k.sysHalt = some (result, after)) : SystemHaltOutcome k literalTail after
  | restarted {after : Kernel} {processName tail text : List UInt8} (indirect : k.haltsDirectly = false)
      (reached : Reached { k with
        currentPcb := 0
        recoverNum := k.processNumber
        processNumber := k.console.terminalOnDisplay } (Kernel.shellLiteral literalTail) processName tail)
      (copied : copiedText tail.tail = some text)
      (effect : Entered processName text { k with
        currentPcb := 0
        recoverNum := k.processNumber
        processNumber := k.console.terminalOnDisplay } after) : SystemHaltOutcome k literalTail after

theorem systemHalt_outcome {k after : Kernel} {literalTail : List UInt8} {locals : Locals}
    {registerEsp : Nat} (halted : k.systemHalt literalTail locals registerEsp = some after) :
    SystemHaltOutcome k literalTail after := by
  rw [Kernel.systemHalt] at halted
  split at halted
  · rename_i direct
    obtain ⟨⟨result, final⟩, returned, rfl⟩ := Option.map_eq_some_iff.mp halted
    exact .halted direct returned
  · rename_i indirect
    obtain ⟨⟨result, final⟩, returned, taken⟩ := Option.bind_eq_some_iff.mp halted
    dsimp only at taken
    split at taken
    · cases taken
    · rename_i success
      obtain rfl := Option.some.inj taken
      obtain ⟨_, _, _, reached, copied, effect⟩ := systemExecute_started returned success
      exact .restarted (by simpa using indirect) reached copied effect.toEntered

end OrcaOS
