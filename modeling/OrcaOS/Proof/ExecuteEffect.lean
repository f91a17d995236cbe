import OrcaOS.Proof.Descriptor

/-!
The three ways in which `sys_execute` returns, and what each does to the kernel.
-/

namespace OrcaOS
open Foundation Kernel

/-- The variables that no way through `sys_execute` assigns. -/
structure SameSetting (before after : Kernel) : Prop where
  symbols : after.symbols = before.symbols
  fileSystem : after.fileSystem = before.fileSystem
  recoverNum : after.recoverNum = before.recoverNum
  terminalOnDisplay : after.console.terminalOnDisplay = before.console.terminalOnDisplay
  executeCounter : after.executeCounter = before.executeCounter
  terminalInitFlag : after.terminalInitFlag = before.terminalInitFlag

namespace Kernel
variable (k : Kernel)

/-- The kernel in which the new block has just become the current one. -/
def claimed (k : Kernel) : Kernel := { k.createPcb.1 with currentPcb := pcbAddress k.processNumber }

theorem claimed_eq : k.claimed = { k with
    memory := k.created
    processNumber := wrap32 (k.processNumber + 1)
    currentPcb := pcbAddress k.processNumber } := by
  rw [claimed, createPcb_fst]

@[simp] theorem claimed_currentPcb : k.claimed.currentPcb = pcbAddress k.processNumber := by
  rw [claimed_eq]

@[simp] theorem claimed_processNumber :
    k.claimed.processNumber = wrap32 (k.processNumber + 1) := by
  rw [claimed_eq]

@[simp] theorem claimed_memory : k.claimed.memory = k.created := by
  rw [claimed_eq]

/-- Creating a process assigns no other variable. -/
theorem claimed_setting : SameSetting k k.claimed ∧ k.claimed.pageTables = k.pageTables ∧
    k.claimed.esp0 = k.esp0 := by
  rw [claimed_eq]
  exact ⟨⟨rfl, rfl, rfl, rfl, rfl, rfl⟩, rfl, rfl⟩

end Kernel

/-- A rejected program leaves its block behind and steps the process number back. -/
structure Rejected (processName : List UInt8) (before after : Kernel) : Prop
    extends SameSetting before after where
  memory : Set.EqOn after.memory before.created (descriptorTable (pcbAddress before.processNumber))ᶜ
  descriptors : ∀ fd < 8, ∀ field : FdField,
    readField after.memory (pcbAddress before.processNumber) (.fileArray fd field) =
      before.claimed.settledField processName fd field
  processNumber : after.processNumber = before.processNumber
  currentPcb : after.currentPcb = stackTop before.processNumber
  pageTables : after.pageTables = before.pageTables
  esp0 : after.esp0 = before.esp0

/-- The bytes that the descriptors and the argument text of a new program occupy. -/
abbrev loadedRegion (pcb count : Nat) : Set Nat :=
  descriptorTable pcb ∪ Memory.window (pcb + argumentsOffset) count

/-- An accepted program becomes the running one. -/
structure Accepted (processName text : List UInt8) (before after : Kernel) : Prop
    extends SameSetting before after where
  memory : Set.EqOn after.memory before.created
    (loadedRegion (pcbAddress before.processNumber) text.length)ᶜ
  descriptors : ∀ fd < 8, ∀ field : FdField,
    readField after.memory (pcbAddress before.processNumber) (.fileArray fd field) =
      before.claimed.settledField processName fd field
  processNumber : after.processNumber = max (before.processNumber + 1) before.recoverNum
  currentPcb : after.currentPcb = pcbAddress before.processNumber
  pageTables : after.pageTables = systemCallPaging before.pageTables before.processNumber
  esp0 : after.esp0 = stackTop before.processNumber

namespace Kernel
variable (k : Kernel)

theorem prepare_eq (processName : List UInt8) (tempBuffer : Buffer) :
    k.prepare processName tempBuffer =
      let opened := k.claimed.fileOpen (some processName)
      let read := opened.2.fileRead opened.1 (some tempBuffer) 40
      ⟨read.2.2, opened.1, read.2.1.getD tempBuffer⟩ := by
  unfold prepare claimed
  rw [← createPcb_snd]

/-- The descriptor that opening a file returns is in the table, or it is -1. -/
theorem fileOpen_fd (filename : Option (List UInt8)) :
    (k.fileOpen filename).1 = -1 ∨ ∃ fd < 8, (k.fileOpen filename).1 = (fd : Nat) := by
  unfold fileOpen
  split
  · exact Or.inl rfl
  · split
    · exact Or.inl rfl
    · rename_i fd found
      exact Or.inr ⟨fd, (k.freeDescriptor_eq_some_iff.mp found).2.1, rfl⟩

theorem fileOpen_toNat_lt (filename : Option (List UInt8)) : (k.fileOpen filename).1.toNat < 8 := by
  rcases k.fileOpen_fd filename with minus | ⟨fd, small, equal⟩
  · rw [minus]
    decide
  · rw [equal]
    simpa using small

theorem position_subset (pcb : Nat) {fd : Nat} (inside : fd < 8) :
    Memory.window (pcb + (PcbField.fileArray fd .position).offset) 4 ⊆ descriptorTable pcb := by
  simp only [PcbField.offset, FdField.offset]
  exact Memory.window_subset (by omega) (by omega)

/-- Up to its test, `sys_execute` changes only descriptors of the new block. -/
theorem prepare_changesOnly (processName : List UInt8) (tempBuffer : Buffer) :
    ChangesOnly (descriptorTable (pcbAddress k.processNumber)) k.claimed
      (k.prepare processName tempBuffer).kernel := by
  rw [prepare_eq, ← claimed_currentPcb]
  have opened := k.claimed.fileOpen_changesOnly (some processName)
  have read := (k.claimed.fileOpen (some processName)).2.fileRead_changesOnly
    (k.claimed.fileOpen (some processName)).1 (some tempBuffer) 40
  rw [opened.currentPcb] at read
  exact opened.trans (read.mono (position_subset _ (k.claimed.fileOpen_toNat_lt _)))

theorem prepare_openThrough (processName : List UInt8) (tempBuffer : Buffer) :
    OpenThrough k.claimed processName (k.prepare processName tempBuffer).fd
      (k.prepare processName tempBuffer).kernel := by
  rw [prepare_eq]
  exact (OpenThrough.fileOpen k.claimed processName).fileRead _ _

theorem prepare_fd_lt (processName : List UInt8) (tempBuffer : Buffer) :
    (k.prepare processName tempBuffer).fd.toNat < 8 := by
  rw [prepare_eq]
  exact k.claimed.fileOpen_toNat_lt _

/-- The failure path of `sys_execute`. -/
theorem abandon_rejected (valid : k.processNumber < 6) (processName : List UInt8)
    (tempBuffer : Buffer) : Rejected processName k (abandon (k.prepare processName tempBuffer)) := by
  have prepared := k.prepare_changesOnly processName tempBuffer
  have through := k.prepare_openThrough processName tempBuffer
  have inside := k.prepare_fd_lt processName tempBuffer
  generalize k.prepare processName tempBuffer = candidate at prepared through inside
  have closed := candidate.kernel.fileClose_changesOnly candidate.fd
  rw [prepared.currentPcb, claimed_currentPcb] at closed
  have whole := prepared.trans (closed.mono (descriptorWords_subset _ inside))
  have number : wrap32 ((candidate.kernel.fileClose candidate.fd).2.processNumber - 1) = k.processNumber := by
    rw [whole.processNumber, claimed_processNumber]
    unfold wrap32
    omega
  obtain ⟨setting, pageTables, esp0⟩ := k.claimed_setting
  have memory := whole.memory
  rw [claimed_memory] at memory
  exact {
    symbols := whole.symbols.trans setting.symbols
    fileSystem := whole.fileSystem.trans setting.fileSystem
    recoverNum := whole.recoverNum.trans setting.recoverNum
    terminalOnDisplay := whole.terminalOnDisplay.trans setting.terminalOnDisplay
    executeCounter := whole.executeCounter.trans setting.executeCounter
    terminalInitFlag := whole.terminalInitFlag.trans setting.terminalInitFlag
    memory := memory
    descriptors := fun fd small field => by
      rw [← through.fileClose small field, current, whole.currentPcb, claimed_currentPcb]
      rfl
    processNumber := number
    currentPcb := congrArg stackTop number
    pageTables := whole.pageTables.trans pageTables
    esp0 := whole.esp0.trans esp0 }

theorem storeUser_changesOnly (region : Set Nat) (start count : Nat) (content : Buffer) :
    ChangesOnly region k (k.storeUser start count content) :=
  ⟨fun _ _ => rfl, rfl, rfl, rfl, rfl, rfl, rfl, rfl, rfl, rfl, rfl⟩

/-- Loading a program changes only the descriptor it is read through. -/
theorem loadProgram_changesOnly {fd : Int} (inside : fd.toNat < 8) (tempBuffer : Buffer) :
    ChangesOnly (descriptorTable k.currentPcb) k (k.loadProgram fd tempBuffer) := by
  unfold loadProgram
  dsimp only
  have first := k.storeUser_changesOnly (descriptorTable k.currentPcb) fileImage 40 tempBuffer
  have read := (k.storeUser fileImage 40 tempBuffer).fileRead_changesOnly fd (some fun _ => 0) fourMb
  rw [first.currentPcb] at read
  have two := first.trans (read.mono (position_subset _ inside))
  generalize (k.storeUser fileImage 40 tempBuffer).fileRead fd (some fun _ => 0) fourMb = outcome at two
  have three := two.trans (outcome.2.2.storeUser_changesOnly (descriptorTable k.currentPcb)
    (fileImage + 40) outcome.1.toNat (outcome.2.1.getD fun _ => 0))
  have closed := (outcome.2.2.storeUser (fileImage + 40) outcome.1.toNat
    (outcome.2.1.getD fun _ => 0)).fileClose_changesOnly fd
  rw [three.currentPcb] at closed
  exact three.trans (closed.mono (descriptorWords_subset _ inside))

/-- The state in which the program is loaded. -/
def mapped (candidate : Candidate) (text : List UInt8) : Kernel :=
  let k := candidate.kernel
  let k := { k with memory := k.memory.storeBytes (k.currentPcb + argumentsOffset) text }
  { k with pageTables := systemCallPaging k.pageTables (k.current .processNum) }

/-- The header that is loaded, which an overlong text changes. -/
def loadedHeader (candidate : Candidate) (locals : Locals) (text : List UInt8) : Buffer :=
  locals.overrun candidate.tempBuffer (candidate.kernel.currentPcb + argumentsOffset) text

theorem recovered_eq : (if k.processNumber < k.recoverNum then
      { k with processNumber := k.recoverNum } else k) =
    { k with processNumber := max k.processNumber k.recoverNum } := by
  split
  · rename_i behind
    rw [Nat.max_eq_right (Nat.le_of_lt behind)]
  · rename_i behind
    rw [Nat.max_eq_left (Nat.not_lt.mp behind)]

theorem enterProgram_eq (candidate : Candidate) (locals : Locals) (text : List UInt8) :
    enterProgram (copyArguments candidate locals text) =
      let k := (mapped candidate text).loadProgram candidate.fd (loadedHeader candidate locals text)
      (signed32 (entryPoint (loadedHeader candidate locals text)), { k with
        esp0 := stackTop (k.current .processNum)
        ss0 := kernelDs
        processNumber := max k.processNumber k.recoverNum }) :=
  Prod.ext rfl (recovered_eq _)

theorem launch_eq_some_iff (candidate : Candidate) (locals : Locals) (text : List UInt8) (outcome : Int × Kernel) :
    launch candidate locals text = some outcome ↔
      locals.Spared (candidate.kernel.currentPcb + argumentsOffset) text.length ∧
        enterProgram (copyArguments candidate locals text) = outcome := by
  rw [launch]
  split
  · rename_i spared
    rw [Option.some.injEq, and_iff_right spared]
  · rename_i overrun
    simp [overrun]

theorem arguments_disjoint (pcb count : Nat) :
    Disjoint (Memory.window (pcb + PcbField.processNum.offset) 4) (loadedRegion pcb count) := by
  rw [Set.disjoint_union_right]
  simp only [PcbField.offset, argumentsOffset]
  exact ⟨Memory.window_disjoint (by omega), Memory.window_disjoint (by omega)⟩

/-- The argument text lies behind the descriptors. -/
theorem mapped_descriptor (candidate : Candidate) (text : List UInt8) {fd : Nat} (inside : fd < 8) (field : FdField) :
    (mapped candidate text).current (.fileArray fd field) = candidate.kernel.current (.fileArray fd field) := by
  refine readField_outside (Memory.storeBytes_eqOn _ _ text) ?_
  have low : (PcbField.fileArray fd field).offset + 4 ≤ argumentsOffset := by
    have bound := field.offset_le
    simp only [PcbField.offset, argumentsOffset]
    omega
  apply Memory.window_disjoint
  change candidate.kernel.currentPcb + _ + 4 ≤ _ ∨ _
  omega

/-- The argument text keeps the file open through its descriptor. -/
theorem mapped_openThrough {before : Kernel} {candidate : Candidate} {processName : List UInt8}
    (through : OpenThrough before processName candidate.fd candidate.kernel) (text : List UInt8) :
    OpenThrough before processName candidate.fd (mapped candidate text) :=
  through.congr rfl fun _ small field => mapped_descriptor candidate text small field

/-- Loading a program closes its file. -/
theorem loadProgram_settled {before : Kernel} {processName : List UInt8} {fd : Int}
    (through : OpenThrough before processName fd k) (tempBuffer : Buffer) {entry : Nat}
    (inside : entry < 8) (field : FdField) :
    (k.loadProgram fd tempBuffer).current (.fileArray entry field) =
      before.settledField processName entry field := by
  have first : OpenThrough before processName fd (k.storeUser fileImage 40 tempBuffer) :=
    through.congr rfl fun _ _ _ => rfl
  have read := first.fileRead (some fun _ => 0) fourMb
  unfold loadProgram
  dsimp only
  generalize (k.storeUser fileImage 40 tempBuffer).fileRead fd (some fun _ => 0) fourMb = outcome at read ⊢
  have stored : OpenThrough before processName fd (outcome.2.2.storeUser (fileImage + 40)
      outcome.1.toNat (outcome.2.1.getD fun _ => 0)) := read.congr rfl fun _ _ _ => rfl
  exact stored.fileClose inside field

section Mapped
variable (processName : List UInt8) (tempBuffer : Buffer) (text : List UInt8)

theorem mapped_currentPcb : (mapped (k.prepare processName tempBuffer) text).currentPcb = pcbAddress k.processNumber :=
  (k.prepare_changesOnly processName tempBuffer).currentPcb.trans k.claimed_currentPcb

/-- The file and the argument text change the new block only in its descriptors and arguments. -/
theorem mapped_memory : Set.EqOn (mapped (k.prepare processName tempBuffer) text).memory k.created
    (loadedRegion (pcbAddress k.processNumber) text.length)ᶜ := by
  have prepared := k.prepare_changesOnly processName tempBuffer
  have position := k.mapped_currentPcb processName tempBuffer text
  have first := prepared.memory
  rw [claimed_memory] at first
  refine Set.EqOn.trans ?_ (first.mono (Set.compl_subset_compl.mpr Set.subset_union_left))
  rw [← position]
  exact (Memory.storeBytes_eqOn _ _ _).mono (Set.compl_subset_compl.mpr Set.subset_union_right)

theorem mapped_processNum (valid : k.processNumber < 6) :
    (mapped (k.prepare processName tempBuffer) text).current .processNum = k.processNumber := by
  rw [current, mapped_currentPcb]
  exact (readField_outside (k.mapped_memory processName tempBuffer text) (arguments_disjoint _ _)).trans
    (k.created_processNum valid)

/-- The program runs in the frame of its process number. -/
theorem mapped_pageTables (valid : k.processNumber < 6) :
    (mapped (k.prepare processName tempBuffer) text).pageTables = systemCallPaging k.pageTables k.processNumber := by
  rw [← k.mapped_processNum processName tempBuffer text valid, ← k.claimed_setting.2.1,
    ← (k.prepare_changesOnly processName tempBuffer).pageTables]
  rfl

end Mapped

/-- The success path of `sys_execute`. -/
theorem enterProgram_accepted (valid : k.processNumber < 6) (processName : List UInt8)
    (tempBuffer : Buffer) (locals : Locals) (text : List UInt8) :
    Accepted processName text k
      (enterProgram (copyArguments (k.prepare processName tempBuffer) locals text)).2 := by
  have prepared := k.prepare_changesOnly processName tempBuffer
  have through := k.prepare_openThrough processName tempBuffer
  have inside := k.prepare_fd_lt processName tempBuffer
  have same := k.mapped_currentPcb processName tempBuffer text
  have region := k.mapped_memory processName tempBuffer text
  have tables := k.mapped_pageTables processName tempBuffer text valid
  have created := k.created_processNum valid
  obtain ⟨setting, pageTables, esp0⟩ := k.claimed_setting
  generalize k.prepare processName tempBuffer = candidate at prepared through inside same region tables ⊢
  rw [enterProgram_eq]
  generalize loadedHeader candidate locals text = header
  have loaded := (mapped candidate text).loadProgram_changesOnly inside header
  rw [same] at loaded
  have memory := (loaded.memory.mono (Set.compl_subset_compl.mpr
    Set.subset_union_left)).trans region
  have running : ((mapped candidate text).loadProgram candidate.fd header).current
      .processNum = k.processNumber := by
    rw [current, loaded.currentPcb, same]
    exact (readField_outside memory (arguments_disjoint _ _)).trans created
  have next : ((mapped candidate text).loadProgram candidate.fd header).processNumber =
      k.processNumber + 1 := by
    rw [loaded.processNumber]
    change candidate.kernel.processNumber = _
    rw [prepared.processNumber, claimed_processNumber]
    unfold wrap32
    omega
  have recover : ((mapped candidate text).loadProgram candidate.fd header).recoverNum =
      k.recoverNum :=
    loaded.recoverNum.trans (prepared.recoverNum.trans setting.recoverNum)
  exact {
    symbols := loaded.symbols.trans (prepared.symbols.trans setting.symbols)
    fileSystem := loaded.fileSystem.trans (prepared.fileSystem.trans setting.fileSystem)
    recoverNum := recover
    terminalOnDisplay :=
      loaded.terminalOnDisplay.trans (prepared.terminalOnDisplay.trans setting.terminalOnDisplay)
    executeCounter :=
      loaded.executeCounter.trans (prepared.executeCounter.trans setting.executeCounter)
    terminalInitFlag :=
      loaded.terminalInitFlag.trans (prepared.terminalInitFlag.trans setting.terminalInitFlag)
    memory := memory
    descriptors := fun fd small field => by
      rw [← (mapped candidate text).loadProgram_settled (mapped_openThrough through text)
        header small field, current, loaded.currentPcb, same]
    processNumber := congrArg₂ max next recover
    currentPcb := loaded.currentPcb.trans same
    pageTables := loaded.pageTables.trans tables
    esp0 := congrArg stackTop running }

end Kernel

/-- The argument text of the next program is copied to this address. -/
def Kernel.argumentsStart (k : Kernel) : Nat := pcbAddress k.processNumber + argumentsOffset

theorem Kernel.prepare_argumentsStart (k : Kernel) (processName : List UInt8) (tempBuffer : Buffer) :
    (k.prepare processName tempBuffer).kernel.currentPcb + argumentsOffset = k.argumentsStart :=
  congrArg (· + argumentsOffset) ((k.prepare_changesOnly processName tempBuffer).currentPcb.trans k.claimed_currentPcb)

/-- A text that ends inside the block spares the locals, which lie above some block. -/
theorem Locals.spared_of_short (locals : Locals) (k : Kernel) (valid : k.processNumber < 6) {count : Nat}
    (short : count ≤ 132) : locals.Spared k.argumentsStart count := by
  have above := locals.aboveBlock
  have inside := locals.insideSlot
  have start : k.argumentsStart = 8380416 - 8192 * k.processNumber + 292 := by
    rw [Kernel.argumentsStart, pcbAddress_eq (by omega), argumentsOffset]
  unfold Locals.Spared
  rw [start, eightMb]
  unfold eightKb at above inside
  omega

/-- A launched program leaves the other locals alone, and its header tells the entry point. -/
theorem Kernel.launch_prepared_iff (k : Kernel) (processName text : List UInt8) (locals : Locals) (result : Int)
    (after : Kernel) : launch (k.prepare processName locals.tempBuffer) locals text = some (result, after) ↔
      locals.Spared k.argumentsStart text.length ∧ result = signed32 (entryPoint
          (locals.overrun (k.prepare processName locals.tempBuffer).tempBuffer k.argumentsStart text)) ∧
        (enterProgram (copyArguments (k.prepare processName locals.tempBuffer) locals text)).2 = after := by
  rw [launch_eq_some_iff, k.prepare_argumentsStart, Prod.ext_iff, enterProgram_eq, loadedHeader,
    k.prepare_argumentsStart, @eq_comm _ result]

/-- `sys_execute` gets as far as claiming a block for the program that the command names. -/
structure Reached (k : Kernel) (command : Command) (processName tail : List UInt8) : Prop where
  valid : k.processNumber < 6
  named : ∃ first rest, command = some (first :: rest) ∧ first ≠ 0 ∧
    firstWord (first :: rest) (maxCommandLen - 1) = some (processName, tail)

theorem Reached.argumentText {k : Kernel} {command : Command} {processName tail text : List UInt8}
    (reached : Reached k command processName tail) (copied : copiedText tail.tail = some text) :
    command.bind argumentText = some text := by
  obtain ⟨_, first, rest, rfl, _, word⟩ := reached
  rw [Option.bind_some, OrcaOS.argumentText, word]
  exact copied

/-- Once a block is claimed, the test of the file decides. -/
theorem Reached.sysExecute_eq {k : Kernel} {command : Command} {processName tail : List UInt8}
    (reached : Reached k command processName tail) (locals : Locals) :
    k.sysExecute command locals =
      if (k.prepare processName locals.tempBuffer).isExecutable then
        (copiedText tail.tail).bind (launch (k.prepare processName locals.tempBuffer) locals)
      else some (-1, abandon (k.prepare processName locals.tempBuffer)) := by
  obtain ⟨valid, first, rest, rfl, nonzero, word⟩ := reached
  have passes : ¬(first = 0 ∨ 6 ≤ k.processNumber) := by
    intro refused
    rcases refused with zero | full
    · exact nonzero zero
    · omega
  unfold sysExecute
  dsimp only
  rw [if_neg passes, word, Option.bind_some]

/-- The program that the command names turns out not to be executable. -/
def Kernel.rejects (k : Kernel) (command : Command) (tempBuffer : Buffer) : Bool :=
  match command with
  | some (first :: rest) =>
      first ≠ 0 && k.processNumber < 6 && (firstWord (first :: rest) (maxCommandLen - 1)).any
        fun (processName, _) => !(k.prepare processName tempBuffer).isExecutable
  | _ => false

theorem Reached.rejects {k : Kernel} {command : Command} {processName tail : List UInt8}
    (reached : Reached k command processName tail) (tempBuffer : Buffer) :
    k.rejects command tempBuffer = !(k.prepare processName tempBuffer).isExecutable := by
  obtain ⟨valid, first, rest, rfl, nonzero, word⟩ := reached
  simp [Kernel.rejects, nonzero, valid, word]

/-- The argument text ends inside the slot of the new process. -/
def ArgumentsFit (command : Command) : Prop :=
  ∀ text ∈ command.bind argumentText, text.length ≤ 7900

instance (command : Command) : Decidable (ArgumentsFit command) :=
  inferInstanceAs (Decidable (∀ text ∈ command.bind argumentText, text.length ≤ 7900))

theorem Reached.fits {k : Kernel} {command : Command} {processName tail text : List UInt8}
    (reached : Reached k command processName tail) (copied : copiedText tail.tail = some text)
    (fit : ArgumentsFit command) : text.length ≤ 7900 :=
  fit text (reached.argumentText copied)

/-- `sys_execute` returns early, rejects the program or accepts it. -/
inductive ExecuteOutcome (k : Kernel) (command : Command) (locals : Locals) :
    Int → Kernel → Prop where
  | early (refused : ∀ processName tail, ¬Reached k command processName tail) :
      ExecuteOutcome k command locals (-1) k
  | rejected {after : Kernel} {processName tail : List UInt8}
      (reached : Reached k command processName tail)
      (invalid : (k.prepare processName locals.tempBuffer).isExecutable = false)
      (effect : Rejected processName k after) : ExecuteOutcome k command locals (-1) after
  | accepted {after : Kernel} {processName tail text : List UInt8}
      (reached : Reached k command processName tail)
      (executable : (k.prepare processName locals.tempBuffer).isExecutable = true)
      (copied : copiedText tail.tail = some text) (spared : locals.Spared k.argumentsStart text.length)
      (effect : Accepted processName text k after) : ExecuteOutcome k command locals (signed32 (entryPoint
        (locals.overrun (k.prepare processName locals.tempBuffer).tempBuffer k.argumentsStart text))) after

theorem sysExecute_outcome {k after : Kernel} {command : Command} {locals : Locals} {result : Int}
    (returned : k.sysExecute command locals = some (result, after)) :
    ExecuteOutcome k command locals result after := by
  unfold sysExecute at returned
  rcases command with _ | bytes
  · obtain ⟨rfl, rfl⟩ := returned
    refine .early fun processName tail reached => ?_
    obtain ⟨_, _, _, impossible, _⟩ := reached
    cases impossible
  rcases bytes with _ | ⟨first, rest⟩
  · cases returned
  dsimp only at returned
  split at returned
  · rename_i guard
    obtain ⟨rfl, rfl⟩ := returned
    refine .early fun processName tail reached => ?_
    obtain ⟨valid, _, _, same, nonzero, _⟩ := reached
    obtain ⟨rfl, rfl⟩ : first = _ ∧ rest = _ := by simpa using same
    rcases guard with zero | full
    · exact nonzero zero
    · omega
  rename_i guard
  rw [not_or] at guard
  obtain ⟨⟨processName, tail⟩, word, returned⟩ := Option.bind_eq_some_iff.mp returned
  have reached : Reached k (some (first :: rest)) processName tail :=
    ⟨by omega, first, rest, rfl, guard.1, word⟩
  dsimp only at returned
  split at returned
  · rename_i executable
    obtain ⟨text, copied, returned⟩ := Option.bind_eq_some_iff.mp returned
    obtain ⟨spared, rfl, rfl⟩ := (k.launch_prepared_iff processName text locals result after).mp returned
    exact .accepted reached executable copied spared
      (k.enterProgram_accepted reached.valid processName locals.tempBuffer locals text)
  · rename_i invalid
    obtain ⟨rfl, rfl⟩ := returned
    exact .rejected reached (by simpa using invalid)
      (k.abandon_rejected reached.valid processName locals.tempBuffer)

/-- The part of a slot that lies above the tables of its block. -/
abbrev slotRest (number : Nat) : Set Nat := Memory.window (pcbAddress number + 64) 8128

theorem descriptorTable_subset (number : Nat) : descriptorTable (pcbAddress number) ⊆ slotRest number :=
  Set.Ico_subset_Ico_right (by omega)

/-- Up to 7900 characters fit between the start of the arguments and the end of the slot. -/
theorem loadedRegion_subset (number : Nat) {count : Nat} (fits : count ≤ 7900) :
    loadedRegion (pcbAddress number) count ⊆ slotRest number := by
  apply Set.union_subset (descriptorTable_subset number)
  exact Memory.window_subset (by unfold argumentsOffset; omega) (by unfold argumentsOffset; omega)

/-- The words at the bottom of each slot after the block of the next process was claimed. -/
structure SlotClaimed (before : Kernel) (memory : Memory) : Prop where
  processNum : readField memory (pcbAddress before.processNumber) .processNum = before.processNumber
  parentTerminal : readField memory (pcbAddress before.processNumber) .parentTerminal =
    before.console.terminalOnDisplay
  tables : ∀ terminal < 3, ∀ index < 4,
    activeProcesses memory (pcbAddress terminal) index = before.tableAfter terminal index
  others : ∀ number < 1024, number ≠ before.processNumber → ∀ field : PcbField, field.Declared →
    (∀ index, field ≠ .activeProcesses index) →
    readField memory (pcbAddress number) field = readField before.memory (pcbAddress number) field

/-- Whatever is written above the tables of the claimed slot keeps them. -/
theorem SlotClaimed.of_created {before : Kernel} {memory : Memory} (valid : before.processNumber < 6)
    (same : Set.EqOn memory before.created (slotRest before.processNumber)ᶜ) :
    SlotClaimed before memory where
  processNum := by
    refine Eq.trans (readField_outside same ?_) (before.created_processNum valid)
    apply Memory.window_disjoint
    simp only [PcbField.offset]
    omega
  parentTerminal := by
    refine Eq.trans (readField_outside same ?_) (before.created_parentTerminal valid)
    apply Memory.window_disjoint
    simp only [PcbField.offset]
    omega
  tables terminal small index inside := by
    refine Eq.trans (readField_outside same ?_) (before.created_table valid small inside)
    apply Memory.window_disjoint
    simp only [PcbField.offset]
    by_cases equal : terminal = before.processNumber
    · rw [equal]
      omega
    · have apart := pcbAddress_apart (show terminal < 1024 by omega)
        (show before.processNumber < 1024 by omega) equal
      omega
  others number small different field declared notTable := by
    refine Eq.trans (readField_outside same ?_)
      (before.created_other valid small different declared notTable)
    have apart := pcbAddress_apart small (show before.processNumber < 1024 by omega) different
    have bound := PcbField.offset_le declared
    exact Memory.window_disjoint (by omega)

theorem Rejected.slotClaimed {before after : Kernel} {processName : List UInt8}
    (effect : Rejected processName before after)
    (valid : before.processNumber < 6) : SlotClaimed before after.memory :=
  .of_created valid (effect.memory.mono
    (Set.compl_subset_compl.mpr (descriptorTable_subset before.processNumber)))

theorem Accepted.slotClaimed {before after : Kernel} {processName text : List UInt8}
    (effect : Accepted processName text before after) (valid : before.processNumber < 6)
    (fits : text.length ≤ 7900) : SlotClaimed before after.memory :=
  .of_created valid (effect.memory.mono
    (Set.compl_subset_compl.mpr (loadedRegion_subset before.processNumber fits)))

/-- A program has become the running one and owns the next slot. -/
structure Entered (processName text : List UInt8) (before after : Kernel) : Prop
    extends SameSetting before after where
  valid : before.processNumber < 6
  slots : text.length ≤ 7900 → SlotClaimed before after.memory
  descriptors : ∀ fd < 8, ∀ field : FdField,
    readField after.memory (pcbAddress before.processNumber) (.fileArray fd field) =
      before.claimed.settledField processName fd field
  processNumber : after.processNumber = max (before.processNumber + 1) before.recoverNum
  currentPcb : after.currentPcb = pcbAddress before.processNumber
  pageTables : after.pageTables = systemCallPaging before.pageTables before.processNumber
  esp0 : after.esp0 = stackTop before.processNumber

/-- The wrapper saves the stack pointer of the caller in the block of a started program. -/
structure Started (processName text : List UInt8) (registerEsp : Nat) (before after : Kernel) : Prop
    extends Entered processName text before after where
  esp : readField after.memory (pcbAddress before.processNumber) .esp = wrap32 (registerEsp + 4)

theorem esp_subset (number : Nat) :
    Memory.window (pcbAddress number + PcbField.esp.offset) 4 ⊆ slotRest number := by
  simp only [PcbField.offset]
  exact Memory.window_subset (by omega) (by omega)

theorem Accepted.entered {before after : Kernel} {processName text : List UInt8}
    (effect : Accepted processName text before after) (valid : before.processNumber < 6) :
    Entered processName text before after :=
  { effect with valid := valid, slots := effect.slotClaimed valid }

theorem Accepted.started {before after : Kernel} {processName text : List UInt8} (registerEsp : Nat)
    (effect : Accepted processName text before after) (valid : before.processNumber < 6) :
    Started processName text registerEsp before (after.saveEsp registerEsp) where
  toSameSetting := { effect with }
  valid := valid
  slots fits := by
    apply SlotClaimed.of_created valid
    refine Set.EqOn.trans ?_ (effect.memory.mono
      (Set.compl_subset_compl.mpr (loadedRegion_subset before.processNumber fits)))
    have saved := writeField_eqOn after.memory after.currentPcb .esp (wrap32 (registerEsp + 4))
    rw [effect.currentPcb] at saved
    have wider := saved.mono (Set.compl_subset_compl.mpr (esp_subset before.processNumber))
    rw [← effect.currentPcb] at wider
    exact wider
  descriptors fd small field := by
    rw [← effect.descriptors fd small field, ← effect.currentPcb]
    exact readField_writeField_of_ne _ _ _ (by simp) trivial small
  esp := by
    rw [← effect.currentPcb]
    exact readField_writeField _ _ _ (wrap32_lt _)
  processNumber := effect.processNumber
  currentPcb := effect.currentPcb
  pageTables := effect.pageTables
  esp0 := effect.esp0

/-- The wrapper returns early, after a rejection, or in a new program. -/
inductive SystemExecuteOutcome (k : Kernel) (command : Command) (locals : Locals)
    (registerEsp : Nat) : Int → Kernel → Prop where
  | early : SystemExecuteOutcome k command locals registerEsp (-1) k
  | rejected {after : Kernel} {processName tail : List UInt8}
      (reached : Reached k command processName tail)
      (rejects : k.rejects command locals.tempBuffer = true) (effect : Rejected processName k after) :
      SystemExecuteOutcome k command locals registerEsp (-1) after
  | unsaved {after : Kernel} {processName tail text : List UInt8}
      (reached : Reached k command processName tail) (copied : copiedText tail.tail = some text)
      (effect : Entered processName text k after) :
      SystemExecuteOutcome k command locals registerEsp (-1) after
  | started {after : Kernel} {result : Int} {processName tail text : List UInt8}
      (reached : Reached k command processName tail) (copied : copiedText tail.tail = some text)
      (success : result ≠ -1) (effect : Started processName text registerEsp k after) :
      SystemExecuteOutcome k command locals registerEsp result after

theorem systemExecute_outcome {k after : Kernel} {command : Command} {locals : Locals}
    {registerEsp : Nat} {result : Int}
    (returned : k.systemExecute command locals registerEsp = some (result, after)) :
    SystemExecuteOutcome k command locals registerEsp result after := by
  obtain ⟨⟨value, loaded⟩, executed, returned⟩ := Option.map_eq_some_iff.mp returned
  have outcome := sysExecute_outcome executed
  dsimp only at returned
  split at returned
  · rename_i minus
    obtain ⟨rfl, rfl⟩ := returned
    cases outcome with
    | early => exact .early
    | rejected reached invalid effect =>
        exact .rejected reached (by rw [reached.rejects, invalid]; rfl) effect
    | accepted reached _ copied _ effect => exact .unsaved reached copied (effect.entered reached.valid)
  · rename_i notMinus
    obtain ⟨rfl, rfl⟩ := returned
    cases outcome with
    | early => exact absurd rfl notMinus
    | rejected => exact absurd rfl notMinus
    | accepted reached _ copied _ effect =>
        exact .started reached copied notMinus (effect.started registerEsp reached.valid)

/-- No way through the wrapper assigns the other variables. -/
theorem systemExecute_setting {k after : Kernel} {command : Command} {locals : Locals}
    {registerEsp : Nat} {result : Int}
    (returned : k.systemExecute command locals registerEsp = some (result, after)) :
    SameSetting k after := by
  cases systemExecute_outcome returned with
  | early => exact ⟨rfl, rfl, rfl, rfl, rfl, rfl⟩
  | rejected _ _ effect => exact effect.toSameSetting
  | unsaved _ _ effect => exact effect.toSameSetting
  | started _ _ _ effect => exact effect.toSameSetting

/-- A result other than -1 means that a program was started. -/
theorem systemExecute_started {k after : Kernel} {command : Command} {locals : Locals}
    {registerEsp : Nat} {result : Int}
    (returned : k.systemExecute command locals registerEsp = some (result, after))
    (success : result ≠ -1) :
    ∃ processName tail text, Reached k command processName tail ∧
      copiedText tail.tail = some text ∧ Started processName text registerEsp k after := by
  cases systemExecute_outcome returned with
  | early => exact absurd rfl success
  | rejected => exact absurd rfl success
  | unsaved => exact absurd rfl success
  | started reached copied _ effect => exact ⟨_, _, _, reached, copied, effect⟩

end OrcaOS
