import OrcaOS.Construction.SystemCall

/-!
Frame rules: what an operation on the current control block leaves unchanged.
-/

namespace OrcaOS
open Foundation

/-- The descriptors of the block at `pcb`. -/
abbrev descriptorTable (pcb : Nat) : Set Nat := Memory.window (pcb + 64) 224

/-- The words of one descriptor of the block at `pcb`. -/
abbrev descriptorWords (pcb fd : Nat) : Set Nat := Memory.window (pcb + 64 + 28 * fd) 28

theorem descriptorWords_subset (pcb : Nat) {fd : Nat} (inside : fd < 8) :
    descriptorWords pcb fd ⊆ descriptorTable pcb :=
  Memory.window_subset (by omega) (by omega)

/-- The operation changes memory only inside the region, and no variable that selects a process. -/
structure ChangesOnly (region : Set Nat) (before after : Kernel) : Prop where
  memory : Set.EqOn after.memory before.memory regionᶜ
  symbols : after.symbols = before.symbols
  fileSystem : after.fileSystem = before.fileSystem
  processNumber : after.processNumber = before.processNumber
  currentPcb : after.currentPcb = before.currentPcb
  recoverNum : after.recoverNum = before.recoverNum
  pageTables : after.pageTables = before.pageTables
  esp0 : after.esp0 = before.esp0
  terminalOnDisplay : after.console.terminalOnDisplay = before.console.terminalOnDisplay
  executeCounter : after.executeCounter = before.executeCounter
  terminalInitFlag : after.terminalInitFlag = before.terminalInitFlag

namespace ChangesOnly
variable {region larger : Set Nat} {first second third : Kernel}

theorem refl (region : Set Nat) (k : Kernel) : ChangesOnly region k k :=
  ⟨fun _ _ => rfl, rfl, rfl, rfl, rfl, rfl, rfl, rfl, rfl, rfl, rfl⟩

theorem trans (one : ChangesOnly region first second) (two : ChangesOnly region second third) :
    ChangesOnly region first third where
  memory := two.memory.trans one.memory
  symbols := two.symbols.trans one.symbols
  fileSystem := two.fileSystem.trans one.fileSystem
  processNumber := two.processNumber.trans one.processNumber
  currentPcb := two.currentPcb.trans one.currentPcb
  recoverNum := two.recoverNum.trans one.recoverNum
  pageTables := two.pageTables.trans one.pageTables
  esp0 := two.esp0.trans one.esp0
  terminalOnDisplay := two.terminalOnDisplay.trans one.terminalOnDisplay
  executeCounter := two.executeCounter.trans one.executeCounter
  terminalInitFlag := two.terminalInitFlag.trans one.terminalInitFlag

theorem mono (changes : ChangesOnly region first second) (wider : region ⊆ larger) :
    ChangesOnly larger first second :=
  { changes with memory := changes.memory.mono (Set.compl_subset_compl.mpr wider) }

/-- A field outside the region keeps its value. -/
theorem readField (changes : ChangesOnly region first second) {pcb : Nat} {field : PcbField}
    (outside : Disjoint (Memory.window (pcb + field.offset) 4) region) :
    readField second.memory pcb field = readField first.memory pcb field :=
  readField_outside changes.memory outside

end ChangesOnly

namespace Kernel
variable (k : Kernel)

@[simp] theorem setCurrent_currentPcb (field : PcbField) (word : Nat) :
    (k.setCurrent field word).currentPcb = k.currentPcb := rfl

@[simp] theorem current_setCurrent (field : PcbField) {word : Nat} (fits : word < 4294967296) :
    (k.setCurrent field word).current field = word :=
  readField_writeField k.memory k.currentPcb field fits

theorem current_setCurrent_of_ne {field other : PcbField} (word : Nat) (different : other ≠ field)
    (declared : field.Declared) (otherDeclared : other.Declared) :
    (k.setCurrent field word).current other = k.current other :=
  readField_writeField_of_ne k.memory k.currentPcb word different declared otherDeclared

theorem setCurrent_changesOnly (field : PcbField) (word : Nat) :
    ChangesOnly (Memory.window (k.currentPcb + field.offset) 4) k (k.setCurrent field word) :=
  ⟨writeField_eqOn k.memory k.currentPcb field word, rfl, rfl, rfl, rfl, rfl, rfl, rfl, rfl, rfl, rfl⟩

/-- Writing a word of a descriptor changes only that descriptor. -/
theorem setDescriptor_changesOnly (fd : Nat) (field : FdField) (word : Nat) :
    ChangesOnly (descriptorWords k.currentPcb fd) k (k.setCurrent (.fileArray fd field) word) := by
  have bound := field.offset_le
  apply (k.setCurrent_changesOnly (.fileArray fd field) word).mono
  simp only [PcbField.offset]
  exact Memory.window_subset (by omega) (by omega)

theorem freeDescriptor_eq_some_iff {first fd : Nat} :
    k.freeDescriptor first = some fd ↔
      first ≤ fd ∧ fd < 8 ∧ k.current (.fileArray fd .flags) = 0 ∧
        ∀ earlier < fd, first ≤ earlier → k.current (.fileArray earlier .flags) ≠ 0 := by
  simp only [freeDescriptor, fileArrayLen, List.find?_range_eq_some, decide_eq_true_eq,
    List.mem_range, Bool.not_eq_true', decide_eq_false_iff_not, not_and]
  tauto

theorem freeDescriptor_eq_none_iff {first : Nat} :
    k.freeDescriptor first = none ↔
      ∀ fd < 8, first ≤ fd → k.current (.fileArray fd .flags) ≠ 0 := by
  simp [freeDescriptor, fileArrayLen]

/-- Opening a file changes at most the descriptor that it claims. -/
theorem fileOpen_changesOnly (filename : Option (List UInt8)) :
    ChangesOnly (descriptorTable k.currentPcb) k (k.fileOpen filename).2 := by
  unfold fileOpen
  split
  · exact .refl _ _
  · split
    · exact .refl _ _
    · rename_i dentry _ _ fd found
      have inside := (k.freeDescriptor_eq_some_iff.mp found).2.1
      have one := k.setDescriptor_changesOnly fd .flags 1
      have two := (k.setCurrent (.fileArray fd .flags) 1).setDescriptor_changesOnly fd .inode
        dentry.inodeNum
      have three := ((k.setCurrent (.fileArray fd .flags) 1).setCurrent (.fileArray fd .inode)
        dentry.inodeNum).setDescriptor_changesOnly fd .position 0
      exact ((one.trans two).trans three).mono (descriptorWords_subset _ inside)

/-- Closing a file changes at most the given descriptor. -/
theorem fileClose_changesOnly (fd : Int) :
    ChangesOnly (descriptorWords k.currentPcb fd.toNat) k (k.fileClose fd).2 := by
  unfold fileClose
  split
  · exact .refl _ _
  · split
    · have one := k.setDescriptor_changesOnly fd.toNat .inode 0
      have two := (k.setCurrent (.fileArray fd.toNat .inode) 0).setDescriptor_changesOnly
        fd.toNat .position 0
      have three := ((k.setCurrent (.fileArray fd.toNat .inode) 0).setCurrent
        (.fileArray fd.toNat .position) 0).setDescriptor_changesOnly fd.toNat .flags 0
      exact (one.trans two).trans three
    · exact .refl _ _

/-- Reading a file changes at most the position of the given descriptor. -/
theorem fileRead_changesOnly (fd : Int) (buf : Option Buffer) (nbytes : Int) :
    ChangesOnly (Memory.window (k.currentPcb + (PcbField.fileArray fd.toNat .position).offset) 4) k
      (k.fileRead fd buf nbytes).2.2 := by
  unfold fileRead
  split
  · exact .refl _ _
  · dsimp only
    split
    · exact .refl _ _
    · split
      · exact k.setCurrent_changesOnly _ _
      · exact k.setCurrent_changesOnly _ _

end Kernel

end OrcaOS
