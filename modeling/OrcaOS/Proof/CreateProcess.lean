import OrcaOS.Proof.Frame

/-!
What `create_pcb` does to the new block, to the table of the terminal on display and to nothing else.
-/

namespace OrcaOS
open Foundation

/-- No declared field overlaps the 128 argument bytes. -/
theorem PcbField.offset_arguments {field : PcbField} (declared : field.Declared) :
    field.offset ≤ 288 ∨ field.offset = 420 := by
  rcases field with _ | _ | _ | index | index | ⟨fd, word⟩ | _ | _ <;>
    simp only [PcbField.offset, PcbField.Declared, fileArrayLen] at declared ⊢
  case fileArray => have := word.offset_le; omega
  all_goals first
    | omega
    | simp

/-- This function gives the entries after a number took the first free one. -/
def registered (entries : Nat → Nat) (number : Nat) : Nat → Nat :=
  match firstFree 0 entries 4 with
  | none => entries
  | some index => Function.update entries index number

theorem registered_congr {entries other : Nat → Nat} (number : Nat)
    (same : ∀ index < 4, entries index = other index) {index : Nat} (small : index < 4) :
    registered entries number index = registered other number index := by
  unfold registered
  rw [firstFree_congr same]
  cases firstFree 0 other 4 with
  | none => exact same index small
  | some slot =>
      dsimp only
      by_cases equal : index = slot
      · rw [equal, Function.update_self, Function.update_self]
      · rw [Function.update_of_ne equal, Function.update_of_ne equal, same index small]

theorem registerProcess_eqOn (memory : Memory) (terminalPcb number : Nat) {slot : Option Nat}
    (inside : ∀ index, slot = some index → index < 4) :
    Set.EqOn (registerProcess memory terminalPcb number slot) memory
      (Memory.window (terminalPcb + 16) 16)ᶜ := by
  cases slot with
  | none => exact fun _ _ => rfl
  | some index =>
      have small := inside index rfl
      apply Memory.eqOn_widen (writeField_eqOn memory terminalPcb (.activeProcesses index) number)
      all_goals
        simp only [PcbField.offset]
        omega

theorem firstFree_inside {entries : Nat → Nat} (index : Nat)
    (found : firstFree 0 entries 4 = some index) : index < 4 :=
  (firstFree_eq_some_iff.mp found).1

/-- The table of the terminal gains the number. -/
theorem registerProcess_table (memory : Memory) (terminalPcb : Nat) {number index : Nat}
    (fits : number < 4294967296) (small : index < 4) :
    activeProcesses (registerProcess memory terminalPcb number
        (firstFree 0 (activeProcesses memory terminalPcb) 4)) terminalPcb index =
      registered (activeProcesses memory terminalPcb) number index := by
  unfold registered
  cases found : firstFree 0 (activeProcesses memory terminalPcb) 4 with
  | none => rfl
  | some slot =>
      have inside := firstFree_inside slot found
      dsimp only [activeProcesses, registerProcess]
      by_cases same : index = slot
      · subst same
        rw [Function.update_self, readField_writeField _ _ _ fits]
      · have unequal : PcbField.activeProcesses index ≠ .activeProcesses slot := by simp [same]
        rw [Function.update_of_ne same]
        exact readField_writeField_of_ne memory terminalPcb number unequal inside small

namespace Kernel

section StandardStream
variable (symbols : Symbols) (memory : Memory) (pcb fd : Nat) (readOp writeOp : Operation)

theorem openStandardStream_other {field : PcbField} (different : ∀ word, field ≠ .fileArray fd word)
    (inside : fd < 8) (declared : field.Declared) :
    readField (openStandardStream symbols memory pcb fd readOp writeOp) pcb field =
      readField memory pcb field := by
  unfold openStandardStream
  simp only [readField_writeField_of_ne _ _ _ (different _), declared_fileArray, inside, declared]

theorem openStandardStream_eqOn :
    Set.EqOn (openStandardStream symbols memory pcb fd readOp writeOp) memory
      (descriptorWords pcb fd)ᶜ := by
  have write (memory : Memory) (field : FdField) (word : Nat) :
      Set.EqOn (writeField memory pcb (.fileArray fd field) word) memory (descriptorWords pcb fd)ᶜ := by
    have bound := field.offset_le
    apply Memory.eqOn_widen (writeField_eqOn memory pcb (.fileArray fd field) word)
    all_goals
      simp only [PcbField.offset]
      omega
  unfold openStandardStream
  exact (write _ _ _).trans ((write _ _ _).trans ((write _ _ _).trans ((write _ _ _).trans
    (write _ _ _))))

/-- A standard stream is in use and holds the terminal operations. -/
theorem openStandardStream_words (inside : fd < 8) :
    let after := openStandardStream symbols memory pcb fd readOp writeOp
    readField after pcb (.fileArray fd .readOp) = symbols.address readOp ∧
      readField after pcb (.fileArray fd .writeOp) = symbols.address writeOp ∧
      readField after pcb (.fileArray fd .openOp) = symbols.address .terminalOpen ∧
      readField after pcb (.fileArray fd .closeOp) = symbols.address .terminalClose ∧
      readField after pcb (.fileArray fd .flags) = 1 ∧
      readField after pcb (.fileArray fd .inode) = readField memory pcb (.fileArray fd .inode) ∧
      readField after pcb (.fileArray fd .position) = readField memory pcb (.fileArray fd .position) := by
  have fits := symbols.fits
  dsimp only [openStandardStream]
  refine ⟨?_, ?_, ?_, ?_, ?_, ?_, ?_⟩ <;>
    simp [readField_writeField_of_ne, fits, inside]

end StandardStream

section InitPcb
variable (symbols : Symbols) (memory : Memory) (pcb number : Nat)

/-- The initialization stays inside the block. -/
theorem initPcb_eqOn :
    Set.EqOn (initPcb symbols memory pcb number) memory (Memory.window pcb 424)ᶜ := by
  have stream (memory : Memory) {fd : Nat} (readOp writeOp : Operation) (inside : fd < 8) :
      Set.EqOn (openStandardStream symbols memory pcb fd readOp writeOp) memory
        (Memory.window pcb 424)ᶜ :=
    Memory.eqOn_widen (openStandardStream_eqOn symbols memory pcb fd readOp writeOp) (by omega) (by omega)
  unfold initPcb
  have one : Set.EqOn (writeField memory pcb .processNum number) memory (Memory.window pcb 424)ᶜ :=
    Memory.eqOn_widen (writeField_eqOn memory pcb .processNum number) (by simp [PcbField.offset])
      (by simp [PcbField.offset])
  have two : Set.EqOn (writeField (writeField memory pcb .processNum number) pcb .argPosition 0)
      (writeField memory pcb .processNum number) (Memory.window pcb 424)ᶜ :=
    Memory.eqOn_widen (writeField_eqOn _ pcb .argPosition 0) (by simp [PcbField.offset])
      (by simp [PcbField.offset])
  have three := @Memory.eqOn_widen _ _ pcb 424 _ _ (Memory.fill_eqOn (writeField (writeField memory pcb .processNum number) pcb
    .argPosition 0) (pcb + argumentsOffset) 127 0) (by simp [argumentsOffset])
    (by simp [argumentsOffset])
  exact (stream _ _ _ (by decide)).trans ((stream _ _ _ (by decide)).trans (three.trans (two.trans one)))

/-- A field that the initialization does not name keeps its value. -/
theorem initPcb_other {field : PcbField} (declared : field.Declared) (notNumber : field ≠ .processNum)
    (notPosition : field ≠ .argPosition) (notFirst : ∀ word, field ≠ .fileArray 0 word)
    (notSecond : ∀ word, field ≠ .fileArray 1 word) :
    readField (initPcb symbols memory pcb number) pcb field = readField memory pcb field := by
  have apart := PcbField.offset_arguments declared
  dsimp only [initPcb]
  rw [openStandardStream_other _ _ _ _ _ _ notSecond (by decide) declared,
    openStandardStream_other _ _ _ _ _ _ notFirst (by decide) declared, readField,
    Memory.load32_fill_outside _ _ (by unfold argumentsOffset; omega), ← readField,
    readField_writeField_of_ne _ _ _ notPosition trivial declared,
    readField_writeField_of_ne _ _ _ notNumber trivial declared]

theorem initPcb_processNum (fits : number < 4294967296) :
    readField (initPcb symbols memory pcb number) pcb .processNum = number := by
  have stream (memory : Memory) (fd : Nat) (readOp writeOp : Operation) (inside : fd < 8) :=
    openStandardStream_other symbols memory pcb fd readOp writeOp
      (fun word => show PcbField.processNum ≠ .fileArray fd word by simp) inside trivial
  dsimp only [initPcb]
  rw [stream _ 1 _ _ (by decide), stream _ 0 _ _ (by decide), readField,
    Memory.load32_fill_outside _ _ (by simp [PcbField.offset, argumentsOffset]), ← readField]
  simp [readField_writeField_of_ne, fits]

/-- The words of a standard stream; two of them are left as they were. -/
def standardWord (symbols : Symbols) (fd : Nat) (field : FdField) (old : Nat) : Nat :=
  match field with
  | .readOp => symbols.address (if fd = 0 then .terminalRead else .noRead)
  | .writeOp => symbols.address (if fd = 0 then .noWrite else .terminalWrite)
  | .openOp => symbols.address .terminalOpen
  | .closeOp => symbols.address .terminalClose
  | .flags => 1
  | .inode => old
  | .position => old

/-- The words of the two descriptors that are opened as standard streams. -/
theorem openStandardStream_word {fd : Nat} {readOp writeOp : Operation} (inside : fd < 8)
    (reads : (if fd = 0 then .terminalRead else .noRead) = readOp)
    (writes : (if fd = 0 then .noWrite else .terminalWrite) = writeOp) (field : FdField) :
    readField (openStandardStream symbols memory pcb fd readOp writeOp) pcb (.fileArray fd field) =
      standardWord symbols fd field (readField memory pcb (.fileArray fd field)) := by
  obtain ⟨readWord, writeWord, openWord, closeWord, flags, inode, position⟩ :=
    openStandardStream_words symbols memory pcb fd readOp writeOp inside
  subst reads writes
  cases field with
  | readOp => exact readWord
  | writeOp => exact writeWord
  | openOp => exact openWord
  | closeOp => exact closeWord
  | inode => exact inode
  | position => exact position
  | flags => exact flags

/-- The initialization opens the standard streams and keeps the other descriptors. -/
theorem initPcb_descriptor {fd : Nat} (inside : fd < 8) (field : FdField) :
    readField (initPcb symbols memory pcb number) pcb (.fileArray fd field) =
      if fd < 2 then standardWord symbols fd field (readField memory pcb (.fileArray fd field))
      else readField memory pcb (.fileArray fd field) := by
  by_cases stale : 2 ≤ fd
  · rw [if_neg (by omega)]
    refine initPcb_other symbols memory pcb number inside (by simp) (by simp) ?_ ?_ <;>
      (intro word equal
       simp only [PcbField.fileArray.injEq] at equal
       omega)
  rw [if_pos (by omega)]
  dsimp only [initPcb]
  generalize argumentsMemory : Memory.fill (writeField (writeField memory pcb .processNum number) pcb
    .argPosition 0) (pcb + argumentsOffset) 127 0 = cleared
  have kept : readField cleared pcb (.fileArray fd field) = readField memory pcb (.fileArray fd field) := by
    have bound := field.offset_le
    have notNumber : PcbField.fileArray fd field ≠ .processNum := by simp
    have notPosition : PcbField.fileArray fd field ≠ .argPosition := by simp
    rw [← argumentsMemory, readField, Memory.load32_fill_outside _ _ (by
      simp only [PcbField.offset, argumentsOffset]
      omega), ← readField, readField_writeField_of_ne _ _ _ notPosition trivial inside,
      readField_writeField_of_ne _ _ _ notNumber trivial inside]
  rw [← kept]
  obtain rfl | rfl : fd = 0 ∨ fd = 1 := by omega
  · have other (word : FdField) : PcbField.fileArray 0 field ≠ .fileArray 1 word := by simp
    rw [openStandardStream_other _ _ _ _ _ _ other (by decide) inside]
    exact openStandardStream_word symbols cleared pcb inside rfl rfl field
  · have before := openStandardStream_other symbols cleared pcb 0 .terminalRead .noWrite
      (fun word => show PcbField.fileArray 1 field ≠ .fileArray 0 word by simp) (by decide) inside
    rw [← before]
    exact openStandardStream_word symbols _ pcb inside rfl rfl field

end InitPcb

/-- The memory after `create_pcb`. -/
def created (k : Kernel) : Memory := k.createPcb.1.memory

section Created
variable (k : Kernel)

@[simp] theorem createPcb_snd : k.createPcb.2 = pcbAddress k.processNumber := by
  simp only [createPcb]

theorem createPcb_fst : k.createPcb.1 =
    { k with memory := k.created, processNumber := wrap32 (k.processNumber + 1) } := by
  unfold created createPcb
  rfl

/-- Only a process above the base shells is registered with the terminal on display. -/
theorem created_eq (valid : k.processNumber < 6) :
    k.created =
      let block := initPcb k.symbols k.memory (pcbAddress k.processNumber) k.processNumber
      let terminalPcb := pcbAddress k.console.terminalOnDisplay
      writeField
        (if 2 < k.processNumber then registerProcess block terminalPcb k.processNumber
          (firstFree 0 (activeProcesses block terminalPcb) 4) else block)
        (pcbAddress k.processNumber) .parentTerminal k.console.terminalOnDisplay := by
  unfold created createPcb
  dsimp only
  rw [initPcb_processNum _ _ _ _ (by omega)]

/-- A slot is larger than the block at its bottom. -/
theorem pcbAddress_apart {first second : Nat} (firstSmall : first < 1024) (secondSmall : second < 1024)
    (different : first ≠ second) :
    pcbAddress first + 8192 ≤ pcbAddress second ∨ pcbAddress second + 8192 ≤ pcbAddress first := by
  rw [pcbAddress_eq firstSmall, pcbAddress_eq secondSmall]
  omega

/-- `create_pcb` changes its block and the table of the terminal on display. -/
theorem created_eqOn (valid : k.processNumber < 6) :
    Set.EqOn k.created k.memory (Memory.window (pcbAddress k.processNumber) 424 ∪
      Memory.window (pcbAddress k.console.terminalOnDisplay + 16) 16)ᶜ := by
  have parent (memory : Memory) : Set.EqOn
      (writeField memory (pcbAddress k.processNumber) .parentTerminal k.console.terminalOnDisplay) memory
      (Memory.window (pcbAddress k.processNumber) 424 ∪
        Memory.window (pcbAddress k.console.terminalOnDisplay + 16) 16)ᶜ := by
    apply (writeField_eqOn memory _ .parentTerminal _).mono
    apply Set.compl_subset_compl.mpr
    rintro address ⟨low, high⟩
    simp only [PcbField.offset] at low high
    exact Or.inl ⟨by omega, by omega⟩
  have block := (initPcb_eqOn k.symbols k.memory (pcbAddress k.processNumber) k.processNumber).mono
    (Set.compl_subset_compl.mpr (Set.subset_union_left
      (t := Memory.window (pcbAddress k.console.terminalOnDisplay + 16) 16)))
  rw [k.created_eq valid]
  dsimp only
  refine (parent _).trans ?_
  split
  · refine Set.EqOn.trans ?_ block
    exact (registerProcess_eqOn _ _ _ firstFree_inside).mono
      (Set.compl_subset_compl.mpr Set.subset_union_right)
  · exact block

/-- The fields of the new block that the registration cannot reach. -/
theorem created_block (valid : k.processNumber < 6) {field : PcbField} (declared : field.Declared)
    (notParent : field ≠ .parentTerminal) :
    readField k.created (pcbAddress k.processNumber) field =
      readField (initPcb k.symbols k.memory (pcbAddress k.processNumber) k.processNumber)
        (pcbAddress k.processNumber) field := by
  rw [k.created_eq valid]
  dsimp only
  rw [readField_writeField_of_ne _ _ _ notParent trivial declared]
  split
  · rename_i nested
    have terminal := k.console.terminalOnDisplay.isLt
    have apart := @pcbAddress_apart k.processNumber k.console.terminalOnDisplay (by omega) (by omega)
      (by omega)
    have low := PcbField.offset_le declared
    exact readField_outside (registerProcess_eqOn _ _ _ firstFree_inside)
      (Memory.window_disjoint (by omega))
  · rfl

theorem created_processNum (valid : k.processNumber < 6) :
    readField k.created (pcbAddress k.processNumber) .processNum = k.processNumber := by
  have kept := k.created_block valid declared_processNum (by simp)
  rw [kept, initPcb_processNum _ _ _ _ (by omega)]

/-- A new block has the standard streams and the other descriptors of the slot's last occupant. -/
theorem created_descriptor (valid : k.processNumber < 6) {fd : Nat} (inside : fd < 8) (field : FdField) :
    readField k.created (pcbAddress k.processNumber) (.fileArray fd field) =
      if fd < 2 then standardWord k.symbols fd field
        (readField k.memory (pcbAddress k.processNumber) (.fileArray fd field))
      else readField k.memory (pcbAddress k.processNumber) (.fileArray fd field) := by
  have declared : (PcbField.fileArray fd field).Declared := inside
  rw [k.created_block valid declared (by simp)]
  exact initPcb_descriptor _ _ _ _ inside field

theorem created_parentTerminal (valid : k.processNumber < 6) :
    readField k.created (pcbAddress k.processNumber) .parentTerminal = k.console.terminalOnDisplay := by
  have terminal := k.console.terminalOnDisplay.isLt
  rw [k.created_eq valid]
  exact readField_writeField _ _ _ (by omega)

/-- Every block other than the new one keeps its fields, except for the table of a terminal. -/
theorem created_other (valid : k.processNumber < 6) {number : Nat} (small : number < 1024)
    (different : number ≠ k.processNumber) {field : PcbField} (declared : field.Declared)
    (notTable : ∀ index, field ≠ .activeProcesses index) :
    readField k.created (pcbAddress number) field = readField k.memory (pcbAddress number) field := by
  have terminal := k.console.terminalOnDisplay.isLt
  have low := PcbField.offset_le declared
  have outside : field.offset + 4 ≤ 16 ∨ 32 ≤ field.offset := by
    rcases field with _ | _ | _ | index | index | ⟨fd, word⟩ | _ | _ <;> simp only [PcbField.offset]
    case activeProcesses => exact absurd rfl (notTable index)
    all_goals omega
  have apart := pcbAddress_apart small (show k.processNumber < 1024 by omega) different
  apply readField_outside (k.created_eqOn valid)
  rw [Set.disjoint_union_right]
  constructor
  · exact Memory.window_disjoint (by omega)
  · apply Memory.window_disjoint
    by_cases same : number = k.console.terminalOnDisplay
    · rw [← same]
      omega
    · have other := pcbAddress_apart small (show k.console.terminalOnDisplay.val < 1024 by omega) same
      omega

/-- This function gives a terminal's table after `create_pcb`. -/
def tableAfter (k : Kernel) (terminal : Nat) : Nat → Nat :=
  if 2 < k.processNumber ∧ terminal = k.console.terminalOnDisplay then
    registered (activeProcesses k.memory (pcbAddress terminal)) k.processNumber
  else activeProcesses k.memory (pcbAddress terminal)

/-- The table of the terminal on display gains the number of a process above the base shells. -/
theorem created_table (valid : k.processNumber < 6) {terminal index : Nat} (small : terminal < 3)
    (inside : index < 4) :
    activeProcesses k.created (pcbAddress terminal) index = k.tableAfter terminal index := by
  have display := k.console.terminalOnDisplay.isLt
  have block : ∀ index < 4, ∀ terminal < 3, activeProcesses
      (initPcb k.symbols k.memory (pcbAddress k.processNumber) k.processNumber) (pcbAddress terminal) index =
      activeProcesses k.memory (pcbAddress terminal) index := by
    intro index inside terminal small
    by_cases same : terminal = k.processNumber
    · rw [same]
      exact initPcb_other _ _ _ _ inside (by simp) (by simp) (by simp) (by simp)
    · have apart := pcbAddress_apart (show terminal < 1024 by omega)
        (show k.processNumber < 1024 by omega) same
      apply readField_outside (initPcb_eqOn _ _ _ _)
      apply Memory.window_disjoint
      simp only [PcbField.offset]
      omega
  have parent (memory : Memory) : activeProcesses
      (writeField memory (pcbAddress k.processNumber) .parentTerminal k.console.terminalOnDisplay)
      (pcbAddress terminal) index = activeProcesses memory (pcbAddress terminal) index := by
    by_cases same : terminal = k.processNumber
    · rw [same]
      exact readField_writeField_of_ne _ _ _ (by simp) trivial inside
    · have apart := pcbAddress_apart (show terminal < 1024 by omega)
        (show k.processNumber < 1024 by omega) same
      exact readField_writeField_of_block _ _ (by omega) trivial inside
  rw [k.created_eq valid]
  dsimp only
  rw [parent, tableAfter]
  by_cases nested : 2 < k.processNumber
  · rw [if_pos nested]
    by_cases same : terminal = k.console.terminalOnDisplay
    · rw [if_pos ⟨nested, same⟩, same, registerProcess_table _ _ (by omega) inside]
      exact registered_congr _ (fun index inside => block index inside _ display) inside
    · rw [if_neg (fun both => same both.2), ← block index inside terminal small]
      have apart := pcbAddress_apart (show terminal < 1024 by omega)
        (show k.console.terminalOnDisplay.val < 1024 by omega) same
      apply readField_outside (registerProcess_eqOn _ _ _ firstFree_inside)
      apply Memory.window_disjoint
      simp only [PcbField.offset]
      omega
  · rw [if_neg nested, if_neg (fun both => nested both.1)]
    exact block index inside terminal small

end Created

end Kernel

end OrcaOS
