import OrcaOS.Foundation.Memory

/-!
The process control blocks of `types.h`. The block of process `n` starts the 8 KB slot that ends
at `EIGHT_MB - EIGHT_KB * n`; the rest of the slot is the kernel stack of that process.
-/

namespace OrcaOS
open Foundation

def eightMb : Nat := 0x800000
def eightKb : Nat := 0x2000
def fourMb : Nat := 0x400000
def mb128 : Nat := 0x8000000
def fileArrayLen : Nat := 8

/-- This is the address `EIGHT_MB - EIGHT_KB * n` in 32-bit arithmetic. -/
def stackTop (n : Nat) : Nat := wrap32 (eightMb - eightKb * n)

/-- The control block of a process lies one slot below its stack top. -/
def pcbAddress (number : Nat) : Nat := stackTop (number + 1)

/-- The seven words of `fd_t`. -/
inductive FdField where
  | readOp | writeOp | openOp | closeOp | inode | position | flags
  deriving DecidableEq, Repr

def FdField.offset : FdField → Nat
  | .readOp => 0
  | .writeOp => 4
  | .openOp => 8
  | .closeOp => 12
  | .inode => 16
  | .position => 20
  | .flags => 24

/-- The words of `pcb_t` that the kernel uses. An index may point past its array, as it may in C. -/
inductive PcbField where
  | processNum | parentTerminal | schedulingEsp
  | activeProcesses (index : Nat) | terminalDisplays (index : Nat)
  | fileArray (fd : Nat) (field : FdField) | esp | argPosition
  deriving DecidableEq, Repr

/-- The structure is packed, so each field follows the previous one. -/
def PcbField.offset : PcbField → Nat
  | .processNum => 0
  | .parentTerminal => 4
  | .schedulingEsp => 12
  | .activeProcesses index => 16 + 4 * index
  | .terminalDisplays index => 32 + 4 * index
  | .fileArray fd field => 64 + 28 * fd + field.offset
  | .esp => 288
  | .argPosition => 420

/-- The 128 argument bytes lie between `esp` and `arg_position`. -/
def argumentsOffset : Nat := 292

/-- This predicate says that the field lies inside its own array. -/
def PcbField.Declared : PcbField → Prop
  | .activeProcesses index => index < 4
  | .terminalDisplays index => index < 4
  | .fileArray fd _ => fd < fileArrayLen
  | _ => True

/-- This function reads one field of the block at `pcb`. -/
def readField (memory : Memory) (pcb : Nat) (field : PcbField) : Nat :=
  memory.load32 (pcb + field.offset)

/-- This function writes one field of the block at `pcb`. -/
def writeField (memory : Memory) (pcb : Nat) (field : PcbField) (word : Nat) : Memory :=
  memory.store32 (pcb + field.offset) word

theorem stackTop_eq {n : Nat} (small : n ≤ 1024) : stackTop n = 8388608 - 8192 * n := by
  unfold stackTop eightMb eightKb wrap32
  omega

theorem pcbAddress_eq {number : Nat} (small : number < 1024) :
    pcbAddress number = 8380416 - 8192 * number := by
  rw [pcbAddress, stackTop_eq small]
  omega

/-- Every slot boundary is a multiple of the slot size. -/
theorem stackTop_aligned (n : Nat) : stackTop n % 8192 = 0 := by
  unfold stackTop eightMb eightKb wrap32
  omega

theorem pcbAddress_aligned (number : Nat) : pcbAddress number % 8192 = 0 := by
  rw [pcbAddress]
  exact stackTop_aligned _

theorem pcbAddress_inj {first second : Nat} (firstSmall : first < 1024) (secondSmall : second < 1024) :
    pcbAddress first = pcbAddress second ↔ first = second := by
  rw [pcbAddress_eq firstSmall, pcbAddress_eq secondSmall]
  omega

theorem FdField.offset_le (field : FdField) : field.offset ≤ 24 := by
  cases field <;> decide

theorem FdField.offset_disjoint {first second : FdField} (different : first ≠ second) :
    first.offset + 4 ≤ second.offset ∨ second.offset + 4 ≤ first.offset := by
  cases first <;> cases second <;> simp [FdField.offset] at different ⊢

/-- Two declared fields are equal or do not overlap. -/
theorem PcbField.offset_disjoint {first second : PcbField} (different : first ≠ second)
    (firstDeclared : first.Declared) (secondDeclared : second.Declared) :
    first.offset + 4 ≤ second.offset ∨ second.offset + 4 ≤ first.offset := by
  have bound := FdField.offset_le
  rcases first with _ | _ | _ | index | index | ⟨fd, field⟩ | _ | _ <;>
    rcases second with _ | _ | _ | other | other | ⟨otherFd, otherField⟩ | _ | _ <;>
    simp only [PcbField.offset, PcbField.Declared, fileArrayLen] at firstDeclared secondDeclared ⊢
  case fileArray.fileArray =>
    have words := @FdField.offset_disjoint field otherField
    have firstBound := bound field
    have secondBound := bound otherField
    by_cases same : fd = otherFd
    · subst same
      have := words fun equal => different (by rw [equal])
      omega
    · omega
  all_goals first
    | exact absurd rfl different
    | omega
    | (have low := bound field; omega)
    | (have low := bound otherField; omega)
    | (have unequal : index ≠ other := fun equal => different (by rw [equal]); omega)

/-- A declared field lies inside the 424 bytes of its block. -/
theorem PcbField.offset_le {field : PcbField} (declared : field.Declared) : field.offset ≤ 420 := by
  rcases field with _ | _ | _ | index | index | ⟨fd, word⟩ | _ | _ <;>
    simp only [PcbField.offset, PcbField.Declared, fileArrayLen] at declared ⊢
  case fileArray => have := word.offset_le; omega
  all_goals omega

@[simp] theorem declared_processNum : PcbField.processNum.Declared := trivial
@[simp] theorem declared_parentTerminal : PcbField.parentTerminal.Declared := trivial
@[simp] theorem declared_esp : PcbField.esp.Declared := trivial
@[simp] theorem declared_argPosition : PcbField.argPosition.Declared := trivial

@[simp] theorem declared_activeProcesses (index : Nat) :
    (PcbField.activeProcesses index).Declared ↔ index < 4 := Iff.rfl

@[simp] theorem declared_terminalDisplays (index : Nat) :
    (PcbField.terminalDisplays index).Declared ↔ index < 4 := Iff.rfl

@[simp] theorem declared_fileArray (fd : Nat) (field : FdField) :
    (PcbField.fileArray fd field).Declared ↔ fd < 8 := Iff.rfl

theorem readField_lt (memory : Memory) (pcb : Nat) (field : PcbField) :
    readField memory pcb field < 4294967296 := memory.load32_lt _

/-- A written field is read back. -/
@[simp] theorem readField_writeField (memory : Memory) (pcb : Nat) (field : PcbField) {word : Nat}
    (fits : word < 4294967296) : readField (writeField memory pcb field word) pcb field = word :=
  memory.load32_store32 _ fits

/-- Writing one declared field keeps the other fields of the same block. -/
theorem readField_writeField_of_ne (memory : Memory) (pcb word : Nat) {field other : PcbField}
    (different : other ≠ field) (declared : field.Declared) (otherDeclared : other.Declared) :
    readField (writeField memory pcb field word) pcb other = readField memory pcb other := by
  have apart := PcbField.offset_disjoint different otherDeclared declared
  exact memory.load32_store32_outside word (by omega)

/-- Writing a declared field keeps the fields of every other block. -/
theorem readField_writeField_of_block (memory : Memory) (word : Nat) {pcb block : Nat}
    {field other : PcbField} (apart : block + 424 ≤ pcb ∨ pcb + 424 ≤ block)
    (declared : field.Declared) (otherDeclared : other.Declared) :
    readField (writeField memory pcb field word) block other = readField memory block other := by
  have low := PcbField.offset_le declared
  have high := PcbField.offset_le otherDeclared
  exact memory.load32_store32_outside word (by omega)

/-- Writing a declared field keeps every byte outside the field. -/
theorem writeField_eqOn (memory : Memory) (pcb : Nat) (field : PcbField) (word : Nat) :
    Set.EqOn (writeField memory pcb field word) memory
      (Memory.window (pcb + field.offset) 4)ᶜ :=
  memory.store32_eqOn _ _

/-- A field depends on its own four bytes only. -/
theorem readField_eqOn {first second : Memory} {region : Set Nat} {pcb : Nat} {field : PcbField}
    (same : Set.EqOn first second region)
    (inside : Memory.window (pcb + field.offset) 4 ⊆ region) :
    readField first pcb field = readField second pcb field :=
  Memory.load32_eqOn same fun index small => inside ⟨by omega, by omega⟩

/-- A field outside the region that changes keeps its value. -/
theorem readField_outside {first second : Memory} {region : Set Nat} {pcb : Nat} {field : PcbField}
    (same : Set.EqOn first second regionᶜ)
    (outside : Disjoint (Memory.window (pcb + field.offset) 4) region) :
    readField first pcb field = readField second pcb field :=
  readField_eqOn same outside.subset_compl_right

end OrcaOS
