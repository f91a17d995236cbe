import OrcaOS.Foundation.Memory

/-!
A processor with the registers, flags and stack of the 32-bit x86, over the instructions that small
assembly routines use. The segments are flat, so a selector names a privilege level only. The
undefined flags of an instruction keep their value, and no parity or adjust flag is computed.
-/

namespace Foundation

abbrev Word := BitVec 32

inductive Register where
  | eax | ecx | edx | ebx | esp | ebp | esi | edi
  deriving DecidableEq, Repr

inductive Flag where
  | carry | zero | sign | interrupt | direction | overflow
  deriving DecidableEq, Repr

inductive Segment where
  | cs | ss | ds | es
  deriving DecidableEq, Repr

namespace Flag

/-- The bit of the flags register that holds the flag. -/
def position : Flag → Nat
  | carry => 0
  | zero => 6
  | sign => 7
  | interrupt => 9
  | direction => 10
  | overflow => 11

def read (flag : Flag) (flags : Word) : Bool := flags.getLsbD flag.position

def write (flag : Flag) (value : Bool) (flags : Word) : Word :=
  if value then flags ||| BitVec.twoPow 32 flag.position
  else flags &&& ~~~BitVec.twoPow 32 flag.position

/-- A flag that is written is read back, and the others are kept. -/
@[simp] theorem read_write (flag other : Flag) (value : Bool) (flags : Word) :
    other.read (flag.write value flags) = if other = flag then value else other.read flags := by
  unfold read write
  cases value <;> cases flag <;> cases other <;> simp [position]

end Flag

/-- The registers that an instruction without a memory access reads and writes. -/
@[ext] structure Registers where
  general : Register → Word
  flags : Word
  selector : Segment → BitVec 16

/-- The operand that an instruction only reads. -/
inductive Source where
  | register (name : Register)
  | immediate (word : Word)
  deriving DecidableEq, Repr

inductive Arithmetic where
  | add | subtract | conjunction | exclusive
  deriving DecidableEq, Repr

namespace Arithmetic
variable (left right : Word)

def result : Arithmetic → Word
  | add => left + right
  | subtract => left - right
  | conjunction => left &&& right
  | exclusive => left ^^^ right

def carries : Arithmetic → Bool
  | add => left.uaddOverflow right
  | subtract => left.usubOverflow right
  | conjunction | exclusive => false

def overflows : Arithmetic → Bool
  | add => left.saddOverflow right
  | subtract => left.ssubOverflow right
  | conjunction | exclusive => false

def flags (operation : Arithmetic) (before : Word) : Word :=
  Flag.carry.write (operation.carries left right) <|
    Flag.overflow.write (operation.overflows left right) <|
    Flag.zero.write (operation.result left right == 0) <|
    Flag.sign.write (operation.result left right).msb before

end Arithmetic

/-- This function replaces the lowest bits of a word. -/
def replaceLow (count : Nat) (old new : Word) : Word :=
  ((old >>> count) <<< count) ||| (new.setWidth count).setWidth 32

/-- The replaced bits are those of the new word. -/
theorem setWidth_replaceLow {count : Nat} (small : count ≤ 32) (old new : Word) :
    (replaceLow count old new).setWidth count = new.setWidth count := by
  ext index inside
  simp [replaceLow, inside, show index < 32 by omega]

@[simp] theorem replaceLow_zero (count : Nat) (new : Word) :
    replaceLow count 0 new = (new.setWidth count).setWidth 32 := by
  simp [replaceLow]

/-- An instruction that goes on with the next one. -/
inductive Instruction where
  | push (source : Source) | pop (target : Register)
  | pushFlags | popFlags | pushAll | popAll
  | move (source : Source) (target : Register)
  | moveLowByte (source target : Register)
  | moveLowWord (word : BitVec 16) (target : Register)
  | loadByte (address target : Register)
  | storeByte (source address : Register)
  | readSelector (segment : Segment) (target : Register)
  | writeSelector (source : Register) (segment : Segment)
  | arithmetic (operation : Arithmetic) (source : Source) (target : Register)
  | compare (operation : Arithmetic) (source : Source) (target : Register)
  | shiftRight (count : Nat) (target : Register)
  | loadAddress (displacement : Word) (base index target : Register)
  | setFlag (flag : Flag) (value : Bool)
  deriving DecidableEq, Repr

namespace Registers
variable (registers : Registers)

def read : Source → Word
  | .register name => registers.general name
  | .immediate word => word

def set (target : Register) (word : Word) : Registers :=
  { registers with general := Function.update registers.general target word }

@[simp] theorem set_general_self (target : Register) (word : Word) :
    (registers.set target word).general target = word := Function.update_self _ _ _

@[simp] theorem set_set (target : Register) (first second : Word) :
    (registers.set target first).set target second = registers.set target second := by
  rw [set, set, set, Function.update_idem]

/-- What an instruction does that accesses neither memory nor the stack. -/
def run (instruction : Instruction) : Registers :=
  match instruction with
  | .move source target => registers.set target (registers.read source)
  | .moveLowByte source target =>
      registers.set target (replaceLow 8 (registers.general target) (registers.general source))
  | .moveLowWord word target =>
      registers.set target (replaceLow 16 (registers.general target) (word.setWidth 32))
  | .readSelector segment target =>
      registers.set target
        (replaceLow 16 (registers.general target) ((registers.selector segment).setWidth 32))
  | .writeSelector source segment =>
      { registers with selector :=
          Function.update registers.selector segment ((registers.general source).setWidth 16) }
  | .arithmetic operation source target =>
      { registers.set target (operation.result (registers.general target) (registers.read source)) with
        flags := operation.flags (registers.general target) (registers.read source) registers.flags }
  | .compare operation source target =>
      { registers with
        flags := operation.flags (registers.general target) (registers.read source) registers.flags }
  | .shiftRight count target =>
      let word := registers.general target
      { registers.set target (word >>> count) with
        flags := Flag.carry.write (word.getLsbD (count - 1)) <|
          Flag.zero.write (word >>> count == 0) <|
          Flag.sign.write (word >>> count).msb registers.flags }
  | .loadAddress displacement base index target =>
      registers.set target (registers.general base + registers.general index + displacement)
  | .setFlag flag value => { registers with flags := flag.write value registers.flags }
  | _ => registers

end Registers

/-- The world is the data that the assembly code does not access itself. -/
structure Processor (World : Type) where
  registers : Registers
  eip : Word
  memory : Memory
  world : World

namespace Processor
variable {World : Type} (p : Processor World)

abbrev esp : Word := p.registers.general .esp

/-- The word on top of the stack. -/
def top : Word := BitVec.ofNat 32 (p.memory.load32 p.esp.toNat)

def push (word : Word) : Processor World :=
  { p with
    registers := p.registers.set .esp (p.esp - 4)
    memory := p.memory.store32 (p.esp - 4).toNat word.toNat }

/-- This function removes one word. -/
def drop : Processor World := { p with registers := p.registers.set .esp (p.esp + 4) }

@[simp] theorem push_registers (word : Word) : (p.push word).registers = p.registers.set .esp (p.esp - 4) := rfl

@[simp] theorem push_esp (word : Word) : (p.push word).esp = p.esp - 4 := Registers.set_general_self _ _ _

@[simp] theorem drop_registers : p.drop.registers = p.registers.set .esp (p.esp + 4) := rfl

@[simp] theorem drop_esp : p.drop.esp = p.esp + 4 := Registers.set_general_self _ _ _

def set (target : Register) (word : Word) : Processor World :=
  { p with registers := p.registers.set target word }

def setFlags (flags : Word) : Processor World := { p with registers := { p.registers with flags } }

def setSelector (segment : Segment) (word : Word) : Processor World :=
  { p with registers := { p.registers with
      selector := Function.update p.registers.selector segment (word.setWidth 16) } }

/-- The order in which `pushal` stores the registers. -/
def savedRegisters : List Register := [.eax, .ecx, .edx, .ebx, .esp, .ebp, .esi, .edi]

def pushAll : Processor World :=
  savedRegisters.foldl (fun state name => state.push (p.registers.general name)) p

/-- The stored stack pointer is skipped. -/
def popAll : Processor World :=
  savedRegisters.reverse.foldl
    (fun state name => if name = .esp then state.drop else state.drop.set name state.top) p

/-- A popped stack pointer replaces the incremented one. -/
def run (instruction : Instruction) : Processor World :=
  match instruction with
  | .push source => p.push (p.registers.read source)
  | .pop target => p.drop.set target p.top
  | .pushFlags => p.push p.registers.flags
  | .popFlags => p.drop.setFlags p.top
  | .pushAll => p.pushAll
  | .popAll => p.popAll
  | .loadByte address target =>
      p.set target (replaceLow 8 (p.registers.general target)
        (BitVec.ofNat 32 (p.memory (p.registers.general address).toNat).toNat))
  | .storeByte source address =>
      let byte := UInt8.ofNat (p.registers.general source).toNat
      { p with memory := p.memory.fill (p.registers.general address).toNat 1 byte }
  | instruction => { p with registers := p.registers.run instruction }

end Processor

inductive Condition where
  | equal | notEqual | lessOrEqual | greater | aboveOrEqual
  deriving DecidableEq, Repr

namespace Condition

def holds (flags : Word) : Condition → Bool
  | equal => Flag.zero.read flags
  | notEqual => !Flag.zero.read flags
  | lessOrEqual => Flag.zero.read flags || Flag.sign.read flags != Flag.overflow.read flags
  | greater => !(Flag.zero.read flags || Flag.sign.read flags != Flag.overflow.read flags)
  | aboveOrEqual => !Flag.carry.read flags

variable (left right before : Word)

private theorem subtract_zero : left - right = 0#32 ↔ left = right := sub_eq_zero

/-- The sign of a difference is wrong exactly when the difference overflows. -/
private theorem subtract_sign :
    ((left - right).msb != left.ssubOverflow right) = left.slt right := by
  have first := left.isLt
  have second := right.isLt
  rw [BitVec.ssubOverflow_eq, BitVec.slt_eq_decide, BitVec.msb_eq_decide, BitVec.msb_eq_decide,
    BitVec.msb_eq_decide, BitVec.toInt_eq_toNat_cond, BitVec.toInt_eq_toNat_cond, BitVec.toNat_sub]
  simp only [Nat.reducePow, Nat.add_one_sub_one] at first second ⊢
  by_cases negative : 2147483648 ≤ left.toNat <;> by_cases other : 2147483648 ≤ right.toNat <;>
    by_cases difference : 2147483648 ≤ (4294967296 - right.toNat + left.toNat) % 4294967296 <;>
    simp [negative, other, difference] <;> omega

@[simp] theorem equal_subtract :
    equal.holds (Arithmetic.subtract.flags left right before) = (left == right) := by
  simp [holds, Arithmetic.flags, Arithmetic.result, subtract_zero]

@[simp] theorem notEqual_subtract :
    notEqual.holds (Arithmetic.subtract.flags left right before) = (left != right) := by
  simp [holds, Arithmetic.flags, Arithmetic.result, subtract_zero, bne]

@[simp] theorem lessOrEqual_subtract :
    lessOrEqual.holds (Arithmetic.subtract.flags left right before) = left.sle right := by
  simp only [holds, Arithmetic.flags, Flag.read_write, Arithmetic.result, Arithmetic.overflows, if_true,
    reduceCtorEq, if_false, subtract_sign]
  rw [Bool.eq_iff_iff, Bool.or_eq_true, beq_iff_eq, BitVec.ofNat_eq_ofNat, subtract_zero, BitVec.slt_eq_decide,
    BitVec.sle_eq_decide, decide_eq_true_iff, decide_eq_true_iff, ← BitVec.toInt_inj]
  omega

@[simp] theorem greater_subtract :
    greater.holds (Arithmetic.subtract.flags left right before) = right.slt left := by
  change (!lessOrEqual.holds (Arithmetic.subtract.flags left right before)) = _
  rw [lessOrEqual_subtract, BitVec.sle_eq_decide, BitVec.slt_eq_decide, ← decide_not]
  exact decide_eq_decide.mpr Int.not_le

@[simp] theorem aboveOrEqual_subtract :
    aboveOrEqual.holds (Arithmetic.subtract.flags left right before) = right.ule left := by
  simp only [holds, Arithmetic.flags, Flag.read_write, Arithmetic.carries, if_true]
  rw [BitVec.usubOverflow, BitVec.ule_eq_decide, ← decide_not]
  exact decide_eq_decide.mpr Nat.not_lt

@[simp] theorem equal_conjunction :
    equal.holds (Arithmetic.conjunction.flags left right before) = (left &&& right == 0) := by
  simp [holds, Arithmetic.flags, Arithmetic.result]

end Condition

/-- The string instructions on elements of 1, 2 or 4 bytes. -/
inductive StringOperation where
  | store (size : Nat) | copy (size : Nat)
  deriving DecidableEq, Repr

/-- An instruction that decides where the code goes on. -/
inductive Transfer where
  | jump (target : Word)
  | jumpRegister (source : Register)
  | jumpIf (condition : Condition) (target : Word)
  | call (target : Word)
  | callIndirect (displacement : Word) (index : Register)
  | interruptReturn
  | repeated (operation : StringOperation)
  deriving DecidableEq, Repr

namespace Processor
variable {World : Type} (p : Processor World)

/-- The low bits of the code selector are the privilege level. -/
def privilege (selector : BitVec 16) : Nat := selector.toNat % 4

def goto (target : Word) : Processor World := { p with eip := target }

/-- The direction flag decides which way the pointers move. -/
def advance (pointer : Register) (size : Nat) : Processor World :=
  p.set pointer (if Flag.direction.read p.registers.flags
    then p.registers.general pointer - BitVec.ofNat 32 size
    else p.registers.general pointer + BitVec.ofNat 32 size)

def runString : StringOperation → Processor World
  | .store size =>
      let memory := p.memory.overlay (p.registers.general .edi).toNat size fun index =>
        UInt8.ofNat ((p.registers.general .eax).toNat / 256 ^ index)
      { p with memory }.advance .edi size
  | .copy size =>
      let memory := p.memory.overlay (p.registers.general .edi).toNat size fun index =>
        p.memory ((p.registers.general .esi).toNat + index)
      ({ p with memory }.advance .edi size).advance .esi size

/-- A return to less privilege also restores the stack of the program. -/
def interruptReturn : Processor World :=
  let rest := p.drop.drop.drop
  let flags := p.drop.drop.top
  let code := p.drop.top.setWidth 16
  let selector := Function.update p.registers.selector .cs code
  if privilege (p.registers.selector .cs) < privilege code then
    let general := Function.update rest.registers.general .esp rest.top
    let selector := Function.update selector .ss (rest.drop.top.setWidth 16)
    { p with registers := { general, flags, selector }, eip := p.top }
  else { p with registers := { general := rest.registers.general, flags, selector }, eip := p.top }

/-- A repeated instruction stays where it is until the counter is zero. -/
def transfer (constant : Word → Word) (instruction : Transfer) (following : Word) : Processor World :=
  match instruction with
  | .jump target => p.goto target
  | .jumpRegister source => p.goto (p.registers.general source)
  | .jumpIf condition target =>
      p.goto (if condition.holds p.registers.flags then target else following)
  | .call target => (p.push following).goto target
  | .callIndirect displacement index =>
      (p.push following).goto (constant (displacement + 4 * p.registers.general index))
  | .interruptReturn => p.interruptReturn
  | .repeated operation =>
      if p.registers.general .ecx = 0 then p.goto following
      else (p.runString operation).set .ecx (p.registers.general .ecx - 1)

/-- The stack and the code that the processor takes when an interrupt gate is entered. -/
structure Gate where
  target : Word
  code : BitVec 16
  stack : Word
  stackSegment : BitVec 16

/-- The stack of the gate receives the stack pointer that was in use. -/
def switchStack (gate : Gate) : Processor World :=
  (((p.setSelector .ss (gate.stackSegment.setWidth 32)).set .esp gate.stack).push
    ((p.registers.selector .ss).setWidth 32)).push p.esp

/-- The gate is entered on the stack in use, with interrupts disabled. -/
def enterInner (gate : Gate) : Processor World :=
  let pushed := ((p.push p.registers.flags).push ((p.registers.selector .cs).setWidth 32)).push p.eip
  ((pushed.setSelector .cs (gate.code.setWidth 32)).setFlags
    (Flag.interrupt.write false p.registers.flags)).goto gate.target

/-- An interrupt from a lower privilege changes the stack first. -/
def enter (gate : Gate) : Processor World :=
  if privilege gate.code < privilege (p.registers.selector .cs) then (p.switchStack gate).enterInner gate
  else p.enterInner gate

end Processor

inductive Line where
  | op (instruction : Instruction)
  | go (instruction : Transfer)
  deriving DecidableEq, Repr

/-- What lies at an address: a line and the address after it, or a compiled function. -/
inductive Fetched (World : Type) where
  | line (line : Line) (following : Word)
  | routine (call : Processor World → Option (Processor World))

/-- The code and the words beside it never change. -/
structure Code (World : Type) where
  fetch : Word → Option (Fetched World)
  constant : Word → Word

section Execution
variable {World : Type} (code : Code World)

def Processor.runLine (p : Processor World) (line : Line) (following : Word) : Processor World :=
  match line with
  | .op instruction => (p.run instruction).goto following
  | .go instruction => p.transfer code.constant instruction following

/-- A compiled function runs in one step to its return or to the assembly code that it ends with, or not at all. -/
def Processor.step (p : Processor World) : Option (Processor World) :=
  match code.fetch p.eip with
  | none => none
  | some (.line line following) => some (p.runLine code line following)
  | some (.routine call) => call p

/-- The second state follows after finitely many steps. -/
def Reaches : Processor World → Processor World → Prop :=
  Relation.ReflTransGen fun before after => before.step code = some after

variable {code} {p q r : Processor World}

theorem Reaches.refl : Reaches code p p := Relation.ReflTransGen.refl

theorem Reaches.trans (first : Reaches code p q) (second : Reaches code q r) : Reaches code p r :=
  Relation.ReflTransGen.trans first second

theorem Reaches.line {line : Line} {following : Word}
    (fetched : code.fetch p.eip = some (.line line following)) : Reaches code p (p.runLine code line following) :=
  .single (by rw [Processor.step, fetched])

theorem Reaches.routine {call : Processor World → Option (Processor World)}
    (fetched : code.fetch p.eip = some (.routine call)) (returned : call p = some q) : Reaches code p q :=
  .single (by rw [Processor.step, fetched]; exact returned)

variable (code) in
/-- The lines lie one after the other between the two addresses. -/
inductive Placed : Word → List Line → Word → Prop where
  | nil (start : Word) : Placed start [] start
  | cons {start following finish : Word} {line : Line} {rest : List Line}
      (fetched : code.fetch start = some (.line line following)) (placed : Placed following rest finish) :
      Placed start (line :: rest) finish

end Execution

end Foundation
