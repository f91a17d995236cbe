import OrcaOS.Construction.Kernel
import OrcaOS.Foundation.SlotStack

/-!
The system calls of `system_call.c` and their wrappers in `system_callASM.S`. A result `none` means
that control is lost: a page fault, a jump through a pointer to no known function, or an argument text
that runs over the local variables of `sys_execute`.
-/

namespace OrcaOS
open Foundation

def fileImage : Nat := 0x08048000
def maxCommandLen : Nat := 32
def kernelDs : Nat := 0x0018

/-- The readable bytes from the pointer up to the end of the mapped memory; `none` is NULL. -/
abbrev Command := Option (List UInt8)

/-- The first word ends at a space, at the terminator or when there is no room left. -/
def firstWord : List UInt8 → Nat → Option (List UInt8 × List UInt8)
  | [], _ => none
  | byte :: rest, room =>
      if byte ≠ 32 ∧ byte ≠ 0 ∧ 0 < room then
        (firstWord rest (room - 1)).map fun (word, tail) => (byte :: word, tail)
      else some ([], byte :: rest)

/-- The text after the spaces, without its terminator. -/
def copiedText (bytes : List UInt8) : Option (List UInt8) :=
  let text := bytes.dropWhile (· = 32)
  if 0 ∈ text then some (text.takeWhile (· ≠ 0)) else none

/-- The character at which the first word stops is skipped, whatever it is. -/
def argumentText (bytes : List UInt8) : Option (List UInt8) :=
  (firstWord bytes (maxCommandLen - 1)).bind fun (_, tail) => copiedText tail.tail

/-- The kernel stack from the stack pointer of `sys_execute` up to its top, and what it holds in
`temp_buffer` before the call. It lies in one slot, above the control block. -/
structure Locals where
  low : Nat
  high : Nat
  bufferAddress : Nat
  tempBuffer : Buffer
  aboveBlock : 424 ≤ low % eightKb
  insideSlot : high ≤ low / eightKb * eightKb + eightKb
  bufferInside : low ≤ bufferAddress ∧ bufferAddress + 40 ≤ high

/-- The bytes from `start` are mapped, and those that lie on the used stack lie in `temp_buffer`. -/
def Locals.Spared (locals : Locals) (start count : Nat) : Prop :=
  start + count ≤ eightMb ∧ (start + count ≤ locals.low ∨ locals.high ≤ start ∨
    locals.bufferAddress ≤ max locals.low start ∧ min locals.high (start + count) ≤ locals.bufferAddress + 40)

instance (locals : Locals) (start count : Nat) : Decidable (locals.Spared start count) :=
  inferInstanceAs (Decidable (_ ∧ _))

/-- The contents of `temp_buffer` after a text was stored over the memory from `start`. -/
def Locals.overrun (locals : Locals) (content : Buffer) (start : Nat) (text : List UInt8) : Buffer :=
  fun index => Memory.storeBytes (fun address => content (address - locals.bufferAddress)) start text
    (locals.bufferAddress + index)

/-- The array of four words starts at `active_processes[0]` of the block. -/
def activeProcesses (memory : Memory) (pcb : Nat) (index : Nat) : Nat :=
  readField memory pcb (.activeProcesses index)

/-- The free entry that the search found takes the number; a full table is not changed. -/
def registerProcess (memory : Memory) (terminalPcb number : Nat) (slot : Option Nat) : Memory :=
  match slot with
  | none => memory
  | some index => writeField memory terminalPcb (.activeProcesses index) number

namespace Kernel

def sysCallsInit (k : Kernel) : Kernel := { k with processNumber := 0, currentPcb := 0 }

/-- This function writes the four operations and the flag of one terminal descriptor. -/
def openStandardStream (symbols : Symbols) (memory : Memory) (pcb fd : Nat)
    (readOp writeOp : Operation) : Memory :=
  let memory := writeField memory pcb (.fileArray fd .readOp) (symbols.address readOp)
  let memory := writeField memory pcb (.fileArray fd .writeOp) (symbols.address writeOp)
  let memory := writeField memory pcb (.fileArray fd .openOp) (symbols.address .terminalOpen)
  let memory := writeField memory pcb (.fileArray fd .closeOp) (symbols.address .terminalClose)
  writeField memory pcb (.fileArray fd .flags) 1

/-- The loop clears 127 of the 128 argument bytes. -/
def initPcb (symbols : Symbols) (memory : Memory) (pcb number : Nat) : Memory :=
  let memory := writeField memory pcb .processNum number
  let memory := writeField memory pcb .argPosition 0
  let memory := memory.fill (pcb + argumentsOffset) 127 0
  let memory := openStandardStream symbols memory pcb 0 .terminalRead .noWrite
  openStandardStream symbols memory pcb 1 .noRead .terminalWrite

def createPcb (k : Kernel) : Kernel × Nat :=
  let pcb := pcbAddress k.processNumber
  let memory := initPcb k.symbols k.memory pcb k.processNumber
  let memory :=
    if 2 < readField memory pcb .processNum then
      let terminalPcb := pcbAddress k.console.terminalOnDisplay
      registerProcess memory terminalPcb (readField memory pcb .processNum)
        (firstFree 0 (activeProcesses memory terminalPcb) 4)
    else memory
  let memory := writeField memory pcb .parentTerminal k.console.terminalOnDisplay
  ({ k with memory, processNumber := wrap32 (k.processNumber + 1) }, pcb)

/-- The state in which `sys_execute` tests the first bytes of the file. -/
structure Candidate where
  kernel : Kernel
  fd : Int
  tempBuffer : Buffer

/-- The new block becomes the current one, and the file is opened through its descriptors. -/
def prepare (k : Kernel) (processName : List UInt8) (tempBuffer : Buffer) : Candidate :=
  let (k, pcb) := k.createPcb
  let (fd, k) := { k with currentPcb := pcb }.fileOpen (some processName)
  let (_, after, k) := k.fileRead fd (some tempBuffer) 40
  ⟨k, fd, after.getD tempBuffer⟩

def magicNum : Buffer := cString [0x7f, 0x45, 0x4c, 0x46]

def Candidate.isExecutable (candidate : Candidate) : Bool :=
  strncmp candidate.tempBuffer magicNum 4 = 0

/-- The failure path closes the descriptor and steps the process number back. -/
def abandon (candidate : Candidate) : Kernel :=
  let k := (candidate.kernel.fileClose candidate.fd).2
  let processNumber := wrap32 (k.processNumber - 1)
  { k with processNumber, currentPcb := stackTop processNumber }

/-- This function stores bytes at virtual addresses of the mapped user frame. -/
def storeUser (k : Kernel) (start count : Nat) (content : Buffer) : Kernel :=
  let frame := (upperAddress (k.pageTables.pageDirectory 32)).toNat
  { k with userMemory :=
      Function.update k.userMemory frame ((k.userMemory frame).overlay start count content) }

/-- The rest of the file follows the 40 bytes that were read first. -/
def loadProgram (k : Kernel) (fd : Int) (tempBuffer : Buffer) : Kernel :=
  let k := k.storeUser fileImage 40 tempBuffer
  let (results, loaded, k) := k.fileRead fd (some fun _ => 0) fourMb
  let k := k.storeUser (fileImage + 40) results.toNat (loaded.getD fun _ => 0)
  (k.fileClose fd).2

/-- The entry point is the little-endian word at offset 24. -/
def entryPoint (tempBuffer : Buffer) : Nat := Memory.load32 tempBuffer 24

/-- The loop copies the text to the arguments of the block and over whatever follows them. -/
def copyArguments (candidate : Candidate) (locals : Locals) (text : List UInt8) : Candidate :=
  let start := candidate.kernel.currentPcb + argumentsOffset
  { candidate with
    kernel := { candidate.kernel with memory := candidate.kernel.memory.storeBytes start text }
    tempBuffer := locals.overrun candidate.tempBuffer start text }

/-- The program is loaded behind the header in the buffer, and the context switch is prepared. -/
def enterProgram (candidate : Candidate) : Int × Kernel :=
  let k := candidate.kernel
  let k := { k with pageTables := systemCallPaging k.pageTables (k.current .processNum) }
  let k := k.loadProgram candidate.fd candidate.tempBuffer
  let k := { k with esp0 := stackTop (k.current .processNum), ss0 := kernelDs }
  let k := if k.processNumber < k.recoverNum then { k with processNumber := k.recoverNum } else k
  (signed32 (entryPoint candidate.tempBuffer), k)

/-- The success path returns unless the arguments run over the other locals. -/
def launch (candidate : Candidate) (locals : Locals) (text : List UInt8) : Option (Int × Kernel) :=
  if locals.Spared (candidate.kernel.currentPcb + argumentsOffset) text.length then
    some (enterProgram (copyArguments candidate locals text))
  else none

def sysExecute (k : Kernel) (command : Command) (locals : Locals) : Option (Int × Kernel) :=
  match command with
  | none => some (-1, k)
  | some [] => none
  | some (first :: rest) =>
      if first = 0 ∨ 6 ≤ k.processNumber then some (-1, k)
      else
        (firstWord (first :: rest) (maxCommandLen - 1)).bind fun (processName, tail) =>
          let candidate := k.prepare processName locals.tempBuffer
          if candidate.isExecutable then (copiedText tail.tail).bind (launch candidate locals)
          else some (-1, abandon candidate)

def saveEsp (k : Kernel) (registerEsp : Nat) : Kernel := k.setCurrent .esp (wrap32 (registerEsp + 4))

def restoreEsp (k : Kernel) : Nat := k.current .esp

/-- The wrapper takes every result other than -1 for an entry point. -/
def systemExecute (k : Kernel) (command : Command) (locals : Locals) (registerEsp : Nat) :
    Option (Int × Kernel) :=
  (k.sysExecute command locals).map fun (result, k) =>
    if result = -1 then (-1, k) else (result, k.saveEsp registerEsp)

/-- One turn of the loop closes one descriptor and clears its flag. -/
def closeDescriptor (k : Kernel) (fd : Nat) : Option Kernel :=
  let closed :=
    if k.current (.fileArray fd .flags) = 1 ∧ k.current (.fileArray fd .closeOp) ≠ 0 then
      (k.callClose (k.current (.fileArray fd .closeOp)) fd).map Prod.snd
    else some k
  closed.map fun k => k.setCurrent (.fileArray fd .flags) 0

def closeDescriptors (k : Kernel) : Option Kernel :=
  (List.range fileArrayLen).foldlM closeDescriptor k

/-- The last used entry of the table gives the process number and is cleared. -/
def leaveTerminal (k : Kernel) (terminalPcb : Nat) : Kernel :=
  match lastUsed 0 (activeProcesses k.memory terminalPcb) 4 with
  | some index =>
      { k with
        processNumber := activeProcesses k.memory terminalPcb index
        memory := writeField (writeField k.memory terminalPcb (.activeProcesses index) 0) terminalPcb
          (.terminalDisplays index) 0 }
  | none => { k with processNumber := 3 }

/-- The block below the new process number becomes the current one. -/
def resume (k : Kernel) : Kernel :=
  let k := { k with currentPcb := stackTop k.processNumber }
  let k := { k with esp0 := stackTop (k.current .processNum), ss0 := kernelDs }
  { k with pageTables := systemCallPaging k.pageTables (k.current .processNum) }

def sysHalt (k : Kernel) : Option (Int × Kernel) :=
  if k.processNumber ≤ 2 then some (-1, k)
  else
    k.closeDescriptors.map fun k =>
      (0, (k.leaveTerminal (pcbAddress (k.current .parentTerminal))).resume)

def checkProcessNum (k : Kernel) : Nat :=
  match lastUsed 0 (activeProcesses k.memory (pcbAddress k.console.terminalOnDisplay)) 4 with
  | some _ => k.processNumber
  | none => k.console.terminalOnDisplay

/-- The bytes of the string literal "shell", followed by what the linker placed after it. -/
def shellLiteral (literalTail : List UInt8) : Command :=
  some ([115, 104, 101, 108, 108, 0] ++ literalTail)

/-- The base shell of the terminal on display is started again. -/
def startFirstShell (k : Kernel) (literalTail : List UInt8) (locals : Locals)
    (registerEsp : Nat) : Option (Int × Kernel) :=
  systemExecute { k with
    currentPcb := 0
    recoverNum := k.processNumber
    processNumber := k.console.terminalOnDisplay } (shellLiteral literalTail) locals registerEsp

/-- The comparison with three decides between `sys_halt` and a base-shell restart. -/
def haltsDirectly (k : Kernel) : Bool := 3 < signed32 k.checkProcessNum

/-- A restart that fails returns into the frame of `start_first_shell` on the wrong stack. -/
def systemHalt (k : Kernel) (literalTail : List UInt8) (locals : Locals) (registerEsp : Nat) :
    Option Kernel :=
  if k.haltsDirectly then k.sysHalt.map Prod.snd
  else
    (k.startFirstShell literalTail locals registerEsp).bind fun (result, k) =>
      if result = -1 then none else some k

def sysRead (k : Kernel) (fd : Int) (buf : Option Buffer) (nbytes : Int) (waited : Waited) :
    Option (Int × Option Buffer × Kernel) :=
  match buf with
  | none => some (-1, none, k)
  | some buf =>
      if fd < 0 ∨ fileArrayLen ≤ fd ∨ k.current (.fileArray fd.toNat .flags) = 0 then
        some (-1, some buf, k)
      else
        (k.callRead (k.current (.fileArray fd.toNat .readOp)) fd buf nbytes waited).map
          fun (result, buf, k) => (result, some buf, k)

def sysWrite (k : Kernel) (fd : Int) (buf : Option Buffer) (nbytes : Int) : Option (Int × Kernel) :=
  match buf with
  | none => some (-1, k)
  | some buf =>
      if fd < 0 ∨ fileArrayLen ≤ fd ∨ k.current (.fileArray fd.toNat .flags) = 0 then some (-1, k)
      else k.callWrite (k.current (.fileArray fd.toNat .writeOp)) buf nbytes

/-- The four operations of a file type; another type has none. -/
def operationsOf : Nat → Option (Operation × Operation × Operation × Operation)
  | 0 => some (.rtcRead, .rtcWrite, .rtcOpen, .rtcClose)
  | 1 => some (.directoryRead, .directoryWrite, .directoryOpen, .directoryClose)
  | 2 => some (.fileRead, .fileWrite, .fileOpen, .fileClose)
  | _ => none

def setOperations (k : Kernel) (fd : Nat) (fileType : Nat) : Kernel :=
  match operationsOf fileType with
  | none => k
  | some (readOp, writeOp, openOp, closeOp) =>
      (((k.setCurrent (.fileArray fd .readOp) (k.symbols.address readOp)).setCurrent
        (.fileArray fd .writeOp) (k.symbols.address writeOp)).setCurrent
        (.fileArray fd .openOp) (k.symbols.address openOp)).setCurrent
        (.fileArray fd .closeOp) (k.symbols.address closeOp)

def sysOpen (k : Kernel) (filename : Option (List UInt8)) : Int × Kernel :=
  match k.fileSystem.readDentryByName filename with
  | none => (-1, k)
  | some dentry =>
      match k.freeDescriptor 2 with
      | none => (-1, k)
      | some fd =>
          let k := k.setCurrent (.fileArray fd .inode) dentry.inodeNum
          let k := k.setCurrent (.fileArray fd .position) 0
          let k := k.setCurrent (.fileArray fd .flags) 1
          let k := k.setOperations fd dentry.fileType
          let k := if dentry.fileType = 0 then { k with rtc := k.rtc.rtcOpen.2 } else k
          (fd, k)

/-- The upper bound admits the descriptor just past the table. -/
def sysClose (k : Kernel) (fd : Int) : Option (Int × Kernel) :=
  if fd < 2 ∨ fileArrayLen < fd ∨ k.current (.fileArray fd.toNat .flags) = 0 then some (-1, k)
  else k.callClose (k.current (.fileArray fd.toNat .closeOp)) fd

/-- The index of an argument byte is computed in 32 bits. -/
def argumentByte (k : Kernel) (index : Nat) : UInt8 :=
  k.memory (wrap32 (k.currentPcb + argumentsOffset + wrap32 index))

/-- The loop copies argument bytes up to the terminator. -/
def getargsLoop (k : Kernel) (argPosition : Nat) : Nat → Nat → Buffer → Nat × Buffer
  | 0, bytesRead, buf => (bytesRead, buf)
  | remaining + 1, bytesRead, buf =>
      let byte := k.argumentByte (argPosition + bytesRead)
      if byte = 0 then (bytesRead, buf)
      else k.getargsLoop argPosition remaining (bytesRead + 1) (Function.update buf bytesRead byte)

def sysGetargs (k : Kernel) (buf : Buffer) (nbytes : Int) : Int × Buffer × Kernel :=
  let argPosition := k.current .argPosition
  let (bytesRead, buf) := k.getargsLoop argPosition nbytes.toNat 0 buf
  let buf := Function.update buf bytesRead 0
  (if bytesRead = 0 then -1 else 0, buf, k.setCurrent .argPosition (wrap32 (argPosition + bytesRead)))

def vidmapAddress : Nat := mb128 + fourMb

/-- The bytes behind the user page fall in the video page, which the call has just mapped. -/
def storeScreenStart (k : Kernel) (screenStart : Nat) : Kernel :=
  let byte (index : Nat) : UInt8 := UInt8.ofNat (vidmapAddress / 256 ^ index)
  let inside := min 4 (vidmapAddress - screenStart)
  let k := k.storeUser screenStart inside byte
  { k with console := { k.console with
      video := k.console.video.overlay videoMemory (4 - inside) fun index => byte (inside + index) } }

/-- The upper bound admits the address just past the user page. -/
def sysVidmap (k : Kernel) (screenStart : Nat) : Int × Kernel :=
  if screenStart = 0 ∨ screenStart < mb128 ∨ mb128 + fourMb < screenStart then (-1, k)
  else
    let k := { k with pageTables := systemCallVidmap k.pageTables }
    (vidmapAddress, k.storeScreenStart screenStart)

end Kernel

end OrcaOS
