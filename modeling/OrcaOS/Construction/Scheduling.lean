import OrcaOS.Construction.SystemCall
import OrcaOS.Foundation.Run

/-!
The boot sequence of `kernel.c` and `scheduling.c`, and the events of a running system.
-/

namespace OrcaOS
open Foundation

namespace Kernel

def schedulingInit (k : Kernel) : Kernel :=
  { k with
    executeCounter := 0
    terminalInitFlag := 0
    console := { k.console with terminalOnDisplay := 0 }
    terminalCounter := 0 }

def switchTerminal (k : Kernel) (terminal : Int) : Kernel :=
  { k with console := k.console.switchTerminal terminal }

/-- The first three ticks start a base shell each, and the fourth shows the first terminal. -/
def scheduler (k : Kernel) (literalTail : List UInt8) (locals : Locals) (registerEsp : Nat) :
    Option Kernel :=
  if k.terminalInitFlag = 0 ∧ k.executeCounter < 3 then
    let k :=
      if 0 < k.executeCounter then
        { k.switchTerminal k.executeCounter with terminalCounter := k.terminalCounter + 1 }
      else k
    let k := { k with executeCounter := k.executeCounter + 1 }
    let k := { k with console := k.console.clear.setPos 0 0 }
    (k.systemExecute (shellLiteral literalTail) locals registerEsp).map Prod.snd
  else if k.executeCounter < 4 then
    some { k.switchTerminal 0 with executeCounter := k.executeCounter + 1 }
  else some k

/-- The search starts one entry past the array, at `terminal_displays[0]`. -/
def saveRegistersEsp (k : Kernel) (registerEsp : Nat) : Kernel :=
  let tempPcb := pcbAddress k.terminalCounter
  let newPcb :=
    match lastUsed 0 (activeProcesses k.memory tempPcb) 5 with
    | some index => pcbAddress (activeProcesses k.memory tempPcb index)
    | none => pcbAddress k.terminalCounter
  { k with memory := writeField k.memory newPcb .schedulingEsp registerEsp }

def restoreRegisterEsp (k : Kernel) : Nat :=
  let tempPcb := pcbAddress k.terminalCounter
  let newPcb :=
    match lastUsed 0 (activeProcesses k.memory tempPcb) 4 with
    | some index => pcbAddress (activeProcesses k.memory tempPcb index)
    | none => pcbAddress k.terminalCounter
  readField k.memory newPcb .schedulingEsp

/-- A search that finds nothing ends at index -1, where `scheduling_esp` lies. -/
def restoreRegisterEspTerminal (k : Kernel) : Nat :=
  let tempPcb := pcbAddress k.console.terminalOnDisplay
  let newPcb :=
    match lastUsed 0 (activeProcesses k.memory tempPcb) 4 with
    | some index => pcbAddress (activeProcesses k.memory tempPcb index)
    | none => pcbAddress (readField k.memory tempPcb .schedulingEsp)
  readField k.memory newPcb .schedulingEsp

/-- What the linker, the boot loader and the devices leave before the kernel starts. -/
structure Machine where
  symbols : Symbols
  frames : TableFrames
  memory : Memory
  image : Memory
  fsStart : Nat
  video : Memory
  registerA : UInt8
  registerB : UInt8

/-- The state when the kernel enables interrupts; uninitialized variables are zero. -/
def entry (machine : Machine) : Kernel :=
  let console : Console := {
    video := machine.video, screenX := 0, screenY := 0, savedX := fun _ => 0, savedY := fun _ => 0
    terminalOnDisplay := 0, hardwareCursor := 0, terminalBuffer := fun _ _ => 0
    terminalBufferIdxs := fun _ => 0, enter := false, lineRunOverFlag := false }
  let rtc : Rtc := {
    registerA := machine.registerA, registerB := machine.registerB, interruptFlag := false
    virtualizationCounter := 0, frequencyDivisionRate := fun _ => 0 }
  schedulingInit (sysCallsInit {
    symbols := machine.symbols
    fileSystem := fileSystemInit machine.image machine.fsStart
    memory := machine.memory
    processNumber := 0, currentPcb := 0, recoverNum := 0
    pageTables := pageInit (.zero machine.frames)
    esp0 := eightMb, ss0 := kernelDs
    userMemory := fun _ _ => 0
    console := console.cursorInit
    rtc := rtc.rtcInit
    executeCounter := 0, terminalInitFlag := 0, terminalCounter := 0 })

/-- Four timer ticks after the entry all three shells wait and the first terminal is on display. -/
def boot (machine : Machine) (literalTail : List UInt8) (locals : Locals) (registerEsp : Nat) :
    Option Kernel :=
  (List.range 4).foldlM (fun k _ => k.scheduler literalTail locals registerEsp) (entry machine)

/-- An event is a completed system call of the running process or a terminal switch. -/
inductive Event where
  | execute (command : Command) (locals : Locals) (registerEsp : Nat)
  | halt (literalTail : List UInt8) (locals : Locals) (registerEsp : Nat)
  | switchTerminal (terminal : Int)
  | vidmap (screenStart : Nat)

def step (k : Kernel) : Event → Option Kernel
  | .execute command locals registerEsp =>
      (k.systemExecute command locals registerEsp).map Prod.snd
  | .halt literalTail locals registerEsp => k.systemHalt literalTail locals registerEsp
  | .switchTerminal terminal => some (k.switchTerminal terminal)
  | .vidmap screenStart => some (k.sysVidmap screenStart).2

end Kernel

end OrcaOS
