import OrcaOS.Construction.Paging
import OrcaOS.Construction.ProcessBlock
import OrcaOS.Construction.Rtc

/-!
The state of the kernel and the descriptor operations of the file drivers.
-/

namespace OrcaOS
open Foundation

/-- The functions whose addresses the kernel stores in descriptors. -/
inductive Operation where
  | noRead | noWrite | terminalRead | terminalWrite | terminalOpen | terminalClose
  | rtcRead | rtcWrite | rtcOpen | rtcClose
  | directoryRead | directoryWrite | directoryOpen | directoryClose
  | fileRead | fileWrite | fileOpen | fileClose
  deriving DecidableEq, Repr

def Operation.all : List Operation :=
  [.noRead, .noWrite, .terminalRead, .terminalWrite, .terminalOpen, .terminalClose,
    .rtcRead, .rtcWrite, .rtcOpen, .rtcClose,
    .directoryRead, .directoryWrite, .directoryOpen, .directoryClose,
    .fileRead, .fileWrite, .fileOpen, .fileClose]

/-- The linker gives each function its own address, and none of them is null. -/
structure Symbols where
  address : Operation → Nat
  injective : Function.Injective address
  positive : ∀ operation, 0 < address operation
  fits : ∀ operation, address operation < 4294967296

/-- This function finds the function that lies at an address. -/
def Symbols.resolve (symbols : Symbols) (address : Nat) : Option Operation :=
  Operation.all.find? fun operation => symbols.address operation = address

/-- The state that the system calls read and write. -/
structure Kernel where
  symbols : Symbols
  fileSystem : FileSystem
  /-- The slots below `EIGHT_MB`, with their control blocks and kernel stacks. -/
  memory : Memory
  processNumber : Nat
  currentPcb : Nat
  recoverNum : Nat
  pageTables : PageTables
  esp0 : Nat
  ss0 : Nat
  /-- The bytes at each virtual address while entry 32 of the directory maps the given frame. -/
  userMemory : Nat → Memory
  console : Console
  rtc : Rtc
  executeCounter : Nat
  terminalInitFlag : Nat
  terminalCounter : Nat

namespace Kernel

/-- This function reads a field of the current control block. -/
def current (k : Kernel) (field : PcbField) : Nat := readField k.memory k.currentPcb field

/-- This function writes a field of the current control block. -/
def setCurrent (k : Kernel) (field : PcbField) (word : Nat) : Kernel :=
  { k with memory := writeField k.memory k.currentPcb field word }

/-- File descriptors of an open call are claimed in ascending order from `first`. -/
def freeDescriptor (k : Kernel) (first : Nat) : Option Nat :=
  (List.range fileArrayLen).find? fun fd =>
    first ≤ fd ∧ k.current (.fileArray fd .flags) = 0

def fileOpen (k : Kernel) (filename : Option (List UInt8)) : Int × Kernel :=
  match k.fileSystem.readDentryByName filename with
  | none => (-1, k)
  | some dentry =>
      match k.freeDescriptor 0 with
      | none => (-1, k)
      | some fd =>
          (fd, ((k.setCurrent (.fileArray fd .flags) 1).setCurrent
            (.fileArray fd .inode) dentry.inodeNum).setCurrent (.fileArray fd .position) 0)

def fileClose (k : Kernel) (fd : Int) : Int × Kernel :=
  if fd < 0 ∨ 7 < fd then (-1, k)
  else if k.current (.fileArray fd.toNat .flags) = 1 then
    (0, ((k.setCurrent (.fileArray fd.toNat .inode) 0).setCurrent
      (.fileArray fd.toNat .position) 0).setCurrent (.fileArray fd.toNat .flags) 0)
  else (-1, k)

/-- A read that delivers nothing moves the position to the end of the file. -/
def fileRead (k : Kernel) (fd : Int) (buf : Option Buffer) (nbytes : Int) :
    Int × Option Buffer × Kernel :=
  if buf = none ∨ fd < 0 ∨ 7 < fd then (-1, buf, k)
  else
    let inode := k.current (.fileArray fd.toNat .inode)
    let position := k.current (.fileArray fd.toNat .position)
    let (results, buf) := k.fileSystem.readData inode position buf (wrap32 nbytes)
    if results = -1 then (-1, buf, k)
    else if results = 0 then
      (0, buf, k.setCurrent (.fileArray fd.toNat .position) (k.fileSystem.lengthOfData inode))
    else (results, buf, k.setCurrent (.fileArray fd.toNat .position) (wrap32 (position + nbytes)))

def fileWrite : Int := -1

/-- The position counts 32 bytes for each entry that was read whole. -/
def directoryRead (k : Kernel) (fd : Int) (buf : Option Buffer) (nbytes : Int) :
    Int × Option Buffer × Kernel :=
  match buf with
  | none => (-1, none, k)
  | some buf =>
      if fd < 0 ∨ 7 < fd then (-1, some buf, k)
      else
        let numBytes := if 32 < nbytes then 32 else nbytes
        let position := k.current (.fileArray fd.toNat .position)
        let currentFileIndex := position / 32
        if currentFileIndex = k.fileSystem.numOfEntries then (0, some buf, k)
        else
          match k.fileSystem.readDentryByIndex currentFileIndex with
          | none => (-1, some buf, k)
          | some dentry =>
              let name := dentry.fileName.take numBytes.toNat
              (name.countP (· ≠ 0),
                some fun index => if index < numBytes.toNat then name.getD index 0 else buf index,
                k.setCurrent (.fileArray fd.toNat .position) (wrap32 (position + numBytes)))

def directoryWrite : Int := -1

def directoryClose (k : Kernel) (fd : Int) : Int × Kernel :=
  if fd < 0 ∨ 7 < fd then (-1, k)
  else (0, (k.setCurrent (.fileArray fd.toNat .position) 0).setCurrent (.fileArray fd.toNat .flags) 0)

def noRead : Int := -1
def noWrite : Int := -1

/-- A call through a close pointer passes the descriptor only. A function that does not use its arguments is called
as well; for one that needs a pointer or further arguments, or that waits for an interrupt, the result is `none`. -/
def callClose (k : Kernel) (address : Nat) (fd : Int) : Option (Int × Kernel) :=
  match k.symbols.resolve address with
  | some .terminalClose =>
      let (result, console) := k.console.terminalClose
      some (result, { k with console })
  | some .rtcClose =>
      let (result, rtc) := k.rtc.rtcClose
      some (result, { k with rtc })
  | some .directoryClose => some (k.directoryClose fd)
  | some .fileClose => some (k.fileClose fd)
  | some .terminalOpen =>
      let (result, console) := k.console.terminalOpen
      some (result, { k with console })
  | some .rtcOpen =>
      let (result, rtc) := k.rtc.rtcOpen
      some (result, { k with rtc })
  | some .noRead => some (noRead, k)
  | some .noWrite => some (noWrite, k)
  | some .directoryWrite => some (directoryWrite, k)
  | some .fileWrite => some (fileWrite, k)
  | _ => none

/-- The device state that the interrupts leave when a blocking read may continue. -/
structure Waited where
  console : Console
  rtc : Rtc

/-- A call through a read pointer fails when no read function lies at the address. -/
def callRead (k : Kernel) (address : Nat) (fd : Int) (buf : Buffer) (nbytes : Int) (waited : Waited) :
    Option (Int × Buffer × Kernel) :=
  match k.symbols.resolve address with
  | some .noRead => some (noRead, buf, k)
  | some .terminalRead =>
      let (result, buf, console) := waited.console.terminalRead buf nbytes
      some (result, buf, { k with console, rtc := waited.rtc })
  | some .rtcRead =>
      let (result, rtc) := waited.rtc.rtcRead
      some (result, buf, { k with rtc, console := waited.console })
  | some .directoryRead =>
      let (result, after, k) := k.directoryRead fd (some buf) nbytes
      some (result, after.getD buf, k)
  | some .fileRead =>
      let (result, after, k) := k.fileRead fd (some buf) nbytes
      some (result, after.getD buf, k)
  | _ => none

/-- A call through a write pointer fails when no write function lies at the address. -/
def callWrite (k : Kernel) (address : Nat) (buf : Buffer) (nbytes : Int) : Option (Int × Kernel) :=
  match k.symbols.resolve address with
  | some .noWrite => some (noWrite, k)
  | some .terminalWrite =>
      let (result, console) := k.console.terminalWrite buf nbytes
      some (result, { k with console })
  | some .rtcWrite =>
      let (result, rtc) := k.rtc.rtcWrite k.console.terminalOnDisplay (some buf)
      some (result, { k with rtc })
  | some .directoryWrite => some (directoryWrite, k)
  | some .fileWrite => some (fileWrite, k)
  | _ => none

end Kernel

end OrcaOS
