import OrcaOS.Foundation.Memory

/-!
The file-system image and its readers in `filesystems.c`.
-/

namespace OrcaOS
open Foundation

/-- A buffer is the memory that a C pointer reaches, indexed from the pointer. The buffer of a caller
is taken to lie apart from the control blocks and the image. -/
abbrev Buffer := Nat → UInt8

/-- A C string is followed by its terminator. -/
def cString (characters : List UInt8) : Buffer := fun index => characters.getD index 0

/-- The characters are signed, so their difference may be negative. -/
def signed8 (byte : UInt8) : Int := byte.toInt8.toInt

/-- The comparison stops at the first difference or at the end of the first string. -/
def strncmpFrom (first second : Buffer) : Nat → Nat → Int
  | 0, _ => 0
  | remaining + 1, index =>
      if first index ≠ second index ∨ first index = 0 then signed8 (first index) - signed8 (second index)
      else strncmpFrom first second remaining (index + 1)

def strncmp (first second : Buffer) (n : Nat) : Int := strncmpFrom first second n 0

def blockSize : Nat := 4096

/-- The three pointers that `fileSystem_init` stores, and the memory that holds the image. -/
structure FileSystem where
  memory : Memory
  bootBlockStart : Nat
  inodeBlockStart : Nat
  dataBlockStart : Nat

def fileSystemInit (memory : Memory) (fsStart : Nat) : FileSystem :=
  let inodeBlockStart := wrap32 (fsStart + blockSize)
  let numOfInodes := signed32 (memory.load32 (fsStart + 4))
  { memory, bootBlockStart := fsStart, inodeBlockStart
    dataBlockStart := wrap32 (inodeBlockStart + numOfInodes * blockSize) }

structure Dentry where
  fileName : List UInt8
  fileType : Nat
  inodeNum : Nat
  reserved : List UInt8
  deriving DecidableEq, Repr

namespace FileSystem

def numOfEntries (fs : FileSystem) : Nat := fs.memory.load32 fs.bootBlockStart
def numOfInodes (fs : FileSystem) : Nat := fs.memory.load32 (fs.bootBlockStart + 4)

/-- The directory entries follow the first 64 bytes of the boot block. -/
def entryAddress (fs : FileSystem) (index : Nat) : Nat := fs.bootBlockStart + 64 + 64 * index

/-- This function copies one directory entry. -/
def dentryAt (fs : FileSystem) (address : Nat) : Dentry where
  fileName := (List.range 32).map fun index => fs.memory (address + index)
  fileType := fs.memory.load32 (address + 32)
  inodeNum := fs.memory.load32 (address + 36)
  reserved := (List.range 24).map fun index => fs.memory (address + 40 + index)

/-- The result is `none` where the C function returns -1. The length counter has 8 bits. -/
def readDentryByName (fs : FileSystem) (fname : Option (List UInt8)) : Option Dentry :=
  match fname with
  | none => none
  | some fname =>
      let counter := fname.length % 256
      if 32 < counter then none
      else
        let matching := (List.range (signed32 fs.numOfEntries).toNat).find? fun index =>
          strncmp (cString fname) (fun offset => fs.memory (fs.entryAddress index + offset)) 31 = 0
        matching.map fun index => fs.dentryAt (fs.entryAddress index)

/-- The same call with the entry behind its second pointer, which a failed search leaves unchanged. -/
def readDentryByNameInto (fs : FileSystem) (fname : Option (List UInt8)) (dentry : Option Dentry) :
    Int × Option Dentry :=
  match dentry, fs.readDentryByName fname with
  | some _, some found => (0, some found)
  | dentry, _ => (-1, dentry)

/-- The index is compared with the number of entries as an unsigned word. -/
def readDentryByIndex (fs : FileSystem) (index : Nat) : Option Dentry :=
  if fs.numOfEntries ≤ index then none else some (fs.dentryAt (fs.entryAddress index))

def inodeAddress (fs : FileSystem) (inode : Nat) : Nat := fs.inodeBlockStart + inode * blockSize

/-- The first word of an inode is the length of its file. -/
def lengthOfData (fs : FileSystem) (inode : Nat) : Nat := fs.memory.load32 (fs.inodeAddress inode)

def dataBlock (fs : FileSystem) (blockNum : Nat) : Nat :=
  wrap32 (fs.dataBlockStart + blockNum * blockSize)

/-- One turn of the loop copies one byte and moves to the next block at the end of a block. -/
def readLoop (fs : FileSystem) (offset lengthOfData : Nat) :
    (remaining bytesRead currentByte inodeBlockPtr dataBlockPtr : Nat) → Buffer → Nat × Buffer
  | 0, bytesRead, _, _, _, buf => (bytesRead, buf)
  | remaining + 1, bytesRead, currentByte, inodeBlockPtr, dataBlockPtr, buf =>
      if lengthOfData ≤ wrap32 (offset + bytesRead) then (bytesRead, buf)
      else
        let buf := Function.update buf bytesRead (fs.memory (dataBlockPtr + currentByte))
        if blockSize ≤ currentByte + 1 then
          fs.readLoop offset lengthOfData remaining (bytesRead + 1) 0 (inodeBlockPtr + 4)
            (fs.dataBlock (fs.memory.load32 (inodeBlockPtr + 4))) buf
        else
          fs.readLoop offset lengthOfData remaining (bytesRead + 1) (currentByte + 1) inodeBlockPtr
            dataBlockPtr buf

/-- The result is the return value and the buffer after the call. Each load is taken to find its page,
which `pagedReadData` checks. -/
def readData (fs : FileSystem) (inode offset : Nat) (buf : Option Buffer) (length : Nat) :
    Int × Option Buffer :=
  match buf with
  | none => (-1, none)
  | some buf =>
      if fs.numOfInodes ≤ inode then (-1, some buf)
      else
        let inodeBlockPtr := fs.inodeAddress inode + 4 + 4 * (offset / blockSize)
        let dataBlockPtr := fs.dataBlock (fs.memory.load32 inodeBlockPtr)
        let (bytesRead, buf) := fs.readLoop offset (fs.lengthOfData inode) length 0
          (offset % blockSize) inodeBlockPtr dataBlockPtr buf
        (signed32 bytesRead, some buf)

end FileSystem

end OrcaOS
