import OrcaOS.Foundation.Traced
import OrcaOS.Construction.SystemCall
import OrcaOS.Specification.Image

/-!
The loads that `read_data` makes in the image: its readers are repeated with every load recorded.
-/

namespace OrcaOS
open Foundation

/-- A load of a word of an inode or of one byte of a data block. -/
inductive ImageLoad where
  | inodeWord (address : Nat)
  | dataByte (address : Nat)

namespace FileSystem

def loadInodeWord (fs : FileSystem) (address : Nat) : Traced ImageLoad Nat :=
  .access (.inodeWord address) (fs.memory.load32 address)

def loadDataByte (fs : FileSystem) (address : Nat) : Traced ImageLoad UInt8 :=
  .access (.dataByte address) (fs.memory address)

/-- The read loop, with the loads that it makes. -/
def tracedLoop (fs : FileSystem) (offset lengthOfData : Nat) :
    (remaining bytesRead currentByte inodeBlockPtr dataBlockPtr : Nat) → Buffer → Traced ImageLoad (Nat × Buffer)
  | 0, bytesRead, _, _, _, buf => pure (bytesRead, buf)
  | remaining + 1, bytesRead, currentByte, inodeBlockPtr, dataBlockPtr, buf =>
      if lengthOfData ≤ wrap32 (offset + bytesRead) then pure (bytesRead, buf)
      else do
        let byte ← fs.loadDataByte (dataBlockPtr + currentByte)
        let buf := Function.update buf bytesRead byte
        if blockSize ≤ currentByte + 1 then do
          let blockNum ← fs.loadInodeWord (inodeBlockPtr + 4)
          fs.tracedLoop offset lengthOfData remaining (bytesRead + 1) 0 (inodeBlockPtr + 4) (fs.dataBlock blockNum) buf
        else
          fs.tracedLoop offset lengthOfData remaining (bytesRead + 1) (currentByte + 1) inodeBlockPtr dataBlockPtr buf

/-- The length of the file and the first block number are loaded before the loop. -/
def tracedReadData (fs : FileSystem) (inode offset : Nat) (buf : Option Buffer) (length : Nat) :
    Traced ImageLoad (Int × Option Buffer) :=
  match buf with
  | none => pure (-1, none)
  | some buf =>
      if fs.numOfInodes ≤ inode then pure (-1, some buf)
      else do
        let lengthOfData ← fs.loadInodeWord (fs.inodeAddress inode)
        let inodeBlockPtr := fs.inodeAddress inode + 4 + 4 * (offset / blockSize)
        let blockNum ← fs.loadInodeWord inodeBlockPtr
        let (bytesRead, buf) ← fs.tracedLoop offset lengthOfData length 0 (offset % blockSize) inodeBlockPtr
          (fs.dataBlock blockNum) buf
        pure (signed32 bytesRead, some buf)

end FileSystem

/-- The processor finds a page for each byte of a load. -/
def ImageLoad.Mapped (tables : PageTables) : ImageLoad → Prop
  | .inodeWord address => ∀ offset < 4, (tables.translate (BitVec.ofNat 32 (address + offset))).isSome
  | .dataByte address => (tables.translate (BitVec.ofNat 32 address)).isSome

instance (tables : PageTables) : DecidablePred (ImageLoad.Mapped tables)
  | .inodeWord address =>
      inferInstanceAs (Decidable (∀ offset < 4, (tables.translate (BitVec.ofNat 32 (address + offset))).isSome))
  | .dataByte address => inferInstanceAs (Decidable (tables.translate (BitVec.ofNat 32 address)).isSome)

/-- A call of `read_data` that ends in a page fault when one of its loads finds no page. -/
def FileSystem.pagedReadData (fs : FileSystem) (tables : PageTables) (inode offset : Nat) (buf : Option Buffer)
    (length : Nat) : Option (Int × Option Buffer) :=
  let run := fs.loadInodeWord (fs.bootBlockStart + 4) >>= fun _ => fs.tracedReadData inode offset buf length
  if ∀ load ∈ run.accesses, load.Mapped tables then some run.value else none

/-- A call returns the number of bytes that the file has at the offset and copies these bytes only. Behind
the last inode it returns -1. -/
structure Image.Delivers (image : Image) (inode offset length : Nat) (buf : Buffer)
    (outcome : Option (Int × Option Buffer)) : Prop where
  member : inode < image.inodes → ∃ after,
    outcome = some (((min length (image.fileLength inode - offset) : Nat) : Int), some after) ∧
    (∀ index < min length (image.fileLength inode - offset),
      (image.contents inode)[offset + index]? = some (after index)) ∧
    ∀ index, min length (image.fileLength inode - offset) ≤ index → after index = buf index
  missing : image.inodes ≤ inode → outcome = some (-1, some buf)

/-- A well-formed image in the 8 MB that `page_init` maps for the kernel. -/
structure Image.Resident (image : Image) : Prop extends image.FilesWellFormed where
  resident : image.start + (1 + image.inodes + image.dataBlocks) * blockSize ≤ eightMb

/-- The arguments of a call of `sys_read`, and the devices when it returns. The count is not negative. -/
structure ReadCall where
  buf : Option Buffer
  nbytes : Nat
  waited : Kernel.Waited
  fits : nbytes < 2147483648

namespace Kernel

def tracedFileRead (k : Kernel) (fd : Int) (buf : Option Buffer) (nbytes : Int) :
    Traced ImageLoad (Int × Option Buffer × Kernel) :=
  if buf = none ∨ fd < 0 ∨ 7 < fd then pure (-1, buf, k)
  else do
    let inode := k.current (.fileArray fd.toNat .inode)
    let position := k.current (.fileArray fd.toNat .position)
    let (results, buf) ← k.fileSystem.tracedReadData inode position buf (wrap32 nbytes)
    pure <|
      if results = -1 then (-1, buf, k)
      else if results = 0 then
        (0, buf, k.setCurrent (.fileArray fd.toNat .position) (k.fileSystem.lengthOfData inode))
      else (results, buf, k.setCurrent (.fileArray fd.toNat .position) (wrap32 (position + nbytes)))

/-- This function makes consecutive calls of `file_read` on one descriptor. -/
def tracedFileReads (fd : Nat) : Kernel → List (Nat × Buffer) → Traced ImageLoad (List ReadOutcome)
  | _, [] => pure []
  | k, (request, before) :: rest => do
      let (result, after, k) ← k.tracedFileRead fd (some before) request
      let outcomes ← tracedFileReads fd k rest
      pure (⟨request, result, before, after.getD before⟩ :: outcomes)

/-- The calls end in a page fault when one of their loads finds no page. -/
def pagedFileReads (k : Kernel) (tables : PageTables) (fd : Nat) (requests : List (Nat × Buffer)) :
    Option (List ReadOutcome) :=
  let run := k.fileSystem.loadInodeWord (k.fileSystem.bootBlockStart + 4) >>= fun _ => k.tracedFileReads fd requests
  if ∀ load ∈ run.accesses, load.Mapped tables then some run.value else none

/-- Only `file_read` calls `read_data`. -/
def tracedSysRead (k : Kernel) (fd : Int) (call : ReadCall) :
    Traced ImageLoad (Option (Int × Option Buffer × Kernel)) :=
  match call.buf with
  | none => pure (some (-1, none, k))
  | some buf =>
      if fd < 0 ∨ fileArrayLen ≤ fd ∨ k.current (.fileArray fd.toNat .flags) = 0 then
        pure (some (-1, some buf, k))
      else if k.symbols.resolve (k.current (.fileArray fd.toNat .readOp)) = some .fileRead then do
        let (result, after, k) ← k.tracedFileRead fd (some buf) call.nbytes
        pure (some (result, some (after.getD buf), k))
      else
        pure ((k.callRead (k.current (.fileArray fd.toNat .readOp)) fd buf call.nbytes call.waited).map
          fun (result, buf, k) => (result, some buf, k))

/-- This function makes consecutive calls of `sys_read` on one descriptor. -/
def tracedReads (fd : Int) : Kernel → List ReadCall → Traced ImageLoad (Option Kernel)
  | k, [] => pure (some k)
  | k, call :: rest => do
      match ← k.tracedSysRead fd call with
      | none => pure none
      | some (_, _, k) => tracedReads fd k rest

end Kernel

/-- A load of an inode word stays in the block of the inode, and a load of a data byte in a block that
the inode lists for its file. -/
def Image.OwnLoad (image : Image) (inode : Nat) : ImageLoad → Prop
  | .inodeWord address => Memory.window address 4 ⊆ Memory.window (image.inodeBlock inode) blockSize
  | .dataByte address => ∃ block, block * blockSize < image.fileLength inode ∧
      address ∈ Memory.window (image.start + (1 + image.inodes + image.blockNumber inode block) * blockSize) blockSize

/-- The capacity of an inode in bytes. -/
def inodeCapacity : Nat := inodeBlocks * blockSize

/-- No read starts at or behind the capacity, and none reads a file of that length to its end. -/
def ReadsInside (length : Nat) : Nat → List Nat → Prop
  | _, [] => True
  | position, count :: rest =>
      position < inodeCapacity ∧ (length = inodeCapacity → position + count < inodeCapacity) ∧
        ReadsInside length (if length ≤ position ∨ count = 0 then length else position + count) rest

/-- Each read starts at a position whose block number, counted from the block of the inode, ends in the first 8 MB. -/
def ReadsMapped (inodeBlock length : Nat) : Nat → List Nat → Prop
  | _, [] => True
  | position, count :: rest =>
      inodeBlock + 4 * (position / blockSize) + 8 ≤ eightMb ∧
        ReadsMapped inodeBlock length (if length ≤ position ∨ count = 0 then length else position + count) rest

/-- The counts of the calls that pass a buffer. -/
def readCounts (calls : List ReadCall) : List Nat := calls.filterMap fun call => call.buf.map fun _ => call.nbytes

end OrcaOS
