import OrcaOS.Construction.Kernel

/-!
What the file-system image stores: a file is the concatenation of the data blocks that its inode
lists, cut to its length.
-/

namespace OrcaOS
open Foundation

/-- An inode holds its length and this many block numbers. -/
def inodeBlocks : Nat := 1023

namespace FileSystem
variable (fs : FileSystem)

/-- The third word of the boot block counts the data blocks. -/
def numOfDataBlocks : Nat := fs.memory.load32 (fs.bootBlockStart + 8)

/-- An inode lists the number of each of its data blocks. -/
def blockNumber (inode block : Nat) : Nat := fs.memory.load32 (fs.inodeAddress inode + 4 + 4 * block)

/-- One byte of a data block. -/
def blockByte (blockNum index : Nat) : UInt8 :=
  fs.memory (fs.dataBlockStart + blockNum * blockSize + index)

/-- The file is read through the blocks in the order of its inode. -/
def fileBytes (inode : Nat) : List UInt8 :=
  ((List.range inodeBlocks).flatMap fun block =>
    (List.range blockSize).map (fs.blockByte (fs.blockNumber inode block))).take (fs.lengthOfData inode)

/-- Each file fits in its inode, and its blocks lie in the data area. -/
structure InodesWellFormed : Prop where
  layout : fs.dataBlockStart + fs.numOfDataBlocks * blockSize ≤ 4294967296
  length : ∀ inode < fs.numOfInodes, fs.lengthOfData inode ≤ inodeBlocks * blockSize
  block : ∀ inode < fs.numOfInodes, ∀ block, block * blockSize < fs.lengthOfData inode →
    fs.blockNumber inode block < fs.numOfDataBlocks

end FileSystem

/-- One call of `file_read` with its buffer before and after. -/
structure ReadOutcome where
  request : Nat
  result : Int
  before : Buffer
  after : Buffer

/-- The bytes that a call delivers stand at the start of its buffer. -/
def ReadOutcome.delivered (outcome : ReadOutcome) : List UInt8 :=
  (List.range outcome.result.toNat).map outcome.after

/-- The call returns the number of bytes that it delivers and keeps the rest of its buffer. -/
def ReadOutcome.Counted (outcome : ReadOutcome) : Prop :=
  0 ≤ outcome.result ∧
    ∀ index : Nat, outcome.result ≤ index → outcome.after index = outcome.before index

/-- Consecutive calls lose and repeat nothing of the contents. -/
structure ReadsInOrder (contents : List UInt8) (outcomes : List ReadOutcome) : Prop where
  content : outcomes.flatMap ReadOutcome.delivered =
    contents.take (min (outcomes.map ReadOutcome.request).sum contents.length)
  counted : ∀ outcome ∈ outcomes, outcome.Counted
  ended : ∀ earlier later, outcomes = earlier ++ later →
    contents.length ≤ (earlier.flatMap ReadOutcome.delivered).length →
    ∀ outcome ∈ later, outcome.result = 0

end OrcaOS
