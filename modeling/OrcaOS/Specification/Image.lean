import OrcaOS.Specification.File

/-!
The file-system image as it lies in memory: one boot block with the directory, then one block for
each inode, then the data blocks.
-/

namespace OrcaOS
open Foundation

/-- An image starts at an address of the memory. -/
structure Image where
  memory : Memory
  start : Nat

namespace Image
variable (image : Image)

def entries : Nat := image.memory.load32 image.start
def inodes : Nat := image.memory.load32 (image.start + 4)
def dataBlocks : Nat := image.memory.load32 (image.start + 8)

/-- The inode blocks follow the boot block. -/
def inodeBlock (inode : Nat) : Nat := image.start + (1 + inode) * blockSize

def fileLength (inode : Nat) : Nat := image.memory.load32 (image.inodeBlock inode)

def blockNumber (inode block : Nat) : Nat :=
  image.memory.load32 (image.inodeBlock inode + 4 + 4 * block)

/-- The data blocks follow the last inode block. -/
def blockContents (number : Nat) : List UInt8 :=
  (List.range blockSize).map fun index =>
    image.memory (image.start + (1 + image.inodes + number) * blockSize + index)

/-- A file is the concatenation of the blocks that its inode lists, cut to its length. -/
def contents (inode : Nat) : List UInt8 :=
  ((List.range inodeBlocks).flatMap fun block =>
    image.blockContents (image.blockNumber inode block)).take (image.fileLength inode)

/-- The image fits in the address space, each file in its inode and its blocks in the data area. -/
structure FilesWellFormed : Prop where
  layout : image.start + (1 + image.inodes + image.dataBlocks) * blockSize ≤ 4294967296
  length : ∀ inode < image.inodes, image.fileLength inode ≤ inodeBlocks * blockSize
  block : ∀ inode < image.inodes, ∀ block, block * blockSize < image.fileLength inode →
    image.blockNumber inode block < image.dataBlocks

/-- The directory entries follow the first 64 bytes of the boot block. -/
def entryBlock (index : Nat) : Nat := image.start + 64 + 64 * index

/-- A name takes the 32 bytes of its entry or ends before the first zero byte. -/
def entryName (index : Nat) : List UInt8 :=
  ((List.range 32).map fun offset => image.memory (image.entryBlock index + offset)).takeWhile (· ≠ 0)

/-- The entries fit in the boot block, and each name has a character and is padded with zeros. -/
structure NamesWellFormed : Prop where
  count : image.entries ≤ 63
  named : ∀ index < image.entries, image.entryName index ≠ []
  padded : ∀ index < image.entries, ∀ offset < 32, (image.entryName index).length ≤ offset →
    image.memory (image.entryBlock index + offset) = 0

/-- The kernel finds the image at its start address. -/
def mount : FileSystem := fileSystemInit image.memory image.start

/-- The 64 bytes of a directory entry. -/
def entryAt (index : Nat) : Dentry := image.mount.dentryAt (image.entryBlock index)

/-- The first entry whose full name is `fname` is copied, and without one nothing is. -/
def lookup (fname : List UInt8) (dentry : Dentry) : Int × Option Dentry :=
  match (List.range image.entries).find? fun index => image.entryName index = fname with
  | some index => (0, some (image.entryAt index))
  | none => (-1, some dentry)

end Image

end OrcaOS
