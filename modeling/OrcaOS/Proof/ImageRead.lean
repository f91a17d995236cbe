import OrcaOS.Proof.BootSequence
import OrcaOS.Proof.FileRead
import OrcaOS.Specification.Image

/-!
The file system that the kernel mounts reads the files of the image.
-/

namespace OrcaOS
open Foundation

namespace Image
variable {image : Image} {inode : Nat}

@[simp] theorem mount_numOfDataBlocks (image : Image) : image.mount.numOfDataBlocks = image.dataBlocks := rfl

namespace FilesWellFormed

/-- The inode area of a well-formed image does not wrap when it holds an inode. -/
theorem inodeAddress_eq (wellFormed : image.FilesWellFormed) (member : inode < image.inodes) :
    image.mount.inodeAddress inode = image.inodeBlock inode := by
  have layout := wellFormed.layout
  have start : image.mount.inodeBlockStart = image.start + blockSize := by
    change wrap32 ((image.start : Int) + (blockSize : Int)) = _
    rw [← Nat.cast_add]
    apply wrap32_natCast
    unfold blockSize at *
    omega
  rw [FileSystem.inodeAddress, start, inodeBlock]
  ring

theorem lengthOfData_eq (wellFormed : image.FilesWellFormed) (member : inode < image.inodes) :
    image.mount.lengthOfData inode = image.fileLength inode := by
  rw [FileSystem.lengthOfData, wellFormed.inodeAddress_eq member]
  rfl

theorem blockNumber_eq (wellFormed : image.FilesWellFormed) (member : inode < image.inodes) (block : Nat) :
    image.mount.blockNumber inode block = image.blockNumber inode block := by
  rw [FileSystem.blockNumber, wellFormed.inodeAddress_eq member]
  rfl

/-- The data area does not wrap when it holds a block. -/
theorem dataBlockStart_eq (wellFormed : image.FilesWellFormed) (positive : 0 < image.dataBlocks) :
    image.mount.dataBlockStart = image.start + (1 + image.inodes) * blockSize := by
  have layout := wellFormed.layout
  have count : signed32 image.inodes = image.inodes := signed32_of_small (by
    unfold blockSize at layout
    omega)
  have start : wrap32 ((image.start : Int) + (blockSize : Int)) = image.start + blockSize := by
    rw [← Nat.cast_add]
    apply wrap32_natCast
    unfold blockSize at *
    omega
  change wrap32 ((wrap32 ((image.start : Int) + (blockSize : Int)) : Int) +
    signed32 image.inodes * (blockSize : Int)) = _
  rw [start, count, ← Nat.cast_mul, ← Nat.cast_add, wrap32_natCast]
  · ring
  · unfold blockSize at *
    omega

/-- Without a data block no file has a byte. -/
theorem dataBlocks_pos (wellFormed : image.FilesWellFormed) (member : inode < image.inodes)
    (nonempty : 0 < image.fileLength inode) : 0 < image.dataBlocks :=
  Nat.zero_lt_of_lt (wellFormed.block inode member 0 (by rwa [Nat.zero_mul]))

theorem inodesWellFormed (wellFormed : image.FilesWellFormed) : image.mount.InodesWellFormed where
  layout := by
    obtain none | positive := Nat.eq_zero_or_pos image.dataBlocks
    · rw [mount_numOfDataBlocks, none, Nat.zero_mul, Nat.add_zero]
      exact Nat.le_of_lt (wrap32_lt _)
    · have layout := wellFormed.layout
      rw [wellFormed.dataBlockStart_eq positive, mount_numOfDataBlocks]
      unfold blockSize at *
      omega
  length := by
    intro inode member
    rw [wellFormed.lengthOfData_eq member]
    exact wellFormed.length inode member
  block := by
    intro inode member block
    rw [wellFormed.lengthOfData_eq member, wellFormed.blockNumber_eq member]
    exact wellFormed.block inode member block

/-- The mounted file system holds the files of the image. -/
theorem fileBytes_eq (wellFormed : image.FilesWellFormed) (member : inode < image.inodes) :
    image.mount.fileBytes inode = image.contents inode := by
  obtain empty | nonempty := Nat.eq_zero_or_pos (image.fileLength inode)
  · rw [FileSystem.fileBytes, contents, wellFormed.lengthOfData_eq member, empty, List.take_zero,
      List.take_zero]
  · have start := wellFormed.dataBlockStart_eq (wellFormed.dataBlocks_pos member nonempty)
    have blocks (number : Nat) : (List.range blockSize).map (image.mount.blockByte number) =
        image.blockContents number := by
      have address : image.start + (1 + image.inodes) * blockSize + number * blockSize =
          image.start + (1 + image.inodes + number) * blockSize := by ring
      unfold FileSystem.blockByte blockContents
      rw [start, address]
      rfl
    simp only [FileSystem.fileBytes, contents, wellFormed.lengthOfData_eq member,
      wellFormed.blockNumber_eq member, blocks]

theorem length_contents (wellFormed : image.FilesWellFormed) (member : inode < image.inodes) :
    (image.contents inode).length = image.fileLength inode := by
  rw [← wellFormed.fileBytes_eq member, wellFormed.inodesWellFormed.length_fileBytes member,
    wellFormed.lengthOfData_eq member]

end FilesWellFormed

end Image

section Sample

/-- The image that the sample kernel mounts. -/
def mountedImage : Image := ⟨sampleImage, 0x420000⟩

theorem mountedImage_words : mountedImage.inodes = 1 ∧ mountedImage.dataBlocks = 1 ∧
    mountedImage.fileLength 0 = 40 ∧ mountedImage.blockNumber 0 0 = 0 := by decide +kernel

theorem mountedImage_filesWellFormed : mountedImage.FilesWellFormed := by
  obtain ⟨inodes, dataBlocks, length, first⟩ := mountedImage_words
  constructor
  · rw [inodes, dataBlocks]
    decide
  · intro inode member
    obtain rfl : inode = 0 := by omega
    rw [length]
    decide
  · intro inode member block inside
    obtain rfl : inode = 0 := by omega
    obtain rfl : block = 0 := by
      rw [length, blockSize] at inside
      omega
    rw [first, dataBlocks]
    decide

theorem sampleKernel_fileSystem : sampleKernel.fileSystem = mountedImage.mount := rfl

end Sample

end OrcaOS
