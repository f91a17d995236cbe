import OrcaOS.Foundation.Stream
import OrcaOS.Proof.Frame
import OrcaOS.Specification.File

/-!
The readers of the image deliver the bytes of the file.
-/

namespace OrcaOS
open Foundation

namespace FileSystem
variable {fs : FileSystem}

/-- The byte that the read loop finds at one offset of a file. -/
def fileByte (fs : FileSystem) (inode index : Nat) : UInt8 :=
  fs.memory (fs.dataBlock (fs.blockNumber inode (index / blockSize)) + index % blockSize)

namespace InodesWellFormed
variable {inode : Nat}

/-- The address of a used data block does not wrap. -/
theorem dataBlock_eq (wellFormed : fs.InodesWellFormed) (member : inode < fs.numOfInodes) {index : Nat}
    (inside : index < fs.lengthOfData inode) :
    fs.dataBlock (fs.blockNumber inode (index / blockSize)) =
      fs.dataBlockStart + fs.blockNumber inode (index / blockSize) * blockSize := by
  have first : index / blockSize * blockSize ≤ index := Nat.div_mul_le_self index blockSize
  have small := wellFormed.block inode member (index / blockSize) (by omega)
  have room : (fs.blockNumber inode (index / blockSize) + 1) * blockSize ≤
      fs.numOfDataBlocks * blockSize := Nat.mul_le_mul_right blockSize small
  have layout := wellFormed.layout
  have size : 0 < blockSize := by decide
  rw [Nat.succ_mul] at room
  rw [dataBlock, ← Nat.cast_mul, ← Nat.cast_add]
  exact wrap32_natCast (by omega)

/-- The read loop finds the bytes of the file. -/
theorem fileBytes_eq (wellFormed : fs.InodesWellFormed) (member : inode < fs.numOfInodes) :
    fs.fileBytes inode = (List.range (fs.lengthOfData inode)).map (fs.fileByte inode) := by
  have fits := wellFormed.length inode member
  rw [fileBytes, Stream.flatMap_blocks, ← List.map_take, List.take_range, Nat.min_eq_left fits]
  apply List.map_congr_left
  intro index inside
  rw [blockByte, fileByte, wellFormed.dataBlock_eq member (List.mem_range.mp inside)]

theorem length_fileBytes (wellFormed : fs.InodesWellFormed) (member : inode < fs.numOfInodes) :
    (fs.fileBytes inode).length = fs.lengthOfData inode := by
  rw [wellFormed.fileBytes_eq member, List.length_map, List.length_range]

theorem lengthOfData_lt (wellFormed : fs.InodesWellFormed) (member : inode < fs.numOfInodes) :
    fs.lengthOfData inode < 2147483648 :=
  Nat.lt_of_le_of_lt (wellFormed.length inode member) (by decide)

end InodesWellFormed

/-- At the end of a block the next byte is the first one of the next block. -/
theorem nextByte_of_end {position : Nat} (ended : blockSize ≤ position % blockSize + 1) :
    (position + 1) % blockSize = 0 ∧ (position + 1) / blockSize = position / blockSize + 1 := by
  unfold blockSize at *
  omega

theorem nextByte_of_room {position : Nat} (room : ¬blockSize ≤ position % blockSize + 1) :
    (position + 1) % blockSize = position % blockSize + 1 ∧
      (position + 1) / blockSize = position / blockSize := by
  unfold blockSize at *
  omega

/-- The loop copies bytes of the file until it has enough of them or the file ends. -/
theorem readLoop_eq (fs : FileSystem) {inode offset : Nat} (fits : fs.lengthOfData inode < 4294967296)
    (remaining bytesRead : Nat) (buf : Buffer) (inside : offset + bytesRead ≤ fs.lengthOfData inode) :
    fs.readLoop offset (fs.lengthOfData inode) remaining bytesRead ((offset + bytesRead) % blockSize)
        (fs.inodeAddress inode + 4 + 4 * ((offset + bytesRead) / blockSize))
        (fs.dataBlock (fs.blockNumber inode ((offset + bytesRead) / blockSize))) buf =
      (bytesRead + min remaining (fs.lengthOfData inode - (offset + bytesRead)),
        Memory.overlay buf bytesRead (min remaining (fs.lengthOfData inode - (offset + bytesRead)))
          fun index => fs.fileByte inode (offset + bytesRead + index)) := by
  induction remaining generalizing bytesRead buf with
  | zero =>
      rw [readLoop, Nat.zero_min]
      congr 1
      funext address
      rw [Memory.overlay_outside _ _ _ _ (by omega)]
  | succ remaining ih =>
      have position : wrap32 (offset + bytesRead) = offset + bytesRead := by
        rw [← Nat.cast_add]
        exact wrap32_natCast (by omega)
      rw [readLoop, position]
      by_cases ended : fs.lengthOfData inode ≤ offset + bytesRead
      · rw [if_pos ended, Nat.sub_eq_zero_of_le ended, Nat.min_zero]
        congr 1
        funext address
        rw [Memory.overlay_outside _ _ _ _ (by omega)]
      · rw [if_neg ended]
        have later := ih (bytesRead + 1)
          (Function.update buf bytesRead (fs.fileByte inode (offset + bytesRead))) (by omega)
        have following : offset + (bytesRead + 1) = offset + bytesRead + 1 := rfl
        rw [following] at later
        have count : min (remaining + 1) (fs.lengthOfData inode - (offset + bytesRead)) =
            min remaining (fs.lengthOfData inode - (offset + bytesRead + 1)) + 1 := by omega
        have total : bytesRead + 1 + min remaining (fs.lengthOfData inode - (offset + bytesRead + 1)) =
            bytesRead + (min remaining (fs.lengthOfData inode - (offset + bytesRead + 1)) + 1) := by
          omega
        have bytes : (fun index => fs.fileByte inode (offset + bytesRead + 1 + index)) =
            fun index => fs.fileByte inode (offset + bytesRead + (index + 1)) := by
          funext index
          congr 1
          omega
        rw [count, Memory.overlay_succ, ← total, ← bytes]
        dsimp only
        rw [Nat.add_zero (offset + bytesRead), ← later]
        by_cases turn : blockSize ≤ (offset + bytesRead) % blockSize + 1
        · -- The loop moves on to the next block number of the inode.
          obtain ⟨start, next⟩ := nextByte_of_end turn
          have pointer : fs.inodeAddress inode + 4 + 4 * ((offset + bytesRead) / blockSize + 1) =
              fs.inodeAddress inode + 4 + 4 * ((offset + bytesRead) / blockSize) + 4 := by omega
          rw [if_pos turn, start, next, blockNumber, pointer]
          rfl
        · obtain ⟨start, next⟩ := nextByte_of_room turn
          rw [if_neg turn, start, next]
          rfl

/-- The bytes of a file that lie at the position are copied to the start of the buffer. -/
theorem InodesWellFormed.readData_eq {inode : Nat} (wellFormed : fs.InodesWellFormed) (member : inode < fs.numOfInodes)
    {position : Nat} (fits : position < 4294967296) (buf : Buffer) (count : Nat) :
    fs.readData inode position (some buf) count =
      (((Stream.deliver (fs.fileBytes inode) position count).length : Int),
        some (Memory.storeBytes buf 0 (Stream.deliver (fs.fileBytes inode) position count))) := by
  have small := wellFormed.lengthOfData_lt member
  have length := wellFormed.length_fileBytes member
  have delivered := Stream.length_deliver (fs.fileBytes inode) position count
  rw [length] at delivered
  rw [readData, if_neg (Nat.not_le.mpr member)]
  by_cases inside : position ≤ fs.lengthOfData inode
  · have loop := fs.readLoop_eq (by omega) count 0 buf inside
    rw [Nat.add_zero, Nat.zero_add, ← delivered] at loop
    have copied (index : Nat) (within : index < (Stream.deliver (fs.fileBytes inode) position count).length) :
        fs.fileByte inode (position + index) =
          (Stream.deliver (fs.fileBytes inode) position count).getD index 0 := by
      rw [List.getD_eq_getElem _ _ within]
      simp only [Stream.deliver, wellFormed.fileBytes_eq member, List.getElem_take, List.getElem_drop,
        List.getElem_map, List.getElem_range]
    have block : fs.dataBlock (fs.memory.load32 (fs.inodeAddress inode + 4 + 4 * (position / blockSize))) =
        fs.dataBlock (fs.blockNumber inode (position / blockSize)) := rfl
    dsimp only
    rw [block, loop]
    dsimp only
    rw [signed32_of_small (by omega), Memory.storeBytes, Memory.overlay_congr _ _ _ copied]
  · have nothing : Stream.deliver (fs.fileBytes inode) position count = [] :=
      Stream.deliver_of_end (by omega) count
    have ended (currentByte inodeBlockPtr dataBlockPtr : Nat) : fs.readLoop position
        (fs.lengthOfData inode) count 0 currentByte inodeBlockPtr dataBlockPtr buf = (0, buf) := by
      cases count with
      | zero => rfl
      | succ count =>
          rw [readLoop, if_pos]
          rw [Nat.cast_zero, Int.add_zero, wrap32_natCast fits]
          omega
    dsimp only
    rw [ended, nothing, Memory.storeBytes, List.length_nil, Memory.overlay_zero]
    rfl

/-- A read from the start delivers the first bytes that the loop finds. -/
theorem readData_start {inode : Nat} (member : inode < fs.numOfInodes) (buf : Buffer) (count : Nat) :
    fs.readData inode 0 (some buf) count = (signed32 (min count (fs.lengthOfData inode)),
      some (Memory.storeBytes buf 0 ((List.range (min count (fs.lengthOfData inode))).map (fs.fileByte inode)))) := by
  have loop := @readLoop_eq fs inode 0 (Memory.load32_lt _ _) count 0 buf (Nat.zero_le _)
  simp only [Nat.zero_add, Nat.zero_mod, Nat.zero_div, Nat.mul_zero, Nat.add_zero, Nat.sub_zero] at loop
  have block : fs.dataBlock (fs.memory.load32 (fs.inodeAddress inode + 4 + 4 * 0)) =
      fs.dataBlock (fs.blockNumber inode 0) := rfl
  rw [readData, if_neg (Nat.not_le.mpr member)]
  dsimp only
  rw [Nat.zero_div, Nat.zero_mod, block, Nat.mul_zero, Nat.add_zero, loop]
  dsimp only
  congr 2
  rw [Memory.storeBytes, List.length_map, List.length_range]
  apply Memory.overlay_congr
  intro index inside
  rw [List.getD_eq_getElem _ _ (by rwa [List.length_map, List.length_range]), List.getElem_map, List.getElem_range]

theorem readData_of_missing {inode : Nat} (missing : fs.numOfInodes ≤ inode) (position : Nat)
    (buf : Buffer) (count : Nat) : fs.readData inode position (some buf) count = (-1, some buf) := by
  rw [readData, if_pos missing]

end FileSystem

/-- The descriptor is open on a file, at the given position. -/
structure OpenOnFile (k : Kernel) (fd inode position : Nat) : Prop where
  inside : fd < 8
  wellFormed : k.fileSystem.InodesWellFormed
  member : inode < k.fileSystem.numOfInodes
  inode : k.current (.fileArray fd .inode) = inode
  position : k.current (.fileArray fd .position) = position

namespace OpenOnFile
variable {k : Kernel} {fd inode position : Nat}

theorem position_lt (file : OpenOnFile k fd inode position) : position < 4294967296 := by
  rw [← file.position]
  exact readField_lt _ _ _

/-- A position that fits in a word may be stored. -/
theorem setPosition (file : OpenOnFile k fd inode position) {next : Nat} (fits : next < 4294967296) :
    OpenOnFile (k.setCurrent (.fileArray fd .position) next) fd inode next where
  inside := file.inside
  wellFormed := file.wellFormed
  member := file.member
  inode := by
    have other : PcbField.fileArray fd .inode ≠ .fileArray fd .position := by simp
    rw [k.current_setCurrent_of_ne next other file.inside file.inside]
    exact file.inode
  position := k.current_setCurrent _ fits

theorem advance_lt (file : OpenOnFile k fd inode position) {count : Nat} (small : count < 2147483648) :
    Stream.advance (k.fileSystem.fileBytes inode) position count < 4294967296 := by
  have short := file.wellFormed.lengthOfData_lt file.member
  have delivered := Stream.length_deliver (k.fileSystem.fileBytes inode) position count
  rw [file.wellFormed.length_fileBytes file.member] at delivered
  rw [Stream.advance, file.wellFormed.length_fileBytes file.member]
  split <;> omega

/-- A read delivers bytes of the file and moves the position as the stream does. -/
theorem fileRead_eq (file : OpenOnFile k fd inode position) (buf : Buffer) {count : Nat}
    (small : count < 2147483648) :
    k.fileRead fd (some buf) count =
      (((Stream.deliver (k.fileSystem.fileBytes inode) position count).length : Int),
        some (Memory.storeBytes buf 0 (Stream.deliver (k.fileSystem.fileBytes inode) position count)),
        k.setCurrent (.fileArray fd .position)
          (Stream.advance (k.fileSystem.fileBytes inode) position count)) := by
  have inside := file.inside
  have length := file.wellFormed.length_fileBytes file.member
  have request : wrap32 count = count := wrap32_natCast (by omega)
  have fits := file.advance_lt small
  rw [Kernel.fileRead, if_neg (by simp; omega), Int.toNat_natCast, file.inode, file.position, request]
  dsimp only
  rw [file.wellFormed.readData_eq file.member file.position_lt]
  dsimp only
  rw [if_neg (by omega)]
  unfold Stream.advance at fits ⊢
  by_cases nothing : (Stream.deliver (k.fileSystem.fileBytes inode) position count).length = 0
  · rw [if_pos (by omega), if_pos nothing, length, nothing]
    rfl
  · rw [if_neg nothing] at fits ⊢
    rw [if_neg (by omega), ← Nat.cast_add, wrap32_natCast fits]

end OpenOnFile

end OrcaOS
