import OrcaOS.Proof.SequentialReads
import OrcaOS.Specification.ImageLoads

/-!
Which reads of a file load only words of its own inode and bytes of its own blocks.
-/

namespace OrcaOS
open Foundation

section Values

namespace FileSystem
variable (fs : FileSystem)

/-- Recording the loads does not change what the loop computes. -/
theorem tracedLoop_value (offset lengthOfData remaining bytesRead currentByte inodeBlockPtr dataBlockPtr : Nat)
    (buf : Buffer) :
    (fs.tracedLoop offset lengthOfData remaining bytesRead currentByte inodeBlockPtr dataBlockPtr buf).value =
      fs.readLoop offset lengthOfData remaining bytesRead currentByte inodeBlockPtr dataBlockPtr buf := by
  induction remaining generalizing bytesRead currentByte inodeBlockPtr dataBlockPtr buf with
  | zero => rfl
  | succ remaining ih =>
      rw [tracedLoop, readLoop]
      split
      · rfl
      · dsimp only
        split
        · exact ih _ _ _ _ _
        · exact ih _ _ _ _ _

theorem tracedReadData_value (inode offset : Nat) (buf : Option Buffer) (length : Nat) :
    (fs.tracedReadData inode offset buf length).value = fs.readData inode offset buf length := by
  cases buf with
  | none => rfl
  | some buf =>
      rw [tracedReadData, readData]
      split
      · rfl
      · have loop := fs.tracedLoop_value offset (fs.lengthOfData inode) length 0 (offset % blockSize)
          (fs.inodeAddress inode + 4 + 4 * (offset / blockSize))
          (fs.dataBlock (fs.memory.load32 (fs.inodeAddress inode + 4 + 4 * (offset / blockSize)))) buf
        dsimp only
        rw [← loop]
        rfl

end FileSystem

namespace Kernel
variable (k : Kernel)

theorem tracedFileRead_value (fd : Int) (buf : Option Buffer) (nbytes : Int) :
    (k.tracedFileRead fd buf nbytes).value = k.fileRead fd buf nbytes := by
  rw [tracedFileRead, fileRead]
  split
  · rfl
  · dsimp only
    rw [← FileSystem.tracedReadData_value]
    rfl

theorem tracedFileReads_value (fd : Nat) (requests : List (Nat × Buffer)) :
    (k.tracedFileReads fd requests).value = k.fileReads fd requests := by
  induction requests generalizing k with
  | nil => rfl
  | cons first rest ih =>
      rw [tracedFileReads, fileReads, ← tracedFileRead_value]
      exact congrArg (_ :: ·) (ih _)

/-- The recorded calls are calls of `sys_read`. -/
theorem tracedSysRead_value (fd : Int) (call : ReadCall) :
    (k.tracedSysRead fd call).value = k.sysRead fd call.buf call.nbytes call.waited := by
  obtain ⟨buf, nbytes, waited, fits⟩ := call
  cases buf with
  | none => rfl
  | some buf =>
      dsimp only [tracedSysRead, sysRead]
      split
      · rfl
      · split
        · rename_i file
          simp only [callRead, file, Traced.value_bind, tracedFileRead_value]
          rfl
        · rfl

theorem tracedReads_value (fd : Int) (calls : List ReadCall) :
    (k.tracedReads fd calls).value =
      calls.foldlM (fun k call => (k.sysRead fd call.buf call.nbytes call.waited).map fun outcome => outcome.2.2) k := by
  induction calls generalizing k with
  | nil => rfl
  | cons call rest ih =>
      rw [tracedReads, List.foldlM_cons, ← tracedSysRead_value, Traced.value_bind]
      cases (k.tracedSysRead fd call).value with
      | none => rfl
      | some outcome => exact ih outcome.2.2

end Kernel

end Values

/-- The loads of a mounted file system that belong to the inode. -/
def FileSystem.OwnLoad (fs : FileSystem) (inode : Nat) : ImageLoad → Prop
  | .inodeWord address => Memory.window address 4 ⊆ Memory.window (fs.inodeAddress inode) blockSize
  | .dataByte address => ∃ block, block * blockSize < fs.lengthOfData inode ∧
      address ∈ Memory.window (fs.dataBlockStart + fs.blockNumber inode block * blockSize) blockSize

namespace FileSystem
variable {fs : FileSystem} {inode : Nat}

/-- A word belongs to the inode exactly when it lies within the first 4096 bytes from its address. -/
theorem ownWord_iff (fs : FileSystem) (inode offset : Nat) :
    fs.OwnLoad inode (.inodeWord (fs.inodeAddress inode + offset)) ↔ offset + 4 ≤ blockSize := by
  rw [OwnLoad, Memory.window, Memory.window, Set.Ico_subset_Ico_iff (by omega)]
  omega

/-- A byte of the file lies in one of its blocks. -/
theorem InodesWellFormed.ownByte (wellFormed : fs.InodesWellFormed) (member : inode < fs.numOfInodes) {index : Nat}
    (inside : index < fs.lengthOfData inode) :
    fs.OwnLoad inode (.dataByte (fs.dataBlock (fs.blockNumber inode (index / blockSize)) + index % blockSize)) := by
  have first : index / blockSize * blockSize ≤ index := Nat.div_mul_le_self index blockSize
  have offset : index % blockSize < blockSize := Nat.mod_lt _ (by decide)
  rw [wellFormed.dataBlock_eq member inside]
  exact ⟨index / blockSize, by omega, by omega, by omega⟩

/-- The loop leaves the inode exactly when it moves on from the last block that an inode can list. -/
theorem InodesWellFormed.tracedLoop_stays_iff (wellFormed : fs.InodesWellFormed) (member : inode < fs.numOfInodes)
    {offset : Nat} (remaining bytesRead : Nat) (buf : Buffer) (inside : offset + bytesRead ≤ fs.lengthOfData inode) :
    (fs.tracedLoop offset (fs.lengthOfData inode) remaining bytesRead ((offset + bytesRead) % blockSize)
        (fs.inodeAddress inode + 4 + 4 * ((offset + bytesRead) / blockSize))
        (fs.dataBlock (fs.blockNumber inode ((offset + bytesRead) / blockSize))) buf).Stays (fs.OwnLoad inode) ↔
      (fs.lengthOfData inode = inodeCapacity → offset + bytesRead < inodeCapacity →
        offset + bytesRead + remaining < inodeCapacity) := by
  have capacity : inodeCapacity = 4190208 := rfl
  have size : blockSize = 4096 := rfl
  have fits : fs.lengthOfData inode ≤ inodeCapacity := wellFormed.length inode member
  induction remaining generalizing bytesRead buf with
  | zero =>
      rw [tracedLoop]
      exact iff_of_true (Traced.stays_pure _) fun _ early => early
  | succ remaining ih =>
      have position : wrap32 (offset + bytesRead) = offset + bytesRead := by
        rw [← Nat.cast_add]
        exact wrap32_natCast (by omega)
      rw [tracedLoop, position]
      by_cases ended : fs.lengthOfData inode ≤ offset + bytesRead
      · rw [if_pos ended]
        exact iff_of_true (Traced.stays_pure _) fun full early => by omega
      · have byte := wellFormed.ownByte member (Nat.lt_of_not_le ended)
        have later := ih (bytesRead + 1)
          (Function.update buf bytesRead (fs.fileByte inode (offset + bytesRead))) (by omega)
        rw [← Nat.add_assoc] at later
        rw [if_neg ended, Traced.stays_bind, loadDataByte, Traced.stays_access, and_iff_right byte]
        dsimp only [Traced.value_access]
        by_cases turn : blockSize ≤ (offset + bytesRead) % blockSize + 1
        · -- The next block number is loaded although the file may have no further byte.
          obtain ⟨start, next⟩ := nextByte_of_end turn
          have pointer : fs.inodeAddress inode + 4 + 4 * ((offset + bytesRead) / blockSize) + 4 =
              fs.inodeAddress inode + (4 + 4 * ((offset + bytesRead) / blockSize + 1)) := by omega
          have table : fs.inodeAddress inode + (4 + 4 * ((offset + bytesRead) / blockSize + 1)) =
              fs.inodeAddress inode + 4 + 4 * ((offset + bytesRead) / blockSize + 1) := by omega
          rw [start, next] at later
          rw [if_pos turn, pointer, Traced.stays_bind, loadInodeWord, Traced.stays_access, ownWord_iff,
            Traced.value_access, table]
          refine Iff.trans (and_congr_right fun _ => later) ?_
          rw [size] at turn ⊢
          omega
        · obtain ⟨start, next⟩ := nextByte_of_room turn
          rw [start, next] at later
          rw [if_neg turn]
          refine later.trans ?_
          rw [size] at turn
          omega

/-- One call stays with its inode exactly when it starts below the capacity and, in a file of that
length, ends below it. -/
theorem InodesWellFormed.tracedReadData_stays_iff (wellFormed : fs.InodesWellFormed) (member : inode < fs.numOfInodes)
    {position : Nat} (small : position < 4294967296) (buf : Buffer) (count : Nat) :
    (fs.tracedReadData inode position (some buf) count).Stays (fs.OwnLoad inode) ↔
      position < inodeCapacity ∧ (fs.lengthOfData inode = inodeCapacity → position + count < inodeCapacity) := by
  have capacity : inodeCapacity = 4190208 := rfl
  have size : blockSize = 4096 := rfl
  have fits : fs.lengthOfData inode ≤ inodeCapacity := wellFormed.length inode member
  have first := fs.ownWord_iff inode 0
  have block := fs.ownWord_iff inode (4 + 4 * (position / blockSize))
  rw [Nat.add_zero] at first
  rw [← Nat.add_assoc] at block
  rw [tracedReadData, if_neg (Nat.not_le.mpr member)]
  simp only [loadInodeWord, Traced.stays_bind, Traced.stays_access, Traced.stays_pure, Traced.value_access, first,
    block, and_true]
  change _ ∧ _ ∧ (fs.tracedLoop position (fs.lengthOfData inode) count 0 (position % blockSize)
    (fs.inodeAddress inode + 4 + 4 * (position / blockSize))
    (fs.dataBlock (fs.blockNumber inode (position / blockSize))) buf).Stays (fs.OwnLoad inode) ↔ _
  by_cases inside : position ≤ fs.lengthOfData inode
  · have loop := wellFormed.tracedLoop_stays_iff member count 0 buf (show position + 0 ≤ _ from inside)
    rw [Nat.add_zero] at loop
    rw [loop, size]
    omega
  · have quiet : (fs.tracedLoop position (fs.lengthOfData inode) count 0 (position % blockSize)
        (fs.inodeAddress inode + 4 + 4 * (position / blockSize))
        (fs.dataBlock (fs.blockNumber inode (position / blockSize))) buf).Stays (fs.OwnLoad inode) := by
      cases count with
      | zero => exact Traced.stays_pure _
      | succ count =>
          rw [tracedLoop, Nat.cast_zero, Int.add_zero, wrap32_natCast small, if_pos (by omega)]
          exact Traced.stays_pure _
    rw [and_iff_left quiet, size]
    omega

end FileSystem

/-- The loads of `file_read` are those of `read_data`. -/
theorem OpenOnFile.tracedFileRead_stays_iff {k : Kernel} {fd inode position : Nat}
    (file : OpenOnFile k fd inode position) (allowed : ImageLoad → Prop) (buf : Buffer) {count : Nat}
    (small : count < 2147483648) : (k.tracedFileRead fd (some buf) count).Stays allowed ↔
      (k.fileSystem.tracedReadData inode position (some buf) count).Stays allowed := by
  have inside := file.inside
  have request : wrap32 count = count := wrap32_natCast (by omega)
  have guarded : ¬(some buf = none ∨ (fd : Int) < 0 ∨ 7 < (fd : Int)) := by
    simp
    omega
  rw [Kernel.tracedFileRead, if_neg guarded, Int.toNat_natCast, file.inode, file.position, request]
  dsimp only
  rw [Traced.stays_bind, and_iff_left (Traced.stays_pure _)]

/-- The descriptor belongs to an open regular file. -/
structure OpenRegular (k : Kernel) (fd inode position : Nat) : Prop extends OpenOnFile k fd inode position where
  used : k.current (.fileArray fd .flags) ≠ 0
  operation : k.current (.fileArray fd .readOp) = k.symbols.address .fileRead

namespace OpenRegular
variable {k : Kernel} {fd inode position : Nat}

theorem setPosition (file : OpenRegular k fd inode position) {next : Nat} (fits : next < 4294967296) :
    OpenRegular (k.setCurrent (.fileArray fd .position) next) fd inode next where
  toOpenOnFile := file.toOpenOnFile.setPosition fits
  used := by
    rw [k.current_setWord_of_ne file.inside next (by decide)]
    exact file.used
  operation := by
    rw [k.current_setWord_of_ne file.inside next (by decide)]
    exact file.operation

/-- A call with a buffer is one of `file_read`. -/
theorem tracedSysRead_eq (file : OpenRegular k fd inode position) {call : ReadCall} {buf : Buffer}
    (passed : call.buf = some buf) :
    k.tracedSysRead fd call = k.tracedFileRead fd (some buf) call.nbytes >>= fun outcome =>
      pure (some (outcome.1, some (outcome.2.1.getD buf), outcome.2.2)) := by
  have inside := file.inside
  have length : fileArrayLen = 8 := rfl
  have guarded : ¬((fd : Int) < 0 ∨ (fileArrayLen : Int) ≤ fd ∨ k.current (.fileArray fd .flags) = 0) := by
    have used := file.used
    omega
  have resolved : k.symbols.resolve (k.current (.fileArray fd .readOp)) = some .fileRead := by
    rw [file.operation, Symbols.resolve_address]
  obtain ⟨_, nbytes, waited, fits⟩ := call
  obtain rfl : _ = some buf := passed
  rw [Kernel.tracedSysRead]
  dsimp only [Int.toNat_natCast]
  rw [if_neg guarded, if_pos resolved]

/-- Its loads are those of `read_data`. -/
theorem tracedSysRead_stays_iff (file : OpenRegular k fd inode position) (allowed : ImageLoad → Prop) {call : ReadCall}
    {buf : Buffer} (passed : call.buf = some buf) :
    (k.tracedSysRead fd call).Stays allowed ↔
      (k.fileSystem.tracedReadData inode position (some buf) call.nbytes).Stays allowed := by
  rw [file.tracedSysRead_eq passed, Traced.stays_bind, and_iff_left (Traced.stays_pure _)]
  exact file.tracedFileRead_stays_iff allowed buf call.fits

/-- It moves the position as the stream does. -/
theorem tracedSysRead_value (file : OpenRegular k fd inode position) {call : ReadCall} {buf : Buffer}
    (passed : call.buf = some buf) : ∃ result after,
    (k.tracedSysRead fd call).value = some (result, after, k.setCurrent (.fileArray fd .position)
      (Stream.advance (k.fileSystem.fileBytes inode) position call.nbytes)) := by
  rw [file.tracedSysRead_eq passed, Traced.value_bind, Kernel.tracedFileRead_value, file.fileRead_eq buf call.fits]
  exact ⟨_, _, rfl⟩

end OpenRegular

/-- A call without a buffer reads nothing. -/
theorem Kernel.tracedSysRead_null (k : Kernel) (fd : Int) {call : ReadCall} (null : call.buf = none) :
    k.tracedSysRead fd call = pure (some (-1, none, k)) := by
  obtain ⟨_, nbytes, waited, fits⟩ := call
  obtain rfl : _ = none := null
  rfl

/-- The position after a read, by the length of the file. -/
theorem advance_eq (contents : List UInt8) (position count : Nat) :
    Stream.advance contents position count =
      if contents.length ≤ position ∨ count = 0 then contents.length else position + count := by
  have empty : (Stream.deliver contents position count).length = 0 ↔ contents.length ≤ position ∨ count = 0 := by
    rw [Stream.length_deliver]
    omega
  simp only [Stream.advance, empty]

/-- The reads of an open file stay with its inode exactly when all of them are inside its capacity. -/
theorem OpenRegular.tracedReads_stays_iff {k : Kernel} {fd inode position : Nat}
    (file : OpenRegular k fd inode position) (calls : List ReadCall) :
    (k.tracedReads fd calls).Stays (k.fileSystem.OwnLoad inode) ↔
      ReadsInside (k.fileSystem.lengthOfData inode) position (readCounts calls) := by
  have length := file.wellFormed.length_fileBytes file.member
  induction calls generalizing k position with
  | nil => exact iff_of_true (Traced.stays_pure _) trivial
  | cons call rest ih =>
      rw [Kernel.tracedReads, Traced.stays_bind]
      cases passed : call.buf with
      | none =>
          have counts : readCounts (call :: rest) = readCounts rest := by
            rw [readCounts, List.filterMap_cons, passed]
            rfl
          rw [k.tracedSysRead_null fd passed, and_iff_right (Traced.stays_pure _), counts]
          exact ih file length
      | some buf =>
          have counts : readCounts (call :: rest) = call.nbytes :: readCounts rest := by
            rw [readCounts, List.filterMap_cons, passed]
            rfl
          obtain ⟨result, after, value⟩ := file.tracedSysRead_value passed
          have later := ih (file.setPosition (file.advance_lt call.fits)) length
          rw [file.tracedSysRead_stays_iff _ passed,
            file.wellFormed.tracedReadData_stays_iff file.member file.position_lt, value, counts, ReadsInside, and_assoc]
          rw [advance_eq, length] at later
          rw [advance_eq, length]
          exact and_congr_right fun _ => and_congr_right fun _ => later

/-- A mounted image has its inodes and blocks where the file system finds them. -/
theorem Image.FilesWellFormed.ownLoad_iff {image : Image} (wellFormed : image.FilesWellFormed) {inode : Nat}
    (member : inode < image.inodes) (load : ImageLoad) :
    image.mount.OwnLoad inode load ↔ image.OwnLoad inode load := by
  cases load with
  | inodeWord address =>
      rw [FileSystem.OwnLoad, Image.OwnLoad, wellFormed.inodeAddress_eq member]
  | dataByte address =>
      rw [FileSystem.OwnLoad, Image.OwnLoad, wellFormed.lengthOfData_eq member]
      apply exists_congr
      intro block
      apply and_congr_right
      intro used
      have start := wellFormed.dataBlockStart_eq (wellFormed.dataBlocks_pos member (Nat.zero_lt_of_lt used))
      have block : image.start + (1 + image.inodes) * blockSize + image.blockNumber inode block * blockSize =
          image.start + (1 + image.inodes + image.blockNumber inode block) * blockSize := by ring
      rw [start, wellFormed.blockNumber_eq member, block]

theorem Image.FilesWellFormed.stays_own_iff {image : Image} (wellFormed : image.FilesWellFormed) {inode : Nat}
    (member : inode < image.inodes) {α : Type} (run : Traced ImageLoad α) :
    run.Stays (image.OwnLoad inode) ↔ run.Stays (image.mount.OwnLoad inode) :=
  forall₂_congr fun load _ => (wellFormed.ownLoad_iff member load).symm

/-- The reads of an open file load only words of its inode and bytes of its blocks exactly when none of them
starts at or behind the capacity of an inode, and none reads a file of that length to its end. -/
theorem file_loads_own_iff {image : Image} (wellFormed : image.FilesWellFormed) {k : Kernel} {fd inode position : Nat}
    (mounted : k.fileSystem = image.mount) (file : OpenRegular k fd inode position) (calls : List ReadCall) :
    (k.tracedReads fd calls).Stays (image.OwnLoad inode) ↔
      ReadsInside (image.fileLength inode) position (readCounts calls) := by
  have own := file.member
  rw [mounted] at own
  have exactly := file.tracedReads_stays_iff calls
  rw [mounted, wellFormed.lengthOfData_eq own] at exactly
  rw [wellFormed.stays_own_iff own]
  exact exactly

section Sample

theorem sampleReader_openRegular : OpenRegular sampleReader 2 0 0 := by
  have words : sampleReader.current (.fileArray 2 .flags) ≠ 0 ∧
      sampleReader.current (.fileArray 2 .readOp) = sampleReader.symbols.address .fileRead := by decide +kernel
  exact ⟨sampleReader_openOnFile, words.1, words.2⟩

/-- This function makes a call of `sys_read` that no device interrupts. -/
def sampleRead (nbytes : Nat) (fits : nbytes < 2147483648) : ReadCall where
  buf := some fun _ => 0
  nbytes := nbytes
  waited := ⟨sampleReader.console, sampleReader.rtc⟩
  fits := fits

/-- Reads of 16 and 100 bytes and one behind the end stay with the inode of the sample file. -/
theorem file_loads_own_iff_sample :
    (sampleReader.tracedReads 2 [sampleRead 16 (by decide), sampleRead 100 (by decide), sampleRead 8 (by decide)]).Stays
      (mountedImage.OwnLoad 0) := by
  apply (file_loads_own_iff mountedImage_filesWellFormed sampleReader_fileSystem sampleReader_openRegular _).mpr
  rw [mountedImage_words.2.2.1]
  change ReadsInside 40 0 [16, 100, 8]
  simp only [ReadsInside]
  decide

/-- A large request moves the position behind the capacity, and the next read loads a word behind the inode. -/
theorem file_loads_foreign : OpenRegular sampleReader 2 0 0 ∧ mountedImage.FilesWellFormed ∧
    sampleReader.fileSystem = mountedImage.mount ∧
    ¬(sampleReader.tracedReads 2 [sampleRead 4190208 (by decide), sampleRead 1 (by decide)]).Stays
      (mountedImage.OwnLoad 0) := by
  refine ⟨sampleReader_openRegular, mountedImage_filesWellFormed, sampleReader_fileSystem, ?_⟩
  obtain ⟨inodes, _, size, _⟩ := mountedImage_words
  have member : 0 < mountedImage.inodes := by omega
  have length : sampleReader.fileSystem.lengthOfData 0 = 40 := by
    rw [sampleReader_fileSystem, mountedImage_filesWellFormed.lengthOfData_eq member, size]
  rw [mountedImage_filesWellFormed.stays_own_iff member, ← sampleReader_fileSystem]
  intro stays
  have inside := (sampleReader_openRegular.tracedReads_stays_iff _).mp stays
  rw [length] at inside
  exact absurd inside.2.2.1 (by decide)

end Sample

end OrcaOS
