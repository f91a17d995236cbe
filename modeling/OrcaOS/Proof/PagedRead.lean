import OrcaOS.Proof.AddressSpace
import OrcaOS.Proof.ImageLoads

/-!
Which calls of `read_data` load only from the memory that is mapped for the kernel. The number of the
first data block is loaded before the end of the file is tested.
-/

namespace OrcaOS
open Foundation

section Pages
variable {frames : TableFrames} {grant : Grant} {tables : PageTables}

/-- Below the user page exactly the first 8 MB are mapped. -/
theorem TablesHold.translate_isSome_iff (hold : TablesHold frames grant tables) {address : Nat}
    (low : address < mb128) : (tables.translate (BitVec.ofNat 32 address)).isSome ↔ address < eightMb := by
  have bounds : mb128 = 0x8000000 ∧ eightMb = 0x800000 := ⟨rfl, rfl⟩
  have small : (BitVec.ofNat 32 address).toNat = address := by
    rw [BitVec.toNat_ofNat]
    omega
  by_cases kernel : address < eightMb
  · have walk : tables.translate (BitVec.ofNat 32 address) = grant.lookup address := by
      by_cases zeroth : address < 0x400000
      · rw [hold.translate_zeroth (by omega), small]
      · rw [hold.translate_kernel (by omega), small]
    rw [walk, grant.lookup_kernel (by omega)]
    exact iff_of_true rfl kernel
  · have absent := hold.rest (address / 0x400000) (by omega) (by omega) (by omega) (by omega) (by omega)
    rw [translate_absent tables _ _ (by rw [small]; exact absent)]
    exact iff_of_false (by decide) kernel

/-- A word below the user page is mapped exactly when it ends in the first 8 MB. -/
theorem TablesHold.word_mapped_iff (hold : TablesHold frames grant tables) {address : Nat}
    (low : address + 4 ≤ mb128) : (ImageLoad.inodeWord address).Mapped tables ↔ address + 4 ≤ eightMb := by
  constructor
  · intro mapped
    have last := (hold.translate_isSome_iff (by omega)).mp (mapped 3 (by decide))
    omega
  · intro inside offset small
    exact (hold.translate_isSome_iff (by omega)).mpr (by omega)

end Pages

namespace FileSystem
variable {fs : FileSystem} {inode : Nat} (allowed : ImageLoad → Prop)

/-- The loop loads bytes of the file, and numbers of blocks up to one behind the last. -/
theorem InodesWellFormed.tracedLoop_stays (wellFormed : fs.InodesWellFormed) (member : inode < fs.numOfInodes)
    {offset : Nat} (byte : ∀ index < fs.lengthOfData inode,
      allowed (.dataByte (fs.dataBlock (fs.blockNumber inode (index / blockSize)) + index % blockSize)))
    (word : ∀ block ≤ inodeBlocks, 0 < fs.lengthOfData inode →
      allowed (.inodeWord (fs.inodeAddress inode + 4 + 4 * block)))
    (remaining bytesRead : Nat) (buf : Buffer) (inside : offset + bytesRead ≤ fs.lengthOfData inode) :
    (fs.tracedLoop offset (fs.lengthOfData inode) remaining bytesRead ((offset + bytesRead) % blockSize)
        (fs.inodeAddress inode + 4 + 4 * ((offset + bytesRead) / blockSize))
        (fs.dataBlock (fs.blockNumber inode ((offset + bytesRead) / blockSize))) buf).Stays allowed := by
  have capacity : inodeBlocks * blockSize = 4190208 := rfl
  have size : blockSize = 4096 := rfl
  have fits := wellFormed.length inode member
  induction remaining generalizing bytesRead buf with
  | zero => exact Traced.stays_pure _
  | succ remaining ih =>
      have position : wrap32 (offset + bytesRead) = offset + bytesRead := by
        rw [← Nat.cast_add]
        exact wrap32_natCast (by omega)
      rw [tracedLoop, position]
      split
      · exact Traced.stays_pure _
      · rename_i more
        have later := ih (bytesRead + 1)
          (Function.update buf bytesRead (fs.fileByte inode (offset + bytesRead))) (by omega)
        rw [← Nat.add_assoc] at later
        rw [Traced.stays_bind, loadDataByte, Traced.stays_access]
        refine ⟨byte _ (Nat.lt_of_not_le more), ?_⟩
        dsimp only [Traced.value_access]
        split
        · rename_i turn
          obtain ⟨start, next⟩ := nextByte_of_end turn
          have pointer : fs.inodeAddress inode + 4 + 4 * ((offset + bytesRead) / blockSize) + 4 =
              fs.inodeAddress inode + 4 + 4 * ((offset + bytesRead) / blockSize + 1) := by omega
          rw [start, next] at later
          rw [pointer, Traced.stays_bind, loadInodeWord, Traced.stays_access, Traced.value_access]
          refine ⟨word _ ?_ (by omega), later⟩
          unfold inodeBlocks
          rw [size]
          omega
        · rename_i room
          obtain ⟨start, next⟩ := nextByte_of_room room
          rw [start, next] at later
          exact later

/-- When the file of an inode may be read, a call stays within the allowed loads exactly when the number of its
first block is one of them. -/
theorem InodesWellFormed.tracedReadData_allowed_iff (wellFormed : fs.InodesWellFormed) (member : inode < fs.numOfInodes)
    {offset : Nat} (small : offset < 4294967296) (length : allowed (.inodeWord (fs.inodeAddress inode)))
    (byte : ∀ index < fs.lengthOfData inode,
      allowed (.dataByte (fs.dataBlock (fs.blockNumber inode (index / blockSize)) + index % blockSize)))
    (word : ∀ block ≤ inodeBlocks, 0 < fs.lengthOfData inode →
      allowed (.inodeWord (fs.inodeAddress inode + 4 + 4 * block))) (buf : Buffer) (count : Nat) :
    (fs.tracedReadData inode offset (some buf) count).Stays allowed ↔
      allowed (.inodeWord (fs.inodeAddress inode + 4 + 4 * (offset / blockSize))) := by
  have loop : (fs.tracedLoop offset (fs.lengthOfData inode) count 0 (offset % blockSize)
      (fs.inodeAddress inode + 4 + 4 * (offset / blockSize))
      (fs.dataBlock (fs.blockNumber inode (offset / blockSize))) buf).Stays allowed := by
    by_cases inside : offset ≤ fs.lengthOfData inode
    · exact wellFormed.tracedLoop_stays allowed member byte word count 0 buf inside
    · cases count with
      | zero => exact Traced.stays_pure _
      | succ count =>
          rw [tracedLoop, Nat.cast_zero, Int.add_zero, wrap32_natCast small, if_pos (by omega)]
          exact Traced.stays_pure _
  rw [tracedReadData, if_neg (Nat.not_le.mpr member)]
  simp only [loadInodeWord, Traced.stays_bind, Traced.stays_access, Traced.stays_pure, Traced.value_access, and_true]
  constructor
  · intro stays
    exact stays.2.1
  · intro number
    exact ⟨length, number, loop⟩

/-- A call that does not fault is one of `read_data`. -/
theorem pagedReadData_eq (fs : FileSystem) (tables : PageTables) (inode offset : Nat) (buf : Option Buffer)
    (length : Nat) : fs.pagedReadData tables inode offset buf length =
      if (ImageLoad.inodeWord (fs.bootBlockStart + 4)).Mapped tables ∧
          ∀ load ∈ (fs.tracedReadData inode offset buf length).accesses, load.Mapped tables then
        some (fs.readData inode offset buf length)
      else none := by
  rw [pagedReadData, ← fs.tracedReadData_value]
  refine if_congr ?_ rfl rfl
  exact (Traced.stays_bind _ _).trans (and_congr_left fun _ => Traced.stays_access _ _)

end FileSystem

namespace Image
variable {image : Image} {inode offset : Nat}

/-- The bytes that `read_data` copies when all its loads find their pages. -/
theorem readData_delivers (wellFormed : image.FilesWellFormed) (inode : Nat) (fits : offset < 4294967296)
    (buf : Buffer) (length : Nat) :
    image.Delivers inode offset length buf (some (image.mount.readData inode offset (some buf) length)) := by
  refine ⟨fun member => ?_, fun absent => ?_⟩
  · have delivered := Stream.length_deliver (image.contents inode) offset length
    rw [wellFormed.length_contents member] at delivered
    have read := wellFormed.inodesWellFormed.readData_eq member fits buf length
    rw [wellFormed.fileBytes_eq member, delivered] at read
    refine ⟨_, congrArg some read, fun index within => ?_, fun index after => ?_⟩
    · have inside : index < (Stream.deliver (image.contents inode) offset length).length := by
        rw [delivered]
        exact within
      have stored := Memory.storeBytes_inside buf 0 _ inside
      rw [Nat.zero_add] at stored
      rw [stored, ← List.getElem?_eq_getElem inside, Stream.deliver, List.getElem?_take_of_lt (by omega),
        List.getElem?_drop]
    · exact Memory.overlay_outside _ _ _ _ (by omega)
  · exact congrArg some (image.mount.readData_of_missing absent offset buf length)

section Mapped
variable {frames : TableFrames} {grant : Grant} {tables : PageTables}

/-- The blocks of a resident image end in the first 8 MB. -/
theorem Resident.inodeBlock_le (resident : image.Resident) (member : inode < image.inodes) :
    image.inodeBlock inode + blockSize * (1 + image.dataBlocks) ≤ eightMb := by
  have room := resident.resident
  have blocks : 1 + inode + (1 + image.dataBlocks) ≤ 1 + image.inodes + image.dataBlocks := by omega
  have area := Nat.mul_le_mul_right blockSize blocks
  rw [Nat.add_mul (1 + inode)] at area
  rw [inodeBlock, Nat.mul_comm blockSize]
  omega

theorem Resident.byte_mapped (resident : image.Resident) (hold : TablesHold frames grant tables)
    (member : inode < image.inodes) {index : Nat} (inside : index < image.mount.lengthOfData inode) :
    (ImageLoad.dataByte (image.mount.dataBlock (image.mount.blockNumber inode (index / blockSize)) +
      index % blockSize)).Mapped tables := by
  have wellFormed := resident.toFilesWellFormed.inodesWellFormed
  have room := resident.resident
  have start := resident.dataBlockStart_eq (resident.dataBlocks_pos member (by
    rw [← resident.lengthOfData_eq member]
    omega))
  have offset : index % blockSize < blockSize := Nat.mod_lt _ (by decide)
  have first : index / blockSize * blockSize ≤ index := Nat.div_mul_le_self index blockSize
  have number := wellFormed.block inode member (index / blockSize) (by omega)
  have area := Nat.mul_le_mul_right blockSize (Nat.succ_le_of_lt number)
  rw [mount_numOfDataBlocks, Nat.succ_mul] at area
  rw [Nat.add_mul (1 + image.inodes)] at room
  have below : image.mount.dataBlock (image.mount.blockNumber inode (index / blockSize)) + index % blockSize < eightMb := by
    rw [wellFormed.dataBlock_eq member inside, start]
    omega
  exact (hold.translate_isSome_iff (Nat.lt_trans below (by decide))).mpr below

/-- A call with a valid inode finds all its pages exactly when it finds that of its first block number. -/
theorem Resident.loads_mapped_iff (resident : image.Resident) (hold : TablesHold frames grant tables)
    (member : inode < image.inodes) (fits : offset < 4294967296) (buf : Buffer) (length : Nat) :
    (∀ load ∈ (image.mount.tracedReadData inode offset (some buf) length).accesses, load.Mapped tables) ↔
      image.inodeBlock inode + 4 * (offset / blockSize) + 8 ≤ eightMb := by
  have size : blockSize = 4096 := rfl
  have limits : eightMb = 0x800000 ∧ mb128 = 0x8000000 := ⟨rfl, rfl⟩
  have address := resident.inodeAddress_eq member
  have room := resident.inodeBlock_le member
  have block : offset / blockSize < 1048576 := by
    rw [size]
    omega
  rw [size] at room
  refine (resident.inodesWellFormed.tracedReadData_allowed_iff (ImageLoad.Mapped tables) member fits ?_
    (fun index inside => resident.byte_mapped hold member inside) ?_ buf length).trans ?_
  · rw [address]
    exact (hold.word_mapped_iff (by omega)).mpr (by omega)
  · intro block small nonempty
    rw [resident.lengthOfData_eq member] at nonempty
    have blocks := resident.dataBlocks_pos member nonempty
    unfold inodeBlocks at small
    rw [address]
    exact (hold.word_mapped_iff (by omega)).mpr (by omega)
  · rw [address, hold.word_mapped_iff (by omega)]
    omega

end Mapped

section Calls
variable (frames : TableFrames) (calls : List PagingCall)

/-- The count of the inodes lies in the boot block. -/
theorem Resident.boot_mapped (resident : image.Resident) :
    (ImageLoad.inodeWord (image.mount.bootBlockStart + 4)).Mapped (tablesAfter frames calls) := by
  have start : image.mount.bootBlockStart = image.start := rfl
  have limits : eightMb = 0x800000 ∧ mb128 = 0x8000000 := ⟨rfl, rfl⟩
  have room := resident.resident
  have first : 1 * blockSize ≤ (1 + image.inodes + image.dataBlocks) * blockSize :=
    Nat.mul_le_mul_right blockSize (by omega)
  unfold blockSize at first room
  rw [start]
  exact ((tablesAfter_hold frames calls).word_mapped_iff (by omega)).mpr (by omega)

/-- A call with a valid inode faults when the number of its first block lies behind the first 8 MB. -/
theorem Resident.pagedReadData_eq (resident : image.Resident) (member : inode < image.inodes)
    (fits : offset < 4294967296) (buf : Buffer) (length : Nat) :
    image.mount.pagedReadData (tablesAfter frames calls) inode offset (some buf) length =
      if image.inodeBlock inode + 4 * (offset / blockSize) + 8 ≤ eightMb then
        some (image.mount.readData inode offset (some buf) length)
      else none := by
  rw [FileSystem.pagedReadData_eq]
  exact if_congr ((and_iff_right (resident.boot_mapped frames calls)).trans
    (resident.loads_mapped_iff (tablesAfter_hold frames calls) member fits buf length)) rfl rfl

theorem Resident.pagedReadData_of_missing (resident : image.Resident) (missing : image.inodes ≤ inode)
    (buf : Buffer) (length : Nat) :
    image.mount.pagedReadData (tablesAfter frames calls) inode offset (some buf) length =
      some (image.mount.readData inode offset (some buf) length) := by
  have quiet : image.mount.tracedReadData inode offset (some buf) length = pure (-1, some buf) := by
    rw [FileSystem.tracedReadData, if_pos (show image.mount.numOfInodes ≤ inode from missing)]
  rw [FileSystem.pagedReadData_eq, quiet]
  exact if_pos ⟨resident.boot_mapped frames calls, Traced.stays_pure _⟩

/-- A read that starts where the inode can list a block never faults. -/
theorem Resident.pagedReadData_of_inside (resident : image.Resident) (member : inode < image.inodes)
    (inside : offset < inodeCapacity) (buf : Buffer) (length : Nat) :
    image.mount.pagedReadData (tablesAfter frames calls) inode offset (some buf) length =
      some (image.mount.readData inode offset (some buf) length) := by
  have room := resident.inodeBlock_le member
  unfold inodeCapacity inodeBlocks blockSize at inside
  unfold blockSize at room
  rw [resident.pagedReadData_eq frames calls member (by omega), if_pos]
  unfold blockSize
  omega

/-- A call delivers the bytes of the file exactly when the number of the block at the offset, which may lie behind
the inode, ends in the first 8 MB. -/
theorem pagedReadData_delivers_iff (resident : image.Resident) (inode : Nat) (fits : offset < 4294967296)
    (buf : Buffer) (length : Nat) :
    image.Delivers inode offset length buf
        (image.mount.pagedReadData (tablesAfter frames calls) inode offset (some buf) length) ↔
      (inode < image.inodes → image.inodeBlock inode + 4 * (offset / blockSize) + 8 ≤ eightMb) := by
  have delivers := readData_delivers resident.toFilesWellFormed inode fits buf length
  by_cases member : inode < image.inodes
  · rw [resident.pagedReadData_eq frames calls member fits, forall_prop_of_true member]
    constructor
    · intro delivered
      by_contra faults
      obtain ⟨after, returned, _⟩ := delivered.member member
      rw [if_neg faults] at returned
      cases returned
    · intro mapped
      rw [if_pos mapped]
      exact delivers
  · rw [resident.pagedReadData_of_missing frames calls (Nat.le_of_not_lt member)]
    exact iff_of_true delivers fun inside => absurd inside member

end Calls

end Image

section Sample

/-- The sample image ends below 8 MB. -/
theorem mountedImage_resident : mountedImage.Resident where
  toFilesWellFormed := mountedImage_filesWellFormed
  resident := by
    obtain ⟨inodes, dataBlocks, _⟩ := mountedImage_words
    rw [inodes, dataBlocks]
    decide

theorem mountedImage_inodeBlock : mountedImage.inodeBlock 0 = 0x421000 := rfl

/-- A read of 100 bytes from offset 30 delivers the last ten bytes of the sample file. -/
theorem pagedReadData_delivers_iff_sample : mountedImage.fileLength 0 = 40 ∧
    mountedImage.Delivers 0 30 100 (fun _ => 7) (mountedImage.mount.pagedReadData
      (tablesAfter ⟨0x500, 0x501, by decide⟩ [.systemCallPaging 3]) 0 30 (some fun _ => 7) 100) := by
  refine ⟨mountedImage_words.2.2.1, (Image.pagedReadData_delivers_iff _ _ mountedImage_resident 0 (by decide) _
    100).mpr fun _ => ?_⟩
  rw [mountedImage_inodeBlock]
  decide

/-- A read at the last offset finds no page for its block number, although the file ends long before it. -/
theorem pagedReadData_faults : mountedImage.Resident ∧ 0 < mountedImage.inodes ∧
    mountedImage.mount.pagedReadData (tablesAfter ⟨0x500, 0x501, by decide⟩ []) 0 0xFFFFFFFF (some fun _ => 7) 1 = none ∧
    ¬mountedImage.Delivers 0 0xFFFFFFFF 1 (fun _ => 7)
      (mountedImage.mount.pagedReadData (tablesAfter ⟨0x500, 0x501, by decide⟩ []) 0 0xFFFFFFFF (some fun _ => 7) 1) := by
  have member : 0 < mountedImage.inodes := by
    rw [mountedImage_words.1]
    decide
  have faults : mountedImage.mount.pagedReadData (tablesAfter ⟨0x500, 0x501, by decide⟩ []) 0 0xFFFFFFFF
      (some fun _ => 7) 1 = none := by
    rw [mountedImage_resident.pagedReadData_eq _ _ member (by decide), mountedImage_inodeBlock, if_neg (by decide)]
  refine ⟨mountedImage_resident, member, faults, fun delivers => ?_⟩
  obtain ⟨after, returned, _⟩ := delivers.member member
  rw [faults] at returned
  cases returned

end Sample

end OrcaOS
