import OrcaOS.Proof.PagedRead

/-!
Which consecutive reads of a file deliver its bytes in order. The position of a descriptor moves by the
count of a request, so the number of the block at the next position may lie far behind the inode.
-/

namespace OrcaOS
open Foundation

/-- A sequence of reads finds all its pages exactly when each read finds that of its first block number. -/
theorem Image.Resident.fileReads_mapped_iff {image : Image} (resident : image.Resident) {frames : TableFrames}
    {grant : Grant} {tables : PageTables} (hold : TablesHold frames grant tables) {k : Kernel} {fd inode position : Nat}
    (mounted : k.fileSystem = image.mount) (file : OpenOnFile k fd inode position) {requests : List (Nat × Buffer)}
    (small : ∀ request ∈ requests, request.1 < 2147483648) :
    (k.tracedFileReads fd requests).Stays (ImageLoad.Mapped tables) ↔
      ReadsMapped (image.inodeBlock inode) (image.fileLength inode) position (requests.map Prod.fst) := by
  have own : inode < image.mount.numOfInodes := mounted ▸ file.member
  have length := file.wellFormed.length_fileBytes file.member
  have words : k.fileSystem.lengthOfData inode = image.fileLength inode := by
    rw [mounted, resident.lengthOfData_eq own]
  induction requests generalizing k position with
  | nil => exact iff_of_true (Traced.stays_pure _) trivial
  | cons first rest ih =>
      obtain ⟨request, before⟩ := first
      have bound : request < 2147483648 := small _ List.mem_cons_self
      have loads := file.tracedFileRead_stays_iff (ImageLoad.Mapped tables) before bound
      rw [mounted] at loads
      have next := file.setPosition (file.advance_lt bound)
      have later := ih (show Kernel.fileSystem (k.setCurrent _ _) = image.mount from mounted) next
        (fun request member => small request (List.mem_cons_of_mem _ member)) length words
      rw [advance_eq, length, words] at later
      rw [Kernel.tracedFileReads, Traced.stays_bind, loads, Kernel.tracedFileRead_value, file.fileRead_eq before bound,
        Traced.stays_bind, and_iff_left (Traced.stays_pure _), advance_eq, length, words, List.map_cons, ReadsMapped]
      exact and_congr (resident.loads_mapped_iff hold own file.position_lt before request) later

/-- Calls that do not fault are calls of `file_read`. -/
theorem Kernel.pagedFileReads_eq_some_iff (k : Kernel) (tables : PageTables) (fd : Nat) (requests : List (Nat × Buffer))
    (outcomes : List ReadOutcome) : k.pagedFileReads tables fd requests = some outcomes ↔
      (ImageLoad.inodeWord (k.fileSystem.bootBlockStart + 4)).Mapped tables ∧
        (k.tracedFileReads fd requests).Stays (ImageLoad.Mapped tables) ∧ k.fileReads fd requests = outcomes := by
  rw [pagedFileReads, Option.ite_none_right_eq_some, Option.some_inj, Traced.value_bind, k.tracedFileReads_value,
    ← and_assoc]
  refine and_congr_left fun _ => (Traced.stays_bind _ _).trans (and_congr_left fun _ => Traced.stays_access _ _)

/-- Consecutive reads are in order exactly when no early read of no bytes precedes another read. In a resident image
they also find their pages exactly when each starts at a position whose block number does. -/
theorem fileReads_inOrder_iff {k : Kernel} {fd inode : Nat} (file : OpenOnFile k fd inode 0)
    {requests : List (Nat × Buffer)} (small : ∀ request ∈ requests, request.1 < 2147483648) :
    (ReadsInOrder (k.fileSystem.fileBytes inode) (k.fileReads fd requests) ↔
      Stream.NoEarlyEmpty (k.fileSystem.fileBytes inode) 0 (requests.map Prod.fst)) ∧
    ∀ image : Image, image.Resident → k.fileSystem = image.mount → ∀ frames calls,
      (∃ outcomes, k.pagedFileReads (tablesAfter frames calls) fd requests = some outcomes ∧
        ReadsInOrder (image.contents inode) outcomes) ↔
      Stream.NoEarlyEmpty (image.contents inode) 0 (requests.map Prod.fst) ∧
        ReadsMapped (image.inodeBlock inode) (image.fileLength inode) 0 (requests.map Prod.fst) := by
  have order := file.readsInOrder_iff small
  refine ⟨order, fun image resident mounted frames calls => ?_⟩
  have mapped := resident.fileReads_mapped_iff (tablesAfter_hold frames calls) mounted file small
  have member := file.member
  have boot := resident.boot_mapped frames calls
  rw [mounted] at order member
  rw [resident.fileBytes_eq member] at order
  constructor
  · rintro ⟨outcomes, returned, inOrder⟩
    obtain ⟨_, found, rfl⟩ := (k.pagedFileReads_eq_some_iff _ fd requests outcomes).mp returned
    exact ⟨order.mp inOrder, mapped.mp found⟩
  · rintro ⟨noEmpty, starts⟩
    rw [← mounted] at boot
    exact ⟨_, (k.pagedFileReads_eq_some_iff _ fd requests _).mpr ⟨boot, mapped.mpr starts, rfl⟩, order.mpr noEmpty⟩

/-- Two reads that together ask for more than the sample file, one of no bytes and one behind the end. -/
def sampleRequests : List (Nat × Buffer) := [(16, fun _ => 0), (100, fun _ => 0), (0, fun _ => 0), (8, fun _ => 0)]

/-- They deliver the sample file in order and find all their pages. -/
theorem fileReads_inOrder_iff_sample :
    ReadsInOrder (sampleReader.fileSystem.fileBytes 0) (sampleReader.fileReads 2 sampleRequests) ∧
    ∃ outcomes, sampleReader.pagedFileReads (tablesAfter ⟨0x500, 0x501, by decide⟩ [.systemCallPaging 3]) 2
      sampleRequests = some outcomes ∧ ReadsInOrder (mountedImage.contents 0) outcomes := by
  have length := length_sampleReader_fileBytes
  have noEmpty : Stream.NoEarlyEmpty (sampleReader.fileSystem.fileBytes 0) 0 (sampleRequests.map Prod.fst) := by
    change Stream.NoEarlyEmpty _ 0 [16, 100, 0, 8]
    rw [Stream.noEarlyEmpty_cons_of_pos (by decide), Stream.noEarlyEmpty_cons_of_pos (by decide)]
    exact Stream.noEarlyEmpty_of_end (by rw [length]; decide) _
  have starts : ReadsMapped 0x421000 40 0 (sampleRequests.map Prod.fst) := by
    change ReadsMapped 0x421000 40 0 [16, 100, 0, 8]
    simp only [ReadsMapped]
    decide
  have member : 0 < mountedImage.inodes := by
    rw [mountedImage_words.1]
    decide
  have bytes := mountedImage_filesWellFormed.fileBytes_eq member
  rw [← sampleReader_fileSystem] at bytes
  obtain ⟨order, paged⟩ := fileReads_inOrder_iff sampleReader_openOnFile
    (show ∀ request ∈ sampleRequests, request.1 < 2147483648 by decide)
  refine ⟨order.mpr noEmpty, (paged mountedImage mountedImage_resident sampleReader_fileSystem _ _).mpr ⟨?_, ?_⟩⟩
  · rw [← bytes]
    exact noEmpty
  · rw [mountedImage_inodeBlock, mountedImage_words.2.2.1]
    exact starts

/-- A read of no bytes at the start hides the whole file from the next read. -/
theorem fileReads_skip : OpenOnFile sampleReader 2 0 0 ∧
    ¬ReadsInOrder (sampleReader.fileSystem.fileBytes 0)
      (sampleReader.fileReads 2 [(0, fun _ => 0), (4, fun _ => 0)]) := by
  have file := sampleReader_openOnFile
  have length := length_sampleReader_fileBytes
  have delivered : (sampleReader.fileReads 2 [(0, fun _ => 0), (4, fun _ => 0)]).flatMap
      ReadOutcome.delivered = [] := by decide +kernel
  refine ⟨file, fun order => ?_⟩
  have content := congrArg List.length order.content
  rw [delivered, Kernel.fileReads_request, List.length_take, length] at content
  cases content

end OrcaOS
