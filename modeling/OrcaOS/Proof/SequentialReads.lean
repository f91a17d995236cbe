import OrcaOS.Proof.DescriptorContract
import OrcaOS.Proof.ImageRead

/-!
Consecutive reads of one file deliver its bytes in order, unless a read of no bytes comes before the
end of the file: it moves the position to the end.
-/

namespace OrcaOS
open Foundation

namespace Kernel

/-- This function makes consecutive calls of `file_read` on one descriptor. -/
def fileReads (fd : Nat) : Kernel → List (Nat × Buffer) → List ReadOutcome
  | _, [] => []
  | k, (request, before) :: rest =>
      let (result, after, k) := k.fileRead fd (some before) request
      ⟨request, result, before, after.getD before⟩ :: fileReads fd k rest

theorem fileReads_request (k : Kernel) (fd : Nat) (requests : List (Nat × Buffer)) :
    (fileReads fd k requests).map ReadOutcome.request = requests.map Prod.fst := by
  induction requests generalizing k with
  | nil => rfl
  | cons first rest ih =>
      rw [fileReads, List.map_cons, List.map_cons, ih]

end Kernel

/-- A stored delivery is read back from the buffer. -/
theorem delivered_storeBytes (request : Nat) (before : Buffer) (bytes : List UInt8) :
    ReadOutcome.delivered ⟨request, bytes.length, before, Memory.storeBytes before 0 bytes⟩ = bytes := by
  apply List.ext_getElem
  · rw [ReadOutcome.delivered, List.length_map, List.length_range, Int.toNat_natCast]
  · intro index _ inside
    have stored := Memory.storeBytes_inside before 0 bytes inside
    rw [Nat.zero_add] at stored
    simp only [ReadOutcome.delivered, List.getElem_map, List.getElem_range]
    exact stored

theorem counted_storeBytes (request : Nat) (before : Buffer) (bytes : List UInt8) :
    ReadOutcome.Counted ⟨request, bytes.length, before, Memory.storeBytes before 0 bytes⟩ := by
  constructor
  · exact Int.natCast_nonneg _
  · intro index outside
    have outside : bytes.length ≤ index := Int.ofNat_le.mp outside
    change Memory.storeBytes before 0 bytes index = before index
    exact Memory.overlay_outside before 0 bytes.length _ (.inr (by omega))

/-- The calls deliver what the stream of the file delivers. -/
theorem OpenOnFile.fileReads {k : Kernel} {fd inode position : Nat} (file : OpenOnFile k fd inode position)
    {requests : List (Nat × Buffer)} (small : ∀ request ∈ requests, request.1 < 2147483648) :
    (k.fileReads fd requests).map ReadOutcome.delivered =
        Stream.deliveries (k.fileSystem.fileBytes inode) position (requests.map Prod.fst) ∧
      ∀ outcome ∈ k.fileReads fd requests, outcome.Counted := by
  induction requests generalizing k position with
  | nil =>
      constructor
      · rfl
      · intro outcome member
        cases member
  | cons first rest ih =>
      obtain ⟨request, before⟩ := first
      have bound : request < 2147483648 := small _ List.mem_cons_self
      obtain ⟨later, counted⟩ := ih (file.setPosition (file.advance_lt bound)) fun request member =>
        small request (List.mem_cons_of_mem _ member)
      rw [Kernel.fileReads, file.fileRead_eq before bound]
      constructor
      · rw [List.map_cons, List.map_cons, Stream.deliveries, Option.getD_some, delivered_storeBytes]
        exact congrArg _ later
      · intro outcome member
        obtain rfl | member := List.mem_cons.mp member
        · exact counted_storeBytes _ _ _
        · exact counted outcome member

/-- Consecutive reads are in order exactly when no early read of no bytes precedes another read. -/
theorem OpenOnFile.readsInOrder_iff {k : Kernel} {fd inode : Nat} (file : OpenOnFile k fd inode 0)
    {requests : List (Nat × Buffer)} (small : ∀ request ∈ requests, request.1 < 2147483648) :
    ReadsInOrder (k.fileSystem.fileBytes inode) (k.fileReads fd requests) ↔
      Stream.NoEarlyEmpty (k.fileSystem.fileBytes inode) 0 (requests.map Prod.fst) := by
  obtain ⟨delivered, counted⟩ := file.fileReads small
  have whole (count : Nat) : Stream.deliver (k.fileSystem.fileBytes inode) 0 count =
      (k.fileSystem.fileBytes inode).take (min count (k.fileSystem.fileBytes inode).length) := by
    rw [Stream.deliver, List.drop_zero, ← List.take_take, List.take_length]
  rw [← Stream.flatten_deliveries_iff, ← delivered, whole, ← k.fileReads_request fd requests]
  constructor
  · intro order
    exact order.content
  · intro content
    refine ⟨content, counted, ?_⟩
    intro earlier later split all outcome member
    rw [split, List.map_append] at delivered
    have nothing := Stream.deliveries_ended delivered.symm
      (by rw [Nat.zero_add, ← List.flatMap_def]; exact all) _ (List.mem_map_of_mem member)
    have count := (counted outcome (by rw [split]; exact List.mem_append_right _ member)).1
    rw [ReadOutcome.delivered, List.map_eq_nil_iff, List.range_eq_nil] at nothing
    omega

section Sample

/-- The base shell has opened the file of the sample image. -/
def sampleReader : Kernel := (sampleKernel.sysOpen sampleFile).2

theorem sampleReader_fileSystem : sampleReader.fileSystem = mountedImage.mount :=
  (sampleKernel.sysOpen_keepsOthers sampleKernel_typesWellFormed sampleFile).fileSystem.trans sampleKernel_fileSystem

theorem sampleReader_openOnFile : OpenOnFile sampleReader 2 0 0 := by
  have words : sampleReader.current (.fileArray 2 .inode) = 0 ∧ sampleReader.current (.fileArray 2 .position) = 0 := by
    decide +kernel
  have inodes : sampleReader.fileSystem.numOfInodes = mountedImage.inodes := by
    rw [sampleReader_fileSystem]
    rfl
  refine ⟨by decide, ?_, ?_, words.1, words.2⟩
  · rw [sampleReader_fileSystem]
    exact mountedImage_filesWellFormed.inodesWellFormed
  · rw [inodes, mountedImage_words.1]
    decide

theorem length_sampleReader_fileBytes : (sampleReader.fileSystem.fileBytes 0).length = 40 := by
  have member : 0 < mountedImage.inodes := by
    rw [mountedImage_words.1]
    decide
  rw [sampleReader_fileSystem, mountedImage_filesWellFormed.fileBytes_eq member,
    mountedImage_filesWellFormed.length_contents member, mountedImage_words.2.2.1]

end Sample

end OrcaOS
