import OrcaOS.Foundation.Text
import OrcaOS.Proof.ImageLoads
import OrcaOS.Specification.DirectoryListing

/-!
Which requests list the whole directory: the position counts bytes, and a request below 32 bytes does not
reach the next entry.
-/

namespace OrcaOS
open Foundation Kernel

/-- Recording the entry does not change what the call computes. -/
theorem Kernel.tracedDirectoryRead_value (k : Kernel) (fd : Int) (buf : Option Buffer) (nbytes : Int) :
    (k.tracedDirectoryRead fd buf nbytes).value = k.directoryRead fd buf nbytes := by
  cases buf with
  | none => rfl
  | some buf =>
      dsimp only [tracedDirectoryRead, directoryRead]
      split
      · rfl
      · split
        · rfl
        · rw [Traced.value_bind, FileSystem.visitDentry, Traced.value_access]
          cases k.fileSystem.readDentryByIndex (k.current (.fileArray fd.toNat .position) / 32) <;> rfl

/-- The first bytes of the name field of an entry. -/
theorem Image.take_fileName (image : Image) (index : Nat) {count : Nat} (within : count ≤ 32) :
    (image.entryAt index).fileName.take count =
      (List.range count).map fun offset => image.memory (image.entryBlock index + offset) := by
  change ((List.range 32).map fun offset => image.memory (image.entryBlock index + offset)).take count = _
  rw [← List.map_take, List.take_range, Nat.min_eq_left within]

namespace Image.NamesWellFormed
variable {image : Image} {index : Nat}

/-- The bytes of a name are its characters, followed by zeros. -/
theorem nameByte (named : image.NamesWellFormed) (member : index < image.entries) {offset : Nat} (inside : offset < 32) :
    image.memory (image.entryBlock index + offset) = (image.entryName index).getD offset 0 := by
  by_cases character : offset < (image.entryName index).length
  · exact (Text.getD_upTo character).symm
  · rw [named.padded index member offset inside (by omega), List.getD_eq_default _ _ (by omega)]

/-- The name has as many characters as bytes of its entry are not zero. -/
theorem countP_name (named : image.NamesWellFormed) (member : index < image.entries) {count : Nat} (within : count ≤ 32) :
    ((List.range count).map fun offset => image.memory (image.entryBlock index + offset)).countP (· ≠ 0) =
      ((image.entryName index).take count).length :=
  Text.countP_map_range (named.padded index member) within

end Image.NamesWellFormed

/-- The descriptor is open on the directory, at the given position. -/
structure OpenOnDirectory (image : Image) (k : Kernel) (fd position : Nat) : Prop where
  inside : fd < 8
  mounted : k.fileSystem = image.mount
  position : k.current (.fileArray fd .position) = position

namespace OpenOnDirectory
variable {image : Image} {k : Kernel} {fd position : Nat}

theorem guarded (directory : OpenOnDirectory image k fd position) : ¬((fd : Int) < 0 ∨ 7 < (fd : Int)) := by
  have inside := directory.inside
  omega

/-- Behind the last entry nothing is read. -/
theorem tracedDirectoryRead_of_end (directory : OpenOnDirectory image k fd position)
    (ended : position / 32 = image.entries) (buf : Buffer) (nbytes : Int) :
    k.tracedDirectoryRead fd (some buf) nbytes = pure (0, some buf, k) := by
  have entries : k.fileSystem.numOfEntries = image.entries := by
    rw [directory.mounted]
    rfl
  rw [Kernel.tracedDirectoryRead, if_neg directory.guarded]
  dsimp only
  rw [Int.toNat_natCast, directory.position, entries, if_pos ended]

/-- Before that, the first bytes of the name at the position are copied. -/
theorem tracedDirectoryRead_eq (named : image.NamesWellFormed) (directory : OpenOnDirectory image k fd position)
    (early : position / 32 < image.entries) (buf : Buffer) (request : Nat) :
    k.tracedDirectoryRead fd (some buf) request =
      ⟨((((image.entryAt (position / 32)).fileName.take (min request 32)).countP (· ≠ 0) : Nat),
        some fun index => if index < min request 32 then
          ((image.entryAt (position / 32)).fileName.take (min request 32)).getD index 0 else buf index,
        k.setCurrent (.fileArray fd .position) (position + min request 32)), [position / 32]⟩ := by
  have count := named.count
  have entries : k.fileSystem.numOfEntries = image.entries := by
    rw [directory.mounted]
    rfl
  have bytes : (if (32 : Int) < request then 32 else (request : Int)) = ((min request 32 : Nat) : Int) := by
    split <;> omega
  have moved : wrap32 ((position : Int) + ((min request 32 : Nat) : Int)) = position + min request 32 := by
    rw [← Nat.cast_add]
    exact wrap32_natCast (by omega)
  have visited : k.fileSystem.visitDentry (position / 32) = ⟨some (image.entryAt (position / 32)), [position / 32]⟩ := by
    rw [FileSystem.visitDentry, FileSystem.readDentryByIndex, if_neg (by omega), directory.mounted]
    rfl
  rw [Kernel.tracedDirectoryRead, if_neg directory.guarded]
  dsimp only
  rw [Int.toNat_natCast, directory.position, entries, if_neg (by omega), bytes, moved, visited, Int.toNat_natCast]
  rfl

/-- The entry at the position is listed, and the position moves by the bytes that were copied. -/
theorem tracedDirectoryRead_of_entry (named : image.NamesWellFormed)
    (directory : OpenOnDirectory image k fd position) (early : position / 32 < image.entries) (buf : Buffer)
    (request : Nat) :
    image.Lists (position / 32) ⟨request, (k.tracedDirectoryRead fd (some buf) request).accesses,
      (k.tracedDirectoryRead fd (some buf) request).value.1, buf,
      (k.tracedDirectoryRead fd (some buf) request).value.2.1.getD buf⟩ ∧
    OpenOnDirectory image (k.tracedDirectoryRead fd (some buf) request).value.2.2 fd (position + min request 32) := by
  have count := named.count
  have short := Text.length_upTo_le (fun offset => image.memory (image.entryBlock (position / 32) + offset)) 32
  have whole : (image.entryName (position / 32)).take (min request 32) = (image.entryName (position / 32)).take request := by
    rw [← List.take_take, List.take_of_length_le (show (image.entryName (position / 32)).length ≤ 32 from short)]
  rw [directory.tracedDirectoryRead_eq named early, image.take_fileName _ (Nat.min_le_right _ _)]
  refine ⟨⟨rfl, ?_, ?_, ?_⟩, ?_⟩
  · rw [named.countP_name early (Nat.min_le_right _ _), whole]
  · intro offset inside
    have copied : offset < ((List.range (min request 32)).map fun offset =>
        image.memory (image.entryBlock (position / 32) + offset)).length := by
      rwa [List.length_map, List.length_range]
    refine (if_pos inside).trans ?_
    rw [List.getD_eq_getElem _ _ copied, List.getElem_map, List.getElem_range, named.nameByte early (by omega)]
  · intro offset outside
    exact if_neg (Nat.not_lt.mpr outside)
  · exact ⟨directory.inside, directory.mounted, k.current_setCurrent _ (by omega)⟩

end OpenOnDirectory

theorem wholeNames_cons_cons (entries first second : Nat) (rest : List Nat) :
    WholeNames (entries + 1) (first :: second :: rest) ↔ 32 ≤ first ∧ WholeNames entries (second :: rest) := by
  rw [WholeNames, List.dropLast_cons_cons, List.take_succ_cons]
  exact List.forall_mem_cons

theorem wholeNames_zero (requests : List Nat) : WholeNames 0 requests := by
  intro request member
  cases member

theorem wholeNames_singleton (entries request : Nat) : WholeNames entries [request] := by
  intro other member
  simp at member

namespace Image
variable {image : Image}

theorem listsInOrder_cons (index : Nat) (listing : Listing) (rest : List Listing) :
    image.ListsInOrder index (listing :: rest) ↔
      image.Expects index listing ∧ image.ListsInOrder (index + 1) rest := by
  rw [ListsInOrder, List.zipIdx_cons]
  exact List.forall_mem_cons

theorem listsInOrder_nil (index : Nat) : image.ListsInOrder index [] := by
  intro call member
  cases member

end Image

section Run
variable {image : Image} {k : Kernel} {fd position : Nat}

/-- A call whose position has fallen behind lists an earlier entry. -/
theorem OpenOnDirectory.not_expects (named : image.NamesWellFormed) (directory : OpenOnDirectory image k fd position)
    {index : Nat} (behind : position / 32 < min index image.entries) (buf : Buffer) {request : Nat}
    (positive : 0 < request) :
    ¬image.Expects index ⟨request, (k.tracedDirectoryRead fd (some buf) request).accesses,
      (k.tracedDirectoryRead fd (some buf) request).value.1, buf,
      (k.tracedDirectoryRead fd (some buf) request).value.2.1.getD buf⟩ := by
  have lists := (directory.tracedDirectoryRead_of_entry named (by omega) buf request).1
  rw [Image.Expects]
  split
  · intro expected
    have same := lists.entry.symm.trans expected.entry
    rw [List.singleton_inj] at same
    omega
  · intro nothing
    have count := lists.count
    have characters := List.length_pos_iff.mpr (named.named (position / 32) (by omega))
    rw [nothing, List.length_take] at count
    dsimp only at count
    omega

/-- From the entry of its turn on, the listing is in order exactly when the requests ask for whole names. -/
theorem OpenOnDirectory.listsInOrder_iff (named : image.NamesWellFormed) {index : Nat}
    (directory : OpenOnDirectory image k fd (32 * min index image.entries)) {calls : List (Nat × Buffer)}
    (positive : ∀ call ∈ calls, 0 < call.1) :
    image.ListsInOrder index (k.directoryReads fd calls) ↔
      WholeNames (image.entries - index) (calls.map Prod.fst) := by
  induction calls generalizing k index with
  | nil =>
      refine iff_of_true (Image.listsInOrder_nil index) ?_
      intro request member
      simp at member
  | cons call rest ih =>
      obtain ⟨request, buf⟩ := call
      have later : ∀ call ∈ rest, 0 < call.1 := fun call member => positive call (List.mem_cons_of_mem _ member)
      rw [Kernel.directoryReads, Image.listsInOrder_cons, List.map_cons]
      dsimp only
      by_cases early : index < image.entries
      · have turn : 32 * min index image.entries / 32 = index := by omega
        obtain ⟨lists, moved⟩ := directory.tracedDirectoryRead_of_entry named (by omega) buf request
        rw [turn] at lists
        rw [Image.Expects, if_pos early, and_iff_right lists]
        have remaining : image.entries - index = image.entries - (index + 1) + 1 := by omega
        cases rest with
        | nil => exact iff_of_true (Image.listsInOrder_nil _) (wholeNames_singleton _ _)
        | cons second rest =>
            rw [List.map_cons, remaining, wholeNames_cons_cons]
            by_cases whole : 32 ≤ request
            · have next : 32 * min index image.entries + min request 32 = 32 * min (index + 1) image.entries := by
                omega
              rw [next] at moved
              rw [and_iff_right whole]
              exact ih moved later
            · -- The next call finds the position within the same entry.
              refine iff_of_false ?_ fun all => whole all.1
              obtain ⟨following, buffer⟩ := second
              rw [Kernel.directoryReads, Image.listsInOrder_cons]
              intro expected
              exact moved.not_expects named (by omega) buffer (later _ List.mem_cons_self) expected.1
      · have ended : 32 * min index image.entries / 32 = image.entries := by omega
        have behind : 32 * min index image.entries = 32 * min (index + 1) image.entries := by omega
        have none : image.entries - index = 0 ∧ image.entries - (index + 1) = 0 := by omega
        rw [directory.tracedDirectoryRead_of_end ended, none.1]
        rw [behind] at directory
        refine iff_of_true ⟨(if_neg early).mpr rfl, ?_⟩ (wholeNames_zero _)
        apply (ih directory later).mpr
        rw [none.2]
        exact wholeNames_zero _

end Run

/-- A directory is listed in order exactly when every request but the last, up to the number of entries, asks
for a whole name. -/
theorem directory_listing_iff {image : Image} (named : image.NamesWellFormed) {k : Kernel} {fd : Nat}
    (directory : OpenOnDirectory image k fd 0) {calls : List (Nat × Buffer)} (positive : ∀ call ∈ calls, 0 < call.1) :
    image.ListsInOrder 0 (k.directoryReads fd calls) ↔ WholeNames image.entries (calls.map Prod.fst) := by
  have start : 32 * min 0 image.entries = 0 := by omega
  rw [← start] at directory
  exact directory.listsInOrder_iff named positive

section Sample

/-- The image holds its directory and the shell. -/
def listedImage : Image where
  memory :=
    let boot := Memory.storeBytes (fun _ => 0) 0x420000 (sampleWord 2 ++ sampleWord 1 ++ sampleWord 1)
    let directory := boot.storeBytes 0x420040 ([46] ++ List.replicate 31 0 ++ sampleWord 1 ++ sampleWord 0)
    let shell := directory.storeBytes 0x420080
      ([115, 104, 101, 108, 108] ++ List.replicate 27 0 ++ sampleWord 2 ++ sampleWord 0)
    let inode := shell.storeBytes 0x421000 (sampleWord 40 ++ sampleWord 0)
    inode.storeBytes 0x422000
      ([0x7f, 0x45, 0x4c, 0x46] ++ List.replicate 20 0 ++ sampleWord 0x080482e8 ++ List.replicate 12 0)
  start := 0x420000

theorem listedImage_names : listedImage.entries = 2 ∧ (∀ index < 2, listedImage.entryName index ≠ []) ∧
    ∀ index < 2, ∀ offset < 32, (listedImage.entryName index).length ≤ offset →
      listedImage.memory (listedImage.entryBlock index + offset) = 0 := by decide +kernel

theorem listedImage_namesWellFormed : listedImage.NamesWellFormed := by
  obtain ⟨entries, named, padded⟩ := listedImage_names
  constructor
  · omega
  · intro index member
    exact named index (by omega)
  · intro index member
    exact padded index (by omega)

def listedMachine : Machine := { sampleMachine with image := listedImage.memory }

def listedKernel : Kernel := (boot listedMachine [0] sampleLocals 0x7fff00).getD (entry listedMachine)

theorem listedKernel_typesWellFormed : listedKernel.fileSystem.TypesWellFormed := by
  have types : ∀ index < 2, (listedImage.mount.dentryAt (listedImage.mount.entryAddress index)).fileType ≤ 2 := by
    decide +kernel
  have entries : listedKernel.fileSystem.numOfEntries = 2 := listedImage_names.1
  intro index inside
  exact types index (by omega)

/-- The base shell has opened the directory. -/
def directoryReader : Kernel := (listedKernel.sysOpen (some [46])).2

theorem directoryReader_openOnDirectory : OpenOnDirectory listedImage directoryReader 2 0 where
  inside := by decide
  mounted := (listedKernel.sysOpen_keepsOthers listedKernel_typesWellFormed (some [46])).fileSystem
  position := by decide +kernel

/-- Requests of 32 and 40 bytes list the two entries of the directory, and the third call returns 0. -/
theorem directory_listing_iff_sample :
    listedImage.ListsInOrder 0 (directoryReader.directoryReads 2 [(32, fun _ => 7), (40, fun _ => 7), (1, fun _ => 7)]) := by
  have positive : ∀ call ∈ [(32, fun _ => 7), (40, fun _ => 7), ((1 : Nat), fun _ : Nat => (7 : UInt8))], 0 < call.1 := by
    simp
  apply (directory_listing_iff listedImage_namesWellFormed directoryReader_openOnDirectory positive).mpr
  rw [listedImage_names.1]
  change WholeNames 2 [32, 40, 1]
  unfold WholeNames
  decide

/-- Two requests of 10 bytes list the first entry twice. -/
theorem directory_listing_repeats : OpenOnDirectory listedImage directoryReader 2 0 ∧ listedImage.NamesWellFormed ∧
    ¬listedImage.ListsInOrder 0 (directoryReader.directoryReads 2 [(10, fun _ => 7), (10, fun _ => 7)]) := by
  refine ⟨directoryReader_openOnDirectory, listedImage_namesWellFormed, fun listed => ?_⟩
  have second := ((Image.listsInOrder_cons _ _ _).mp ((Image.listsInOrder_cons _ _ _).mp listed).2).1
  have entries := listedImage_names.1
  have moved := (directoryReader_openOnDirectory.tracedDirectoryRead_of_entry listedImage_namesWellFormed
    (by omega) (fun _ => 7) 10).2
  exact moved.not_expects listedImage_namesWellFormed (by omega) (fun _ => 7) (by decide) second

end Sample

end OrcaOS
