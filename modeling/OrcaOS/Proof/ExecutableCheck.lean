import OrcaOS.Proof.FailedExecute
import OrcaOS.Proof.ImageRead
import OrcaOS.Proof.StringCompare

/-!
What the executable check of `sys_execute` decides. The check ignores the results of `file_open` and
`file_read`, and it does not look at the type of the entry.
-/

namespace OrcaOS
open Foundation Kernel

theorem length_of_magic {bytes : List UInt8} (magic : bytes.take 4 = elfMagic) : 4 ≤ bytes.length := by
  have length := congrArg List.length magic
  rw [List.length_take, elfMagic, List.length_cons, List.length_cons, List.length_cons, List.length_singleton]
    at length
  omega

/-- A buffer that received at least four bytes begins with the first four of them. -/
theorem hasMagic_storeBytes_iff (buf : Buffer) {bytes : List UInt8} (enough : 4 ≤ bytes.length) :
    HasMagic (Memory.storeBytes buf 0 bytes) ↔ bytes.take 4 = elfMagic := by
  have stored (index : Nat) (small : index < 4) : Memory.storeBytes buf 0 bytes index = (bytes.take 4).getD index 0 := by
    have inside := Memory.storeBytes_inside buf 0 bytes (show index < bytes.length by omega)
    rw [Nat.zero_add] at inside
    rw [inside, List.getD_eq_getElem _ _ (by rw [List.length_take]; omega), List.getElem_take]
  constructor
  · intro magic
    apply List.ext_getElem
    · rw [List.length_take, Nat.min_eq_left enough]
      rfl
    · intro index inside own
      have same := magic index own
      rw [stored index own, List.getD_eq_getElem _ _ inside, List.getD_eq_getElem _ _ own] at same
      exact same
  · intro magic index small
    rw [stored index small, magic]

namespace Image
variable (image : Image)

/-- The name belongs to a regular file with at least four bytes, the first four being the magic number. -/
def Executable (processName : List UInt8) : Prop :=
  ∃ dentry ∈ image.mount.readDentryByName (some processName),
    dentry.fileType = 2 ∧ dentry.inodeNum < image.inodes ∧
      (image.contents dentry.inodeNum).take 4 = elfMagic

/-- The bytes that `file_read` delivers to the check, when the new block has a descriptor for the file. -/
def deliveredBytes (k : Kernel) (processName : List UInt8) : List UInt8 :=
  match image.mount.readDentryByName (some processName), k.spareDescriptor with
  | some dentry, some _ =>
      if dentry.inodeNum < image.inodes then (image.contents dentry.inodeNum).take 40 else []
  | _, _ => []

end Image

section Check
variable {image : Image} {k : Kernel} {processName : List UInt8}

/-- The new block opens the file of the entry through its spare descriptor. -/
theorem claimed_openOnFile (wellFormed : image.FilesWellFormed) (mounted : k.fileSystem = image.mount)
    (valid : k.processNumber < 6) {dentry : Dentry} {fd : Nat}
    (resolved : image.mount.readDentryByName (some processName) = some dentry)
    (member : dentry.inodeNum < image.inodes) (spare : k.spareDescriptor = some fd) :
    (k.claimed.fileOpen (some processName)).1 = fd ∧
      (k.claimed.fileOpen (some processName)).2.fileSystem = image.mount ∧
      OpenOnFile (k.claimed.fileOpen (some processName)).2 fd dentry.inodeNum 0 := by
  have setting := k.claimed_setting.1.fileSystem
  have files := (k.claimed.fileOpen_changesOnly (some processName)).fileSystem
  have system : (k.claimed.fileOpen (some processName)).2.fileSystem = image.mount :=
    files.trans (setting.trans mounted)
  have reopened : k.claimed.fileSystem.readDentryByName (some processName) = some dentry := by
    rw [setting, mounted, resolved]
  have found := (k.claimed_freeDescriptor valid fd).mpr spare
  obtain ⟨inode, position⟩ := k.claimed.fileOpen_words reopened found
  have claimed : k.claimed.fileDescriptor processName = some fd := by
    rw [fileDescriptor, reopened, Option.bind_some, found]
  refine ⟨(k.claimed.fileOpen_of_some claimed).1, system, ?_, ?_, ?_, inode, position⟩
  · exact (k.claimed.freeDescriptor_eq_some_iff.mp found).2.1
  · rw [system]
    exact wellFormed.inodesWellFormed
  · rw [system]
    exact member

/-- The read loop delivers the bytes of the image. -/
theorem headerBytes_eq (wellFormed : image.FilesWellFormed) (mounted : k.fileSystem = image.mount)
    (processName : List UInt8) : k.headerBytes processName = image.deliveredBytes k processName := by
  unfold headerBytes Image.deliveredBytes
  rw [mounted]
  cases image.mount.readDentryByName (some processName) with
  | none => rfl
  | some dentry =>
      cases k.spareDescriptor with
      | none => rfl
      | some fd =>
          dsimp only
          have count : image.mount.numOfInodes = image.inodes := rfl
          by_cases member : dentry.inodeNum < image.inodes
          · rw [count, if_pos member, if_pos member, ← wellFormed.fileBytes_eq member,
              wellFormed.inodesWellFormed.fileBytes_eq member, ← List.map_take, List.take_range]
          · rw [count, if_neg member, if_neg member]

/-- The check looks at the delivered bytes, followed by what the buffer held before. -/
theorem prepare_tempBuffer (wellFormed : image.FilesWellFormed) (mounted : k.fileSystem = image.mount)
    (valid : k.processNumber < 6) (processName : List UInt8) (tempBuffer : Buffer) :
    (k.prepare processName tempBuffer).tempBuffer =
      Memory.storeBytes tempBuffer 0 (image.deliveredBytes k processName) := by
  rw [k.prepare_header valid, header, headerBytes_eq wellFormed mounted]

/-- The condition under which the check decides as the file does. An entry that is no regular file does
not deliver the magic number, an executable finds a free descriptor in the new block, and without
four delivered bytes the old contents of the buffer do not complete the magic number. -/
structure FileDecides (image : Image) (k : Kernel) (processName : List UInt8) (tempBuffer : Buffer) :
    Prop where
  regular : ∀ dentry ∈ image.mount.readDentryByName (some processName),
    (image.deliveredBytes k processName).take 4 = elfMagic → dentry.fileType = 2
  opened : image.Executable processName → k.spareDescriptor = none → HasMagic tempBuffer
  fresh : ¬image.Executable processName → (image.deliveredBytes k processName).length < 4 →
    ¬HasMagic (Memory.storeBytes tempBuffer 0 (image.deliveredBytes k processName))

theorem deliveredBytes_of_full (image : Image) (full : k.spareDescriptor = none) :
    image.deliveredBytes k processName = [] := by
  unfold Image.deliveredBytes
  rw [full]
  split
  · contradiction
  · rfl

/-- An executable that finds a descriptor delivers the magic number. -/
theorem Image.Executable.delivered (executable : image.Executable processName) {fd : Nat}
    (spare : k.spareDescriptor = some fd) :
    4 ≤ (image.deliveredBytes k processName).length ∧
      (image.deliveredBytes k processName).take 4 = elfMagic := by
  obtain ⟨dentry, resolved, _, member, magic⟩ := executable
  have bytes : image.deliveredBytes k processName = (image.contents dentry.inodeNum).take 40 := by
    simp only [Image.deliveredBytes, Option.mem_def.mp resolved, spare, if_pos member]
  have four := length_of_magic magic
  rw [bytes, List.length_take, List.take_take]
  exact ⟨by omega, magic⟩

/-- Delivered bytes come from the file of the entry. -/
theorem deliveredBytes_source (delivered : image.deliveredBytes k processName ≠ []) :
    ∃ dentry ∈ image.mount.readDentryByName (some processName), dentry.inodeNum < image.inodes ∧
      image.deliveredBytes k processName = (image.contents dentry.inodeNum).take 40 := by
  unfold Image.deliveredBytes at delivered ⊢
  split at delivered
  · rename_i dentry fd resolved spare
    split at delivered
    · rename_i member
      rw [if_pos member]
      exact ⟨dentry, resolved, member, rfl⟩
    · exact absurd rfl delivered
  · exact absurd rfl delivered

/-- The buffer has the magic number exactly for an executable when the condition holds. -/
theorem hasMagic_iff_executable (image : Image) (k : Kernel) (processName : List UInt8) (tempBuffer : Buffer) :
    (HasMagic (Memory.storeBytes tempBuffer 0 (image.deliveredBytes k processName)) ↔
      image.Executable processName) ↔ FileDecides image k processName tempBuffer := by
  constructor
  · intro exactly
    refine ⟨fun dentry resolved magic => ?_, fun executable full => ?_, fun missing _ magic => ?_⟩
    · have enough := length_of_magic magic
      obtain ⟨owner, owned, regular, _⟩ := exactly.mp ((hasMagic_storeBytes_iff tempBuffer enough).mpr magic)
      rw [Option.mem_unique resolved owned]
      exact regular
    · have magic := exactly.mpr executable
      rw [deliveredBytes_of_full image full, Memory.storeBytes, List.length_nil, Memory.overlay_zero] at magic
      exact magic
    · exact missing (exactly.mp magic)
  · intro decides
    constructor
    · intro magic
      by_contra missing
      obtain short | enough := Nat.lt_or_ge (image.deliveredBytes k processName).length 4
      · exact decides.fresh missing short magic
      · have first := (hasMagic_storeBytes_iff tempBuffer enough).mp magic
        have nonempty : image.deliveredBytes k processName ≠ [] := fun nothing => by simp [nothing] at enough
        obtain ⟨dentry, resolved, member, bytes⟩ := deliveredBytes_source nonempty
        refine missing ⟨dentry, resolved, decides.regular dentry resolved first, member, ?_⟩
        rw [bytes, List.take_take] at first
        exact first
    · intro executable
      cases spare : k.spareDescriptor with
      | none =>
          rw [deliveredBytes_of_full image spare, Memory.storeBytes, List.length_nil, Memory.overlay_zero]
          exact decides.opened executable spare
      | some fd =>
          obtain ⟨enough, magic⟩ := executable.delivered spare
          exact (hasMagic_storeBytes_iff tempBuffer enough).mpr magic

/-- The check passes exactly for executables, and everything else is refused, exactly under the condition. -/
theorem executable_check_iff (wellFormed : image.FilesWellFormed) (mounted : k.fileSystem = image.mount)
    {command : Command} {tail : List UInt8} (reached : Reached k command processName tail) (locals : Locals) :
    (((k.prepare processName locals.tempBuffer).isExecutable ↔ image.Executable processName) ∧
      (¬image.Executable processName → ∃ after, k.sysExecute command locals = some (-1, after))) ↔
      FileDecides image k processName locals.tempBuffer := by
  have passes : (k.prepare processName locals.tempBuffer).isExecutable ↔
      HasMagic (Memory.storeBytes locals.tempBuffer 0 (image.deliveredBytes k processName)) := by
    rw [isExecutable_iff, prepare_tempBuffer wellFormed mounted reached.valid]
  rw [passes, ← hasMagic_iff_executable image k processName locals.tempBuffer]
  constructor
  · intro checked
    exact checked.1
  · intro exactly
    refine ⟨exactly, fun missing => ?_⟩
    have refused : ¬(k.prepare processName locals.tempBuffer).isExecutable := fun passed =>
      missing (exactly.mp (passes.mp passed))
    rw [reached.sysExecute_eq locals, if_neg refused]
    exact ⟨_, rfl⟩

end Check

/-- A name is that of an executable when the read loop finds the magic number in its file. -/
theorem Image.FilesWellFormed.executable {image : Image} (wellFormed : image.FilesWellFormed)
    {processName : List UInt8} {dentry : Dentry}
    (resolved : image.mount.readDentryByName (some processName) = some dentry) (regular : dentry.fileType = 2)
    (member : dentry.inodeNum < image.inodes)
    (magic : (List.range (min 4 (image.mount.lengthOfData dentry.inodeNum))).map
      (image.mount.fileByte dentry.inodeNum) = elfMagic) : image.Executable processName := by
  refine ⟨dentry, resolved, regular, member, ?_⟩
  rw [← wellFormed.fileBytes_eq member, wellFormed.inodesWellFormed.fileBytes_eq member, ← List.map_take,
    List.take_range]
  exact magic

section Sample

/-- The command names a program without arguments. -/
theorem reached_of_word {command : List UInt8} {processName tail : List UInt8}
    (nonempty : command.head? ≠ some 0 ∧ command ≠ [])
    (word : firstWord command (maxCommandLen - 1) = some (processName, tail)) :
    Reached sampleKernel (some command) processName tail := by
  obtain ⟨first, rest, rfl⟩ := List.exists_cons_of_ne_nil nonempty.2
  refine ⟨by rw [sampleKernel_booted.processNumber]; decide, first, rest, rfl, ?_, word⟩
  rintro rfl
  exact nonempty.1 rfl

theorem mountedImage_shell :
    mountedImage.mount.readDentryByName (some [115, 104, 101, 108, 108]) = some (mountedImage.entryAt 0) ∧
    (mountedImage.entryAt 0).fileType = 2 ∧ (mountedImage.entryAt 0).inodeNum = 0 ∧
    (List.range (min 4 (mountedImage.mount.lengthOfData 0))).map (mountedImage.mount.fileByte 0) = elfMagic := by
  decide +kernel

theorem sampleKernel_spareDescriptor : sampleKernel.spareDescriptor = some 2 := by decide +kernel

/-- The shell of the sample image passes the check. -/
theorem executable_check_iff_sample :
    (((sampleKernel.prepare [115, 104, 101, 108, 108] sampleLocals.tempBuffer).isExecutable ↔
      mountedImage.Executable [115, 104, 101, 108, 108]) ∧
      (¬mountedImage.Executable [115, 104, 101, 108, 108] → ∃ after,
        sampleKernel.sysExecute (some [115, 104, 101, 108, 108, 0]) sampleLocals = some (-1, after))) := by
  have reached : Reached sampleKernel (some [115, 104, 101, 108, 108, 0]) [115, 104, 101, 108, 108] [0] :=
    reached_of_word (by decide) rfl
  apply (executable_check_iff mountedImage_filesWellFormed sampleKernel_fileSystem reached _).mpr
  obtain ⟨resolved, regular, inode, _⟩ := mountedImage_shell
  have member : 0 < mountedImage.inodes := by
    rw [mountedImage_words.1]
    decide
  have delivered : (mountedImage.deliveredBytes sampleKernel [115, 104, 101, 108, 108]).length = 40 := by
    simp only [Image.deliveredBytes, resolved, sampleKernel_spareDescriptor, inode, if_pos member, List.length_take,
      mountedImage_filesWellFormed.length_contents member, mountedImage_words.2.2.1, Nat.min_self]
  constructor
  · intro dentry found _
    rw [resolved, Option.mem_some_iff] at found
    rw [← found]
    exact regular
  · intro _ full
    rw [sampleKernel_spareDescriptor] at full
    cases full
  · intro _ short
    omega

/-- A name that the image does not hold passes with an old magic number in the buffer, and so does a
device whose inode number is that of an executable. -/
theorem executable_check_fooled : Booted sampleKernel ∧ mountedImage.FilesWellFormed ∧
    sampleKernel.fileSystem = mountedImage.mount ∧
    (Reached sampleKernel (some [120, 0]) [120] [0] ∧
      (sampleKernel.prepare [120] magicNum).isExecutable ∧ ¬mountedImage.Executable [120]) ∧
    Reached sampleKernel (some [114, 116, 99, 0]) [114, 116, 99] [0] ∧
      (sampleKernel.prepare [114, 116, 99] fun _ => 0).isExecutable ∧
      ¬mountedImage.Executable [114, 116, 99] := by
  have fooled : mountedImage.mount.readDentryByName (some [120]) = none ∧
      mountedImage.mount.readDentryByName (some [114, 116, 99]) = some (mountedImage.entryAt 1) ∧
      (mountedImage.entryAt 1).fileType = 0 ∧ (sampleKernel.prepare [120] magicNum).isExecutable ∧
      (sampleKernel.prepare [114, 116, 99] fun _ => 0).isExecutable := by decide +kernel
  obtain ⟨missing, device, type, stale, shared⟩ := fooled
  refine ⟨sampleKernel_booted, mountedImage_filesWellFormed, sampleKernel_fileSystem,
    ⟨reached_of_word (by decide) rfl, stale, ?_⟩, reached_of_word (by decide) rfl, shared, ?_⟩
  · rintro ⟨dentry, resolved, _⟩
    rw [missing] at resolved
    cases resolved
  · rintro ⟨dentry, resolved, regular, _⟩
    rw [device, Option.mem_some_iff] at resolved
    rw [← resolved, type] at regular
    cases regular

end Sample

end OrcaOS
