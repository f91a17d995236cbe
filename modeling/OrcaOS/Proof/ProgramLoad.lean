import OrcaOS.Proof.ArgumentParsing

/-!
Where `sys_execute` stores the bytes of a program file.
-/

namespace OrcaOS
open Foundation Kernel

/-- The virtual addresses of the page that a program runs in. -/
abbrev userPage : Set Nat := Memory.window mb128 fourMb

namespace Kernel
variable (k : Kernel)

/-- The byte that the running program finds at a virtual address of its page. -/
def userByte (k : Kernel) (address : Nat) : Option UInt8 :=
  if address ∈ userPage then some (k.userMemory (upperAddress (k.pageTables.pageDirectory 32)).toNat address) else none

/-- The same kernel with other contents of the user frames. -/
def withUserMemory (k : Kernel) (userMemory : Nat → Memory) : Kernel := { k with userMemory }

/-- Whatever the user frames hold, the call changes them only inside the user page. -/
def LoadsInside (k : Kernel) (command : Command) (locals : Locals) : Prop :=
  ∀ userMemory : Nat → Memory, ∀ outcome ∈ (k.withUserMemory userMemory).sysExecute command locals,
    ∀ frame, Set.EqOn (outcome.2.userMemory frame) (userMemory frame) userPageᶜ

/-- The frame that entry 32 of the directory maps for the next program. -/
def programFrame (k : Kernel) : Nat :=
  (upperAddress ((systemCallPaging k.pageTables k.processNumber).pageDirectory 32)).toNat

/-- The bytes of a frame after the header and the rest of a program were stored. -/
def loadedBytes (memory : Memory) (header : Buffer) (rest : List UInt8) : Memory :=
  (memory.overlay fileImage 40 header).storeBytes (fileImage + 40) rest

theorem fileOpen_userMemory (filename : Option (List UInt8)) :
    (k.fileOpen filename).2.userMemory = k.userMemory := by
  unfold fileOpen
  split
  · rfl
  · split <;> rfl

theorem fileRead_userMemory (fd : Int) (buf : Option Buffer) (nbytes : Int) :
    (k.fileRead fd buf nbytes).2.2.userMemory = k.userMemory := by
  unfold fileRead
  split
  · rfl
  · dsimp only
    split
    · rfl
    · split <;> rfl

theorem fileClose_userMemory (fd : Int) : (k.fileClose fd).2.userMemory = k.userMemory := by
  unfold fileClose
  split
  · rfl
  · split <;> rfl

/-- Up to its test, `sys_execute` keeps the user frames. -/
theorem prepare_userMemory (processName : List UInt8) (tempBuffer : Buffer) :
    (k.prepare processName tempBuffer).kernel.userMemory = k.userMemory := by
  rw [prepare_eq]
  dsimp only
  rw [fileRead_userMemory, fileOpen_userMemory, claimed_eq]

/-- A rejected program keeps them, too. -/
theorem abandon_userMemory (candidate : Candidate) :
    (abandon candidate).userMemory = candidate.kernel.userMemory :=
  candidate.kernel.fileClose_userMemory candidate.fd

theorem enterProgram_userMemory (candidate : Candidate) (locals : Locals) (text : List UInt8) :
    (enterProgram (copyArguments candidate locals text)).2.userMemory =
      ((mapped candidate text).loadProgram candidate.fd (loadedHeader candidate locals text)).userMemory := by
  rw [enterProgram_eq]

/-- Without a descriptor only the header is stored. -/
theorem loadProgram_negative_userMemory (tempBuffer : Buffer) :
    (k.loadProgram (-1) tempBuffer).userMemory =
      Function.update k.userMemory (upperAddress (k.pageTables.pageDirectory 32)).toNat
        (loadedBytes (k.userMemory (upperAddress (k.pageTables.pageDirectory 32)).toNat) tempBuffer []) := by
  have nothing (buf : Buffer) : (k.storeUser fileImage 40 tempBuffer).fileRead (-1) (some buf) fourMb =
      (-1, some buf, k.storeUser fileImage 40 tempBuffer) := by
    rw [fileRead, if_pos (by omega)]
  unfold loadProgram
  dsimp only
  rw [fileClose_userMemory, nothing]
  simp only [storeUser, loadedBytes, Memory.storeBytes, Int.reduceNeg, Int.reduceToNat, List.length_nil,
    Memory.overlay_zero, Function.update_self, Function.update_idem]

/-- Behind the header the rest of the file is stored. -/
theorem loadProgram_userMemory {fd inode : Nat} (file : OpenOnFile k fd inode 40) (tempBuffer : Buffer) :
    (k.loadProgram fd tempBuffer).userMemory =
      Function.update k.userMemory (upperAddress (k.pageTables.pageDirectory 32)).toNat
        (loadedBytes (k.userMemory (upperAddress (k.pageTables.pageDirectory 32)).toNat) tempBuffer
          ((k.fileSystem.fileBytes inode).drop 40)) := by
  have stored : OpenOnFile (k.storeUser fileImage 40 tempBuffer) fd inode 40 :=
    ⟨file.inside, file.wellFormed, file.member, file.inode, file.position⟩
  have read := stored.fileRead_eq (fun _ => 0) (show fourMb < 2147483648 by decide)
  have fits := file.wellFormed.length inode file.member
  have whole : Stream.deliver ((k.storeUser fileImage 40 tempBuffer).fileSystem.fileBytes inode) 40 fourMb =
      (k.fileSystem.fileBytes inode).drop 40 := by
    apply List.take_of_length_le
    have room : inodeBlocks * blockSize ≤ fourMb := by decide
    have length := file.wellFormed.length_fileBytes file.member
    rw [List.length_drop]
    change (k.fileSystem.fileBytes inode).length - 40 ≤ fourMb
    omega
  rw [whole] at read
  unfold loadProgram
  dsimp only
  rw [fileClose_userMemory, read]
  have copied (memory : Memory) (rest : List UInt8) : memory.overlay (fileImage + 40) rest.length
      (Memory.storeBytes (fun _ => 0) 0 rest) = memory.storeBytes (fileImage + 40) rest := by
    apply Memory.overlay_congr
    intro index inside
    have byte := Memory.storeBytes_inside (fun _ => 0) 0 rest inside
    rw [Nat.zero_add] at byte
    rw [byte, List.getD_eq_getElem _ _ inside]
  simp only [storeUser, loadedBytes, Int.toNat_natCast, Option.getD_some, Function.update_self, copied,
    setCurrent, Function.update_idem]

end Kernel

/-- The argument text does not move the position of the program file. -/
theorem OpenOnFile.mapped {candidate : Candidate} {fd inode position : Nat}
    (file : OpenOnFile candidate.kernel fd inode position) (text : List UInt8) :
    OpenOnFile (mapped candidate text) fd inode position where
  inside := file.inside
  wellFormed := file.wellFormed
  member := file.member
  inode := (mapped_descriptor candidate text file.inside .inode).trans file.inode
  position := (mapped_descriptor candidate text file.inside .position).trans file.position

section Load
variable {image : Image} {k : Kernel} {command : Command} {processName tail : List UInt8} {dentry : Dentry} {fd : Nat}

/-- A program file is tested through the spare descriptor, which stands behind its header afterwards. -/
theorem prepare_openOnFile (wellFormed : image.FilesWellFormed) (mounted : k.fileSystem = image.mount)
    (valid : k.processNumber < 6) (resolved : image.mount.readDentryByName (some processName) = some dentry)
    (member : dentry.inodeNum < image.inodes) (nonempty : image.contents dentry.inodeNum ≠ [])
    (spare : k.spareDescriptor = some fd) (tempBuffer : Buffer) :
    (k.prepare processName tempBuffer).fd = fd ∧
      (k.prepare processName tempBuffer).kernel.fileSystem = image.mount ∧
      OpenOnFile (k.prepare processName tempBuffer).kernel fd dentry.inodeNum 40 := by
  obtain ⟨opened, system, file⟩ := claimed_openOnFile wellFormed mounted valid resolved member spare
  have read := file.fileRead_eq tempBuffer (show 40 < 2147483648 by decide)
  have moved : Stream.advance (image.contents dentry.inodeNum) 0 40 = 40 := by
    have positive := List.length_pos_iff.mpr nonempty
    rw [Stream.advance, Stream.length_deliver, if_neg (by omega)]
  rw [system, wellFormed.fileBytes_eq member, moved, Nat.cast_ofNat] at read
  rw [prepare_eq]
  dsimp only
  rw [opened, read]
  exact ⟨rfl, system, file.setPosition (by decide)⟩

/-- A launched program file is stored as a whole in the frame of the program. -/
theorem enterProgram_loads (wellFormed : image.FilesWellFormed) (mounted : k.fileSystem = image.mount)
    (valid : k.processNumber < 6) (resolved : image.mount.readDentryByName (some processName) = some dentry)
    (member : dentry.inodeNum < image.inodes) (nonempty : image.contents dentry.inodeNum ≠ [])
    (spare : k.spareDescriptor = some fd) (tempBuffer : Buffer) (locals : Locals) (text : List UInt8) :
    (enterProgram (copyArguments (k.prepare processName tempBuffer) locals text)).2.userMemory =
      Function.update k.userMemory k.programFrame (loadedBytes (k.userMemory k.programFrame)
        (locals.overrun (k.header processName tempBuffer) k.argumentsStart text)
        ((image.contents dentry.inodeNum).drop 40)) := by
  obtain ⟨opened, system, file⟩ := prepare_openOnFile wellFormed mounted valid resolved member nonempty spare tempBuffer
  have frame : (mapped (k.prepare processName tempBuffer) text).pageTables =
      systemCallPaging k.pageTables k.processNumber := k.mapped_pageTables processName tempBuffer text valid
  have files : (mapped (k.prepare processName tempBuffer) text).fileSystem = image.mount := system
  have users : (mapped (k.prepare processName tempBuffer) text).userMemory = k.userMemory :=
    k.prepare_userMemory processName tempBuffer
  rw [enterProgram_userMemory, opened, loadProgram_userMemory _ (file.mapped text), loadedHeader,
    k.prepare_header valid, k.prepare_argumentsStart, files, users, frame, wellFormed.fileBytes_eq member, programFrame]

/-- A program file of the image. -/
theorem Image.Executable.file (executable : image.Executable processName)
    (resolved : image.mount.readDentryByName (some processName) = some dentry) :
    dentry.inodeNum < image.inodes ∧ (image.contents dentry.inodeNum).take 4 = elfMagic := by
  obtain ⟨owner, owned, _, member, magic⟩ := executable
  obtain rfl := Option.mem_unique resolved owned
  exact ⟨member, magic⟩

/-- The header of an executable is taken from its file. -/
theorem Image.Executable.header (executable : image.Executable processName) (wellFormed : image.FilesWellFormed)
    (mounted : k.fileSystem = image.mount)
    (resolved : image.mount.readDentryByName (some processName) = some dentry)
    (spare : k.spareDescriptor = some fd) (tempBuffer : Buffer) :
    k.header processName tempBuffer = Memory.storeBytes tempBuffer 0 ((image.contents dentry.inodeNum).take 40) := by
  have member := (executable.file resolved).1
  rw [Kernel.header, headerBytes_eq wellFormed mounted]
  simp only [Image.deliveredBytes, resolved, spare, if_pos member]

theorem Image.Executable.hasMagic (executable : image.Executable processName) (wellFormed : image.FilesWellFormed)
    (mounted : k.fileSystem = image.mount) (spare : k.spareDescriptor = some fd) (tempBuffer : Buffer) :
    HasMagic (k.header processName tempBuffer) := by
  obtain ⟨enough, magic⟩ := executable.delivered spare
  rw [Kernel.header, headerBytes_eq wellFormed mounted]
  exact (hasMagic_storeBytes_iff tempBuffer enough).mpr magic

/-- An executable with a spare descriptor is launched, so its file is loaded. -/
theorem Reached.loads (reached : Reached k command processName tail) (wellFormed : image.FilesWellFormed)
    (mounted : k.fileSystem = image.mount) (executable : image.Executable processName)
    (resolved : image.mount.readDentryByName (some processName) = some dentry)
    (spare : k.spareDescriptor = some fd) (locals : Locals) :
    k.sysExecute command locals =
        (copiedText tail.tail).bind (launch (k.prepare processName locals.tempBuffer) locals) ∧
      ∀ text, (enterProgram (copyArguments (k.prepare processName locals.tempBuffer) locals text)).2.userMemory =
        Function.update k.userMemory k.programFrame (loadedBytes (k.userMemory k.programFrame)
          (locals.overrun (k.header processName locals.tempBuffer) k.argumentsStart text)
          ((image.contents dentry.inodeNum).drop 40)) := by
  obtain ⟨member, magic⟩ := executable.file resolved
  have nonempty : image.contents dentry.inodeNum ≠ [] := by
    have enough := length_of_magic magic
    exact List.ne_nil_of_length_pos (by omega)
  have passes := (reached.isExecutable_iff _).mpr (executable.hasMagic wellFormed mounted spare locals.tempBuffer)
  refine ⟨by rw [reached.sysExecute_eq, if_pos passes], ?_⟩
  exact enterProgram_loads wellFormed mounted reached.valid resolved member nonempty spare locals.tempBuffer locals

end Load

/-- The first 40 bytes are those of the header. -/
theorem loadedBytes_header (memory : Memory) (header : Buffer) (rest : List UInt8) {index : Nat} (low : index < 40) :
    loadedBytes memory header rest (fileImage + index) = header index := by
  rw [loadedBytes, Memory.storeBytes, Memory.overlay_outside _ _ _ _ (by omega), Memory.overlay_inside _ _ _ _ low]

/-- The rest of the file follows them. -/
theorem loadedBytes_rest (memory : Memory) (header : Buffer) {file : List UInt8} {index : Nat} (high : 40 ≤ index)
    (inside : index < file.length) : loadedBytes memory header (file.drop 40) (fileImage + index) = file.getD index 0 := by
  obtain ⟨offset, rfl⟩ := Nat.exists_eq_add_of_le high
  have byte := Memory.storeBytes_inside (memory.overlay fileImage 40 header)
    (fileImage + 40) (file.drop 40) (show offset < (file.drop 40).length by rw [List.length_drop]; omega)
  rw [loadedBytes, ← Nat.add_assoc, byte, List.getElem_drop, List.getD_eq_getElem _ _ inside]

/-- A header that was read from a file of at least 40 bytes. -/
theorem storeBytes_header (tempBuffer : Buffer) {file : List UInt8} (enough : 40 ≤ file.length) {index : Nat}
    (low : index < 40) : Memory.storeBytes tempBuffer 0 (file.take 40) index = file.getD index 0 := by
  have inside : index < (file.take 40).length := by
    rw [List.length_take]
    omega
  have byte := Memory.storeBytes_inside tempBuffer 0 _ inside
  rw [Nat.zero_add] at byte
  rw [byte, List.getElem_take, List.getD_eq_getElem]

/-- The little-endian word at byte 24 of a file is where its program starts. -/
def Image.entryWord (image : Image) (inode : Nat) : Nat :=
  Memory.load32 (fun index => (image.contents inode).getD index 0) 24

/-- Every byte of the text that lands in `temp_buffer` is the byte of the header which it replaces. -/
def Locals.HeaderKept (locals : Locals) (start : Nat) (text file : List UInt8) : Prop :=
  ∀ index < 40, start ≤ locals.bufferAddress + index → locals.bufferAddress + index < start + text.length →
    text.getD (locals.bufferAddress + index - start) 0 = file.getD index 0

theorem Locals.headerKept_iff (locals : Locals) (start : Nat) (text : List UInt8) {header : Buffer} {file : List UInt8}
    (read : ∀ index < 40, header index = file.getD index 0) :
    locals.HeaderKept start text file ↔
      ∀ index < 40, locals.overrun header start text index = file.getD index 0 := by
  refine forall₂_congr fun index low => ?_
  unfold overrun Memory.storeBytes Memory.overlay
  split
  · rename_i overrun
    exact ⟨fun kept => kept overrun.1 overrun.2, fun kept _ _ => kept⟩
  · rename_i apart
    dsimp only
    rw [Nat.add_sub_cancel_left, read index low]
    exact iff_of_true (fun above below => absurd ⟨above, below⟩ apart) rfl

/-- The whole file stands in the user page, its entry word was returned, and its descriptor is free. -/
structure ProgramPlaced (image : Image) (inode fd : Nat) (result : Int) (after : Kernel) : Prop where
  bytes : ∀ index < image.fileLength inode,
    after.userByte (fileImage + index) = some ((image.contents inode).getD index 0)
  entry : result = signed32 (image.entryWord inode)
  closed : after.current (.fileArray fd .flags) = 0

section Loader
variable {image : Image} {k : Kernel} {command : Command} {processName tail : List UInt8} {dentry : Dentry} {fd : Nat}

/-- A launched program of at least 40 bytes that fits in its page is placed as a whole exactly when its
argument text keeps the header. -/
theorem Reached.programPlaced_iff (reached : Reached k command processName tail) (wellFormed : image.FilesWellFormed)
    (mounted : k.fileSystem = image.mount) (executable : image.Executable processName)
    (resolved : image.mount.readDentryByName (some processName) = some dentry)
    (enough : 40 ≤ image.fileLength dentry.inodeNum)
    (fits : fileImage + image.fileLength dentry.inodeNum ≤ mb128 + fourMb)
    (spare : k.spareDescriptor = some fd) (locals : Locals) (text : List UInt8) :
    ProgramPlaced image dentry.inodeNum fd
        (signed32 (entryPoint (locals.overrun (k.header processName locals.tempBuffer) k.argumentsStart text)))
        (enterProgram (copyArguments (k.prepare processName locals.tempBuffer) locals text)).2 ↔
      locals.HeaderKept k.argumentsStart text (image.contents dentry.inodeNum) := by
  have users := (reached.loads wellFormed mounted executable resolved spare locals).2 text
  have length := wellFormed.length_contents (executable.file resolved).1
  have effect := k.enterProgram_accepted reached.valid processName locals.tempBuffer locals text
  have read (index : Nat) (low : index < 40) :
      k.header processName locals.tempBuffer index = (image.contents dentry.inodeNum).getD index 0 := by
    rw [executable.header wellFormed mounted resolved spare]
    exact storeBytes_header _ (by omega) low
  have byte (index : Nat) (inside : index < image.fileLength dentry.inodeNum) :
      (enterProgram (copyArguments (k.prepare processName locals.tempBuffer) locals text)).2.userByte (fileImage + index) =
        some (loadedBytes (k.userMemory k.programFrame)
          (locals.overrun (k.header processName locals.tempBuffer) k.argumentsStart text)
          ((image.contents dentry.inodeNum).drop 40) (fileImage + index)) := by
    have page : fileImage + index ∈ userPage := ⟨by rw [fileImage, mb128]; omega, by omega⟩
    rw [userByte, if_pos page, effect.pageTables, ← programFrame, users, Function.update_self]
  rw [locals.headerKept_iff _ _ read]
  constructor
  · intro placed index low
    have same := placed.bytes index (by omega)
    rw [byte index (by omega), loadedBytes_header _ _ _ low] at same
    exact Option.some.inj same
  · intro kept
    refine ⟨fun index inside => ?_, ?_, ?_⟩
    · rw [byte index inside]
      by_cases low : index < 40
      · rw [loadedBytes_header _ _ _ low, kept index low]
      · rw [loadedBytes_rest _ _ (by omega) (by omega)]
    · exact congrArg signed32 (Memory.load32_congr fun index small => kept (24 + index) (by omega))
    · obtain ⟨inside, low, free, _⟩ := k.spareDescriptor_eq_some_iff.mp spare
      rw [current, effect.currentPcb, effect.descriptors fd inside, settledField_flags k reached.valid processName inside,
        if_neg (by omega), free]

/-- A call places a program of at least 40 bytes that fits in its page as a whole exactly when its argument
text spares the other locals and keeps the header. -/
theorem loader_places_program_iff (wellFormed : image.FilesWellFormed) (mounted : k.fileSystem = image.mount)
    (reached : Reached k command processName tail) (executable : image.Executable processName)
    (resolved : image.mount.readDentryByName (some processName) = some dentry)
    (enough : 40 ≤ image.fileLength dentry.inodeNum)
    (fits : fileImage + image.fileLength dentry.inodeNum ≤ mb128 + fourMb)
    (spare : k.spareDescriptor = some fd) (locals : Locals) {text : List UInt8}
    (copied : copiedText tail.tail = some text) :
    (∃ result after, k.sysExecute command locals = some (result, after) ∧
      ProgramPlaced image dentry.inodeNum fd result after) ↔
      locals.Spared k.argumentsStart text.length ∧
        locals.HeaderKept k.argumentsStart text (image.contents dentry.inodeNum) := by
  have executed := (reached.loads wellFormed mounted executable resolved spare locals).1
  rw [executed, copied, Option.bind_some,
    ← reached.programPlaced_iff wellFormed mounted executable resolved enough fits spare locals text]
  simp only [k.launch_prepared_iff, k.prepare_header reached.valid]
  constructor
  · intro placed
    obtain ⟨_, _, ⟨spared, rfl, rfl⟩, placed⟩ := placed
    exact ⟨spared, placed⟩
  · intro placed
    exact ⟨_, _, ⟨placed.1, rfl, rfl⟩, placed.2⟩

/-- The rest of a program stays in the page exactly when the whole file fits. -/
theorem rest_subset_iff (length : Nat) :
    Memory.window (fileImage + 40) (length - 40) ⊆ userPage ↔ fileImage + length ≤ mb128 + fourMb := by
  have start : fileImage = 134512640 := rfl
  have page : mb128 = 134217728 ∧ fourMb = 4194304 := ⟨rfl, rfl⟩
  constructor
  · intro subset
    by_contra large
    obtain ⟨_, high⟩ := subset (show fileImage + length - 1 ∈ Memory.window (fileImage + 40) (length - 40) from
      ⟨by omega, by omega⟩)
    omega
  · intro fits address own
    obtain ⟨low, high⟩ := own
    exact ⟨by omega, by omega⟩

/-- The header of a program lies in its page. -/
theorem header_eqOn (header : Buffer) (memory : Memory) :
    Set.EqOn (memory.overlay fileImage 40 header) memory userPageᶜ :=
  Memory.eqOn_widen (memory.overlay_eqOn fileImage 40 header) (by decide) (by decide)

/-- A change of one frame is seen in the frames exactly where it is seen in its own memory. -/
theorem updates_eqOn_iff (frame : Nat) (change : Memory → Memory) (region : Set Nat) :
    (∀ userMemory : Nat → Memory, ∀ other, Set.EqOn (Function.update userMemory frame (change (userMemory frame)) other)
      (userMemory other) region) ↔ ∀ memory, Set.EqOn (change memory) memory region := by
  constructor
  · intro kept memory
    have own := kept (fun _ => memory) frame
    rwa [Function.update_self] at own
  · intro kept userMemory other
    obtain rfl | different := eq_or_ne other frame
    · rw [Function.update_self]
      exact kept (userMemory other)
    · rw [Function.update_of_ne different]
      exact Set.eqOn_refl _ _

theorem Reached.withUserMemory (reached : Reached k command processName tail) (userMemory : Nat → Memory) :
    Reached (k.withUserMemory userMemory) command processName tail := ⟨reached.valid, reached.named⟩

theorem Kernel.withUserMemory_header (k : Kernel) (userMemory : Nat → Memory) (processName : List UInt8)
    (tempBuffer : Buffer) : (k.withUserMemory userMemory).header processName tempBuffer =
      k.header processName tempBuffer := rfl

/-- A launched program with a descriptor stays in its page exactly when its file fits. -/
theorem Reached.loadsInside_iff (reached : Reached k command processName tail) (wellFormed : image.FilesWellFormed)
    (mounted : k.fileSystem = image.mount) (executable : image.Executable processName)
    (resolved : image.mount.readDentryByName (some processName) = some dentry)
    (spare : k.spareDescriptor = some fd) {locals : Locals} {text : List UInt8}
    (copied : copiedText tail.tail = some text) (spared : locals.Spared k.argumentsStart text.length) :
    k.LoadsInside command locals ↔ fileImage + image.fileLength dentry.inodeNum ≤ mb128 + fourMb := by
  have length := wellFormed.length_contents (executable.file resolved).1
  rw [← rest_subset_iff, ← length, ← List.length_drop, ← Memory.storeBytes_within_iff (header_eqOn
    (locals.overrun (k.header processName locals.tempBuffer) k.argumentsStart text)), ← updates_eqOn_iff k.programFrame]
  apply forall_congr'
  intro userMemory
  obtain ⟨executed, stored⟩ :=
    (reached.withUserMemory userMemory).loads wellFormed mounted executable resolved spare locals
  have users := stored text
  rw [k.withUserMemory_header] at users
  have launched := ((k.withUserMemory userMemory).launch_prepared_iff processName text locals _ _).mpr
    ⟨spared, rfl, rfl⟩
  rw [executed, copied, Option.bind_some, launched]
  constructor
  · intro inside other
    have kept := inside _ rfl other
    rw [users] at kept
    exact kept
  · intro inside outcome returned other
    obtain rfl := Option.mem_some_iff.mp returned
    rw [users]
    exact inside other

/-- Without a spare descriptor nothing but the header is stored. -/
theorem Reached.loadsInside_of_full (reached : Reached k command processName tail)
    (full : k.spareDescriptor = none) (locals : Locals) : k.LoadsInside command locals := by
  intro userMemory outcome returned frame
  have missing : (k.withUserMemory userMemory).claimed.fileDescriptor processName = none := by
    apply Option.eq_none_iff_forall_ne_some.mpr
    intro fd claimed
    have spare := ((k.withUserMemory userMemory).claimed_fileDescriptor reached.valid processName fd).mp claimed
    have none : (k.withUserMemory userMemory).spareDescriptor = none := full
    rw [none] at spare
    cases spare.2
  have descriptor : ((k.withUserMemory userMemory).prepare processName locals.tempBuffer).fd = -1 := by
    rw [prepare_eq, fileOpen_of_none _ missing]
  have users := (k.withUserMemory userMemory).prepare_userMemory processName locals.tempBuffer
  rw [Option.mem_def, (reached.withUserMemory userMemory).sysExecute_eq] at returned
  generalize (k.withUserMemory userMemory).prepare processName locals.tempBuffer = candidate at *
  split at returned
  · obtain ⟨text, _, launched⟩ := Option.bind_eq_some_iff.mp returned
    obtain ⟨_, rfl⟩ := (launch_eq_some_iff candidate locals text outcome).mp launched
    rw [enterProgram_userMemory, descriptor, loadProgram_negative_userMemory]
    refine (updates_eqOn_iff _ (fun memory => loadedBytes memory (loadedHeader candidate locals text) []) userPageᶜ).mpr
      ?_ candidate.kernel.userMemory frame |>.trans ?_
    · intro memory
      rw [loadedBytes, Memory.storeBytes, List.length_nil, Memory.overlay_zero]
      exact header_eqOn (loadedHeader candidate locals text) memory
    · rw [users]
      exact Set.eqOn_refl _ _
  · obtain rfl := Option.some.inj returned
    rw [abandon_userMemory, users]
    exact Set.eqOn_refl _ _

/-- Loading an executable returns and stays in the user page exactly when its arguments spare the locals and
its file fits, unless the command is not readable or no descriptor is left for the file. -/
theorem loads_inside_iff (wellFormed : image.FilesWellFormed) (mounted : k.fileSystem = image.mount)
    (reached : Reached k command processName tail) (executable : image.Executable processName)
    (resolved : image.mount.readDentryByName (some processName) = some dentry) (locals : Locals) :
    (k.Returns command locals ∧ k.LoadsInside command locals) ↔ ∀ text ∈ copiedText tail.tail,
      (HasMagic (k.header processName locals.tempBuffer) → locals.Spared k.argumentsStart text.length) ∧
        (k.spareDescriptor ≠ none → fileImage + image.fileLength dentry.inodeNum ≤ mb128 + fourMb) := by
  rw [reached.returns_iff locals]
  cases spare : k.spareDescriptor with
  | none =>
      rw [and_iff_left (reached.loadsInside_of_full spare locals)]
      simp only [ne_eq, not_true_eq_false, false_imp_iff, and_true]
      exact ⟨fun spares text copied magic => spares magic text copied, fun spares magic text copied =>
        spares text copied magic⟩
  | some fd =>
      rw [forall_prop_of_true (executable.hasMagic wellFormed mounted spare locals.tempBuffer)]
      cases copied : copiedText tail.tail with
      | none =>
          refine iff_of_true ⟨fun text faults => absurd faults (Option.not_mem_none text), ?_⟩
            fun text faults => absurd faults (Option.not_mem_none text)
          intro userMemory outcome returned
          rw [((reached.withUserMemory userMemory).loads wellFormed mounted executable resolved spare locals).1,
            copied] at returned
          cases returned
      | some text =>
          simp only [Option.mem_def, Option.some.injEq, forall_eq', ne_eq, reduceCtorEq, not_false_eq_true,
            forall_const, executable.hasMagic wellFormed mounted spare locals.tempBuffer]
          exact and_congr_right (reached.loadsInside_iff wellFormed mounted executable resolved spare copied)

end Loader

section Sample

theorem mountedImage_executable : mountedImage.Executable shellWord := by
  obtain ⟨resolved, regular, inode, magic⟩ := mountedImage_shell
  have member : (mountedImage.entryAt 0).inodeNum < mountedImage.inodes := by
    rw [inode, mountedImage_words.1]
    decide
  refine mountedImage_filesWellFormed.executable resolved regular member ?_
  rw [inode]
  exact magic

theorem mountedImage_shellLength : mountedImage.fileLength (mountedImage.entryAt 0).inodeNum = 40 := by
  rw [mountedImage_shell.2.2.1, mountedImage_words.2.2.1]

theorem sampleKernel_argumentsStart : sampleKernel.argumentsStart = 0x7f8124 := by
  rw [argumentsStart, sampleKernel_booted.processNumber]
  decide

/-- The sample shell of 40 bytes is placed as a whole. -/
theorem loader_places_program_iff_sample : ∃ result after,
    sampleKernel.sysExecute (sampleCommand 3) sampleLocals = some (result, after) ∧
      ProgramPlaced mountedImage (mountedImage.entryAt 0).inodeNum 2 result after := by
  refine (loader_places_program_iff mountedImage_filesWellFormed sampleKernel_fileSystem
    (reached_sampleCommand sampleKernel_valid 3) mountedImage_executable mountedImage_shell.1
    (by rw [mountedImage_shellLength]) (by rw [mountedImage_shellLength]; decide) sampleKernel_spareDescriptor
    sampleLocals (copiedText_sampleCommand 3)).mpr
    ⟨sampleLocals.spared_of_short sampleKernel sampleKernel_valid (by decide), ?_⟩
  rw [sampleKernel_argumentsStart]
  intro index low above covered
  have address : sampleLocals.bufferAddress = 0x7fbf68 := rfl
  rw [address, List.length_replicate] at covered
  omega

/-- A text of 15968 characters replaces the first 28 bytes of the header, and the call still returns. -/
theorem loader_misplaces : Booted sampleKernel ∧ mountedImage.FilesWellFormed ∧
    sampleKernel.fileSystem = mountedImage.mount ∧ mountedImage.Executable shellWord ∧
    Reached sampleKernel (sampleCommand 15968) shellWord (32 :: (List.replicate 15968 65 ++ [0])) ∧
    sampleKernel.spareDescriptor = some 2 ∧
    ∃ result after, sampleKernel.sysExecute (sampleCommand 15968) sampleLocals = some (result, after) ∧
      ¬ProgramPlaced mountedImage (mountedImage.entryAt 0).inodeNum 2 result after := by
  have reached := reached_sampleCommand sampleKernel_valid 15968
  refine ⟨sampleKernel_booted, mountedImage_filesWellFormed, sampleKernel_fileSystem, mountedImage_executable, reached,
    sampleKernel_spareDescriptor, ?_⟩
  have spared : sampleLocals.Spared sampleKernel.argumentsStart (List.replicate 15968 (65 : UInt8)).length := by
    rw [sampleKernel_argumentsStart, List.length_replicate]
    decide
  have executed := (reached.loads mountedImage_filesWellFormed sampleKernel_fileSystem mountedImage_executable
    mountedImage_shell.1 sampleKernel_spareDescriptor sampleLocals).1
  rw [executed, List.tail_cons, copiedText_sampleCommand, Option.bind_some]
  refine ⟨_, _, (sampleKernel.launch_prepared_iff _ _ sampleLocals _ _).mpr ⟨spared, rfl, rfl⟩, fun placed => ?_⟩
  rw [sampleKernel.prepare_header sampleKernel_valid] at placed
  have kept := (reached.programPlaced_iff mountedImage_filesWellFormed sampleKernel_fileSystem mountedImage_executable
    mountedImage_shell.1 (by rw [mountedImage_shellLength]) (by rw [mountedImage_shellLength]; decide)
    sampleKernel_spareDescriptor sampleLocals _).mp placed 0 (by decide)
  have address : sampleLocals.bufferAddress = 0x7fbf68 := rfl
  rw [sampleKernel_argumentsStart, address, List.length_replicate] at kept
  have first := kept (by decide) (by decide)
  rw [List.getD_replicate _ (by decide)] at first
  have magic := (mountedImage_executable.file mountedImage_shell.1).2
  generalize mountedImage.contents (mountedImage.entryAt 0).inodeNum = file at first magic
  cases file with
  | nil => cases magic
  | cons byte rest =>
      rw [List.getD_cons_zero] at first
      rw [← first] at magic
      cases magic

/-- The sample shell is loaded inside the user page. -/
theorem loads_inside_iff_sample : sampleKernel.Returns (sampleCommand 3) sampleLocals ∧
    sampleKernel.LoadsInside (sampleCommand 3) sampleLocals := by
  refine (loads_inside_iff mountedImage_filesWellFormed sampleKernel_fileSystem
    (reached_sampleCommand sampleKernel_valid 3) mountedImage_executable mountedImage_shell.1 sampleLocals).mpr
    fun text copied => ?_
  rw [List.tail_cons, copiedText_sampleCommand] at copied
  obtain rfl := Option.some.inj copied
  refine ⟨fun _ => sampleLocals.spared_of_short sampleKernel sampleKernel_valid (by decide), fun _ => ?_⟩
  rw [mountedImage_shellLength]
  decide

/-- The image holds the shell in its first data block and a program in the 960 blocks after it. -/
def largeImage : Image where
  memory :=
    let boot := Memory.storeBytes (fun _ => 0) 0x420000 (sampleWord 2 ++ sampleWord 2 ++ sampleWord 961)
    let shell := boot.storeBytes 0x420040
      ([115, 104, 101, 108, 108] ++ List.replicate 27 0 ++ sampleWord 2 ++ sampleWord 0)
    let large := shell.storeBytes 0x420080
      ([98, 105, 103] ++ List.replicate 29 0 ++ sampleWord 2 ++ sampleWord 1)
    let header := [0x7f, 0x45, 0x4c, 0x46] ++ List.replicate 20 0 ++ sampleWord 0x080482e8 ++ List.replicate 12 0
    let programs := (large.storeBytes 0x423000 header).storeBytes 0x424000 header
    let inode := programs.storeBytes 0x421000 (sampleWord 40 ++ sampleWord 0)
    (inode.storeBytes 0x422000 (sampleWord 3932160)).storeWords 0x422004 960 fun block => block + 1
  start := 0x420000

def largeName : List UInt8 := [98, 105, 103]

theorem largeImage_large :
    largeImage.mount.readDentryByName (some largeName) = some (largeImage.entryAt 1) ∧
    (largeImage.entryAt 1).fileType = 2 ∧ (largeImage.entryAt 1).inodeNum = 1 ∧
    (List.range (min 4 (largeImage.mount.lengthOfData 1))).map (largeImage.mount.fileByte 1) = elfMagic ∧
    largeImage.inodes = 2 ∧ largeImage.dataBlocks = 961 ∧
    largeImage.fileLength 0 = 40 ∧ largeImage.fileLength 1 = 3932160 ∧ largeImage.blockNumber 0 0 = 0 := by
  decide +kernel

theorem largeImage_filesWellFormed : largeImage.FilesWellFormed := by
  obtain ⟨_, _, _, _, inodes, dataBlocks, shell, large, first⟩ := largeImage_large
  have block (index : Nat) (inside : index < 960) : largeImage.blockNumber 1 index = index + 1 :=
    Memory.load32_storeWords _ 0x422004 inside (by omega)
  constructor
  · rw [inodes, dataBlocks]
    decide
  · intro inode member
    obtain rfl | rfl : inode = 0 ∨ inode = 1 := by omega
    · rw [shell]
      decide
    · rw [large]
      decide
  · intro inode member index inside
    obtain rfl | rfl : inode = 0 ∨ inode = 1 := by omega
    · rw [shell, blockSize] at inside
      obtain rfl : index = 0 := by omega
      rw [first, dataBlocks]
      decide
    · rw [large, blockSize] at inside
      rw [block index (by omega), dataBlocks]
      omega

theorem largeImage_executable : largeImage.Executable largeName := by
  obtain ⟨resolved, regular, inode, magic, inodes, _⟩ := largeImage_large
  refine largeImage_filesWellFormed.executable resolved regular (by omega) ?_
  rw [inode]
  exact magic

def largeMachine : Machine := { sampleMachine with image := largeImage.memory }

def largeKernel : Kernel := (boot largeMachine [0] sampleLocals 0x7fff00).getD (entry largeMachine)

theorem largeKernel_booted : Booted largeKernel :=
  booted_getD (fun _ _ _ _ => rfl) (by decide) (by decide +kernel)

theorem largeKernel_fileSystem : largeKernel.fileSystem = largeImage.mount := rfl

/-- A file of 960 blocks is stored beyond the end of the user page. -/
theorem loader_overruns : Booted largeKernel ∧ largeImage.FilesWellFormed ∧
    largeKernel.fileSystem = largeImage.mount ∧
    Reached largeKernel (some [98, 105, 103, 0, 0]) largeName [0, 0] ∧ largeImage.Executable largeName ∧
    largeKernel.Returns (some [98, 105, 103, 0, 0]) sampleLocals ∧
    ¬largeKernel.LoadsInside (some [98, 105, 103, 0, 0]) sampleLocals := by
  have valid : largeKernel.processNumber < 6 := by
    rw [largeKernel_booted.processNumber]
    decide
  have reached : Reached largeKernel (some [98, 105, 103, 0, 0]) largeName [0, 0] :=
    ⟨valid, _, _, rfl, by decide, rfl⟩
  have spare : largeKernel.spareDescriptor = some 2 := by decide +kernel
  obtain ⟨resolved, _, inode, _, _, _, _, large, _⟩ := largeImage_large
  have copied : copiedText [0] = some [] := rfl
  have spared := sampleLocals.spared_of_short largeKernel valid (Nat.zero_le 132)
  refine ⟨largeKernel_booted, largeImage_filesWellFormed, largeKernel_fileSystem, reached, largeImage_executable, ?_, ?_⟩
  · refine (reached.returns_iff sampleLocals).mpr fun _ text found => ?_
    obtain rfl := Option.some.inj (copied.symm.trans found)
    exact spared
  · rw [reached.loadsInside_iff largeImage_filesWellFormed largeKernel_fileSystem largeImage_executable resolved spare
      copied spared, inode, large]
    decide

end Sample

end OrcaOS
