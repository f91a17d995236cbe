import OrcaOS.Proof.BootSequence
import OrcaOS.Proof.FileRead
import OrcaOS.Proof.StringCompare

/-!
Which failed executes leave the system as it was.
-/

namespace OrcaOS
open Foundation Kernel

/-- Nothing that belongs to a process differs, except for the contents of an unused slot. -/
structure Undisturbed (live : List Nat) (before after : Kernel) : Prop where
  processNumber : after.processNumber = before.processNumber
  currentPcb : after.currentPcb = before.currentPcb
  tables : ∀ terminal < 3, ∀ index < 4, activeProcesses after.memory (pcbAddress terminal) index =
    activeProcesses before.memory (pcbAddress terminal) index
  descriptors : ∀ number ∈ live, ∀ fd < 8, ∀ field : FdField,
    readField after.memory (pcbAddress number) (.fileArray fd field) =
      readField before.memory (pcbAddress number) (.fileArray fd field)
  pageDirectory : after.pageTables.pageDirectory 32 = before.pageTables.pageDirectory 32
  esp0 : after.esp0 = before.esp0

/-- The four characters of the magic number. -/
def elfMagic : List UInt8 := [0x7f, 0x45, 0x4c, 0x46]

/-- The buffer begins with the magic number. -/
def HasMagic (buf : Buffer) : Prop := ∀ index < 4, buf index = elfMagic.getD index 0

theorem isExecutable_iff (candidate : Candidate) : candidate.isExecutable ↔ HasMagic candidate.tempBuffer := by
  have nonzero : ∀ index < 4, magicNum index ≠ 0 := by decide
  rw [Candidate.isExecutable, decide_eq_true_eq, strncmp,
    strncmpFrom_eq_zero_iff fun offset _ high => nonzero offset (by omega)]
  constructor
  · intro same index small
    exact same index (Nat.zero_le _) (by omega)
  · intro magic index _ high
    exact magic index (by omega)

instance (buf : Buffer) : Decidable (HasMagic buf) :=
  inferInstanceAs (Decidable (∀ index < 4, buf index = elfMagic.getD index 0))

namespace Kernel
variable (k : Kernel)

/-- The first descriptor of the next slot that `create_pcb` leaves free. -/
def spareDescriptor (k : Kernel) : Option Nat :=
  (List.range fileArrayLen).find? fun fd =>
    2 ≤ fd ∧ readField k.memory (pcbAddress k.processNumber) (.fileArray fd .flags) = 0

/-- The descriptors of the next slot are already as a failed program leaves them. -/
def SlotReusable (k : Kernel) (processName : List UInt8) : Prop :=
  (∀ fd < 2, ∀ field : FdField,
    readField k.memory (pcbAddress k.processNumber) (.fileArray fd field) =
      standardWord k.symbols fd field
        (readField k.memory (pcbAddress k.processNumber) (.fileArray fd field))) ∧
  ∀ dentry ∈ k.fileSystem.readDentryByName (some processName), ∀ fd ∈ k.spareDescriptor,
    readField k.memory (pcbAddress k.processNumber) (.fileArray fd .inode) = 0 ∧
      readField k.memory (pcbAddress k.processNumber) (.fileArray fd .position) = 0

/-- The table of the terminal on display has no room for another number. -/
def DisplayedTableFull (k : Kernel) : Prop :=
  ∀ index < 4, activeProcesses k.memory (pcbAddress k.console.terminalOnDisplay) index ≠ 0

/-- The first 40 bytes of the named file, when the new block has a descriptor for it. -/
def headerBytes (k : Kernel) (processName : List UInt8) : List UInt8 :=
  match k.fileSystem.readDentryByName (some processName), k.spareDescriptor with
  | some dentry, some _ =>
      if dentry.inodeNum < k.fileSystem.numOfInodes then
        (List.range (min 40 (k.fileSystem.lengthOfData dentry.inodeNum))).map (k.fileSystem.fileByte dentry.inodeNum)
      else []
  | _, _ => []

/-- The buffer in which the magic number is looked for. -/
def header (k : Kernel) (processName : List UInt8) (tempBuffer : Buffer) : Buffer :=
  Memory.storeBytes tempBuffer 0 (k.headerBytes processName)

/-- A call with a readable argument text does not lose control. -/
def Returns (k : Kernel) (command : Command) (locals : Locals) : Prop :=
  (command.bind argumentText).isSome → (k.sysExecute command locals).isSome

/-- The arguments of a program with the magic number spare the locals, and it does not start at address
0xFFFFFFFF, where the arguments may have replaced bytes of its header. A program without the magic number
is executed by the process below the counter, is not registered and takes no slot of a live process. -/
def FailsCleanly (k : Kernel) (live : List Nat) (command : Command) (locals : Locals) : Prop :=
  ∀ processName tail, Reached k command processName tail →
    if HasMagic (k.header processName locals.tempBuffer) then
      ∀ text ∈ copiedText tail.tail, locals.Spared k.argumentsStart text.length ∧ Memory.load32
        (locals.overrun (k.header processName locals.tempBuffer) k.argumentsStart text) 24 ≠ 0xFFFFFFFF
    else
      k.currentPcb = stackTop k.processNumber ∧ (k.processNumber ≤ 2 ∨ k.DisplayedTableFull) ∧
        (k.processNumber ∈ live → k.SlotReusable processName)

/-- The descriptors of a new block, seen from its predecessor. -/
theorem claimed_descriptor (valid : k.processNumber < 6) {fd : Nat} (inside : fd < 8) (field : FdField) :
    k.claimed.current (.fileArray fd field) =
      if fd < 2 then standardWord k.symbols fd field
        (readField k.memory (pcbAddress k.processNumber) (.fileArray fd field))
      else readField k.memory (pcbAddress k.processNumber) (.fileArray fd field) := by
  rw [current, claimed_memory, claimed_currentPcb]
  exact k.created_descriptor valid inside field

theorem spareDescriptor_eq_some_iff {fd : Nat} :
    k.spareDescriptor = some fd ↔ fd < 8 ∧ 2 ≤ fd ∧
      readField k.memory (pcbAddress k.processNumber) (.fileArray fd .flags) = 0 ∧
      ∀ earlier < fd, 2 ≤ earlier →
        readField k.memory (pcbAddress k.processNumber) (.fileArray earlier .flags) ≠ 0 := by
  simp only [spareDescriptor, fileArrayLen, List.find?_range_eq_some, decide_eq_true_eq,
    List.mem_range, Bool.not_eq_true', decide_eq_false_iff_not, not_and]
  tauto

/-- The program file is opened through the spare descriptor of the new block. -/
theorem claimed_freeDescriptor (valid : k.processNumber < 6) (fd : Nat) :
    k.claimed.freeDescriptor 0 = some fd ↔ k.spareDescriptor = some fd := by
  rw [k.claimed.freeDescriptor_eq_some_iff, k.spareDescriptor_eq_some_iff]
  constructor
  · intro found
    obtain ⟨_, inside, free, earlier⟩ := found
    rw [k.claimed_descriptor valid inside] at free
    have low : ¬fd < 2 := by
      intro standard
      rw [if_pos standard] at free
      cases free
    rw [if_neg low] at free
    refine ⟨inside, by omega, free, ?_⟩
    intro other less notStandard
    have used := earlier other less (Nat.zero_le _)
    rwa [k.claimed_descriptor valid (by omega), if_neg (by omega)] at used
  · intro found
    obtain ⟨inside, low, free, earlier⟩ := found
    refine ⟨Nat.zero_le _, inside, ?_, ?_⟩
    · rw [k.claimed_descriptor valid inside, if_neg (by omega)]
      exact free
    · intro other less _
      rw [k.claimed_descriptor valid (by omega)]
      by_cases standard : other < 2
      · rw [if_pos standard]
        exact Nat.one_ne_zero
      · rw [if_neg standard]
        exact earlier other less (by omega)

theorem claimed_fileDescriptor (valid : k.processNumber < 6) (processName : List UInt8) (fd : Nat) :
    k.claimed.fileDescriptor processName = some fd ↔
      (∃ dentry, k.fileSystem.readDentryByName (some processName) = some dentry) ∧
        k.spareDescriptor = some fd := by
  rw [fileDescriptor, k.claimed_setting.1.fileSystem, Option.bind_eq_some_iff]
  constructor
  · intro claimed
    obtain ⟨dentry, resolved, found⟩ := claimed
    exact ⟨⟨dentry, resolved⟩, (k.claimed_freeDescriptor valid fd).mp found⟩
  · intro claimed
    obtain ⟨⟨dentry, resolved⟩, found⟩ := claimed
    exact ⟨dentry, resolved, (k.claimed_freeDescriptor valid fd).mpr found⟩

theorem readDentryByName_inodeNum_lt (fs : FileSystem) {fname : Option (List UInt8)} {dentry : Dentry}
    (resolved : fs.readDentryByName fname = some dentry) : dentry.inodeNum < 4294967296 := by
  unfold FileSystem.readDentryByName at resolved
  split at resolved
  · cases resolved
  · dsimp only at resolved
    split at resolved
    · cases resolved
    · obtain ⟨index, _, rfl⟩ := Option.map_eq_some_iff.mp resolved
      exact Memory.load32_lt _ _

/-- The descriptor that is opened holds the inode of the entry and the first position. -/
theorem fileOpen_words {filename : List UInt8} {dentry : Dentry} {fd : Nat}
    (resolved : k.fileSystem.readDentryByName (some filename) = some dentry)
    (found : k.freeDescriptor 0 = some fd) :
    (k.fileOpen (some filename)).2.current (.fileArray fd .inode) = dentry.inodeNum ∧
      (k.fileOpen (some filename)).2.current (.fileArray fd .position) = 0 := by
  have inside := (k.freeDescriptor_eq_some_iff.mp found).2.1
  rw [k.fileOpen_eq resolved found]
  dsimp only
  rw [current_setWord_of_ne _ inside _ (by decide),
    current_setCurrent _ _ (readDentryByName_inodeNum_lt _ resolved), current_setCurrent _ _ (by decide)]
  exact ⟨rfl, rfl⟩

/-- A read through an inode that the image does not have leaves the buffer. -/
theorem fileRead_of_missing {fd inode : Nat} (opened : k.current (.fileArray fd .inode) = inode)
    (missing : k.fileSystem.numOfInodes ≤ inode) (buf : Buffer) (nbytes : Int) :
    (k.fileRead fd (some buf) nbytes).2.1 = some buf := by
  unfold fileRead
  split
  · rfl
  · rw [Int.toNat_natCast, opened]
    dsimp only
    rw [k.fileSystem.readData_of_missing missing, if_pos rfl]

/-- A read of the first 40 bytes of a file. -/
theorem fileRead_start {fd inode : Nat} (inside : fd < 8) (opened : k.current (.fileArray fd .inode) = inode)
    (start : k.current (.fileArray fd .position) = 0) (buf : Buffer) :
    (k.fileRead fd (some buf) 40).2.1 = some (Memory.storeBytes buf 0
      (if inode < k.fileSystem.numOfInodes then
        (List.range (min 40 (k.fileSystem.lengthOfData inode))).map (k.fileSystem.fileByte inode) else [])) := by
  split
  · rename_i member
    have count : wrap32 40 = 40 := by decide
    have read := FileSystem.readData_start member buf 40
    rw [fileRead, if_neg (by simp; omega), Int.toNat_natCast, opened, start, count]
    dsimp only
    rw [read]
    dsimp only
    split
    · rfl
    · split <;> rfl
  · rename_i missing
    rw [fileRead_of_missing k opened (Nat.le_of_not_lt missing)]
    exact congrArg some (Memory.overlay_zero _ _ _).symm

/-- A read through the descriptor -1 leaves the buffer. -/
theorem fileRead_negative_buffer (buf : Option Buffer) (nbytes : Int) : (k.fileRead (-1) buf nbytes).2.1 = buf := by
  rw [fileRead, if_pos (by omega)]

/-- The check looks at the first bytes of the file, followed by what the buffer held before. -/
theorem prepare_header (valid : k.processNumber < 6) (processName : List UInt8) (tempBuffer : Buffer) :
    (k.prepare processName tempBuffer).tempBuffer = k.header processName tempBuffer := by
  have unread : tempBuffer = Memory.storeBytes tempBuffer 0 [] := (Memory.overlay_zero _ _ _).symm
  have setting := k.claimed_setting.1.fileSystem
  have files := (k.claimed.fileOpen_changesOnly (some processName)).fileSystem
  rw [prepare_eq, header]
  dsimp only
  cases descriptor : k.claimed.fileDescriptor processName with
  | none =>
      have nothing : k.headerBytes processName = [] := by
        unfold headerBytes
        split
        · rename_i dentry fd resolved spare
          have claimed := (k.claimed_fileDescriptor valid processName fd).mpr ⟨⟨dentry, resolved⟩, spare⟩
          rw [descriptor] at claimed
          cases claimed
        · rfl
      rw [k.claimed.fileOpen_of_none descriptor, nothing, ← unread, fileRead_negative_buffer, Option.getD_some]
  | some fd =>
      obtain ⟨⟨dentry, resolved⟩, spare⟩ := (k.claimed_fileDescriptor valid processName fd).mp descriptor
      have found := (k.claimed_freeDescriptor valid fd).mpr spare
      have reopened : k.claimed.fileSystem.readDentryByName (some processName) = some dentry := by
        rw [setting, resolved]
      obtain ⟨inode, position⟩ := k.claimed.fileOpen_words reopened found
      have system : (k.claimed.fileOpen (some processName)).2.fileSystem = k.fileSystem := files.trans setting
      have inside := (k.claimed.freeDescriptor_eq_some_iff.mp found).2.1
      rw [(k.claimed.fileOpen_of_some descriptor).1, fileRead_start _ inside inode position, system, Option.getD_some]
      simp only [headerBytes, resolved, spare]

/-- A failed program keeps the descriptors of its slot exactly if they are reusable. -/
theorem slotReusable_iff (valid : k.processNumber < 6) (processName : List UInt8) :
    (∀ fd < 8, ∀ field : FdField, k.claimed.settledField processName fd field =
      readField k.memory (pcbAddress k.processNumber) (.fileArray fd field)) ↔
      k.SlotReusable processName := by
  unfold settledField SlotReusable
  constructor
  · intro same
    constructor
    · intro fd standard field
      have kept := same fd (by omega) field
      have unclaimed : ¬(k.claimed.fileDescriptor processName = some fd ∧ field.OfFile) := by
        intro claimed
        have spare := ((k.claimed_fileDescriptor valid processName fd).mp claimed.1).2
        have low := (k.spareDescriptor_eq_some_iff.mp spare).2.1
        omega
      rw [if_neg unclaimed, k.claimed_descriptor valid (by omega), if_pos standard] at kept
      exact kept.symm
    · intro dentry resolved fd spare
      have inside := (k.spareDescriptor_eq_some_iff.mp spare).1
      have claimed := (k.claimed_fileDescriptor valid processName fd).mpr ⟨⟨dentry, resolved⟩, spare⟩
      have inode := same fd inside .inode
      have position := same fd inside .position
      rw [if_pos ⟨claimed, FdField.ofFile_inode⟩] at inode
      rw [if_pos ⟨claimed, FdField.ofFile_position⟩] at position
      exact ⟨inode.symm, position.symm⟩
  · intro reusable fd inside field
    obtain ⟨standard, spare⟩ := reusable
    split
    · rename_i claimed
      obtain ⟨claimed, ofFile⟩ := claimed
      obtain ⟨⟨dentry, resolved⟩, found⟩ := (k.claimed_fileDescriptor valid processName fd).mp claimed
      obtain ⟨inode, position⟩ := spare dentry resolved fd found
      have flags := (k.spareDescriptor_eq_some_iff.mp found).2.2.1
      rcases ofFile with rfl | rfl | rfl
      · exact inode.symm
      · exact position.symm
      · exact flags.symm
    · rw [k.claimed_descriptor valid inside]
      by_cases low : fd < 2
      · rw [if_pos low]
        exact (standard fd low field).symm
      · rw [if_neg low]

/-- Rejecting a program registers it unless it is a base shell or the table is full. -/
theorem tableAfter_iff :
    (∀ terminal < 3, ∀ index < 4, k.tableAfter terminal index =
      activeProcesses k.memory (pcbAddress terminal) index) ↔
      k.processNumber ≤ 2 ∨ k.DisplayedTableFull := by
  have shown := k.console.terminalOnDisplay.isLt
  constructor
  · intro same
    by_contra neither
    rw [not_or] at neither
    obtain ⟨nested, room⟩ := neither
    cases found : firstFree 0
        (activeProcesses k.memory (pcbAddress k.console.terminalOnDisplay)) 4 with
    | none => exact room (firstFree_eq_none_iff.mp found)
    | some index =>
        obtain ⟨inside, free, _⟩ := firstFree_eq_some_iff.mp found
        have kept := same k.console.terminalOnDisplay shown index inside
        rw [tableAfter, if_pos ⟨by omega, rfl⟩, registered, found, free] at kept
        dsimp only at kept
        rw [Function.update_self] at kept
        omega
  · intro condition terminal small index inside
    unfold tableAfter
    split
    · rename_i nested
      obtain ⟨above, rfl⟩ := nested
      rcases condition with below | full
      · omega
      · rw [registered, firstFree_eq_none_iff.mpr full]
    · rfl

end Kernel

section Outcome
variable {k after : Kernel} {live : List Nat} {command : Command} {locals : Locals}

/-- A rejected program disturbs nothing exactly under the condition. -/
theorem Rejected.undisturbed_iff {processName : List UInt8} (valid : k.processNumber < 6)
    (liveValid : ∀ number ∈ live, number < 6) (effect : Rejected processName k after) :
    Undisturbed live k after ↔
      k.currentPcb = stackTop k.processNumber ∧ (k.processNumber ≤ 2 ∨ k.DisplayedTableFull) ∧
        (k.processNumber ∈ live → k.SlotReusable processName) := by
  have claimed := effect.slotClaimed valid
  rw [← k.tableAfter_iff, ← k.slotReusable_iff valid]
  constructor
  · intro undisturbed
    refine ⟨?_, ?_, ?_⟩
    · rw [← undisturbed.currentPcb, effect.currentPcb]
    · intro terminal small index inside
      rw [← claimed.tables terminal small index inside]
      exact undisturbed.tables terminal small index inside
    · intro member fd inside field
      rw [← effect.descriptors fd inside field]
      exact undisturbed.descriptors _ member fd inside field
  · intro condition
    obtain ⟨position, tables, reusable⟩ := condition
    constructor
    · exact effect.processNumber
    · rw [effect.currentPcb, position]
    · intro terminal small index inside
      rw [claimed.tables terminal small index inside]
      exact tables terminal small index inside
    · intro number member fd inside field
      by_cases own : number = k.processNumber
      · subst own
        rw [effect.descriptors fd inside field]
        exact reusable member fd inside field
      · have small := liveValid number member
        exact claimed.others number (by omega) own _ inside (by simp)
    · rw [effect.pageTables]
    · exact effect.esp0

theorem entryPoint_lt (tempBuffer : Buffer) : entryPoint tempBuffer < 4294967296 :=
  Memory.load32_lt tempBuffer 24

/-- The test succeeds exactly when the header begins with the magic number. -/
theorem Reached.isExecutable_iff {processName tail : List UInt8} (reached : Reached k command processName tail)
    (tempBuffer : Buffer) : (k.prepare processName tempBuffer).isExecutable ↔
      HasMagic (k.header processName tempBuffer) := by
  rw [OrcaOS.isExecutable_iff, k.prepare_header reached.valid]

/-- A program that is launched returns exactly when its arguments spare the locals. -/
theorem Reached.returns_iff {processName tail : List UInt8} (reached : Reached k command processName tail)
    (locals : Locals) : k.Returns command locals ↔ (HasMagic (k.header processName locals.tempBuffer) →
      ∀ text ∈ copiedText tail.tail, locals.Spared k.argumentsStart text.length) := by
  have returned := reached.sysExecute_eq locals
  have argument : command.bind OrcaOS.argumentText = copiedText tail.tail := by
    obtain ⟨_, first, rest, rfl, _, word⟩ := reached
    rw [Option.bind_some, OrcaOS.argumentText, word, Option.bind_some]
  rw [Kernel.Returns, argument, returned, ← reached.isExecutable_iff]
  split
  · rename_i executable
    rw [forall_prop_of_true executable]
    cases copiedText tail.tail with
    | none => simp
    | some text =>
        have launched := launch_eq_some_iff (k.prepare processName locals.tempBuffer) locals text
        rw [k.prepare_argumentsStart] at launched
        simp [Option.isSome_iff_exists, launched]
  · rename_i invalid
    simp [invalid]

/-- A call that is refused early returns. -/
theorem Kernel.returns_of_unreached (k : Kernel) (locals : Locals)
    (unreached : ∀ processName tail, ¬Reached k command processName tail) : k.Returns command locals := by
  intro readable
  obtain ⟨text, argument⟩ := Option.isSome_iff_exists.mp readable
  obtain ⟨bytes, rfl, parsed⟩ := Option.bind_eq_some_iff.mp argument
  obtain ⟨⟨processName, tail⟩, word, _⟩ := Option.bind_eq_some_iff.mp parsed
  cases bytes with
  | nil => cases word
  | cons first rest =>
      have refused : first = 0 ∨ 6 ≤ k.processNumber := by
        by_contra passes
        rw [not_or] at passes
        exact unreached processName tail ⟨by omega, first, rest, rfl, passes.1, word⟩
      rw [sysExecute, if_pos refused]
      rfl

/-- The call returns and leaves the system as it was whenever it fails, exactly under the condition. -/
theorem failed_execute_undisturbed_iff (k : Kernel) (live : List Nat)
    (liveValid : ∀ number ∈ live, number < 6) (command : Command) (locals : Locals) :
    (k.Returns command locals ∧
      ∀ after, k.sysExecute command locals = some (-1, after) → Undisturbed live k after) ↔
      k.FailsCleanly live command locals := by
  constructor
  · intro holds processName tail reached
    obtain ⟨returns, clean⟩ := holds
    have returned := reached.sysExecute_eq locals
    split
    · rename_i magic
      rw [if_pos ((reached.isExecutable_iff _).mpr magic)] at returned
      intro text copied
      have spared := (reached.returns_iff locals).mp returns magic text copied
      refine ⟨spared, fun wild => ?_⟩
      rw [← k.prepare_header reached.valid] at wild
      have value := (signed32_eq_neg_one_iff (entryPoint_lt _)).mpr wild
      have launched := (k.launch_prepared_iff processName text locals (-1) _).mpr ⟨spared, value.symm, rfl⟩
      have effect := k.enterProgram_accepted reached.valid processName locals.tempBuffer locals text
      have undisturbed := clean _ (by rw [returned, Option.mem_def.mp copied, Option.bind_some, launched])
      have same := undisturbed.processNumber
      rw [effect.processNumber] at same
      omega
    · rename_i invalid
      rw [if_neg fun passed => invalid ((reached.isExecutable_iff _).mp passed)] at returned
      have effect := k.abandon_rejected reached.valid processName locals.tempBuffer
      exact (effect.undisturbed_iff reached.valid liveValid).mp (clean _ returned)
  · intro condition
    constructor
    · by_cases reaches : ∃ processName tail, Reached k command processName tail
      · obtain ⟨processName, tail, reached⟩ := reaches
        have proper := condition processName tail reached
        refine (reached.returns_iff locals).mpr fun magic text copied => ?_
        rw [if_pos magic] at proper
        exact (proper text copied).1
      · simp only [not_exists] at reaches
        exact k.returns_of_unreached locals reaches
    · intro after returned
      generalize result : (-1 : Int) = value at returned
      cases sysExecute_outcome returned with
      | early refused => exact ⟨rfl, rfl, fun _ _ _ _ => rfl, fun _ _ _ _ _ => rfl, rfl, rfl⟩
      | @rejected _ processName tail reached invalid effect =>
          have clean := condition processName tail reached
          rw [if_neg fun magic => by simp [(reached.isExecutable_iff _).mpr magic] at invalid] at clean
          exact (effect.undisturbed_iff reached.valid liveValid).mpr clean
      | @accepted _ processName tail text reached executable copied _ effect =>
          have proper := condition processName tail reached
          rw [if_pos ((reached.isExecutable_iff _).mp executable)] at proper
          have wild := (signed32_eq_neg_one_iff (entryPoint_lt _)).mp result.symm
          rw [k.prepare_header reached.valid] at wild
          exact absurd wild (proper text copied).2

/-- After four refused programs the first table is full, and a fifth leaves the system as it was. -/
theorem failed_execute_undisturbed_iff_sample : ∃ events k after,
    Run Kernel.step (fun _ _ => True) sampleKernel events k ∧ k.DisplayedTableFull ∧
      k.sysExecute missingCommand sampleLocals = some (-1, after) ∧ Undisturbed [0, 1, 2] k after := by
  let events : List Event := List.replicate 4 (.execute missingCommand sampleLocals 0x7fff00)
  have executes : ((execute Kernel.step (fun _ _ => true) sampleKernel events).any fun k =>
      decide (k.processNumber = 3 ∧ k.currentPcb = stackTop 3 ∧
        (∀ index < 4, activeProcesses k.memory (pcbAddress k.console.terminalOnDisplay) index ≠ 0) ∧
        ¬HasMagic (k.header [120] sampleLocals.tempBuffer) ∧
        (k.sysExecute missingCommand sampleLocals).map Prod.fst = some (-1))) = true := by decide +kernel
  obtain ⟨k, executed, state⟩ := (Option.any_eq_true _ _).mp executes
  obtain ⟨number, position, full, missing, failed⟩ := of_decide_eq_true state
  obtain ⟨⟨result, after⟩, returned, same⟩ := Option.map_eq_some_iff.mp failed
  obtain rfl : result = -1 := same
  have clean : k.FailsCleanly [0, 1, 2] missingCommand sampleLocals := by
    intro processName tail reached
    obtain ⟨_, first, rest, named, _, word⟩ := reached
    obtain ⟨rfl, rfl⟩ : (120 : UInt8) = first ∧ [0, 0] = rest := by simpa [missingCommand] using named
    obtain ⟨rfl, rfl⟩ : [120] = processName ∧ [0, 0] = tail := by simpa [firstWord, maxCommandLen] using word
    rw [if_neg missing, number]
    exact ⟨position, .inr full, fun live => absurd live (by decide)⟩
  have run := run_of_execute (fun _ _ _ => trivial) executed
  exact ⟨events, k, after, run, full, returned,
    ((failed_execute_undisturbed_iff k [0, 1, 2] (by decide) missingCommand sampleLocals).mpr clean).2 after returned⟩

/-- A missing file leaves the number of its process in the table of the first terminal. -/
theorem failed_execute_disturbs : Booted sampleKernel ∧ sampleKernel.Returns missingCommand sampleLocals ∧ ∃ after,
    sampleKernel.sysExecute missingCommand sampleLocals = some (-1, after) ∧
      ¬Undisturbed [0, 1, 2] sampleKernel after := by
  have differs : ((sampleKernel.sysExecute missingCommand sampleLocals).any fun outcome =>
      decide (outcome.1 = -1 ∧ activeProcesses outcome.2.memory (pcbAddress 0) 0 ≠
        activeProcesses sampleKernel.memory (pcbAddress 0) 0)) = true := by decide +kernel
  obtain ⟨outcome, returned, differs⟩ := (Option.any_eq_true _ _).mp differs
  obtain ⟨failed, registered⟩ := of_decide_eq_true differs
  refine ⟨sampleKernel_booted, fun _ => by rw [returned]; rfl, outcome.2, ?_, ?_⟩
  · rw [returned, ← failed]
  · intro undisturbed
    exact registered (undisturbed.tables 0 (by decide) 0 (by decide))

end Outcome

end OrcaOS
