import OrcaOS.Proof.BootSequence
import OrcaOS.Proof.Descriptor
import OrcaOS.Specification.DescriptorTable

/-!
The descriptor table keeps its promises as long as no descriptor of the real-time clock is closed:
`rtc_close` leaves the descriptor in use.
-/

namespace OrcaOS
open Foundation Kernel

/-- A call changes no word of a descriptor other than the given one. -/
structure KeepsOthers (fd : Int) (before after : Kernel) : Prop where
  symbols : after.symbols = before.symbols
  fileSystem : after.fileSystem = before.fileSystem
  currentPcb : after.currentPcb = before.currentPcb
  same : ∀ other : Nat, other < 8 → (other : Int) ≠ fd → ∀ field : FdField,
    after.current (.fileArray other field) = before.current (.fileArray other field)

namespace KeepsOthers
variable {fd : Int} {first second third : Kernel}

theorem refl (fd : Int) (k : Kernel) : KeepsOthers fd k k := ⟨rfl, rfl, rfl, fun _ _ _ _ => rfl⟩

theorem trans (one : KeepsOthers fd first second) (two : KeepsOthers fd second third) :
    KeepsOthers fd first third where
  symbols := two.symbols.trans one.symbols
  fileSystem := two.fileSystem.trans one.fileSystem
  currentPcb := two.currentPcb.trans one.currentPcb
  same other small different field :=
    (two.same other small different field).trans (one.same other small different field)

/-- The devices are not part of a descriptor. -/
theorem devices (k : Kernel) (console : Console) (rtc : Rtc) :
    KeepsOthers fd k { k with console, rtc } := ⟨rfl, rfl, rfl, fun _ _ _ _ => rfl⟩

theorem setCurrent (k : Kernel) {fd : Nat} (inside : fd < 8) (field : FdField) (word : Nat) :
    KeepsOthers fd k (k.setCurrent (.fileArray fd field) word) where
  symbols := rfl
  fileSystem := rfl
  currentPcb := rfl
  same other small different kept := by
    have unequal : PcbField.fileArray other kept ≠ .fileArray fd field := by
      intro equal
      obtain ⟨rfl, _⟩ : other = fd ∧ kept = field := by simpa using equal
      exact different rfl
    exact k.current_setCurrent_of_ne word unequal inside small

end KeepsOthers

/-- A read or a write changes at most the position of its descriptor. -/
structure MovesPosition (fd : Int) (before after : Kernel) : Prop extends KeepsOthers fd before after where
  own : ∀ field : FdField, field ≠ .position →
    after.current (.fileArray fd.toNat field) = before.current (.fileArray fd.toNat field)

namespace MovesPosition
variable {fd : Int} {before after : Kernel}

theorem refl (fd : Int) (k : Kernel) : MovesPosition fd k k := ⟨.refl fd k, fun _ _ => rfl⟩

theorem devices (k : Kernel) (console : Console) (rtc : Rtc) :
    MovesPosition fd k { k with console, rtc } := ⟨.devices k console rtc, fun _ _ => rfl⟩

theorem setPosition (k : Kernel) (low : 0 ≤ fd) (high : fd < 8) (word : Nat) :
    MovesPosition fd k (k.setCurrent (.fileArray fd.toNat .position) word) := by
  have inside : fd.toNat < 8 := by omega
  have keeps := KeepsOthers.setCurrent k inside .position word
  rw [Int.toNat_of_nonneg low] at keeps
  exact ⟨keeps, fun field different => k.current_setWord_of_ne inside word different⟩

/-- A descriptor keeps its flags and its operations. -/
theorem current_eq (moves : MovesPosition fd before after) {other : Nat} (inside : other < 8)
    {field : FdField} (different : field ≠ .position) :
    after.current (.fileArray other field) = before.current (.fileArray other field) := by
  obtain equal | unequal := eq_or_ne (other : Int) fd
  · have own := moves.own field different
    rw [← equal, Int.toNat_natCast] at own
    exact own
  · exact moves.same other inside unequal field

end MovesPosition

namespace Kernel
variable {k after : Kernel} {fd result : Int}

theorem fileRead_movesPosition (k : Kernel) (fd : Int) (buf : Option Buffer) (nbytes : Int) :
    MovesPosition fd k (k.fileRead fd buf nbytes).2.2 := by
  unfold fileRead
  split
  · exact .refl fd k
  · rename_i valid
    dsimp only
    split
    · exact .refl fd k
    · split
      · exact .setPosition k (by omega) (by omega) _
      · exact .setPosition k (by omega) (by omega) _

theorem directoryRead_movesPosition (k : Kernel) (fd : Int) (buf : Option Buffer) (nbytes : Int) :
    MovesPosition fd k (k.directoryRead fd buf nbytes).2.2 := by
  unfold directoryRead
  split
  · exact .refl fd k
  · split
    · exact .refl fd k
    · rename_i valid
      dsimp only
      split
      · exact .refl fd k
      · split
        · exact .refl fd k
        · exact .setPosition k (by omega) (by omega) _

theorem callRead_movesPosition {address : Nat} {buf filled : Buffer} {nbytes : Int} {waited : Waited}
    (called : k.callRead address fd buf nbytes waited = some (result, filled, after)) :
    MovesPosition fd k after := by
  unfold callRead at called
  split at called
  · cases called
    exact .refl fd k
  · cases called
    exact .devices k _ _
  · cases called
    exact .devices k _ _
  · have equal : (k.directoryRead fd (some buf) nbytes).2.2 = after :=
      congrArg (fun outcome => outcome.2.2) (Option.some.inj called)
    rw [← equal]
    exact k.directoryRead_movesPosition fd _ _
  · have equal : (k.fileRead fd (some buf) nbytes).2.2 = after :=
      congrArg (fun outcome => outcome.2.2) (Option.some.inj called)
    rw [← equal]
    exact k.fileRead_movesPosition fd _ _
  · cases called

theorem callWrite_movesPosition {address : Nat} {buf : Buffer} {nbytes : Int}
    (called : k.callWrite address buf nbytes = some (result, after)) : MovesPosition fd k after := by
  unfold callWrite at called
  split at called
  · cases called
    exact .refl fd k
  · cases called
    exact .devices k _ k.rtc
  · cases called
    exact .devices k k.console _
  · cases called
    exact .refl fd k
  · cases called
    exact .refl fd k
  · cases called

theorem sysRead_movesPosition {buf filled : Option Buffer} {nbytes : Int} {waited : Waited}
    (returned : k.sysRead fd buf nbytes waited = some (result, filled, after)) :
    MovesPosition fd k after := by
  unfold sysRead at returned
  split at returned
  · cases returned
    exact .refl fd k
  · split at returned
    · cases returned
      exact .refl fd k
    · obtain ⟨⟨_, _, _⟩, called, equal⟩ := Option.map_eq_some_iff.mp returned
      cases equal
      exact callRead_movesPosition called

theorem sysWrite_movesPosition {buf : Option Buffer} {nbytes : Int}
    (returned : k.sysWrite fd buf nbytes = some (result, after)) : MovesPosition fd k after := by
  unfold sysWrite at returned
  split at returned
  · cases returned
    exact .refl fd k
  · split at returned
    · cases returned
      exact .refl fd k
    · exact callWrite_movesPosition returned

theorem directoryClose_keepsOthers (k : Kernel) (fd : Int) : KeepsOthers fd k (k.directoryClose fd).2 := by
  unfold directoryClose
  split
  · exact .refl fd k
  · rename_i valid
    have inside : fd.toNat < 8 := by omega
    have natural : ((fd.toNat : Nat) : Int) = fd := Int.toNat_of_nonneg (by omega)
    have one := KeepsOthers.setCurrent k inside .position 0
    have two := KeepsOthers.setCurrent (k.setCurrent (.fileArray fd.toNat .position) 0) inside .flags 0
    rw [natural] at one two
    exact one.trans two

theorem fileClose_keepsOthers (k : Kernel) (fd : Int) : KeepsOthers fd k (k.fileClose fd).2 := by
  unfold fileClose
  split
  · exact .refl fd k
  · rename_i valid
    have inside : fd.toNat < 8 := by omega
    have natural : ((fd.toNat : Nat) : Int) = fd := Int.toNat_of_nonneg (by omega)
    split
    · have one := KeepsOthers.setCurrent k inside .inode 0
      have two := KeepsOthers.setCurrent (k.setCurrent (.fileArray fd.toNat .inode) 0) inside .position 0
      have three := KeepsOthers.setCurrent ((k.setCurrent (.fileArray fd.toNat .inode) 0).setCurrent
        (.fileArray fd.toNat .position) 0) inside .flags 0
      rw [natural] at one two three
      exact (one.trans two).trans three
    · exact .refl fd k

theorem sysClose_keepsOthers (returned : k.sysClose fd = some (result, after)) :
    KeepsOthers fd k after := by
  unfold sysClose at returned
  split at returned
  · cases returned
    exact .refl fd k
  · unfold callClose at returned
    split at returned
    · cases returned
      exact .devices k _ k.rtc
    · cases returned
      exact .devices k k.console _
    · have equal : (k.directoryClose fd).2 = after := congrArg Prod.snd (Option.some.inj returned)
      rw [← equal]
      exact k.directoryClose_keepsOthers fd
    · have equal : (k.fileClose fd).2 = after := congrArg Prod.snd (Option.some.inj returned)
      rw [← equal]
      exact k.fileClose_keepsOthers fd
    · cases returned
      exact .devices k _ k.rtc
    · cases returned
      exact .devices k k.console _
    iterate 4
      · cases returned
        exact .refl fd k
    · cases returned

end Kernel

namespace FileSystem
variable {fs : FileSystem}

/-- A resolved entry has one of the three types. -/
theorem TypesWellFormed.fileType_le (wellFormed : fs.TypesWellFormed) {filename : Option (List UInt8)}
    {dentry : Dentry} (resolved : fs.readDentryByName filename = some dentry) : dentry.fileType ≤ 2 := by
  unfold readDentryByName at resolved
  split at resolved
  · cases resolved
  · dsimp only at resolved
    split at resolved
    · cases resolved
    · obtain ⟨index, found, rfl⟩ := Option.map_eq_some_iff.mp resolved
      have member := List.mem_range.mp (List.mem_of_find?_eq_some found)
      have word := fs.memory.load32_lt fs.bootBlockStart
      apply wellFormed
      unfold numOfEntries signed32 at member
      unfold numOfEntries
      split at member <;> omega

theorem readDentryByName_inodeNum_lt {filename : Option (List UInt8)} {dentry : Dentry}
    (resolved : fs.readDentryByName filename = some dentry) : dentry.inodeNum < 4294967296 := by
  unfold readDentryByName at resolved
  split at resolved
  · cases resolved
  · dsimp only at resolved
    split at resolved
    · cases resolved
    · obtain ⟨index, _, rfl⟩ := Option.map_eq_some_iff.mp resolved
      exact fs.memory.load32_lt _

end FileSystem

/-- The close functions of the three file types. -/
def fileClosers : List Operation := [.rtcClose, .directoryClose, .fileClose]

theorem operationsOf_of_le {fileType : Nat} (known : fileType ≤ 2) :
    ∃ readOp writeOp openOp closeOp, operationsOf fileType = some (readOp, writeOp, openOp, closeOp) ∧
      closeOp ∈ fileClosers := by
  obtain rfl | rfl | rfl : fileType = 0 ∨ fileType = 1 ∨ fileType = 2 := by omega
  · exact ⟨_, _, _, _, rfl, by decide⟩
  · exact ⟨_, _, _, _, rfl, by decide⟩
  · exact ⟨_, _, _, _, rfl, by decide⟩

namespace Kernel
variable (k : Kernel)

/-- The operations of a type are written to one descriptor. -/
theorem setOperations_keepsOthers {fd : Nat} (inside : fd < 8) (fileType : Nat) :
    KeepsOthers fd k (k.setOperations fd fileType) := by
  unfold setOperations
  split
  · exact .refl fd k
  · have one (k : Kernel) (field : FdField) (word : Nat) := KeepsOthers.setCurrent k inside field word
    exact (((one k .readOp _).trans (one _ .writeOp _)).trans (one _ .openOp _)).trans (one _ .closeOp _)

/-- The operations are read back, and the other words of the descriptor are kept. -/
theorem setOperations_current {fd fileType : Nat} (inside : fd < 8)
    {readOp writeOp openOp closeOp : Operation}
    (known : operationsOf fileType = some (readOp, writeOp, openOp, closeOp)) (field : FdField) :
    (k.setOperations fd fileType).current (.fileArray fd field) =
      match field with
      | .readOp => k.symbols.address readOp
      | .writeOp => k.symbols.address writeOp
      | .openOp => k.symbols.address openOp
      | .closeOp => k.symbols.address closeOp
      | other => k.current (.fileArray fd other) := by
  have kept (k : Kernel) {written other : FdField} (word : Nat) (different : other ≠ written) :=
    k.current_setWord_of_ne inside word different
  rw [setOperations, known]
  dsimp only
  cases field with
  | readOp =>
      rw [kept _ _ (by decide), kept _ _ (by decide), kept _ _ (by decide),
        current_setCurrent _ _ (k.symbols.fits _)]
  | writeOp => rw [kept _ _ (by decide), kept _ _ (by decide), current_setCurrent _ _ (k.symbols.fits _)]
  | openOp => rw [kept _ _ (by decide), current_setCurrent _ _ (k.symbols.fits _)]
  | closeOp => rw [current_setCurrent _ _ (k.symbols.fits _)]
  | inode | position | flags =>
      rw [kept _ _ (by decide), kept _ _ (by decide), kept _ _ (by decide), kept _ _ (by decide)]

theorem sysOpen_of_missing {filename : Option (List UInt8)}
    (missing : k.fileSystem.readDentryByName filename = none) : k.sysOpen filename = (-1, k) := by
  rw [sysOpen, missing]

theorem sysOpen_of_full (filename : Option (List UInt8)) (full : k.freeDescriptor 2 = none) :
    k.sysOpen filename = (-1, k) := by
  unfold sysOpen
  split
  · rfl
  · rw [full]

/-- The claimed descriptor is open on the entry and nothing else changes. -/
theorem sysOpen_of_found {filename : Option (List UInt8)} {dentry : Dentry} {fd : Nat}
    (wellFormed : k.fileSystem.TypesWellFormed)
    (resolved : k.fileSystem.readDentryByName filename = some dentry)
    (found : k.freeDescriptor 2 = some fd) :
    (k.sysOpen filename).1 = fd ∧ KeepsOthers fd k (k.sysOpen filename).2 ∧
      OpenedOn (k.sysOpen filename).2 fd dentry ∧
      (k.sysOpen filename).2.current (.fileArray fd .flags) = 1 ∧
      ∃ closeOp ∈ fileClosers,
        (k.sysOpen filename).2.current (.fileArray fd .closeOp) = k.symbols.address closeOp := by
  have inside := (k.freeDescriptor_eq_some_iff.mp found).2.1
  obtain ⟨readOp, writeOp, openOp, closeOp, known, closer⟩ :=
    operationsOf_of_le (wellFormed.fileType_le resolved)
  have inode := FileSystem.readDentryByName_inodeNum_lt resolved
  have kept (k : Kernel) {written other : FdField} (word : Nat) (different : other ≠ written) :=
    k.current_setWord_of_ne inside word different
  -- The three words that are written before the operations.
  generalize prepared : ((k.setCurrent (.fileArray fd .inode) dentry.inodeNum).setCurrent
    (.fileArray fd .position) 0).setCurrent (.fileArray fd .flags) 1 = claimed
  have keeps : KeepsOthers fd k claimed := by
    have one (k : Kernel) (field : FdField) (word : Nat) := KeepsOthers.setCurrent k inside field word
    rw [← prepared]
    exact ((one k .inode _).trans (one _ .position _)).trans (one _ .flags _)
  have flags : claimed.current (.fileArray fd .flags) = 1 := by
    rw [← prepared, current_setCurrent _ _ (by decide)]
  have position : claimed.current (.fileArray fd .position) = 0 := by
    rw [← prepared, kept _ _ (by decide), current_setCurrent _ _ (by decide)]
  have number : claimed.current (.fileArray fd .inode) = dentry.inodeNum := by
    rw [← prepared, kept _ _ (by decide), kept _ _ (by decide), current_setCurrent _ _ inode]
  have words := claimed.setOperations_current inside known
  have address (operation : Operation) : claimed.symbols.address operation =
      (claimed.setOperations fd dentry.fileType).symbols.address operation := by
    rw [(claimed.setOperations_keepsOthers inside _).symbols]
  obtain ⟨rtc, opened⟩ : ∃ rtc, k.sysOpen filename =
      ((fd : Int), { claimed.setOperations fd dentry.fileType with rtc }) := by
    unfold sysOpen
    rw [resolved, found, ← prepared]
    dsimp only
    split
    · exact ⟨_, rfl⟩
    · exact ⟨_, rfl⟩
  rw [opened]
  refine ⟨rfl, ?_, ⟨?_, ?_, readOp, writeOp, openOp, closeOp, known, ?_, ?_, ?_, ?_⟩, ?_,
    closeOp, closer, ?_⟩
  · exact (keeps.trans (claimed.setOperations_keepsOthers inside _)).trans (.devices _ _ _)
  · exact (words .position).trans position
  · exact (words .inode).trans number
  · exact (words .readOp).trans (address readOp)
  · exact (words .writeOp).trans (address writeOp)
  · exact (words .openOp).trans (address openOp)
  · exact (words .closeOp).trans (address closeOp)
  · exact (words .flags).trans flags
  · exact (words .closeOp).trans (congrArg (fun symbols : Symbols => symbols.address closeOp) keeps.symbols)

theorem sysOpen_keepsOthers (wellFormed : k.fileSystem.TypesWellFormed) (filename : Option (List UInt8)) :
    KeepsOthers (k.sysOpen filename).1 k (k.sysOpen filename).2 := by
  cases resolved : k.fileSystem.readDentryByName filename with
  | none =>
      rw [k.sysOpen_of_missing resolved]
      exact .refl _ k
  | some dentry =>
      cases found : k.freeDescriptor 2 with
      | none =>
          rw [k.sysOpen_of_full filename found]
          exact .refl _ k
      | some fd =>
          obtain ⟨returned, keeps, _⟩ := k.sysOpen_of_found wellFormed resolved found
          rw [returned]
          exact keeps

/-- Closing a directory frees its descriptor. -/
theorem directoryClose_frees {fd : Nat} (inside : fd < 8) :
    (k.directoryClose fd).1 = 0 ∧ (k.directoryClose fd).2.current (.fileArray fd .flags) = 0 := by
  rw [directoryClose, if_neg (by omega)]
  exact ⟨rfl, current_setCurrent _ _ (by decide)⟩

/-- Closing the clock leaves its descriptor as it is. -/
theorem sysClose_of_clock {fd : Nat} (low : 2 ≤ fd) (high : fd < 8)
    (used : k.current (.fileArray fd .flags) = 1)
    (clock : k.current (.fileArray fd .closeOp) = k.symbols.address .rtcClose) :
    k.sysClose fd = some (0, { k with rtc := k.rtc.rtcClose.2 }) := by
  have valid : ¬((fd : Int) < 2 ∨ (fileArrayLen : Int) < fd ∨ k.current (.fileArray fd .flags) = 0) := by
    unfold fileArrayLen
    omega
  rw [sysClose, Int.toNat_natCast, if_neg valid, clock, callClose, Symbols.resolve_address]
  rfl

/-- Closing a file in use frees its descriptor. -/
theorem fileClose_frees {fd : Nat} (inside : fd < 8) (used : k.current (.fileArray fd .flags) = 1) :
    (k.fileClose fd).1 = 0 ∧ (k.fileClose fd).2.current (.fileArray fd .flags) = 0 := by
  constructor
  · rw [fileClose, if_neg (by omega), Int.toNat_natCast, if_pos used]
  · exact (k.fileClose_touchesFile inside used).2 .flags FdField.ofFile_flags

end Kernel

namespace DescriptorTable

/-- Closing a descriptor of the real-time clock is left out. -/
def KeepsClock (table : DescriptorTable) : DescriptorCall → Prop
  | .close fd => fd.toNat ∈ table.used →
      table.kernel.current (.fileArray fd.toNat .closeOp) ≠ table.kernel.symbols.address .rtcClose
  | _ => True

instance (table : DescriptorTable) : (call : DescriptorCall) → Decidable (table.KeepsClock call)
  | .openFile _ => .isTrue trivial
  | .close _ => inferInstanceAs (Decidable (_ → _))
  | .read _ _ _ _ => .isTrue trivial
  | .write _ _ _ => .isTrue trivial

end DescriptorTable

/-- The flags of the descriptors say which of them are in use. -/
structure Tracks (table : DescriptorTable) : Prop where
  types : table.kernel.fileSystem.TypesWellFormed
  range : ∀ fd ∈ table.used, 2 ≤ fd ∧ fd < 8
  used : ∀ fd ∈ table.used, table.kernel.current (.fileArray fd .flags) = 1
  closer : ∀ fd ∈ table.used, ∃ closeOp ∈ fileClosers,
    table.kernel.current (.fileArray fd .closeOp) = table.kernel.symbols.address closeOp
  free : ∀ fd ∈ table.free, table.kernel.current (.fileArray fd .flags) = 0

namespace Tracks
variable {table : DescriptorTable} {k : Kernel}

/-- A call that keeps the flags and the close functions keeps the table. -/
theorem of_same (tracks : Tracks table) (symbols : k.symbols = table.kernel.symbols)
    (fileSystem : k.fileSystem = table.kernel.fileSystem)
    (same : ∀ fd < 8, ∀ field : FdField, field ≠ .position →
      k.current (.fileArray fd field) = table.kernel.current (.fileArray fd field)) :
    Tracks ⟨k, table.used⟩ where
  types := by
    dsimp only
    rw [fileSystem]
    exact tracks.types
  range := tracks.range
  used fd member := (same fd (tracks.range fd member).2 .flags (by decide)).trans (tracks.used fd member)
  closer fd member := by
    obtain ⟨closeOp, known, equal⟩ := tracks.closer fd member
    refine ⟨closeOp, known, ?_⟩
    rw [same fd (tracks.range fd member).2 .closeOp (by decide), equal, symbols]
  free fd member := (same fd member.2.1 .flags (by decide)).trans (tracks.free fd member)

/-- A descriptor that may be returned is free exactly when its flag is zero. -/
theorem free_iff (tracks : Tracks table) {fd : Nat} (low : 2 ≤ fd) (high : fd < 8) :
    fd ∈ table.free ↔ table.kernel.current (.fileArray fd .flags) = 0 := by
  constructor
  · exact tracks.free fd
  · intro zero
    refine ⟨low, high, fun member => ?_⟩
    have one := tracks.used fd member
    omega

/-- The search of `sys_open` finds the lowest free descriptor. -/
theorem freeDescriptor_iff (tracks : Tracks table) (fd : Nat) :
    table.kernel.freeDescriptor 2 = some fd ↔ IsLeast table.free fd := by
  rw [freeDescriptor_eq_some_iff]
  constructor
  · intro ⟨low, high, zero, least⟩
    refine ⟨(tracks.free_iff low high).mpr zero, fun other member => ?_⟩
    by_contra earlier
    exact least other (by omega) member.1 (tracks.free other member)
  · intro ⟨member, least⟩
    refine ⟨member.1, member.2.1, tracks.free fd member, fun earlier small low zero => ?_⟩
    have bound := least ((tracks.free_iff low (by have := member.2.1; omega)).mpr zero)
    omega

theorem freeDescriptor_none_iff (tracks : Tracks table) :
    table.kernel.freeDescriptor 2 = none ↔ table.free = ∅ := by
  rw [freeDescriptor_eq_none_iff, Set.eq_empty_iff_forall_notMem]
  constructor
  · intro full fd member
    exact full fd member.2.1 member.1 (tracks.free fd member)
  · intro empty fd high low zero
    exact empty fd ((tracks.free_iff low high).mpr zero)

/-- A table whose flags are right keeps its promises at the next call. -/
theorem contract (tracks : Tracks table) : TableContract table where
  opens filename dentry fd resolved least := by
    have found := (tracks.freeDescriptor_iff fd).mpr least
    obtain ⟨returned, _, opened, _⟩ := table.kernel.sysOpen_of_found tracks.types resolved found
    exact ⟨returned, opened⟩
  fails filename := by
    constructor
    · intro failed
      by_contra possible
      rw [not_or] at possible
      obtain ⟨dentry, resolved⟩ := Option.ne_none_iff_exists'.mp possible.1
      obtain ⟨fd, found⟩ := Option.ne_none_iff_exists'.mp
        (mt tracks.freeDescriptor_none_iff.mp possible.2)
      have returned := (table.kernel.sysOpen_of_found tracks.types resolved found).1
      omega
    · intro impossible
      obtain missing | full := impossible
      · rw [table.kernel.sysOpen_of_missing missing]
      · rw [table.kernel.sysOpen_of_full filename (tracks.freeDescriptor_none_iff.mpr full)]
  unusable fd member := by
    have zero := tracks.free fd member
    have bounds : 2 ≤ fd ∧ fd < 8 := ⟨member.1, member.2.1⟩
    refine ⟨fun buf nbytes waited => ?_, fun buf nbytes => ?_, ?_⟩
    · cases buf with
      | none => rfl
      | some buf =>
          rw [sysRead]
          exact if_pos (.inr (.inr zero))
    · cases buf with
      | none => rfl
      | some buf =>
          rw [sysWrite]
          exact if_pos (.inr (.inr zero))
    · exact if_pos (.inr (.inr zero))
  others call result after performed fd inside different field := by
    cases call with
    | openFile filename =>
        have keeps := table.kernel.sysOpen_keepsOthers tracks.types filename
        rw [Option.some.inj performed] at keeps
        exact keeps.same fd inside different field
    | close target => exact (sysClose_keepsOthers performed).same fd inside different field
    | read target buf nbytes waited =>
        obtain ⟨⟨_, _, _⟩, returned, equal⟩ := Option.map_eq_some_iff.mp performed
        cases equal
        exact (sysRead_movesPosition returned).same fd inside different field
    | write target buf nbytes => exact (sysWrite_movesPosition performed).same fd inside different field

/-- A call on the descriptor `fd` settles the table when it settles that descriptor. -/
theorem of_keepsOthers (tracks : Tracks table) {fd : Nat} (keeps : KeepsOthers fd table.kernel k)
    {used : Finset Nat} (others : ∀ other, other ≠ fd → (other ∈ used ↔ other ∈ table.used))
    (opened : fd ∈ used → 2 ≤ fd ∧ fd < 8 ∧ k.current (.fileArray fd .flags) = 1 ∧
      ∃ closeOp ∈ fileClosers, k.current (.fileArray fd .closeOp) = k.symbols.address closeOp)
    (closed : fd ∉ used → 2 ≤ fd → fd < 8 → k.current (.fileArray fd .flags) = 0) :
    Tracks ⟨k, used⟩ := by
  have same {other : Nat} (different : other ≠ fd) (small : other < 8) (field : FdField) :
      k.current (.fileArray other field) = table.kernel.current (.fileArray other field) :=
    keeps.same other small (by omega) field
  constructor
  · dsimp only
    rw [keeps.fileSystem]
    exact tracks.types
  · intro other member
    obtain rfl | different := eq_or_ne other fd
    · exact ⟨(opened member).1, (opened member).2.1⟩
    · exact tracks.range other ((others other different).mp member)
  · intro other member
    obtain rfl | different := eq_or_ne other fd
    · exact (opened member).2.2.1
    · have earlier := (others other different).mp member
      exact (same different (tracks.range other earlier).2 .flags).trans (tracks.used other earlier)
  · intro other member
    obtain rfl | different := eq_or_ne other fd
    · exact (opened member).2.2.2
    · have earlier := (others other different).mp member
      obtain ⟨closeOp, known, equal⟩ := tracks.closer other earlier
      refine ⟨closeOp, known, ?_⟩
      rw [same different (tracks.range other earlier).2 .closeOp, equal, keeps.symbols]
  · intro other member
    obtain ⟨low, high, unused⟩ := member
    obtain rfl | different := eq_or_ne other fd
    · exact closed unused low high
    · have earlier : other ∉ table.used := mt (others other different).mpr unused
      exact (same different high .flags).trans (tracks.free other ⟨low, high, earlier⟩)

theorem openFile (tracks : Tracks table) (filename : Option (List UInt8)) :
    Tracks ⟨(table.kernel.sysOpen filename).2,
      DescriptorCall.used (.openFile filename) (table.kernel.sysOpen filename).1 table.used⟩ := by
  cases resolved : table.kernel.fileSystem.readDentryByName filename with
  | none =>
      rw [table.kernel.sysOpen_of_missing resolved]
      exact tracks
  | some dentry =>
      cases found : table.kernel.freeDescriptor 2 with
      | none =>
          rw [table.kernel.sysOpen_of_full filename found]
          exact tracks
      | some fd =>
          obtain ⟨returned, keeps, _, flags, closeOp, known, closer⟩ :=
            table.kernel.sysOpen_of_found tracks.types resolved found
          obtain ⟨low, high, _⟩ := table.kernel.freeDescriptor_eq_some_iff.mp found
          rw [returned, DescriptorCall.used, if_neg (by omega), Int.toNat_natCast]
          apply tracks.of_keepsOthers keeps
          · intro other different
            rw [Finset.mem_insert]
            exact or_iff_right different
          · intro _
            exact ⟨low, high, flags, closeOp, known, by rw [closer, keeps.symbols]⟩
          · intro unused
            exact absurd (Finset.mem_insert_self fd table.used) unused

/-- A close call that is not on a descriptor in use changes nothing of the table. -/
theorem close_unused (tracks : Tracks table) {fd : Int} (unused : fd.toNat ∉ table.used) {result : Int}
    (returned : table.kernel.sysClose fd = some (result, k)) :
    Tracks ⟨k, DescriptorCall.used (.close fd) result table.used⟩ := by
  have same : DescriptorCall.used (.close fd) result table.used = table.used := by
    rw [DescriptorCall.used, Finset.erase_eq_of_notMem unused, ite_self]
  rw [same]
  by_cases beyond : 8 ≤ fd
  · have keeps := sysClose_keepsOthers returned
    exact tracks.of_same keeps.symbols keeps.fileSystem fun other small field _ =>
      keeps.same other small (by omega) field
  · have rejected : table.kernel.sysClose fd = some (-1, table.kernel) := by
      apply if_pos
      by_cases low : fd < 2
      · exact .inl low
      · exact .inr (.inr (tracks.free _ ⟨by omega, by omega, unused⟩))
    rw [rejected] at returned
    cases returned
    exact tracks

/-- The close function of a file or of a directory clears the flag. -/
theorem close_used (tracks : Tracks table) {fd : Nat} (member : fd ∈ table.used)
    (clock : table.kernel.current (.fileArray fd .closeOp) ≠ table.kernel.symbols.address .rtcClose)
    {result : Int} (returned : table.kernel.sysClose fd = some (result, k)) :
    result = 0 ∧ k.current (.fileArray fd .flags) = 0 := by
  obtain ⟨low, high⟩ := tracks.range fd member
  have one := tracks.used fd member
  obtain ⟨closeOp, known, address⟩ := tracks.closer fd member
  have valid : ¬((fd : Int) < 2 ∨ (fileArrayLen : Int) < fd ∨
      table.kernel.current (.fileArray fd .flags) = 0) := by
    unfold fileArrayLen
    omega
  rw [sysClose, Int.toNat_natCast, if_neg valid, address, callClose, Symbols.resolve_address] at returned
  obtain rfl | rfl | rfl : closeOp = .rtcClose ∨ closeOp = .directoryClose ∨ closeOp = .fileClose := by
    simpa [fileClosers] using known
  · exact absurd address clock
  · have frees := table.kernel.directoryClose_frees high
    rw [Option.some.inj returned] at frees
    exact frees
  · have frees := table.kernel.fileClose_frees high one
    rw [Option.some.inj returned] at frees
    exact frees

theorem close (tracks : Tracks table) {fd : Int} (permitted : table.KeepsClock (.close fd))
    {result : Int} (returned : table.kernel.sysClose fd = some (result, k)) :
    Tracks ⟨k, DescriptorCall.used (.close fd) result table.used⟩ := by
  by_cases member : fd.toNat ∈ table.used
  · have low := (tracks.range _ member).1
    obtain ⟨target, rfl⟩ := Int.eq_ofNat_of_zero_le (show 0 ≤ fd by omega)
    rw [Int.toNat_natCast] at member
    have keeps := sysClose_keepsOthers returned
    obtain ⟨rfl, zero⟩ := tracks.close_used member (permitted member) returned
    rw [DescriptorCall.used, if_pos rfl, Int.toNat_natCast]
    apply tracks.of_keepsOthers keeps
    · intro other different
      rw [Finset.mem_erase]
      exact and_iff_right different
    · intro impossible
      exact absurd impossible (Finset.notMem_erase target table.used)
    · intro _ _ _
      exact zero
  · exact tracks.close_unused member returned

/-- Each call other than closing the real-time clock keeps the table right. -/
theorem step (tracks : Tracks table) {call : DescriptorCall} (permitted : table.KeepsClock call)
    {next : DescriptorTable} (taken : table.step call = some next) : Tracks next := by
  obtain ⟨⟨result, k⟩, performed, rfl⟩ := Option.map_eq_some_iff.mp taken
  cases call with
  | openFile filename =>
      have opened := tracks.openFile filename
      rw [Option.some.inj performed] at opened
      exact opened
  | close fd => exact tracks.close permitted performed
  | read fd buf nbytes waited =>
      obtain ⟨⟨_, _, _⟩, returned, equal⟩ := Option.map_eq_some_iff.mp performed
      cases equal
      have moves := sysRead_movesPosition returned
      exact tracks.of_same moves.symbols moves.fileSystem fun other small field different =>
        moves.current_eq small different
  | write fd buf nbytes =>
      have moves := sysWrite_movesPosition performed
      exact tracks.of_same moves.symbols moves.fileSystem fun other small field different =>
        moves.current_eq small different

/-- After the clock was closed its descriptor is neither free nor in use. -/
theorem close_clock (tracks : Tracks table) {fd : Nat} (member : fd ∈ table.used)
    (clock : table.kernel.current (.fileArray fd .closeOp) = table.kernel.symbols.address .rtcClose)
    {next : DescriptorTable} (taken : table.step (.close fd) = some next) : ¬TableContract next := by
  obtain ⟨low, high⟩ := tracks.range fd member
  have one := tracks.used fd member
  have closes := table.kernel.sysClose_of_clock low high one clock
  obtain ⟨⟨result, after⟩, returned, rfl⟩ := Option.map_eq_some_iff.mp taken
  rw [DescriptorCall.perform, closes] at returned
  cases returned
  intro contract
  have unused : fd ∈ DescriptorTable.free ⟨{ table.kernel with rtc := table.kernel.rtc.rtcClose.2 },
      table.used.erase fd⟩ := ⟨low, high, Finset.notMem_erase fd table.used⟩
  have again := Kernel.sysClose_of_clock { table.kernel with rtc := table.kernel.rtc.rtcClose.2 }
    low high one clock
  have rejected := (contract.unusable fd unused).2.2
  rw [again] at rejected
  cases rejected

/-- The next table keeps its promises unless the call closed the clock. -/
theorem contract_step_iff (tracks : Tracks table) {call : DescriptorCall} {next : DescriptorTable}
    (taken : table.step call = some next) : TableContract next ↔ table.KeepsClock call := by
  constructor
  · intro contract
    cases call with
    | close fd =>
        intro member clock
        have low := (tracks.range _ member).1
        obtain ⟨target, rfl⟩ := Int.eq_ofNat_of_zero_le (show 0 ≤ fd by omega)
        exact tracks.close_clock member clock taken contract
    | openFile | read | write => trivial
  · intro permitted
    exact (tracks.step permitted taken).contract

end Tracks

/-- A process with the two standard streams has the empty table. -/
theorem OnlyStandard.tracks {k : Kernel} (standard : OnlyStandard k)
    (wellFormed : k.fileSystem.TypesWellFormed) : Tracks ⟨k, ∅⟩ where
  types := wellFormed
  range fd member := absurd member (Finset.notMem_empty fd)
  used fd member := absurd member (Finset.notMem_empty fd)
  closer fd member := absurd member (Finset.notMem_empty fd)
  free fd member := (standard fd member.2.1).mpr member.1

/-- In every run the table keeps its promises up to the first close of a clock, and breaks them there. -/
theorem descriptor_contract {start : Kernel} (wellFormed : start.fileSystem.TypesWellFormed)
    (standard : OnlyStandard start) {calls : List DescriptorCall} {table : DescriptorTable}
    (run : Run DescriptorTable.step DescriptorTable.KeepsClock ⟨start, ∅⟩ calls table) :
    TableContract table ∧ ∀ call next, table.step call = some next →
      (TableContract next ↔ table.KeepsClock call) := by
  have tracks : Tracks table := by
    apply run.invariant Tracks (standard.tracks wellFormed)
    intro before call after tracks permitted taken
    exact tracks.step permitted taken
  constructor
  · exact tracks.contract
  · intro call next taken
    exact tracks.contract_step_iff taken

section Sample

theorem sampleKernel_typesWellFormed : sampleKernel.fileSystem.TypesWellFormed := by
  have table : sampleKernel.fileSystem.numOfEntries = 2 ∧ ∀ index < 2, (sampleKernel.fileSystem.dentryAt
      (sampleKernel.fileSystem.entryAddress index)).fileType ≤ 2 := by decide +kernel
  obtain ⟨entries, types⟩ := table
  intro index inside
  exact types index (by omega)

theorem sampleKernel_onlyStandard : OnlyStandard sampleKernel := by
  unfold OnlyStandard
  decide +kernel

/-- The names of the executable and of the device in the sample image. -/
def sampleFile : Option (List UInt8) := some [115, 104, 101, 108, 108]
def sampleClock : Option (List UInt8) := some [114, 116, 99]

end Sample

/-- The clock and the file are opened and read, and the file is closed and opened again. -/
theorem descriptor_contract_sample : ∃ table, TableContract table ∧ table.used = {2, 3} := by
  let calls : List DescriptorCall := [.openFile sampleClock, .openFile sampleFile,
    .read 3 (some fun _ => 0) 8 ⟨sampleKernel.console, sampleKernel.rtc⟩, .close 3, .openFile sampleFile]
  have executes : ((execute DescriptorTable.step (fun table call => decide (table.KeepsClock call))
      ⟨sampleKernel, ∅⟩ calls).any fun table => decide (table.used = {2, 3})) = true := by decide +kernel
  obtain ⟨table, executed, used⟩ := (Option.any_eq_true _ _).mp executes
  have run := run_of_execute (fun _ _ => of_decide_eq_true) executed
  exact ⟨table, (descriptor_contract sampleKernel_typesWellFormed sampleKernel_onlyStandard run).1,
    of_decide_eq_true used⟩

/-- After the clock was opened and closed, closing it again returns 0. -/
theorem descriptor_contract_clock : sampleKernel.fileSystem.TypesWellFormed ∧ OnlyStandard sampleKernel ∧
    ∃ table, Run DescriptorTable.step (fun _ _ => True) ⟨sampleKernel, ∅⟩
      [.openFile sampleClock, .close 2] table ∧ ¬TableContract table := by
  refine ⟨sampleKernel_typesWellFormed, sampleKernel_onlyStandard, ?_⟩
  have closed : ((execute DescriptorTable.step (fun _ _ => true) ⟨sampleKernel, ∅⟩
      [.openFile sampleClock, .close 2]).any fun table => decide (2 ∉ table.used ∧
        (table.kernel.sysClose 2).map Prod.fst = some 0)) = true := by decide +kernel
  obtain ⟨table, executed, closed⟩ := (Option.any_eq_true _ _).mp closed
  refine ⟨table, run_of_execute (fun _ _ _ => trivial) executed, fun contract => ?_⟩
  obtain ⟨unused, returns⟩ := of_decide_eq_true closed
  have rejected := (contract.unusable 2 ⟨by decide, by decide, unused⟩).2.2
  have returned : some (-1) = some (0 : Int) := (congrArg (Option.map Prod.fst) rejected).symm.trans returns
  cases returned

end OrcaOS
