import OrcaOS.Proof.CreateProcess

/-!
The descriptor that a program file is opened, read and closed through.
-/

namespace OrcaOS
open Foundation

/-- The words of a descriptor that the file driver writes. -/
def FdField.OfFile (field : FdField) : Prop := field = .inode ∨ field = .position ∨ field = .flags

instance (field : FdField) : Decidable field.OfFile := inferInstanceAs (Decidable (_ ∨ _ ∨ _))

theorem FdField.ofFile_inode : FdField.inode.OfFile := .inl rfl
theorem FdField.ofFile_position : FdField.position.OfFile := .inr (.inl rfl)
theorem FdField.ofFile_flags : FdField.flags.OfFile := .inr (.inr rfl)

/-- A file operation keeps the other descriptors and the operations of its own. -/
structure TouchesFile (fd : Nat) (before after : Kernel) : Prop where
  currentPcb : after.currentPcb = before.currentPcb
  same : ∀ other < 8, ∀ field : FdField, (other = fd → ¬field.OfFile) →
    after.current (.fileArray other field) = before.current (.fileArray other field)

namespace TouchesFile
variable {fd : Nat} {first second third : Kernel}

theorem refl (fd : Nat) (k : Kernel) : TouchesFile fd k k := ⟨rfl, fun _ _ _ _ => rfl⟩

theorem trans (one : TouchesFile fd first second) (two : TouchesFile fd second third) :
    TouchesFile fd first third where
  currentPcb := two.currentPcb.trans one.currentPcb
  same other small field kept := (two.same other small field kept).trans (one.same other small field kept)

end TouchesFile

namespace Kernel
variable (k : Kernel)

theorem setCurrent_touchesFile {fd : Nat} (inside : fd < 8) {field : FdField} (ofFile : field.OfFile)
    (word : Nat) : TouchesFile fd k (k.setCurrent (.fileArray fd field) word) where
  currentPcb := rfl
  same other small kept notWritten := by
    refine k.current_setCurrent_of_ne word ?_ inside small
    intro equal
    obtain ⟨rfl, rfl⟩ : other = fd ∧ kept = field := by simpa using equal
    exact notWritten rfl ofFile

/-- Writing one word of a descriptor keeps its other words. -/
theorem current_setWord_of_ne {fd : Nat} (inside : fd < 8) {field other : FdField} (word : Nat)
    (different : other ≠ field) :
    (k.setCurrent (.fileArray fd field) word).current (.fileArray fd other) =
      k.current (.fileArray fd other) := by
  have unequal : PcbField.fileArray fd other ≠ .fileArray fd field := by simpa using different
  exact k.current_setCurrent_of_ne word unequal inside inside

/-- The descriptor that `file_open` claims. -/
def fileDescriptor (k : Kernel) (filename : List UInt8) : Option Nat :=
  (k.fileSystem.readDentryByName (some filename)).bind fun _ => k.freeDescriptor 0

variable {k} in
theorem fileDescriptor_lt {filename : List UInt8} {fd : Nat}
    (claimed : k.fileDescriptor filename = some fd) : fd < 8 := by
  obtain ⟨_, _, found⟩ := Option.bind_eq_some_iff.mp claimed
  exact (k.freeDescriptor_eq_some_iff.mp found).2.1

/-- Without a descriptor nothing is opened. -/
theorem fileOpen_of_none {filename : List UInt8} (missing : k.fileDescriptor filename = none) :
    k.fileOpen (some filename) = (-1, k) := by
  rw [fileDescriptor] at missing
  rw [fileOpen]
  cases resolved : k.fileSystem.readDentryByName (some filename) with
  | none => rfl
  | some dentry =>
      rw [resolved, Option.bind_some] at missing
      rw [missing]

/-- Opening claims the free descriptor, sets its inode and starts at the first position. -/
theorem fileOpen_eq {filename : List UInt8} {dentry : Dentry} {fd : Nat}
    (resolved : k.fileSystem.readDentryByName (some filename) = some dentry)
    (found : k.freeDescriptor 0 = some fd) : k.fileOpen (some filename) = ((fd : Int),
      ((k.setCurrent (.fileArray fd .flags) 1).setCurrent
        (.fileArray fd .inode) dentry.inodeNum).setCurrent (.fileArray fd .position) 0) := by
  simp only [fileOpen, resolved, found]

/-- The claimed descriptor is in use and nothing else changes. -/
theorem fileOpen_of_some {filename : List UInt8} {fd : Nat}
    (claimed : k.fileDescriptor filename = some fd) :
    (k.fileOpen (some filename)).1 = fd ∧ TouchesFile fd k (k.fileOpen (some filename)).2 ∧
      (k.fileOpen (some filename)).2.current (.fileArray fd .flags) = 1 := by
  have inside := fileDescriptor_lt claimed
  obtain ⟨dentry, resolved, found⟩ := Option.bind_eq_some_iff.mp claimed
  have one := k.setCurrent_touchesFile inside FdField.ofFile_flags 1
  have two := (k.setCurrent (.fileArray fd .flags) 1).setCurrent_touchesFile inside FdField.ofFile_inode dentry.inodeNum
  have three := ((k.setCurrent (.fileArray fd .flags) 1).setCurrent (.fileArray fd .inode)
    dentry.inodeNum).setCurrent_touchesFile inside FdField.ofFile_position 0
  rw [k.fileOpen_eq resolved found]
  refine ⟨rfl, (one.trans two).trans three, ?_⟩
  dsimp only
  rw [current_setWord_of_ne _ inside _ (by decide), current_setWord_of_ne _ inside _ (by decide),
    current_setCurrent _ _ (by decide)]

/-- Nothing is read through the descriptor -1. -/
theorem fileRead_of_negative (buf : Option Buffer) (nbytes : Int) :
    (k.fileRead (-1) buf nbytes).2.2 = k := by
  rw [fileRead, if_pos (by omega)]

theorem fileRead_touchesFile {fd : Nat} (inside : fd < 8) (buf : Option Buffer) (nbytes : Int) :
    TouchesFile fd k (k.fileRead fd buf nbytes).2.2 ∧
      (k.fileRead fd buf nbytes).2.2.current (.fileArray fd .flags) =
        k.current (.fileArray fd .flags) := by
  have advanced (word : Nat) :
      TouchesFile fd k (k.setCurrent (.fileArray fd .position) word) ∧
        (k.setCurrent (.fileArray fd .position) word).current (.fileArray fd .flags) =
          k.current (.fileArray fd .flags) :=
    ⟨k.setCurrent_touchesFile inside FdField.ofFile_position word,
      k.current_setWord_of_ne inside word (by decide)⟩
  unfold fileRead
  split
  · exact ⟨.refl fd k, rfl⟩
  · dsimp only
    split
    · exact ⟨.refl fd k, rfl⟩
    · split
      · exact advanced _
      · exact advanced _

theorem fileClose_of_negative : (k.fileClose (-1)).2 = k := by
  rw [fileClose, if_pos (by omega)]

/-- A file in use is closed with all its words cleared. -/
theorem fileClose_touchesFile {fd : Nat} (inside : fd < 8)
    (used : k.current (.fileArray fd .flags) = 1) :
    TouchesFile fd k (k.fileClose fd).2 ∧
      ∀ field : FdField, field.OfFile → (k.fileClose fd).2.current (.fileArray fd field) = 0 := by
  have one := k.setCurrent_touchesFile inside FdField.ofFile_inode 0
  have two := (k.setCurrent (.fileArray fd .inode) 0).setCurrent_touchesFile inside FdField.ofFile_position 0
  have three := ((k.setCurrent (.fileArray fd .inode) 0).setCurrent (.fileArray fd .position)
    0).setCurrent_touchesFile inside FdField.ofFile_flags 0
  have closed : (k.fileClose fd).2 = ((k.setCurrent (.fileArray fd .inode) 0).setCurrent
      (.fileArray fd .position) 0).setCurrent (.fileArray fd .flags) 0 := by
    rw [fileClose, if_neg (by omega), Int.toNat_natCast, if_pos used]
  rw [closed]
  refine ⟨(one.trans two).trans three, ?_⟩
  rintro field (rfl | rfl | rfl)
  · rw [current_setWord_of_ne _ inside _ (by decide), current_setWord_of_ne _ inside _ (by decide),
      current_setCurrent _ _ (by decide)]
  · rw [current_setWord_of_ne _ inside _ (by decide), current_setCurrent _ _ (by decide)]
  · rw [current_setCurrent _ _ (by decide)]

/-- The words of a descriptor after a file was opened, read and closed. -/
def settledField (k : Kernel) (filename : List UInt8) (fd : Nat) (field : FdField) : Nat :=
  if k.fileDescriptor filename = some fd ∧ field.OfFile then 0 else k.current (.fileArray fd field)

end Kernel

/-- The file is open through the given descriptor, or there was none to open it through. -/
inductive OpenThrough (before : Kernel) (filename : List UInt8) : Int → Kernel → Prop where
  | missing {after : Kernel} (none : before.fileDescriptor filename = none)
      (currentPcb : after.currentPcb = before.currentPcb)
      (same : ∀ fd < 8, ∀ field : FdField,
        after.current (.fileArray fd field) = before.current (.fileArray fd field)) :
      OpenThrough before filename (-1) after
  | opened {after : Kernel} {fd : Nat} (claimed : before.fileDescriptor filename = some fd)
      (touches : TouchesFile fd before after) (used : after.current (.fileArray fd .flags) = 1) :
      OpenThrough before filename fd after

namespace OpenThrough
variable {before k other : Kernel} {filename : List UInt8} {fd : Int}

theorem fileOpen (before : Kernel) (filename : List UInt8) :
    OpenThrough before filename (before.fileOpen (some filename)).1
      (before.fileOpen (some filename)).2 := by
  cases claimed : before.fileDescriptor filename with
  | none =>
      rw [before.fileOpen_of_none claimed]
      exact .missing claimed rfl fun _ _ _ => rfl
  | some fd =>
      obtain ⟨returned, touches, used⟩ := before.fileOpen_of_some claimed
      rw [returned]
      exact .opened claimed touches used

/-- The descriptors are the only words that matter. -/
theorem congr (through : OpenThrough before filename fd k) (currentPcb : other.currentPcb = k.currentPcb)
    (same : ∀ fd < 8, ∀ field : FdField,
      other.current (.fileArray fd field) = k.current (.fileArray fd field)) :
    OpenThrough before filename fd other := by
  cases through with
  | missing none position earlier =>
      exact .missing none (currentPcb.trans position) fun fd small field =>
        (same fd small field).trans (earlier fd small field)
  | opened claimed touches used =>
      have inside := Kernel.fileDescriptor_lt claimed
      exact .opened claimed (touches.trans ⟨currentPcb, fun fd small field _ => same fd small field⟩)
        ((same _ inside _).trans used)

theorem fileRead (through : OpenThrough before filename fd k) (buf : Option Buffer) (nbytes : Int) :
    OpenThrough before filename fd (k.fileRead fd buf nbytes).2.2 := by
  cases through with
  | missing none position same =>
      rw [k.fileRead_of_negative]
      exact .missing none position same
  | opened claimed touches used =>
      obtain ⟨later, kept⟩ := k.fileRead_touchesFile (Kernel.fileDescriptor_lt claimed) buf nbytes
      exact .opened claimed (touches.trans later) (kept.trans used)

/-- Closing the file settles every descriptor. -/
theorem fileClose (through : OpenThrough before filename fd k) {entry : Nat} (inside : entry < 8)
    (field : FdField) :
    (k.fileClose fd).2.current (.fileArray entry field) =
      before.settledField filename entry field := by
  unfold Kernel.settledField
  cases through with
  | missing none position same =>
      rw [k.fileClose_of_negative, none, if_neg (by simp)]
      exact same entry inside field
  | opened claimed touches used =>
      obtain ⟨later, cleared⟩ := k.fileClose_touchesFile (Kernel.fileDescriptor_lt claimed) used
      rw [claimed]
      split
      · rename_i own
        obtain ⟨same, ofFile⟩ := own
        obtain rfl := Option.some.inj same
        exact cleared field ofFile
      · rename_i foreign
        exact (touches.trans later).same entry inside field fun same ofFile =>
          foreign ⟨congrArg some same.symm, ofFile⟩

end OpenThrough

end OrcaOS
