import OrcaOS.Construction.SystemCall
import OrcaOS.Specification.File

/-!
What the descriptors of a process promise. A descriptor is in use from the call of `sys_open` that
returns it up to the next call of `sys_close` on it that returns 0.
-/

namespace OrcaOS
open Foundation Kernel

namespace FileSystem
variable (fs : FileSystem)

/-- Each entry of the directory has one of the three types. -/
def TypesWellFormed : Prop :=
  ∀ index < fs.numOfEntries, (fs.dentryAt (fs.entryAddress index)).fileType ≤ 2

end FileSystem

/-- The calls that a process makes on its descriptors. -/
inductive DescriptorCall where
  | openFile (filename : Option (List UInt8))
  | close (fd : Int)
  | read (fd : Int) (buf : Option Buffer) (nbytes : Int) (waited : Waited)
  | write (fd : Int) (buf : Option Buffer) (nbytes : Int)

namespace DescriptorCall

/-- The return value and the state after a call. -/
def perform (k : Kernel) : DescriptorCall → Option (Int × Kernel)
  | openFile filename => some (k.sysOpen filename)
  | close fd => k.sysClose fd
  | read fd buf nbytes waited => (k.sysRead fd buf nbytes waited).map fun (result, _, k) => (result, k)
  | write fd buf nbytes => k.sysWrite fd buf nbytes

/-- The descriptor that a call is about. -/
def target : DescriptorCall → Int → Int
  | openFile _, result => result
  | close fd, _ => fd
  | read fd _ _ _, _ => fd
  | write fd _ _, _ => fd

/-- The descriptors in use after a call, by its return value. -/
def used (call : DescriptorCall) (result : Int) (before : Finset Nat) : Finset Nat :=
  match call with
  | openFile _ => if result = -1 then before else insert result.toNat before
  | close fd => if result = 0 then before.erase fd.toNat else before
  | read _ _ _ _ => before
  | write _ _ _ => before

end DescriptorCall

/-- The kernel with the descriptors that its process has in use. -/
structure DescriptorTable where
  kernel : Kernel
  used : Finset Nat

namespace DescriptorTable

def step (table : DescriptorTable) (call : DescriptorCall) : Option DescriptorTable :=
  (call.perform table.kernel).map fun (result, k) => ⟨k, call.used result table.used⟩

/-- The descriptors that may be returned by `sys_open`. -/
def free (table : DescriptorTable) : Set Nat := {fd | 2 ≤ fd ∧ fd < 8 ∧ fd ∉ table.used}

end DescriptorTable

/-- The descriptor has the position 0, the inode of the entry and the operations of its type. -/
structure OpenedOn (k : Kernel) (fd : Nat) (dentry : Dentry) : Prop where
  position : k.current (.fileArray fd .position) = 0
  inode : k.current (.fileArray fd .inode) = dentry.inodeNum
  operations : ∃ readOp writeOp openOp closeOp,
    operationsOf dentry.fileType = some (readOp, writeOp, openOp, closeOp) ∧
      k.current (.fileArray fd .readOp) = k.symbols.address readOp ∧
      k.current (.fileArray fd .writeOp) = k.symbols.address writeOp ∧
      k.current (.fileArray fd .openOp) = k.symbols.address openOp ∧
      k.current (.fileArray fd .closeOp) = k.symbols.address closeOp

/-- The promises of the table, for every call that the process may make next. -/
structure TableContract (table : DescriptorTable) : Prop where
  /-- An open call returns the lowest free descriptor. -/
  opens : ∀ filename dentry (fd : Nat), table.kernel.fileSystem.readDentryByName filename = some dentry →
    IsLeast table.free fd →
      (table.kernel.sysOpen filename).1 = fd ∧ OpenedOn (table.kernel.sysOpen filename).2 fd dentry
  /-- An open call fails exactly when there is no such file or no free descriptor. -/
  fails : ∀ filename, (table.kernel.sysOpen filename).1 = -1 ↔
    table.kernel.fileSystem.readDentryByName filename = none ∨ table.free = ∅
  /-- A free descriptor cannot be used. -/
  unusable : ∀ fd ∈ table.free,
    (∀ buf nbytes waited, table.kernel.sysRead fd buf nbytes waited = some (-1, buf, table.kernel)) ∧
    (∀ buf nbytes, table.kernel.sysWrite fd buf nbytes = some (-1, table.kernel)) ∧
    table.kernel.sysClose fd = some (-1, table.kernel)
  /-- A call changes no word of another descriptor. -/
  others : ∀ call result after, DescriptorCall.perform table.kernel call = some (result, after) →
    ∀ fd : Nat, fd < 8 → (fd : Int) ≠ call.target result → ∀ field : FdField,
      after.current (.fileArray fd field) = table.kernel.current (.fileArray fd field)

/-- The process has only the two standard streams open. -/
def OnlyStandard (k : Kernel) : Prop := ∀ fd < 8, k.current (.fileArray fd .flags) = 0 ↔ 2 ≤ fd

end OrcaOS
