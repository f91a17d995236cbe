import OrcaOS.Construction.Kernel
import OrcaOS.Foundation.Traced
import OrcaOS.Specification.Image

/-!
The listing of a directory: which entry each call of `directory_read` reads, and what it delivers.
-/

namespace OrcaOS
open Foundation

/-- The same function as `readDentryByIndex`, with the index recorded. -/
def FileSystem.visitDentry (fs : FileSystem) (index : Nat) : Traced Nat (Option Dentry) :=
  .access index (fs.readDentryByIndex index)

namespace Kernel

/-- The directory read, with the entry that it reads. -/
def tracedDirectoryRead (k : Kernel) (fd : Int) (buf : Option Buffer) (nbytes : Int) :
    Traced Nat (Int × Option Buffer × Kernel) :=
  match buf with
  | none => pure (-1, none, k)
  | some buf =>
      if fd < 0 ∨ 7 < fd then pure (-1, some buf, k)
      else
        let numBytes := if 32 < nbytes then 32 else nbytes
        let position := k.current (.fileArray fd.toNat .position)
        let currentFileIndex := position / 32
        if currentFileIndex = k.fileSystem.numOfEntries then pure (0, some buf, k)
        else do
          match ← k.fileSystem.visitDentry currentFileIndex with
          | none => pure (-1, some buf, k)
          | some dentry =>
              let name := dentry.fileName.take numBytes.toNat
              pure (name.countP (· ≠ 0),
                some fun index => if index < numBytes.toNat then name.getD index 0 else buf index,
                k.setCurrent (.fileArray fd.toNat .position) (wrap32 (position + numBytes)))

end Kernel

/-- One call of `directory_read` with the entries that it read and its buffer before and after. -/
structure Listing where
  request : Nat
  entries : List Nat
  result : Int
  before : Buffer
  after : Buffer

/-- This function makes consecutive calls of `directory_read` on one descriptor. -/
def Kernel.directoryReads (fd : Nat) : Kernel → List (Nat × Buffer) → List Listing
  | _, [] => []
  | k, (request, before) :: rest =>
      let call := k.tracedDirectoryRead fd (some before) request
      ⟨request, call.accesses, call.value.1, before, call.value.2.1.getD before⟩ ::
        directoryReads fd call.value.2.2 rest

namespace Image
variable (image : Image)

/-- The call reads the entry and delivers its name, cut to the request, and nothing behind it. -/
structure Lists (index : Nat) (listing : Listing) : Prop where
  entry : listing.entries = [index]
  count : listing.result = ((image.entryName index).take listing.request).length
  name : ∀ offset < min listing.request 32, listing.after offset = (image.entryName index).getD offset 0
  kept : ∀ offset, min listing.request 32 ≤ offset → listing.after offset = listing.before offset

/-- The call with the given number lists its own entry, and behind the last entry it returns 0. -/
def Expects (index : Nat) (listing : Listing) : Prop :=
  if index < image.entries then image.Lists index listing else listing.result = 0

/-- The calls list the entries in their order. The first call has the given number. -/
def ListsInOrder (first : Nat) (listings : List Listing) : Prop :=
  ∀ call ∈ listings.zipIdx first, image.Expects call.2 call.1

end Image

/-- Each request among the first ones, one for each entry, asks for a whole name if another one follows it. -/
def WholeNames (entries : Nat) (requests : List Nat) : Prop := ∀ request ∈ requests.dropLast.take entries, 32 ≤ request

end OrcaOS
