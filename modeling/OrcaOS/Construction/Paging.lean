import Mathlib

/-!
The page tables of `paging.c` and the walk of a 32-bit processor with 4 MB pages enabled.
-/

namespace OrcaOS

/-- This function writes one bit of a packed entry. -/
def setBit {width : Nat} (entry : BitVec width) (index : Nat) (value : Bool) : BitVec width :=
  if value then entry ||| BitVec.twoPow width index else entry &&& ~~~BitVec.twoPow width index

/-- Each flag has the position of its bit-field in `page_directory_entry_t`. -/
inductive EntryFlag where
  | present | rw | us | pcd | pageSize
  deriving DecidableEq, Repr

def EntryFlag.index : EntryFlag → Nat
  | .present => 0
  | .rw => 1
  | .us => 2
  | .pcd => 4
  | .pageSize => 7

/-- This function assigns one flag of an entry. -/
def setFlag (entry : BitVec 32) (flag : EntryFlag) (value : Bool) : BitVec 32 :=
  setBit entry flag.index value

def flagOf (entry : BitVec 32) (flag : EntryFlag) : Bool := entry.getLsbD flag.index

/-- The top ten bits of a directory entry give the 4 MB frame. -/
def setUpperAddress (entry : BitVec 32) (frame : BitVec 10) : BitVec 32 :=
  frame ++ entry.extractLsb' 0 22

def upperAddress (entry : BitVec 32) : BitVec 10 := entry.extractLsb' 22 10

/-- The top twenty bits of a table entry give the 4 KB frame. -/
def setAddress (entry : BitVec 32) (frame : BitVec 20) : BitVec 32 :=
  frame ++ entry.extractLsb' 0 12

def addressOf (entry : BitVec 32) : BitVec 20 := entry.extractLsb' 12 20

/-- The linker places the two page tables in different 4 KB frames. -/
structure TableFrames where
  firstPageTable : BitVec 20
  vidPageTable : BitVec 20
  distinct : firstPageTable ≠ vidPageTable

/-- The address of an aligned table is its frame followed by twelve zero bits. -/
def tableAddress (frame : BitVec 20) : BitVec 32 := frame ++ 0#12

structure PageTables where
  frames : TableFrames
  pageDirectory : Nat → BitVec 32
  firstPageTable : Nat → BitVec 32
  vidPageTable : Nat → BitVec 32

/-- The tables lie in zeroed memory. -/
def PageTables.zero (frames : TableFrames) : PageTables where
  frames := frames
  pageDirectory := fun _ => 0
  firstPageTable := fun _ => 0
  vidPageTable := fun _ => 0

/-- This function replaces one entry of a table. -/
def setEntry (table : Nat → BitVec 32) (index : Nat) (entry : BitVec 32) : Nat → BitVec 32 :=
  fun other => if other = index then entry else table other

/-- An entry of the first page table starts from its address. -/
def supervisorPage (address : Nat) : BitVec 32 :=
  setFlag (setFlag (BitVec.ofNat 32 address) .rw true) .present true

def pageInit (tables : PageTables) : PageTables :=
  let directory := fun index =>
    if index < 1024 then setFlag (tables.pageDirectory index) .rw true
    else tables.pageDirectory index
  let zeroth := setFlag (setFlag (directory 0) .present true) .rw true
  let directory := setEntry directory 0 (zeroth ||| tableAddress tables.frames.firstPageTable)
  let first := setUpperAddress (directory 1) 1
  let first := setFlag (setFlag (setFlag (setFlag first .present true) .rw true) .pcd true) .pageSize true
  let directory := setEntry directory 1 first
  -- The second loop maps 4 MB, and the assignments after it redo five of its entries.
  let table := fun index =>
    if index < 1024 then supervisorPage (index * 0x1000) else tables.firstPageTable index
  let table := setEntry table 0xB7 (supervisorPage 0xB8000)
  let table := setEntry table 0xB8 (supervisorPage 0xB8000)
  let table := setEntry table 0xB9 (supervisorPage 0xB9000)
  let table := setEntry table 0xBA (supervisorPage 0xBA000)
  let table := setEntry table 0xBB (supervisorPage 0xBB000)
  { tables with pageDirectory := directory, firstPageTable := table }

/-- Both program mappings point entry 32 at the frame of a process. -/
def mapProgram (tables : PageTables) (processNum : Nat) : PageTables :=
  let entry := setUpperAddress (tables.pageDirectory 32) (BitVec.ofNat 10 (0x2 + processNum * 0x1))
  let entry := setFlag (setFlag (setFlag entry .present true) .rw true) .us true
  let entry := setFlag (setFlag entry .pcd true) .pageSize true
  { tables with pageDirectory := setEntry tables.pageDirectory 32 entry }

/-- The argument is the process number that the function reads from its PCB pointer. -/
def systemCallPaging (tables : PageTables) (processNum : Nat) : PageTables :=
  mapProgram tables processNum

def schedulerPaging (tables : PageTables) (processNum : Nat) : PageTables :=
  mapProgram tables processNum

def systemCallVidmap (tables : PageTables) : PageTables :=
  let entry := setFlag (setFlag (tables.pageDirectory 33) .present true) .rw true
  let entry := entry ||| tableAddress tables.frames.vidPageTable
  let entry := setFlag (setFlag (setFlag entry .us true) .pcd false) .pageSize false
  let page := setAddress (tables.vidPageTable 0) 0xB8
  let page := setFlag (setFlag (setFlag page .present true) .rw true) .us true
  { tables with
    pageDirectory := setEntry tables.pageDirectory 33 entry
    vidPageTable := setEntry tables.vidPageTable 0 page }

/-- A translation gives the physical address and says whether user mode may use it. -/
structure Translation where
  physical : Nat
  user : Bool
  deriving DecidableEq, Repr

/-- This function finds the page table that lies in a frame. -/
def PageTables.tableAt (tables : PageTables) (frame : BitVec 20) : Option (Nat → BitVec 32) :=
  if frame = tables.frames.firstPageTable then some tables.firstPageTable
  else if frame = tables.frames.vidPageTable then some tables.vidPageTable
  else none

/-- The processor walks the directory and, for a 4 KB page, one page table. -/
def PageTables.translate (tables : PageTables) (virtual : BitVec 32) : Option Translation :=
  let directoryEntry := tables.pageDirectory (virtual.toNat / 0x400000)
  if flagOf directoryEntry .present then
    if flagOf directoryEntry .pageSize then
      some ⟨(upperAddress directoryEntry).toNat * 0x400000 + virtual.toNat % 0x400000,
        flagOf directoryEntry .us⟩
    else
      (tables.tableAt (addressOf directoryEntry)).bind fun table =>
        let tableEntry := table (virtual.toNat / 0x1000 % 1024)
        if flagOf tableEntry .present then
          some ⟨(addressOf tableEntry).toNat * 0x1000 + virtual.toNat % 0x1000,
            flagOf directoryEntry .us && flagOf tableEntry .us⟩
        else none
  else none

end OrcaOS
