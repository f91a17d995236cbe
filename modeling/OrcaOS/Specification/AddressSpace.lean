import Mathlib
import OrcaOS.Construction.Paging

/-!
The address space that the page tables are meant to give to the running process.
-/

namespace OrcaOS

/-- The calls that edit the tables after `page_init`. -/
inductive PagingCall where
  | systemCallPaging (processNum : Nat)
  | schedulerPaging (processNum : Nat)
  | systemCallVidmap
  deriving DecidableEq, Repr

namespace PagingCall

/-- The number of the process that a call maps. -/
def program : PagingCall → Option Nat
  | .systemCallPaging processNum => some processNum
  | .schedulerPaging processNum => some processNum
  | .systemCallVidmap => none

def apply (tables : PageTables) : PagingCall → PageTables
  | .systemCallPaging processNum => OrcaOS.systemCallPaging tables processNum
  | .schedulerPaging processNum => OrcaOS.schedulerPaging tables processNum
  | .systemCallVidmap => OrcaOS.systemCallVidmap tables

end PagingCall

/-- The tables after `page_init` and a sequence of calls. -/
def tablesAfter (frames : TableFrames) (calls : List PagingCall) : PageTables :=
  calls.foldl PagingCall.apply (pageInit (.zero frames))

/-- What a sequence of calls grants: the program mapped last, and the video page. -/
structure Grant where
  program : Option Nat
  video : Bool

namespace Grant

def initial : Grant := ⟨none, false⟩

def apply (grant : Grant) (call : PagingCall) : Grant :=
  match call.program with
  | some processNum => { grant with program := some processNum }
  | none => { grant with video := true }

def after (calls : List PagingCall) : Grant := calls.foldl apply initial

/-- The latest call with a program decides which one is mapped. -/
theorem after_program (calls : List PagingCall) :
    (after calls).program = calls.reverse.findSome? PagingCall.program := by
  induction calls using List.reverseRecOn with
  | nil => rfl
  | append_singleton earlier call ih =>
      unfold after at ih ⊢
      rw [List.foldl_append, List.reverse_append]
      cases call with
      | systemCallPaging processNum => rfl
      | schedulerPaging processNum => rfl
      | systemCallVidmap => exact ih

/-- One vidmap call suffices for the video page. -/
theorem after_video (calls : List PagingCall) :
    (after calls).video = true ↔ .systemCallVidmap ∈ calls := by
  induction calls using List.reverseRecOn with
  | nil => simp [after, initial]
  | append_singleton earlier call ih =>
      unfold after at ih ⊢
      rw [List.foldl_append, List.mem_append, List.mem_singleton, ← ih]
      cases call with
      | systemCallPaging processNum => simp [apply, PagingCall.program]
      | schedulerPaging processNum => simp [apply, PagingCall.program]
      | systemCallVidmap => simp [apply, PagingCall.program]

/-- The program of a process occupies the 4 MB frame at this address. -/
def frameAddress (processNum : Nat) : Nat := 0x800000 + 0x400000 * processNum

/-- User mode reaches the program at 128 MB and the video page at 132 MB. -/
def lookup (grant : Grant) (virtual : Nat) : Option Translation :=
  if virtual < 0x400000 then some ⟨if virtual / 0x1000 = 0xB7 then virtual + 0x1000 else virtual, false⟩
  else if virtual < 0x800000 then some ⟨virtual, false⟩
  else if 0x8000000 ≤ virtual ∧ virtual < 0x8400000 then
    grant.program.map fun processNum => ⟨frameAddress processNum + (virtual - 0x8000000), true⟩
  else if 0x8400000 ≤ virtual ∧ virtual < 0x8401000 ∧ grant.video then
    some ⟨0xB8000 + (virtual - 0x8400000), true⟩
  else none

/-- Below 8 MB only the kernel has access, and one page is an alias of the next. -/
theorem lookup_kernel (grant : Grant) {virtual : Nat} (low : virtual < 0x800000) :
    grant.lookup virtual =
      some ⟨if virtual / 0x1000 = 0xB7 then virtual + 0x1000 else virtual, false⟩ := by
  unfold lookup
  by_cases small : virtual < 0x400000
  · rw [if_pos small]
  · rw [if_neg small, if_pos low, if_neg (by omega)]

/-- User mode reaches exactly the mapped program and the granted video page. -/
theorem lookup_user_iff (grant : Grant) (virtual physical : Nat) :
    grant.lookup virtual = some ⟨physical, true⟩ ↔
      (∃ processNum, grant.program = some processNum ∧ 0x8000000 ≤ virtual ∧ virtual < 0x8400000 ∧
        physical = frameAddress processNum + (virtual - 0x8000000)) ∨
      (grant.video = true ∧ 0x8400000 ≤ virtual ∧ virtual < 0x8401000 ∧
        physical = 0xB8000 + (virtual - 0x8400000)) := by
  by_cases low : virtual < 0x800000
  · rw [grant.lookup_kernel low]
    simp only [Option.some.injEq, Translation.mk.injEq, Bool.false_eq_true, and_false, false_iff]
    rintro (⟨_, _, above, _⟩ | ⟨_, above, _⟩) <;> omega
  unfold lookup
  rw [if_neg (by omega), if_neg low]
  by_cases program : 0x8000000 ≤ virtual ∧ virtual < 0x8400000
  · rw [if_pos program, Option.map_eq_some_iff]
    constructor
    · rintro ⟨processNum, latest, equal⟩
      rw [Translation.mk.injEq] at equal
      exact .inl ⟨processNum, latest, program.1, program.2, equal.1.symm⟩
    · rintro (⟨processNum, latest, _, _, equal⟩ | ⟨_, above, _⟩)
      · exact ⟨processNum, latest, by rw [equal]⟩
      · omega
  rw [if_neg program]
  by_cases video : 0x8400000 ≤ virtual ∧ virtual < 0x8401000 ∧ grant.video
  · rw [if_pos video]
    simp only [Option.some.injEq, Translation.mk.injEq, and_true]
    constructor
    · intro equal
      exact .inr ⟨video.2.2, video.1, video.2.1, equal.symm⟩
    · rintro (⟨_, _, first, second, _⟩ | ⟨_, _, _, equal⟩)
      · exact absurd ⟨first, second⟩ program
      · exact equal.symm
  · rw [if_neg video]
    simp only [reduceCtorEq, false_iff]
    rintro (⟨_, _, first, second, _⟩ | ⟨granted, first, second, _⟩)
    · exact program ⟨first, second⟩
    · exact video ⟨first, second, granted⟩

/-- The frame of a process. -/
def frame (processNum : Nat) : Set Nat := Set.Ico (frameAddress processNum) (frameAddress (processNum + 1))

theorem frame_disjoint {first second : Nat} (different : first ≠ second) :
    Disjoint (frame first) (frame second) := by
  rw [Set.disjoint_left]
  rintro address ⟨low, high⟩ ⟨otherLow, otherHigh⟩
  unfold frameAddress at low high otherLow otherHigh
  omega

theorem frame_disjoint_kernel (processNum : Nat) : Disjoint (frame processNum) (Set.Ico 0 0x800000) := by
  rw [Set.disjoint_left]
  rintro address ⟨low, _⟩ ⟨_, high⟩
  unfold frameAddress at low
  omega

end Grant

end OrcaOS
