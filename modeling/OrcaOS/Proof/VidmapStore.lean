import OrcaOS.Proof.AddressSpace
import OrcaOS.Proof.ProgramLoad

/-!
Which pointers make `sys_vidmap` store its result inside the page of the caller.
-/

namespace OrcaOS
open Foundation Kernel

namespace Kernel

/-- The little-endian word that the running program finds at a virtual address of its page. -/
def userWord (k : Kernel) (address : Nat) : Option Nat :=
  if mb128 ≤ address ∧ address + 4 ≤ mb128 + fourMb then
    some ((k.userMemory (upperAddress (k.pageTables.pageDirectory 32)).toNat).load32 address)
  else none

/-- The same kernel with other contents of the user frames and of the video memory. -/
def withContents (k : Kernel) (userMemory : Nat → Memory) (video : Memory) : Kernel :=
  { k with userMemory, console := { k.console with video } }

/-- An accepted pointer is stored through inside the user page, where it changes only its own four bytes
whatever the memory held, and a refused one changes nothing. -/
structure StoresInPage (k : Kernel) (screenStart : Nat) : Prop where
  inside : (k.sysVidmap screenStart).1 ≠ -1 → Memory.window screenStart 4 ⊆ userPage
  only : (k.sysVidmap screenStart).1 ≠ -1 → ∀ userMemory video, ∃ after,
    (k.withContents userMemory video).sysVidmap screenStart = ((vidmapAddress : Int), after) ∧
      (∀ frame, Set.EqOn (after.userMemory frame) (userMemory frame) (Memory.window screenStart 4)ᶜ) ∧
      (∀ frame ≠ (upperAddress (k.pageTables.pageDirectory 32)).toNat, after.userMemory frame = userMemory frame) ∧
      after.console.video = video ∧ after.memory = k.memory
  holds : (k.sysVidmap screenStart).1 ≠ -1 → (k.sysVidmap screenStart).2.userWord screenStart = some vidmapAddress
  refused : (k.sysVidmap screenStart).1 = -1 → (k.sysVidmap screenStart).2 = k

theorem window_subset_userPage_iff (address : Nat) :
    Memory.window address 4 ⊆ userPage ↔ mb128 ≤ address ∧ address + 4 ≤ mb128 + fourMb := by
  constructor
  · intro inside
    have first : address ∈ userPage := inside ⟨Nat.le_refl _, by omega⟩
    have last : address + 3 ∈ userPage := inside ⟨by omega, by omega⟩
    exact ⟨first.1, last.2⟩
  · rintro ⟨low, high⟩
    exact Memory.window_subset low high

theorem sysVidmap_refused (k : Kernel) {screenStart : Nat}
    (outside : screenStart = 0 ∨ screenStart < mb128 ∨ mb128 + fourMb < screenStart) :
    k.sysVidmap screenStart = (-1, k) := if_pos outside

/-- A word that is stored in the page is found there. -/
theorem storeUser_word (k : Kernel) {start word : Nat} (low : mb128 ≤ start) (high : start + 4 ≤ mb128 + fourMb)
    (fits : word < 4294967296) :
    (k.storeUser start 4 fun index => UInt8.ofNat (word / 256 ^ index)).userWord start = some word := by
  rw [userWord, if_pos ⟨low, high⟩, storeUser]
  dsimp only
  rw [Function.update_self]
  exact congrArg some (Memory.load32_store32 _ start fits)

theorem sysVidmap_accepted (k : Kernel) {screenStart : Nat} (low : mb128 ≤ screenStart)
    (high : screenStart ≤ mb128 + fourMb) : k.sysVidmap screenStart =
      ((vidmapAddress : Int), storeScreenStart { k with pageTables := systemCallVidmap k.pageTables } screenStart) := by
  refine if_neg ?_
  have positive : 0 < mb128 := by decide
  omega

/-- All four bytes of the pointer fall in the frame of the caller if the page holds them. -/
theorem storeScreenStart_word (k : Kernel) {screenStart : Nat} (low : mb128 ≤ screenStart)
    (fits : screenStart + 4 ≤ mb128 + fourMb) : (k.storeScreenStart screenStart).userWord screenStart = some vidmapAddress := by
  have whole : min 4 (vidmapAddress - screenStart) = 4 := by
    unfold vidmapAddress
    omega
  rw [storeScreenStart, whole]
  exact k.storeUser_word low fits (by decide)

/-- Such a pointer changes nothing else. -/
theorem storeScreenStart_only (k : Kernel) {screenStart : Nat} (fits : screenStart + 4 ≤ mb128 + fourMb) :
    (∀ frame, Set.EqOn ((k.storeScreenStart screenStart).userMemory frame) (k.userMemory frame)
      (Memory.window screenStart 4)ᶜ) ∧
      (∀ frame ≠ (upperAddress (k.pageTables.pageDirectory 32)).toNat,
        (k.storeScreenStart screenStart).userMemory frame = k.userMemory frame) ∧
      (k.storeScreenStart screenStart).console.video = k.console.video ∧
      (k.storeScreenStart screenStart).memory = k.memory := by
  have whole : min 4 (vidmapAddress - screenStart) = 4 := by
    unfold vidmapAddress
    omega
  rw [storeScreenStart, whole, Nat.sub_self, Memory.overlay_zero]
  refine ⟨fun frame => ?_, fun frame other => Function.update_of_ne other _ _, rfl, rfl⟩
  by_cases own : frame = (upperAddress (k.pageTables.pageDirectory 32)).toNat
  · subst own
    change Set.EqOn (Function.update k.userMemory _ _ _) _ _
    rw [Function.update_self]
    exact Memory.overlay_eqOn _ _ _ _
  · change Set.EqOn (Function.update k.userMemory _ _ _) _ _
    rw [Function.update_of_ne own]
    exact Set.eqOn_refl _ _

/-- The address just past the page sends all four bytes to the start of the video page. -/
theorem storeScreenStart_past (k : Kernel) {index : Nat} (small : index < 4) :
    (k.storeScreenStart vidmapAddress).console.video (videoMemory + index) =
      UInt8.ofNat (vidmapAddress / 256 ^ index) := by
  have none : min 4 (vidmapAddress - vidmapAddress) = 0 := by omega
  rw [storeScreenStart, none]
  dsimp only
  rw [Memory.overlay_inside _ _ _ _ small, Nat.zero_add]

end Kernel

/-- The call keeps to the page of the caller unless the pointer is one of the last four that it accepts. -/
theorem vidmap_stores_in_page_iff (k : Kernel) (screenStart : Nat) :
    k.StoresInPage screenStart ↔ screenStart + 4 ≤ mb128 + fourMb ∨ mb128 + fourMb < screenStart := by
  have accepted : (vidmapAddress : Int) ≠ -1 := by decide
  by_cases outside : screenStart = 0 ∨ screenStart < mb128 ∨ mb128 + fourMb < screenStart
  · have refused := k.sysVidmap_refused outside
    refine iff_of_true ⟨fun other => ?_, fun other => ?_, fun other => ?_, fun _ => by rw [refused]⟩ ?_
    · rw [refused] at other
      exact absurd rfl other
    · rw [refused] at other
      exact absurd rfl other
    · rw [refused] at other
      exact absurd rfl other
    · have small : 4 ≤ fourMb := by decide
      omega
  · have low : mb128 ≤ screenStart := by omega
    have stored := k.sysVidmap_accepted low (by omega)
    constructor
    · intro stores
      have inside := stores.inside (by rw [stored]; exact accepted)
      exact .inl ((window_subset_userPage_iff screenStart).mp inside).2
    · intro fits
      have room : screenStart + 4 ≤ mb128 + fourMb := by omega
      refine ⟨fun _ => (window_subset_userPage_iff screenStart).mpr ⟨low, room⟩, fun _ userMemory video => ?_,
        fun _ => ?_, fun refused => ?_⟩
      · have only := storeScreenStart_only { k.withContents userMemory video with
          pageTables := systemCallVidmap k.pageTables } room
        dsimp only at only
        rw [systemCallVidmap_of_ne k.pageTables (show 32 ≠ 33 by decide)] at only
        exact ⟨_, (k.withContents userMemory video).sysVidmap_accepted low (by omega), only⟩
      · rw [stored]
        exact storeScreenStart_word _ low room
      · rw [stored] at refused
        exact absurd refused accepted

/-- The address just past the page is accepted, and its bytes go to the video page. -/
theorem vidmap_stores_in_video : (sampleKernel.sysVidmap vidmapAddress).1 = vidmapAddress ∧
    (sampleKernel.sysVidmap vidmapAddress).2.console.video (videoMemory + 2) = 0x40 ∧
    ¬sampleKernel.StoresInPage vidmapAddress := by
  have stored := sampleKernel.sysVidmap_accepted (show mb128 ≤ vidmapAddress by decide) (Nat.le_refl _)
  refine ⟨by rw [stored], by rw [stored]; exact storeScreenStart_past _ (by decide), fun stores => ?_⟩
  have inside := stores.inside (by rw [stored]; decide)
  exact absurd ((window_subset_userPage_iff _).mp inside).2 (by decide)

end OrcaOS
