import Mathlib
import OrcaOS.Foundation.Word

namespace Foundation

/-- A memory gives one byte for each address. -/
abbrev Memory := Nat → UInt8

namespace Memory

/-- This function reads one little-endian word. -/
def load32 (memory : Memory) (address : Nat) : Nat :=
  (memory address).toNat + 256 * (memory (address + 1)).toNat +
    65536 * (memory (address + 2)).toNat + 16777216 * (memory (address + 3)).toNat

/-- The new bytes replace `count` bytes from `start`. -/
def overlay (memory : Memory) (start count : Nat) (content : Nat → UInt8) : Memory :=
  fun address => if start ≤ address ∧ address < start + count then content (address - start)
    else memory address

/-- This function stores one little-endian word. -/
def store32 (memory : Memory) (address word : Nat) : Memory :=
  memory.overlay address 4 fun index => UInt8.ofNat (word / 256 ^ index)

/-- This function stores one byte repeatedly. -/
def fill (memory : Memory) (start count : Nat) (byte : UInt8) : Memory :=
  memory.overlay start count fun _ => byte

/-- This function stores a list of bytes in consecutive addresses. -/
def storeBytes (memory : Memory) (start : Nat) (bytes : List UInt8) : Memory :=
  memory.overlay start bytes.length fun index => bytes.getD index 0

/-- This function stores a table of little-endian words. -/
def storeWords (memory : Memory) (start count : Nat) (word : Nat → Nat) : Memory :=
  memory.overlay start (4 * count) fun index => UInt8.ofNat (word (index / 4) / 256 ^ (index % 4))

/-- The window contains `count` addresses from `start`. -/
abbrev window (start count : Nat) : Set Nat := Set.Ico start (start + count)

section Windows
variable {start count other size : Nat}

theorem window_subset (low : other ≤ start) (high : start + count ≤ other + size) :
    window start count ⊆ window other size := Set.Ico_subset_Ico low high

theorem window_disjoint (apart : start + count ≤ other ∨ other + size ≤ start) :
    Disjoint (window start count) (window other size) := by
  rw [Set.disjoint_left]
  intro address own foreign
  obtain ⟨low, high⟩ := own
  obtain ⟨first, last⟩ := foreign
  omega

/-- Memories that agree outside a window agree outside a larger one. -/
theorem eqOn_widen {first second : Memory} (same : Set.EqOn first second (window start count)ᶜ)
    (low : other ≤ start) (high : start + count ≤ other + size) :
    Set.EqOn first second (window other size)ᶜ :=
  same.mono (Set.compl_subset_compl.mpr (window_subset low high))

end Windows

section Bytes
variable (memory : Memory) (start count : Nat) (content : Nat → UInt8)

theorem overlay_inside {index : Nat} (inside : index < count) :
    memory.overlay start count content (start + index) = content index := by
  rw [overlay, if_pos ⟨by omega, by omega⟩, Nat.add_sub_cancel_left]

theorem overlay_outside {address : Nat} (outside : address < start ∨ start + count ≤ address) :
    memory.overlay start count content address = memory address := by
  rw [overlay, if_neg (by omega)]

/-- An overlay keeps every byte outside its window. -/
theorem overlay_eqOn : Set.EqOn (memory.overlay start count content) memory (window start count)ᶜ := by
  intro address outside
  apply overlay_outside
  simp only [Set.mem_compl_iff, Set.mem_Ico, not_and, Nat.not_lt] at outside
  omega

variable {content} in
/-- An overlay depends on the bytes of its window only. -/
theorem overlay_congr {other : Nat → UInt8} (same : ∀ index < count, content index = other index) :
    memory.overlay start count content = memory.overlay start count other := by
  funext address
  unfold overlay
  split
  · exact same _ (by omega)
  · rfl

@[simp] theorem overlay_zero : memory.overlay start 0 content = memory := by
  funext address
  exact memory.overlay_outside start 0 content (by omega)

/-- The first byte of an overlay may be stored before the others. -/
theorem overlay_succ : memory.overlay start (count + 1) content =
    overlay (Function.update memory start (content 0)) (start + 1) count
      fun index => content (index + 1) := by
  funext address
  unfold overlay
  obtain rfl | other := eq_or_ne address start
  · rw [if_pos ⟨Nat.le_refl _, by omega⟩, if_neg (by omega), Function.update_self, Nat.sub_self]
  · rw [Function.update_of_ne other]
    by_cases inside : start ≤ address ∧ address < start + (count + 1)
    · rw [if_pos inside, if_pos (by omega)]
      congr 1
      omega
    · rw [if_neg inside, if_neg (by omega)]

end Bytes

theorem load32_lt (memory : Memory) (address : Nat) : memory.load32 address < 4294967296 := by
  have first := (memory address).toNat_lt
  have second := (memory (address + 1)).toNat_lt
  have third := (memory (address + 2)).toNat_lt
  have fourth := (memory (address + 3)).toNat_lt
  unfold load32
  omega

/-- A word depends on its four bytes only. -/
theorem load32_congr {first second : Memory} {address other : Nat}
    (same : ∀ index < 4, first (address + index) = second (other + index)) :
    first.load32 address = second.load32 other := by
  have zero := same 0 (by decide)
  rw [Nat.add_zero, Nat.add_zero] at zero
  rw [load32, load32, zero, same 1 (by decide), same 2 (by decide), same 3 (by decide)]

/-- Two memories that agree on a region agree on the words inside it. -/
theorem load32_eqOn {first second : Memory} {region : Set Nat} {address : Nat}
    (same : Set.EqOn first second region) (inside : ∀ index < 4, address + index ∈ region) :
    first.load32 address = second.load32 address :=
  load32_congr fun index small => same (inside index small)

theorem load32_overlay_outside (memory : Memory) {start count address : Nat}
    (content : Nat → UInt8) (outside : address + 4 ≤ start ∨ start + count ≤ address) :
    (memory.overlay start count content).load32 address = memory.load32 address :=
  load32_congr fun index _ => memory.overlay_outside start count content (by omega)

/-- A stored word is read back. -/
theorem load32_store32 (memory : Memory) (address : Nat) {word : Nat} (fits : word < 4294967296) :
    (memory.store32 address word).load32 address = word := by
  have byte (index : Nat) (small : index < 4) :
      (memory.store32 address word (address + index)).toNat = word / 256 ^ index % 256 := by
    rw [store32, memory.overlay_inside address 4 _ small, UInt8.toNat_ofNat']
  have zero := byte 0 (by decide)
  rw [Nat.add_zero] at zero
  rw [load32, zero, byte 1 (by decide), byte 2 (by decide), byte 3 (by decide)]
  omega

theorem load32_store32_outside (memory : Memory) {address other : Nat} (word : Nat)
    (outside : other + 4 ≤ address ∨ address + 4 ≤ other) :
    (memory.store32 address word).load32 other = memory.load32 other :=
  memory.load32_overlay_outside _ outside

theorem store32_eqOn (memory : Memory) (address word : Nat) :
    Set.EqOn (memory.store32 address word) memory (window address 4)ᶜ :=
  memory.overlay_eqOn address 4 _

theorem load32_fill_outside (memory : Memory) {start count address : Nat} (byte : UInt8)
    (outside : address + 4 ≤ start ∨ start + count ≤ address) :
    (memory.fill start count byte).load32 address = memory.load32 address :=
  memory.load32_overlay_outside _ outside

theorem fill_eqOn (memory : Memory) (start count : Nat) (byte : UInt8) :
    Set.EqOn (memory.fill start count byte) memory (window start count)ᶜ :=
  memory.overlay_eqOn start count _

theorem storeBytes_eqOn (memory : Memory) (start : Nat) (bytes : List UInt8) :
    Set.EqOn (memory.storeBytes start bytes) memory (window start bytes.length)ᶜ :=
  memory.overlay_eqOn start bytes.length _

theorem storeBytes_inside (memory : Memory) (start : Nat) (bytes : List UInt8) {index : Nat}
    (inside : index < bytes.length) :
    memory.storeBytes start bytes (start + index) = bytes[index] := by
  rw [storeBytes, memory.overlay_inside start _ _ inside]
  simp [inside]

/-- Stored bytes stay in a region, whatever the memory holds, exactly when their window does. -/
theorem storeBytes_within_iff {prepared : Memory → Memory} {region : Set Nat}
    (kept : ∀ memory : Memory, Set.EqOn (prepared memory) memory regionᶜ) (start : Nat) (bytes : List UInt8) :
    (∀ memory : Memory, Set.EqOn ((prepared memory).storeBytes start bytes) memory regionᶜ) ↔
      window start bytes.length ⊆ region := by
  constructor
  · intro stays address own
    by_contra outside
    obtain ⟨low, high⟩ := own
    obtain ⟨index, rfl⟩ := Nat.exists_eq_add_of_le low
    have inside : index < bytes.length := by omega
    have stored := storeBytes_inside (prepared fun _ => bytes[index] + 1) start bytes inside
    rw [stays (fun _ => bytes[index] + 1) outside] at stored
    exact absurd (add_eq_left.mp stored) (by decide)
  · intro subset memory
    exact (((prepared memory).storeBytes_eqOn start bytes).mono (Set.compl_subset_compl.mpr subset)).trans (kept memory)

/-- Storing one byte repeatedly fills the window with it. -/
theorem storeBytes_replicate (memory : Memory) (start count : Nat) (byte : UInt8) :
    memory.storeBytes start (List.replicate count byte) = memory.fill start count byte := by
  rw [storeBytes, List.length_replicate]
  apply overlay_congr
  intro index inside
  rw [List.getD_eq_getElem _ _ (by rwa [List.length_replicate]), List.getElem_replicate]

/-- The words of a table are read back. -/
theorem load32_storeWords (memory : Memory) (start : Nat) {count index : Nat} (inside : index < count) {word : Nat → Nat}
    (fits : word index < 4294967296) : (memory.storeWords start count word).load32 (start + 4 * index) = word index := by
  refine (load32_congr fun byte small => ?_).trans (memory.load32_store32 (start + 4 * index) fits)
  have table : start + 4 * index + byte = start + (4 * index + byte) := Nat.add_assoc _ _ _
  have quotient : (4 * index + byte) / 4 = index := by omega
  have remainder : (4 * index + byte) % 4 = byte := by omega
  rw [store32, memory.overlay_inside _ _ _ small, table, storeWords, memory.overlay_inside _ _ _ (by omega), quotient,
    remainder]

/-- A word is zero exactly when its four bytes are. -/
theorem load32_eq_zero_iff (memory : Memory) (address : Nat) :
    memory.load32 address = 0 ↔ ∀ index < 4, memory (address + index) = 0 := by
  have isZero (byte : UInt8) : byte.toNat = 0 ↔ byte = 0 := by
    rw [← UInt8.toNat_inj]
    rfl
  constructor
  · intro zero index small
    unfold load32 at zero
    rw [← isZero]
    obtain rfl | rfl | rfl | rfl : index = 0 ∨ index = 1 ∨ index = 2 ∨ index = 3 := by omega
    · rw [Nat.add_zero]
      omega
    all_goals omega
  · intro zero
    have first := zero 0 (by decide)
    rw [Nat.add_zero] at first
    rw [load32, first, zero 1 (by decide), zero 2 (by decide), zero 3 (by decide)]
    rfl

end Memory

end Foundation
