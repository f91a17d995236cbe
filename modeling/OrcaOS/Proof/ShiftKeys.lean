import OrcaOS.Foundation.Run
import OrcaOS.Proof.LineEditing
import OrcaOS.Specification.KeyCodes

/-!
The shift variable follows the shift keys until the first of two held ones is released first.
-/

namespace OrcaOS
open Foundation

/-- The modifiers after a label of the switch. -/
def Keyboard.pressed (k : Keyboard) : Key → Keyboard
  | .shiftL => if !k.shiftR then { k with shift := true, shiftL := true } else k
  | .shiftLReleased => if k.shiftL then { k with shift := false, shiftL := false } else k
  | .shiftR => if !k.shiftL then { k with shift := true, shiftR := true } else k
  | .shiftRReleased => if k.shiftR then { k with shift := false, shiftR := false } else k
  | .capsLock => { k with capsLock := !k.capsLock }
  | .controlL => { k with ctrl := true }
  | .controlLReleased => { k with ctrl := false }
  | .altL => { k with alt := true }
  | .altLReleased => { k with alt := false }
  | _ => k

theorem Driver.scanCodeToAscii_keyboard (d : Driver) (scanCode : Nat) :
    (d.scanCodeToAscii scanCode).2.keyboard = d.keyboard.pressed (Key.ofScanCode scanCode) := by
  unfold scanCodeToAscii Keyboard.pressed
  cases Key.ofScanCode scanCode with
  | shiftL | shiftLReleased | shiftR | shiftRReleased =>
      dsimp only
      split <;> rfl
  | _ => rfl

/-- The keys that are held after a label. -/
def HeldKeys.pressed (held : HeldKeys) : Key → HeldKeys
  | .shiftL => { held with shiftL := true }
  | .shiftLReleased => { held with shiftL := false }
  | .shiftR => { held with shiftR := true }
  | .shiftRReleased => { held with shiftR := false }
  | .altL => { held with altL := true }
  | .altLReleased => { held with altL := false }
  | _ => held

/-- The labels of the switch are those of the keys. -/
theorem HeldKeys.next_eq (held : HeldKeys) (scanCode : Nat) :
    held.next scanCode = held.pressed (Key.ofScanCode scanCode) := by
  unfold next
  split_ifs with shiftL shiftLReleased shiftR shiftRReleased altL altLReleased
  · rw [shiftL]
    rfl
  · rw [shiftLReleased]
    rfl
  · rw [shiftR]
    rfl
  · rw [shiftRReleased]
    rfl
  · rw [altL]
    rfl
  · rw [altLReleased]
    rfl
  · have other {label : Key} {code : Nat} (own : label.scanCode? = some code) (different : scanCode ≠ code) :
        Key.ofScanCode scanCode ≠ label := fun named => different (Key.scanCode_of_label (named ▸ own))
    unfold pressed
    split
    · exact absurd ‹_› (other rfl shiftL)
    · exact absurd ‹_› (other rfl shiftLReleased)
    · exact absurd ‹_› (other rfl shiftR)
    · exact absurd ‹_› (other rfl shiftRReleased)
    · exact absurd ‹_› (other rfl altL)
    · exact absurd ‹_› (other rfl altLReleased)
    · rfl

namespace KeyState
variable {s : KeyState}

/-- The state after a label of the switch. -/
def typed (s : KeyState) (label : Key) : KeyState := ⟨s.keyboard.pressed label, s.held.pressed label⟩

theorem step_eq (s : KeyState) (interrupt : KeyInterrupt) : s.step interrupt = s.typed (Key.ofScanCode interrupt.scanCode) := by
  rw [step, Driver.keyboardHandler_keyboard, Driver.scanCodeToAscii_keyboard, HeldKeys.next_eq]
  rfl

/-- The variable follows two keys: each part belongs to a held key, and one part is set while a key is held. -/
def Follows (shift first second heldFirst heldSecond : Bool) : Prop :=
  shift = (heldFirst || heldSecond) ∧ (first = true → heldFirst = true) ∧ (second = true → heldSecond = true) ∧
    ¬(first = true ∧ second = true) ∧ (shift = true → first = true ∨ second = true)

instance (shift first second heldFirst heldSecond : Bool) : Decidable (Follows shift first second heldFirst heldSecond) :=
  inferInstanceAs (Decidable (_ ∧ _))

theorem follows_swap : ∀ shift first second heldFirst heldSecond : Bool,
    Follows shift first second heldFirst heldSecond ↔ Follows shift second first heldSecond heldFirst := by decide

theorem follows_press : ∀ shift first second heldFirst heldSecond : Bool, Follows shift first second heldFirst heldSecond →
    Follows (if !second then true else shift) (if !second then true else first) second true heldSecond := by decide

/-- The release of one key goes wrong exactly when its part is set while the other one is held. -/
theorem release_iff : ∀ shift first second heldFirst heldSecond : Bool, Follows shift first second heldFirst heldSecond →
    heldFirst = true →
      ((if first then false else shift) = (false || heldSecond) ↔ ¬(first = true ∧ heldSecond = true)) := by decide

theorem follows_release : ∀ shift first second heldFirst heldSecond : Bool,
    Follows shift first second heldFirst heldSecond → heldFirst = true → ¬(first = true ∧ heldSecond = true) →
      Follows (if first then false else shift) (if first then false else first) second false heldSecond := by decide

/-- What the shift variables are while they follow the keys. -/
def Shifts (s : KeyState) : Prop :=
  Follows s.keyboard.shift s.keyboard.shiftL s.keyboard.shiftR s.held.shiftL s.held.shiftR

theorem initial_shifts : Shifts .initial := show Follows false false false false false by decide

/-- This function exchanges the two shift keys. -/
def mirror (s : KeyState) : KeyState where
  keyboard := { s.keyboard with shiftL := s.keyboard.shiftR, shiftR := s.keyboard.shiftL }
  held := { s.held with shiftL := s.held.shiftR, shiftR := s.held.shiftL }

theorem Shifts.mirror (shifts : s.Shifts) : s.mirror.Shifts := (follows_swap _ _ _ _ _).mp shifts

/-- The right shift key is handled as the left one is. -/
theorem typed_shiftR (s : KeyState) : s.typed .shiftR = (s.mirror.typed .shiftL).mirror := by
  unfold typed mirror Keyboard.pressed HeldKeys.pressed
  dsimp only
  split <;> rfl

theorem typed_shiftRReleased (s : KeyState) : s.typed .shiftRReleased = (s.mirror.typed .shiftLReleased).mirror := by
  unfold typed mirror Keyboard.pressed HeldKeys.pressed
  dsimp only
  split <;> rfl

theorem Shifts.pressLeft (shifts : s.Shifts) : (s.typed .shiftL).Shifts := by
  have pressed := follows_press _ _ _ _ _ shifts
  unfold Shifts typed Keyboard.pressed HeldKeys.pressed
  dsimp only
  split_ifs with free
  · rwa [if_pos free, if_pos free] at pressed
  · rwa [if_neg free, if_neg free] at pressed

/-- The release of the left key either takes its part away, or it goes wrong. -/
theorem Shifts.releaseLeft (shifts : s.Shifts) (held : s.held.shiftL = true) :
    (¬(s.keyboard.shiftL = true ∧ s.held.shiftR = true) → (s.typed .shiftLReleased).Shifts) ∧
      (s.keyboard.shiftL = true ∧ s.held.shiftR = true →
        (s.typed .shiftLReleased).keyboard.shift ≠ (false || s.held.shiftR)) := by
  have released := follows_release _ _ _ _ _ shifts held
  have lost := release_iff _ _ _ _ _ shifts held
  unfold Shifts typed Keyboard.pressed HeldKeys.pressed
  dsimp only
  split_ifs with own
  · rw [if_pos own, if_pos own] at released
    rw [if_pos own] at lost
    exact ⟨released, fun wrong follows => lost.mp follows wrong⟩
  · rw [if_neg own, if_neg own] at released
    rw [if_neg own] at lost
    exact ⟨released, fun wrong follows => lost.mp follows wrong⟩

/-- A scan code without the label of a shift key keeps the shift variables and the held shift keys. -/
theorem Shifts.typed_other (shifts : s.Shifts) {label : Key} (left : label ≠ .shiftL)
    (leftReleased : label ≠ .shiftLReleased) (right : label ≠ .shiftR) (rightReleased : label ≠ .shiftRReleased) :
    (s.typed label).Shifts := by
  cases label with
  | shiftL => exact absurd rfl left
  | shiftLReleased => exact absurd rfl leftReleased
  | shiftR => exact absurd rfl right
  | shiftRReleased => exact absurd rfl rightReleased
  | _ => exact shifts

/-- A key keeps the variable in step with the shift keys, or it is the release that goes wrong. -/
theorem Shifts.step_cases (shifts : s.Shifts) {interrupt : KeyInterrupt} (real : s.Alternates interrupt) :
    (s.ReleasesFirst interrupt ∧ ¬s.FollowsShift interrupt) ∨ (¬s.ReleasesFirst interrupt ∧ (s.step interrupt).Shifts) := by
  unfold FollowsShift ReleasesFirst
  rw [step_eq]
  by_cases leftReleased : interrupt.scanCode = 0xAA
  · obtain ⟨right, wrong⟩ := shifts.releaseLeft (real.1 leftReleased)
    have label : Key.ofScanCode interrupt.scanCode = .shiftLReleased := by
      rw [leftReleased]
      rfl
    rw [label, leftReleased]
    by_cases own : s.keyboard.shiftL = true ∧ s.held.shiftR = true
    · exact .inl ⟨.inl ⟨rfl, own⟩, wrong own⟩
    · refine .inr ⟨fun either => ?_, right own⟩
      exact either.elim (fun left => own left.2) fun other => absurd other.1 (by decide)
  by_cases rightReleased : interrupt.scanCode = 0xB6
  · obtain ⟨right, wrong⟩ := shifts.mirror.releaseLeft (real.2 rightReleased)
    have label : Key.ofScanCode interrupt.scanCode = .shiftRReleased := by
      rw [rightReleased]
      rfl
    rw [label, rightReleased, typed_shiftRReleased]
    by_cases own : s.keyboard.shiftR = true ∧ s.held.shiftL = true
    · refine .inl ⟨.inr ⟨rfl, own⟩, fun follows => wrong own (follows.trans ?_)⟩
      exact Bool.or_comm _ _
    · refine .inr ⟨fun either => ?_, (right own).mirror⟩
      exact either.elim (fun other => absurd other.1 (by decide)) fun right => own right.2
  -- A press never goes wrong, and the other scan codes change nothing.
  refine .inr ⟨fun either => either.elim (fun left => leftReleased left.1) fun right => rightReleased right.1, ?_⟩
  have other {label : Key} {code : Nat} (own : label.scanCode? = some code) (different : interrupt.scanCode ≠ code) :
      Key.ofScanCode interrupt.scanCode ≠ label := fun named => different (Key.scanCode_of_label (named ▸ own))
  by_cases left : interrupt.scanCode = 0x2A
  · rw [left]
    exact shifts.pressLeft
  by_cases right : interrupt.scanCode = 0x36
  · rw [right]
    exact (typed_shiftR s).symm ▸ shifts.mirror.pressLeft.mirror
  · exact shifts.typed_other (other rfl left) (other rfl leftReleased) (other rfl right) (other rfl rightReleased)

theorem Shifts.followsShift_iff (shifts : s.Shifts) {interrupt : KeyInterrupt} (real : s.Alternates interrupt) :
    s.FollowsShift interrupt ↔ ¬s.ReleasesFirst interrupt := by
  obtain ⟨wrong, lost⟩ | ⟨right, after⟩ := shifts.step_cases real
  · exact iff_of_false lost fun other => other wrong
  · exact iff_of_true after.1 right

theorem Shifts.step (shifts : s.Shifts) {interrupt : KeyInterrupt} (real : s.Alternates interrupt)
    (right : ¬s.ReleasesFirst interrupt) : (s.step interrupt).Shifts := by
  obtain ⟨wrong, -⟩ | ⟨-, after⟩ := shifts.step_cases real
  · exact absurd wrong right
  · exact after

end KeyState

/-- On a real keyboard the variable follows the shift keys exactly as long as no held shift key that set it is released
while the other one is held. -/
theorem shift_follows_keys_iff {interrupts : List KeyInterrupt}
    (real : Throughout KeyState.step KeyState.Alternates .initial interrupts) :
    Throughout KeyState.step KeyState.FollowsShift .initial interrupts ↔
      Throughout KeyState.step (fun s interrupt => ¬s.ReleasesFirst interrupt) .initial interrupts :=
  throughout_congr KeyState.Shifts (fun _ _ shifts alternates => shifts.followsShift_iff alternates)
    (fun _ _ shifts alternates => shifts.step alternates) KeyState.initial_shifts real

section Sample

/-- These scan codes arrive one after another. -/
def pressed (codes : List Nat) : List KeyInterrupt := codes.map fun scanCode => ⟨Console.initial fun _ => 0, scanCode⟩

/-- The second of two held shift keys is released first. -/
theorem shift_follows_keys_nested :
    Throughout KeyState.step KeyState.FollowsShift .initial (pressed [0x2A, 0x36, 0xB6, 0xAA]) :=
  (shift_follows_keys_iff (by decide)).mpr (by decide)

/-- After the left key is released the right one is still held, but the variable is not set. -/
theorem shift_lost_while_held :
    Throughout KeyState.step KeyState.Alternates .initial (pressed [0x2A, 0x36, 0xAA]) ∧
      ((pressed [0x2A, 0x36, 0xAA]).foldl KeyState.step .initial).held.shiftR = true ∧
      ((pressed [0x2A, 0x36, 0xAA]).foldl KeyState.step .initial).keyboard.shift = false ∧
      ¬Throughout KeyState.step KeyState.FollowsShift .initial (pressed [0x2A, 0x36, 0xAA]) := by decide

end Sample

end OrcaOS
