import OrcaOS.Construction.Keyboard

/-!
The modifier keys that are held down, by the scan codes that the keyboard sends.
-/

namespace OrcaOS

/-- The handler finds the console as the other code of the kernel left it. -/
structure KeyInterrupt where
  console : Console
  scanCode : Nat

/-- The modifier keys that are held down. -/
structure HeldKeys where
  shiftL : Bool
  shiftR : Bool
  altL : Bool

/-- A make code presses a key, and the break code releases it. -/
def HeldKeys.next (held : HeldKeys) (scanCode : Nat) : HeldKeys :=
  if scanCode = 0x2A then { held with shiftL := true }
  else if scanCode = 0xAA then { held with shiftL := false }
  else if scanCode = 0x36 then { held with shiftR := true }
  else if scanCode = 0xB6 then { held with shiftR := false }
  else if scanCode = 0x38 then { held with altL := true }
  else if scanCode = 0xB8 then { held with altL := false }
  else held

/-- The variables of the driver and the keys that are held. -/
structure KeyState where
  keyboard : Keyboard
  held : HeldKeys

namespace KeyState

/-- The keyboard is released and no modifier is set. -/
def initial : KeyState := ⟨⟨false, false, false, false, false, false⟩, ⟨false, false, false⟩⟩

/-- The driver that the interrupt finds. -/
def driver (s : KeyState) (interrupt : KeyInterrupt) : Driver := ⟨interrupt.console, s.keyboard⟩

def step (s : KeyState) (interrupt : KeyInterrupt) : KeyState where
  keyboard := ((s.driver interrupt).keyboardHandler interrupt.scanCode).keyboard
  held := s.held.next interrupt.scanCode

/-- A shift key that is released was held. -/
def Alternates (s : KeyState) (interrupt : KeyInterrupt) : Prop :=
  (interrupt.scanCode = 0xAA → s.held.shiftL = true) ∧ (interrupt.scanCode = 0xB6 → s.held.shiftR = true)

/-- After the interrupt the variable is set exactly when a shift key is held. -/
def FollowsShift (s : KeyState) (interrupt : KeyInterrupt) : Prop :=
  (s.step interrupt).keyboard.shift = ((s.step interrupt).held.shiftL || (s.step interrupt).held.shiftR)

/-- Of two held shift keys the one that set the variable is released. -/
def ReleasesFirst (s : KeyState) (interrupt : KeyInterrupt) : Prop :=
  (interrupt.scanCode = 0xAA ∧ s.keyboard.shiftL = true ∧ s.held.shiftR = true) ∨
  (interrupt.scanCode = 0xB6 ∧ s.keyboard.shiftR = true ∧ s.held.shiftL = true)

instance (s : KeyState) (interrupt : KeyInterrupt) : Decidable (s.Alternates interrupt) :=
  inferInstanceAs (Decidable (_ ∧ _))

instance (s : KeyState) (interrupt : KeyInterrupt) : Decidable (s.FollowsShift interrupt) :=
  inferInstanceAs (Decidable (_ = _))

instance (s : KeyState) (interrupt : KeyInterrupt) : Decidable (s.ReleasesFirst interrupt) :=
  inferInstanceAs (Decidable (_ ∨ _))

end KeyState

end OrcaOS
