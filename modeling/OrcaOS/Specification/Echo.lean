import OrcaOS.Specification.LineReading
import OrcaOS.Specification.ReferenceTerminal

/-!
The echo of the line that is typed on the terminal on display.
-/

namespace OrcaOS
open Foundation

namespace Console

/-- The character of a cell of the live page. -/
def glyph (c : Console) (row column : Nat) : UInt8 := c.video (cellAddress row column)

/-- There are only blanks from the cursor on. -/
def BlankFromCursor (c : Console) : Prop :=
  ∀ row column : Nat, row < 25 → column < 80 → 80 * c.screenY + c.screenX ≤ 80 * row + column →
    c.glyph row column = spaceAscii

/-- From a cell on the screen shows the line and blanks behind it. The cells of a row before the last one follow
each other; the last one stays blank. -/
structure Echoes (c : Console) (top left : Nat) : Prop where
  visible : 79 * top + left + c.lineLength ≤ 79 * 25
  text : ∀ row < 25, ∀ column < 79, 79 * top + left ≤ 79 * row + column →
    c.glyph row column = c.line.getD (79 * row + column - (79 * top + left)) spaceAscii
  edge : ∀ row < 25, top ≤ row → c.glyph row 79 = spaceAscii

end Console

/-- The driver and the cell where its line starts on the screen. -/
structure Echo where
  driver : Driver
  top : Nat
  left : Nat

namespace Echo

/-- The line starts at the cursor. -/
def ofDriver (d : Driver) : Echo := ⟨d, d.console.screenY.toNat, d.console.screenX.toNat⟩

/-- A read is pending, the line is empty and neither Ctrl nor Alt is held. -/
structure Starts (d : Driver) : Prop where
  pending : d.console.lineRunOverFlag = true
  empty : d.console.lineLength = 0
  ctrl : d.keyboard.ctrl = false
  alt : d.keyboard.alt = false
  live : 0 ≤ d.console.screenX ∧ d.console.screenX < 80 ∧ 0 ≤ d.console.screenY ∧ d.console.screenY < 25
  blank : d.console.BlankFromCursor

/-- The key has a character, or it is the backspace key, or the driver has no label for it. -/
def Types (scanCode : Nat) : Bool :=
  match Key.ofScanCode scanCode with
  | .character _ _ | .backspace | .other => true
  | _ => false

/-- The character of the key goes to a new row below the last one. -/
def Scrolls (e : Echo) (scanCode : Nat) : Bool :=
  match Key.ofScanCode scanCode with
  | .character _ _ =>
      e.driver.console.lineLength < 127 ∧ 79 ≤ e.driver.console.screenX ∧ e.driver.console.screenY = 24
  | _ => false

/-- The start of the line moves up with the rows. -/
def step (e : Echo) (scanCode : Nat) : Option Echo := some {
  driver := e.driver.keyboardHandler scanCode
  top := if e.Scrolls scanCode then e.top - 1 else e.top
  left := e.left }

/-- A backspace removes a character, but the cursor is in the first column. -/
def LeavesRow (e : Echo) (scanCode : Nat) : Prop :=
  Key.ofScanCode scanCode = .backspace ∧ e.driver.console.lineLength ≠ 0 ∧ e.driver.console.screenX = 0

instance (e : Echo) (scanCode : Nat) : Decidable (e.LeavesRow scanCode) := inferInstanceAs (Decidable (_ ∧ _ ∧ _))

end Echo

end OrcaOS
