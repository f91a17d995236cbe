import OrcaOS.Construction.Keyboard

/-!
The line that is typed on the terminal on display, and `terminal_read` as the steps between which
the keyboard may interrupt it.
-/

namespace OrcaOS
open Foundation

/-- The characters that the keys left in the buffer of the terminal on display. -/
def Console.line (c : Console) : List UInt8 :=
  (List.range c.lineLength).map fun index => c.terminalBuffer index c.terminalOnDisplay

namespace Driver
variable (d : Driver)

/-- The line after a key: a tab adds five spaces, a backspace removes the last character while a
program waits, Ctrl-L empties the line, and every other character is added while a program waits. -/
def lineAfter (scanCode : Nat) : List UInt8 :=
  let line := d.console.line
  let key := (d.scanCodeToAscii scanCode).1
  match Key.ofScanCode scanCode with
  | .tab => line ++ List.replicate (min 5 (127 - line.length)) spaceAscii
  | .backspace => if d.console.lineRunOverFlag then line.dropLast else line
  | _ =>
      if d.keyboard.ctrl ∧ key = 0x6C then []
      else if d.console.lineRunOverFlag ∧ ¬d.keyboard.alt ∧ ¬d.keyboard.ctrl ∧ key ≠ 0 ∧ line.length < 127 then
        line ++ [d.capital key]
      else line

/-- The key changes the first `room` characters of the line. -/
def EditsLine (room scanCode : Nat) : Prop :=
  (Key.ofScanCode scanCode = .tab ∧ d.console.lineLength < 127 ∧ d.console.lineLength < room) ∨
  (Key.ofScanCode scanCode = .backspace ∧ d.console.lineRunOverFlag ∧
    0 < d.console.lineLength ∧ d.console.lineLength ≤ room) ∨
  (d.keyboard.ctrl ∧ (d.scanCodeToAscii scanCode).1 = 0x6C ∧ 0 < d.console.lineLength ∧ 0 < room) ∨
  (d.console.lineRunOverFlag ∧ ¬d.keyboard.alt ∧ ¬d.keyboard.ctrl ∧ (d.scanCodeToAscii scanCode).1 ≠ 0 ∧
    d.console.lineLength < 127 ∧ d.console.lineLength < room)

instance (room scanCode : Nat) : Decidable (d.EditsLine room scanCode) :=
  inferInstanceAs (Decidable (_ ∨ _ ∨ _ ∨ _))

/-- The key leaves the same terminal on display. -/
def KeepsTerminal (scanCode : Nat) : Prop :=
  (d.keyboardHandler scanCode).console.terminalOnDisplay = d.console.terminalOnDisplay

instance (scanCode : Nat) : Decidable (d.KeepsTerminal scanCode) := inferInstanceAs (Decidable (_ = _))

end Driver

/-- The steps of `terminal_read`. -/
inductive ReadStage where
  | clearing | waiting | stopping | copying
  | returned (result : Int) (after : Buffer)

/-- A reader with the devices that it shares with the keyboard. The line at the first Enter after the
flag was cleared is recorded, because this Enter makes the reader return. -/
structure Reader where
  driver : Driver
  stage : ReadStage
  entered : Option (List UInt8)

inductive ReadEvent where
  | advance
  | press (scanCode : Nat)

namespace Reader

def initial (driver : Driver) : Reader := ⟨driver, .clearing, none⟩

def withConsole (reader : Reader) (console : Console) (stage : ReadStage) : Reader :=
  { reader with driver := { reader.driver with console }, stage }

/-- The interrupts are disabled while the line is copied. -/
def interruptible (reader : Reader) : Bool :=
  match reader.stage with
  | .copying => false
  | _ => true

/-- The window between the Enter and the end of the interrupts. -/
def inWindow (reader : Reader) : Bool :=
  match reader.stage with
  | .waiting | .stopping => reader.entered.isSome
  | _ => false

/-- The Enter for which the reader waits. -/
def awaits (reader : Reader) (scanCode : Nat) : Bool :=
  match reader.stage with
  | .waiting => reader.entered = none && Key.ofScanCode scanCode = .enter
  | _ => false

/-- One step of the loop tests the flag and sets the other one. -/
def step (buf : Buffer) (nbytes : Int) (reader : Reader) : ReadEvent → Option Reader
  | .advance =>
      let console := reader.driver.console
      match reader.stage with
      | .clearing => some (reader.withConsole { console with enter := false } .waiting)
      | .waiting =>
          some (if console.enter then reader.withConsole console .stopping
            else reader.withConsole { console with lineRunOverFlag := true } .waiting)
      | .stopping => some (reader.withConsole { console with lineRunOverFlag := false } .copying)
      | .copying =>
          let (result, after, console) := console.terminalRead buf nbytes
          some (reader.withConsole console (.returned result after))
      | .returned _ _ => none
  | .press scanCode =>
      if reader.interruptible then
        some { reader with
          driver := reader.driver.keyboardHandler scanCode
          entered := if reader.awaits scanCode then some reader.driver.console.line else reader.entered }
      else none

/-- The characters before the terminator. -/
def characters (result : Int) (after : Buffer) : List UInt8 := (List.range (result - 1).toNat).map after

/-- The characters that the reader has returned. -/
def delivered (reader : Reader) : Option (List UInt8) :=
  match reader.stage with
  | .returned result after => some (characters result after)
  | _ => none

/-- A reader that has returned delivered the line at its Enter, cut to its buffer. -/
def ReturnsEntered (nbytes : Int) (reader : Reader) : Prop :=
  ∀ returned ∈ reader.delivered, reader.entered.map (List.take (nbytes - 1).toNat) = some returned

/-- One terminal is displayed throughout. -/
def Displayed (reader : Reader) : ReadEvent → Prop
  | .advance => True
  | .press scanCode => reader.driver.KeepsTerminal scanCode

/-- No key in the window changes the characters that will be copied. -/
def Undisturbed (nbytes : Int) (reader : Reader) : ReadEvent → Prop
  | .advance => True
  | .press scanCode => reader.driver.KeepsTerminal scanCode ∧
      (reader.inWindow → ¬reader.driver.EditsLine (nbytes - 1).toNat scanCode)

instance (reader : Reader) : (event : ReadEvent) → Decidable (reader.Displayed event)
  | .advance => .isTrue trivial
  | .press scanCode => inferInstanceAs (Decidable (reader.driver.KeepsTerminal scanCode))

instance (nbytes : Int) (reader : Reader) : (event : ReadEvent) → Decidable (reader.Undisturbed nbytes event)
  | .advance => .isTrue trivial
  | .press _ => inferInstanceAs (Decidable (_ ∧ (_ → ¬_)))

end Reader

end OrcaOS
