import OrcaOS.Construction.Screen

/-!
The keyboard driver of `keyboard.c`: the modifier keys, the scan codes and the interrupt handler.
-/

namespace OrcaOS
open Foundation

/-- The modifier variables of the driver. -/
structure Keyboard where
  shift : Bool
  shiftL : Bool
  shiftR : Bool
  capsLock : Bool
  ctrl : Bool
  alt : Bool
  deriving DecidableEq, Repr

/-- The variables that the interrupt handler of the keyboard reads and writes. -/
structure Driver where
  console : Console
  keyboard : Keyboard

/-- The labels of the switch on the scan code. A character key has a plain and a shifted result. -/
inductive Key where
  | f1 | f2 | f3
  | shiftL | shiftLReleased | shiftR | shiftRReleased
  | tab | capsLock | controlL | controlLReleased | backspace | enter | altL | altLReleased
  | character (plain shifted : UInt8)
  | other
  deriving DecidableEq, Repr

/-- The character keys by scan code, in the order of the switch. -/
def characterKeys : List (Nat × UInt8 × UInt8) := [
  (0x02, 0x31, 0x21), (0x03, 0x32, 0x40), (0x04, 0x33, 0x23), (0x05, 0x34, 0x24),
  (0x06, 0x35, 0x25), (0x07, 0x36, 0x5E), (0x08, 0x37, 0x26), (0x09, 0x38, 0x2A),
  (0x0A, 0x39, 0x28), (0x0B, 0x30, 0x29),
  -- The letters return the lower case; the handler makes them upper case.
  (0x10, 0x71, 0x71), (0x11, 0x77, 0x77), (0x12, 0x65, 0x65), (0x13, 0x72, 0x72),
  (0x14, 0x74, 0x74), (0x15, 0x79, 0x79), (0x16, 0x75, 0x75), (0x17, 0x69, 0x69),
  (0x18, 0x6F, 0x6F), (0x19, 0x70, 0x70),
  (0x1E, 0x61, 0x61), (0x1F, 0x73, 0x73), (0x20, 0x64, 0x64), (0x21, 0x66, 0x66),
  (0x22, 0x67, 0x67), (0x23, 0x68, 0x68), (0x24, 0x6A, 0x6A), (0x25, 0x6B, 0x6B),
  (0x26, 0x6C, 0x6C),
  (0x2C, 0x7A, 0x7A), (0x2D, 0x78, 0x78), (0x2E, 0x63, 0x63), (0x2F, 0x76, 0x76),
  (0x30, 0x62, 0x62), (0x31, 0x6E, 0x6E), (0x32, 0x6D, 0x6D),
  (0x0C, 0x2D, 0x5F), (0x0D, 0x3D, 0x2B), (0x1A, 0x5B, 0x7B), (0x1B, 0x5D, 0x7D),
  (0x2B, 0x5C, 0x7C), (0x27, 0x3B, 0x3A), (0x28, 0x27, 0x22), (0x33, 0x2C, 0x3C),
  (0x34, 0x2E, 0x3E), (0x35, 0x2F, 0x3F), (0x29, 0x60, 0x7E), (0x39, 0x20, 0x20)]

/-- This function finds the label of a scan code. -/
def Key.ofScanCode : Nat → Key
  | 0x3B => .f1
  | 0x3C => .f2
  | 0x3D => .f3
  | 0x2A => .shiftL
  | 0xAA => .shiftLReleased
  | 0x36 => .shiftR
  | 0xB6 => .shiftRReleased
  | 0x0F => .tab
  | 0x3A => .capsLock
  | 0x1D => .controlL
  | 0x9D => .controlLReleased
  | 0x0E => .backspace
  | 0x1C => .enter
  | 0x38 => .altL
  | 0xB8 => .altLReleased
  | scanCode =>
      match characterKeys.find? fun entry => entry.1 = scanCode with
      | some (_, plain, shifted) => .character plain shifted
      | none => .other

namespace Console

/-- The characters of the line that is being typed on the terminal on display. -/
def lineLength (c : Console) : Nat := c.terminalBufferIdxs c.terminalOnDisplay

/-- This function stores one character behind the line. -/
def appendCharacter (c : Console) (character : UInt8) : Console :=
  { c with
    terminalBuffer := Function.update c.terminalBuffer c.lineLength
      (Function.update (c.terminalBuffer c.lineLength) c.terminalOnDisplay character)
    terminalBufferIdxs :=
      Function.update c.terminalBufferIdxs c.terminalOnDisplay (c.lineLength + 1) }

/-- One turn of the loop of the tab key. -/
def tabSpace (c : Console) : Console :=
  if c.lineLength < 127 then
    (if c.lineRunOverFlag then c.putcLineRunover spaceAscii else c.putc spaceAscii).appendCharacter
      spaceAscii
  else c

/-- The tab key types five spaces. -/
def pressTab (c : Console) : Console := (c.tabSpace.tabSpace.tabSpace.tabSpace.tabSpace).updateCursor

/-- Without the flag the screen is changed but the line is not. -/
def pressBackspace (c : Console) : Console :=
  if c.lineLength = 0 then c
  else if c.lineRunOverFlag then
    backspaceToPrev { c with
      terminalBufferIdxs :=
        Function.update c.terminalBufferIdxs c.terminalOnDisplay (c.lineLength - 1) }
  else c.backspaceToPrev

def pressEnter (c : Console) : Console :=
  let c := c.shiftRowsUp
  let c := if c.lineRunOverFlag then c.putcLineRunover 10 else c.putc 10
  { c.updateCursor with enter := true }

end Console

namespace Driver

/-- The result is the character of the key, or zero, and the state after the key. -/
def scanCodeToAscii (d : Driver) (scanCode : Nat) : UInt8 × Driver :=
  match Key.ofScanCode scanCode with
  | .f1 => (0x3B, d)
  | .f2 => (0x3C, d)
  | .f3 => (0x3D, d)
  | .shiftL =>
      (0, if !d.keyboard.shiftR then
        { d with keyboard := { d.keyboard with shift := true, shiftL := true } } else d)
  | .shiftLReleased =>
      (0, if d.keyboard.shiftL then
        { d with keyboard := { d.keyboard with shift := false, shiftL := false } } else d)
  | .shiftR =>
      (0, if !d.keyboard.shiftL then
        { d with keyboard := { d.keyboard with shift := true, shiftR := true } } else d)
  | .shiftRReleased =>
      (0, if d.keyboard.shiftR then
        { d with keyboard := { d.keyboard with shift := false, shiftR := false } } else d)
  | .tab => (0, { d with console := d.console.pressTab })
  | .capsLock => (0, { d with keyboard := { d.keyboard with capsLock := !d.keyboard.capsLock } })
  | .controlL => (0, { d with keyboard := { d.keyboard with ctrl := true } })
  | .controlLReleased => (0, { d with keyboard := { d.keyboard with ctrl := false } })
  | .backspace => (0, { d with console := d.console.pressBackspace })
  | .enter => (0, { d with console := d.console.pressEnter })
  | .altL => (0, { d with keyboard := { d.keyboard with alt := true } })
  | .altLReleased => (0, { d with keyboard := { d.keyboard with alt := false } })
  | .character plain shifted => (if d.keyboard.shift then shifted else plain, d)
  | .other => (0, d)

/-- Ctrl-L clears the screen and empties the line. -/
def clearOnControl (d : Driver) (key : UInt8) : Driver :=
  if d.keyboard.ctrl ∧ key = 0x6C then
    { d with console := (((d.console.clear.setPos 0 0).updateCursor).terminalOpen).2 }
  else d

def switchOnAlt (d : Driver) (key : UInt8) : Driver :=
  if d.keyboard.alt then
    if key = 0x3B then { d with console := d.console.switchTerminal 0 }
    else if key = 0x3C then { d with console := d.console.switchTerminal 1 }
    else if key = 0x3D then { d with console := d.console.switchTerminal 2 }
    else d
  else d

/-- A letter is made upper case by either of the shift and caps-lock keys. -/
def capital (d : Driver) (key : UInt8) : UInt8 :=
  if 0x61 ≤ key ∧ key ≤ 0x7A ∧ (d.keyboard.shift ^^ d.keyboard.capsLock) then key - 0x20 else key

/-- The key is printed and stored behind the line while a program waits for it. -/
def typeKey (d : Driver) (key : UInt8) : Driver :=
  if d.console.lineRunOverFlag ∧ ¬d.keyboard.alt then
    let key := d.capital key
    if key ≠ 0 ∧ ¬d.keyboard.ctrl then
      let console :=
        if d.console.lineLength < 127 then (d.console.putcLineRunover key).appendCharacter key
        else d.console
      { d with console := console.updateCursor }
    else d
  else d

def keyboardHandler (d : Driver) (scanCode : Nat) : Driver :=
  let (key, d) := d.scanCodeToAscii scanCode
  ((d.clearOnControl key).switchOnAlt key).typeKey key

end Driver

end OrcaOS
