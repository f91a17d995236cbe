import OrcaOS.Construction.FileSystem

/-!
The text screen of `lib.c`, the terminal driver of `keyboard.c` and the terminal switch of
`scheduling.c`.
-/

namespace OrcaOS
open Foundation

def videoMemory : Nat := 0xB8000
def numCols : Int := 80
def numRows : Int := 25
def attrib : UInt8 := 0x7
def spaceAscii : UInt8 := 0x20

/-- The screen, the three terminals and the two flags that the reader and the keyboard share. -/
structure Console where
  video : Memory
  screenX : Int
  screenY : Int
  savedX : Fin 3 → Int
  savedY : Fin 3 → Int
  terminalOnDisplay : Fin 3
  hardwareCursor : Nat
  terminalBuffer : Nat → Fin 3 → UInt8
  terminalBufferIdxs : Fin 3 → Nat
  enter : Bool
  lineRunOverFlag : Bool

namespace Console

/-- Uninitialized variables are zero. -/
def initial (video : Memory) : Console where
  video
  screenX := 0
  screenY := 0
  savedX _ := 0
  savedY _ := 0
  terminalOnDisplay := ⟨0, by decide⟩
  hardwareCursor := 0
  terminalBuffer _ _ := 0
  terminalBufferIdxs _ := 0
  enter := false
  lineRunOverFlag := false

/-- A cell holds a character and its attribute. -/
def storeCell (c : Console) (cell : Int) (character : UInt8) : Console :=
  let address := wrap32 (videoMemory + 2 * cell)
  { c with video := (c.video.fill address 1 character).fill (address + 1) 1 attrib }

/-- The loop blanks the cells from `first` up to the end of the screen. -/
def blankFrom (video : Memory) (first : Nat) : Memory :=
  video.overlay (videoMemory + 2 * first) (4000 - 2 * first) fun index =>
    if index % 2 = 0 then spaceAscii else attrib

def clear (c : Console) : Console := { c with video := blankFrom c.video 0 }

def setPos (c : Console) (x y : Int) : Console := { c with screenX := x, screenY := y }

def updateCursor (c : Console) : Console :=
  { c with hardwareCursor := wrap32 (c.screenY * numCols + c.screenX) % 65536 }

def cursorInit (c : Console) : Console :=
  { c with savedX := fun _ => 0, savedY := fun _ => 0 }

def switchTerminalCursors (c : Console) (oldTerminal newTerminal : Fin 3) : Console :=
  let savedX := Function.update c.savedX oldTerminal c.screenX
  let savedY := Function.update c.savedY oldTerminal c.screenY
  updateCursor { c with
    savedX, savedY, screenX := savedX newTerminal, screenY := savedY newTerminal }

/-- The rows move up by one when the cursor is on the last row. -/
def shiftRowsUp (c : Console) : Console :=
  if numRows - 1 ≤ c.screenY then
    let moved := c.video.overlay videoMemory 3840 fun index => c.video (videoMemory + index + 160)
    { c with screenY := numRows - 2, video := blankFrom moved 1920 }
  else c

/-- The two reductions that follow the stores of a backspace. -/
def wrapCursor (c : Console) : Console :=
  let x := c.screenX.tmod numCols
  { c with screenX := x, screenY := (c.screenY + x.tdiv numCols).tmod numRows }

/-- The cell before the cursor is blanked, or the first cell of the row. -/
def backspaceOnScreen (c : Console) : Console :=
  let c :=
    if 0 ≤ c.screenX then
      let c := if c.screenX ≠ 0 then { c with screenX := c.screenX - 1 } else c
      (c.storeCell (numCols * c.screenY + c.screenX) spaceAscii).wrapCursor
    else c
  c.updateCursor

/-- At the start of a row the last cell of the row above is blanked. -/
def backspaceToPrev (c : Console) : Console :=
  if c.screenX = 0 ∧ 0 < c.screenY then
    let c := { c with screenX := numCols - 1, screenY := c.screenY - 1 }
    (c.storeCell (numCols * c.screenY + c.screenX) spaceAscii).wrapCursor
  else c.backspaceOnScreen

def putc (c : Console) (character : UInt8) : Console :=
  if character = 10 ∨ character = 13 then { c with screenY := c.screenY + 1, screenX := 0 }
  else
    let c := c.storeCell (numCols * c.screenY + c.screenX) character
    let x := (c.screenX + 1).tmod numCols
    { c with screenX := x, screenY := (c.screenY + x.tdiv numCols).tmod numRows }

def putcLineRunover (c : Console) (character : UInt8) : Console :=
  if character ≠ 10 ∧ character ≠ 13 then
    let c :=
      if numCols - 1 ≤ c.screenX then
        (if c.screenY = numRows - 1 then c.shiftRowsUp else c).putc 10
      else c
    let c := if numRows - 1 ≤ c.screenY then { c with screenY := numRows - 1 } else c
    let c := c.storeCell (numCols * c.screenY + c.screenX) character
    updateCursor { c with screenX := (c.screenX + 1).tmod numCols }
  else if character = 10 then { c with screenX := 0, screenY := c.screenY + 1 }
  else c

/-- Opening a terminal empties the line of the terminal on display. -/
def terminalOpen (c : Console) : Int × Console :=
  (0, { c with
    terminalBuffer := fun row terminal =>
      if row < 127 ∧ terminal = c.terminalOnDisplay then 0 else c.terminalBuffer row terminal
    terminalBufferIdxs := Function.update c.terminalBufferIdxs c.terminalOnDisplay 0 })

/-- Closing a terminal does the same as opening it. -/
def terminalClose (c : Console) : Int × Console := terminalOpen c

def writeCharacter (c : Console) (character : UInt8) : Console :=
  let c := if character = 0 then c.putc spaceAscii else c
  if character = 10 then (c.shiftRowsUp.putc character).updateCursor
  else c.putcLineRunover character

def writeStringToScreen (c : Console) (s : Buffer) (nbytes : Int) : Int × Console :=
  let opened := (terminalOpen c).2
  let written := (List.range nbytes.toNat).foldl (fun c index => c.writeCharacter (s index)) opened
  (nbytes.toNat, (terminalClose written).2)

/-- The first loop of the reader copies the line until its end and leaves its index. -/
def copyLine (line : Nat → UInt8) (length : Nat) : (turns i : Nat) → Buffer → Nat × Buffer
  | 0, i, buf => (i, buf)
  | turns + 1, i, buf =>
      if length ≤ i then (i, buf) else copyLine line length turns (i + 1) (Function.update buf i (line i))

/-- The second loop clears the bytes behind the line. -/
def clearBytes : (turns j : Nat) → Buffer → Buffer
  | 0, _, buf => buf
  | turns + 1, j, buf => clearBytes turns (j + 1) (Function.update buf j 0)

/-- `waited` is the console that the interrupts leave when the wait for Enter ends. -/
def terminalRead (waited : Console) (buf : Buffer) (nbytes : Int) : Int × Buffer × Console :=
  let terminal := waited.terminalOnDisplay
  let (i, copied) := copyLine (waited.terminalBuffer · terminal) (waited.terminalBufferIdxs terminal) (nbytes - 1).toNat 0 buf
  let terminated := Function.update copied i 0
  let cleared := clearBytes (nbytes - i).toNat i terminated
  (i + 1, cleared, { waited with
    lineRunOverFlag := false
    terminalBufferIdxs := Function.update waited.terminalBufferIdxs terminal 0 })

def terminalWrite (c : Console) (buf : Buffer) (nbytes : Int) : Int × Console :=
  c.writeStringToScreen buf nbytes

/-- The live page is saved behind the old terminal and loaded from behind the new one. -/
def switchTerminal (c : Console) (terminal : Int) : Console :=
  if inside : 0 ≤ terminal ∧ terminal ≤ 2 then
    let next : Fin 3 := ⟨terminal.toNat, by omega⟩
    let offset1 := (c.terminalOnDisplay.val + 1) * 0x1000
    let offset2 := (next.val + 1) * 0x1000
    let saved := c.video.overlay (videoMemory + offset1) 0x1000 fun index => c.video (videoMemory + index)
    let loaded := saved.overlay videoMemory 0x1000 fun index => saved (videoMemory + offset2 + index)
    let c := switchTerminalCursors { c with video := loaded } c.terminalOnDisplay next
    { c with terminalOnDisplay := next }
  else c

end Console

end OrcaOS
