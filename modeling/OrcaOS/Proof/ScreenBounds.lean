import OrcaOS.Proof.KeyOutcome
import OrcaOS.Proof.Screens

/-!
Terminal output stays on the screen: the cursor never leaves the 80 columns and 25 rows, and nothing
is stored outside their cells.
-/

namespace OrcaOS
open Foundation

/-- The two bytes of each of the 2000 cells of the live page. -/
abbrev visibleCells : Set Nat := Memory.window videoMemory 4000

def CursorOnScreen (x y : Int) : Prop := 0 ≤ x ∧ x ≤ 79 ∧ 0 ≤ y ∧ y ≤ 24

namespace Console

/-- The cursor and the saved cursors of all terminals are on the screen. -/
structure OnScreen (c : Console) : Prop where
  live : CursorOnScreen c.screenX c.screenY
  saved : ∀ terminal, CursorOnScreen (c.savedX terminal) (c.savedY terminal)

end Console

/-- An output leaves the cursor on the screen and changes only visible cells. -/
structure Draws (before after : Console) : Prop where
  onScreen : CursorOnScreen after.screenX after.screenY
  cells : Set.EqOn after.video before.video visibleCellsᶜ
  savedX : after.savedX = before.savedX
  savedY : after.savedY = before.savedY
  terminalOnDisplay : after.terminalOnDisplay = before.terminalOnDisplay

namespace Draws
variable {first second third : Console}

theorem trans (one : Draws first second) (two : Draws second third) : Draws first third where
  onScreen := two.onScreen
  cells := two.cells.trans one.cells
  savedX := two.savedX.trans one.savedX
  savedY := two.savedY.trans one.savedY
  terminalOnDisplay := two.terminalOnDisplay.trans one.terminalOnDisplay

/-- An output keeps the saved cursors on the screen. -/
theorem keepsOnScreen (draws : Draws first second) (before : first.OnScreen) : second.OnScreen where
  live := draws.onScreen
  saved terminal := by
    rw [draws.savedX, draws.savedY]
    exact before.saved terminal

/-- An output is drawn by the terminal on display. -/
theorem screens (draws : Draws first second) :
    second.screens = first.screens.step (.write second.liveScreen) := by
  have saved : second.savedScreen = first.savedScreen := by
    funext terminal
    have page : pageAt second.video (backingPage terminal) = pageAt first.video (backingPage terminal) := by
      funext index
      refine draws.cells fun visible => ?_
      have above := backingPage_apart terminal
      have below := visible.2
      omega
    rw [Console.savedScreen, page, draws.savedX, draws.savedY]
    rfl
  have bank : second.bank = first.bank.step (.write second.liveScreen) := by
    rw [Console.bank, saved, draws.terminalOnDisplay]
    rfl
  rw [Console.screens, bank, Bank.step_members]
  rfl

end Draws

namespace Console
variable {c : Console}

theorem draws_refl (live : CursorOnScreen c.screenX c.screenY) : Draws c c :=
  ⟨live, fun _ _ => rfl, rfl, rfl, rfl⟩

/-- Moving the cursor draws nothing. -/
theorem setPos_draws {x y : Int} (inside : CursorOnScreen x y) :
    Draws c { c with screenX := x, screenY := y } :=
  ⟨inside, fun _ _ => rfl, rfl, rfl, rfl⟩

theorem updateCursor_draws (live : CursorOnScreen c.screenX c.screenY) : Draws c c.updateCursor :=
  ⟨live, fun _ _ => rfl, rfl, rfl, rfl⟩

/-- A cell of the screen lies among the visible cells. -/
theorem storeCell_draws (live : CursorOnScreen c.screenX c.screenY) {x y : Int}
    (inside : CursorOnScreen x y) (character : UInt8) :
    Draws c (c.storeCell (numCols * y + x) character) := by
  obtain ⟨left, right, top, bottom⟩ := inside
  have position : wrap32 (videoMemory + 2 * (numCols * y + x)) = videoMemory + (2 * (80 * y + x)).toNat := by
    unfold wrap32 videoMemory numCols
    omega
  refine ⟨live, ?_, rfl, rfl, rfl⟩
  have small : (2 * (80 * y + x)).toNat + 2 ≤ 4000 := by omega
  have first : Set.EqOn (c.video.fill (videoMemory + (2 * (80 * y + x)).toNat) 1 character) c.video
      visibleCellsᶜ := Memory.eqOn_widen (c.video.fill_eqOn _ 1 character) (by omega) (by omega)
  rw [storeCell, position]
  exact (Memory.eqOn_widen (Memory.fill_eqOn _ _ 1 attrib) (by omega) (by omega)).trans first

theorem blankFrom_eqOn (video : Memory) (first : Nat) (inside : first ≤ 2000) :
    Set.EqOn (blankFrom video first) video visibleCellsᶜ :=
  Memory.eqOn_widen (video.overlay_eqOn _ _ _) (by omega) (by omega)

theorem origin_onScreen : CursorOnScreen 0 0 := ⟨by decide, by decide, by decide, by decide⟩

theorem clearScreen_draws (c : Console) : Draws c (c.clear.setPos 0 0).updateCursor :=
  ⟨origin_onScreen, blankFrom_eqOn c.video 0 (by omega), rfl, rfl, rfl⟩

/-- Scrolling makes room for one more row. -/
theorem shiftRowsUp_draws (live : CursorOnScreen c.screenX c.screenY) :
    Draws c c.shiftRowsUp ∧ c.shiftRowsUp.screenY ≤ 23 := by
  obtain ⟨left, right, top, bottom⟩ := live
  unfold shiftRowsUp numRows
  split
  · refine ⟨⟨⟨left, right, by simp, by simp⟩, ?_, rfl, rfl, rfl⟩, by simp⟩
    have moved : Set.EqOn (c.video.overlay videoMemory 3840 fun index =>
        c.video (videoMemory + index + 160)) c.video visibleCellsᶜ :=
      Memory.eqOn_widen (c.video.overlay_eqOn _ _ _) (Nat.le_refl _)
        (Nat.add_le_add_left (by decide) _)
    have blanked := blankFrom_eqOn (c.video.overlay videoMemory 3840 fun index =>
      c.video (videoMemory + index + 160)) 1920 (by omega)
    exact blanked.trans moved
  · exact ⟨draws_refl ⟨left, right, top, bottom⟩, by omega⟩

/-- On the screen the two reductions change nothing. -/
theorem wrapCursor_onScreen (live : CursorOnScreen c.screenX c.screenY) : c.wrapCursor = c := by
  obtain ⟨left, right, top, bottom⟩ := live
  have column : c.screenX.tmod numCols = c.screenX := Int.tmod_eq_of_lt left (by unfold numCols; omega)
  have row : (c.screenY + c.screenX.tdiv numCols).tmod numRows = c.screenY := by
    rw [Int.tdiv_eq_zero_of_lt left (by unfold numCols; omega), Int.add_zero]
    exact Int.tmod_eq_of_lt top (by unfold numRows; omega)
  rw [wrapCursor, column, row]

theorem wrapCursor_draws (live : CursorOnScreen c.screenX c.screenY) : Draws c c.wrapCursor := by
  rw [wrapCursor_onScreen live]
  exact draws_refl live

/-- The column after a stored character wraps at the end of the row. -/
theorem nextColumn_bounds {x : Int} (left : 0 ≤ x) :
    0 ≤ (x + 1).tmod numCols ∧ (x + 1).tmod numCols ≤ 79 := by
  rw [Int.tmod_eq_emod_of_nonneg (by omega)]
  unfold numCols
  omega

/-- A printed character moves the cursor within its row. -/
theorem putc_column {character : UInt8} (printing : ¬(character = 10 ∨ character = 13))
    (live : CursorOnScreen c.screenX c.screenY) : c.putc character =
      { c.storeCell (numCols * c.screenY + c.screenX) character with
        screenX := if c.screenX < 79 then c.screenX + 1 else 0 } := by
  obtain ⟨left, right, top, bottom⟩ := live
  have column : (c.screenX + 1).tmod numCols = if c.screenX < 79 then c.screenX + 1 else 0 := by
    rw [Int.tmod_eq_emod_of_nonneg (by omega)]
    unfold numCols
    split <;> omega
  have row : (c.screenY + (if c.screenX < 79 then c.screenX + 1 else 0).tdiv numCols).tmod numRows = c.screenY := by
    rw [Int.tdiv_eq_zero_of_lt (by split <;> omega) (by unfold numCols; split <;> omega), Int.add_zero]
    exact Int.tmod_eq_of_lt top (by unfold numRows; omega)
  rw [putc, if_neg printing]
  dsimp only [storeCell]
  rw [column, row]

theorem putc_draws (live : CursorOnScreen c.screenX c.screenY) {character : UInt8}
    (printing : ¬(character = 10 ∨ character = 13)) : Draws c (c.putc character) := by
  have stored := storeCell_draws live live character
  obtain ⟨left, right, top, bottom⟩ := live
  have column := nextColumn_bounds left
  have row : (c.screenY + ((c.screenX + 1).tmod numCols).tdiv numCols).tmod numRows = c.screenY := by
    rw [Int.tdiv_eq_zero_of_lt column.1 (by unfold numCols; unfold numCols at column; omega),
      Int.add_zero]
    exact Int.tmod_eq_of_lt top (by unfold numRows; omega)
  rw [putc, if_neg printing]
  dsimp only
  refine stored.trans (setPos_draws ⟨column.1, column.2, ?_, ?_⟩)
  · exact row.symm ▸ top
  · exact row.symm ▸ bottom

/-- A new line needs a row below the cursor. -/
theorem newline_draws (live : CursorOnScreen c.screenX c.screenY) (room : c.screenY ≤ 23) :
    Draws c { c with screenX := 0, screenY := c.screenY + 1 } := by
  obtain ⟨left, right, top, bottom⟩ := live
  exact setPos_draws ⟨by omega, by omega, by omega, by omega⟩

theorem putc_newline_draws (live : CursorOnScreen c.screenX c.screenY) (room : c.screenY ≤ 23) :
    Draws c (c.putc 10) := newline_draws live room

/-- The cursor leaves the end of a row before the next character is stored. -/
def leaveRow (c : Console) : Console :=
  if numCols - 1 ≤ c.screenX then
    (if c.screenY = numRows - 1 then c.shiftRowsUp else c).putc 10
  else c

/-- The character is stored in the row of the cursor, which is cut to the last one. -/
def storeClipped (c : Console) (character : UInt8) : Console :=
  let c := if numRows - 1 ≤ c.screenY then { c with screenY := numRows - 1 } else c
  let c := c.storeCell (numCols * c.screenY + c.screenX) character
  updateCursor { c with screenX := (c.screenX + 1).tmod numCols }

theorem putcLineRunover_eq {character : UInt8} (printing : character ≠ 10 ∧ character ≠ 13) :
    c.putcLineRunover character = c.leaveRow.storeClipped character := by
  rw [putcLineRunover, if_pos printing]
  rfl

theorem leaveRow_draws (live : CursorOnScreen c.screenX c.screenY) : Draws c c.leaveRow := by
  obtain ⟨scrolled, room⟩ := shiftRowsUp_draws live
  unfold leaveRow
  split_ifs with ended last
  · exact scrolled.trans (putc_newline_draws scrolled.onScreen room)
  · obtain ⟨left, right, top, bottom⟩ := live
    unfold numRows at last
    exact putc_newline_draws ⟨left, right, top, bottom⟩ (by omega)
  · exact draws_refl live

theorem storeClipped_draws (live : CursorOnScreen c.screenX c.screenY) (character : UInt8) :
    Draws c (c.storeClipped character) := by
  have stored := storeCell_draws live live character
  obtain ⟨left, right, top, bottom⟩ := live
  -- On the screen the cut changes nothing.
  have cut : (if numRows - 1 ≤ c.screenY then { c with screenY := numRows - 1 } else c) = c := by
    split_ifs with past
    · have same : numRows - 1 = c.screenY := by
        unfold numRows at past ⊢
        omega
      rw [same]
    · rfl
  have column := nextColumn_bounds left
  have next : CursorOnScreen ((c.screenX + 1).tmod numCols) c.screenY :=
    ⟨column.1, column.2, top, bottom⟩
  rw [storeClipped, cut]
  exact (stored.trans (setPos_draws next)).trans (updateCursor_draws next)

theorem putcLineRunover_draws (live : CursorOnScreen c.screenX c.screenY) {character : UInt8}
    (printing : character ≠ 10) : Draws c (c.putcLineRunover character) := by
  by_cases ignored : character = 13
  · rw [putcLineRunover, if_neg (by simp [ignored]), if_neg printing]
    exact draws_refl live
  · have left := leaveRow_draws live
    rw [putcLineRunover_eq ⟨printing, ignored⟩]
    exact left.trans (storeClipped_draws left.onScreen character)

theorem backspaceOnScreen_draws (live : CursorOnScreen c.screenX c.screenY) :
    Draws c c.backspaceOnScreen := by
  have left : 0 ≤ c.screenX := live.1
  have moved : Draws c (if c.screenX ≠ 0 then { c with screenX := c.screenX - 1 } else c) := by
    split_ifs with inner
    · obtain ⟨_, right, top, bottom⟩ := live
      exact setPos_draws ⟨by omega, by omega, top, bottom⟩
    · exact draws_refl live
  unfold backspaceOnScreen
  rw [if_pos left]
  dsimp only
  generalize (if c.screenX ≠ 0 then { c with screenX := c.screenX - 1 } else c) = middle at moved ⊢
  have stored := moved.trans (storeCell_draws moved.onScreen moved.onScreen spaceAscii)
  have wrapped := stored.trans (wrapCursor_draws stored.onScreen)
  exact wrapped.trans (updateCursor_draws wrapped.onScreen)

theorem backspaceToPrev_draws (live : CursorOnScreen c.screenX c.screenY) :
    Draws c c.backspaceToPrev := by
  unfold backspaceToPrev
  split_ifs with start
  · obtain ⟨left, right, top, bottom⟩ := live
    have moved : Draws c { c with screenX := numCols - 1, screenY := c.screenY - 1 } :=
      setPos_draws ⟨by unfold numCols; omega, by unfold numCols; omega, by omega, by omega⟩
    have stored := moved.trans (storeCell_draws moved.onScreen moved.onScreen spaceAscii)
    exact stored.trans (wrapCursor_draws stored.onScreen)
  · exact backspaceOnScreen_draws live

/-- The line of a terminal is no part of its screen. -/
theorem terminalOpen_draws (live : CursorOnScreen c.screenX c.screenY) : Draws c c.terminalOpen.2 :=
  ⟨live, fun _ _ => rfl, rfl, rfl, rfl⟩

theorem appendCharacter_draws (live : CursorOnScreen c.screenX c.screenY) (character : UInt8) :
    Draws c (c.appendCharacter character) := ⟨live, fun _ _ => rfl, rfl, rfl, rfl⟩

theorem writeCharacter_draws (live : CursorOnScreen c.screenX c.screenY) (character : UInt8) :
    Draws c (c.writeCharacter character) := by
  have spaced : Draws c (if character = 0 then c.putc spaceAscii else c) := by
    split_ifs
    · exact putc_draws live (by decide)
    · exact draws_refl live
  unfold writeCharacter
  dsimp only
  generalize (if character = 0 then c.putc spaceAscii else c) = middle at spaced ⊢
  split_ifs with newline
  · obtain ⟨scrolled, room⟩ := shiftRowsUp_draws spaced.onScreen
    rw [newline]
    have moved := spaced.trans (scrolled.trans (putc_newline_draws scrolled.onScreen room))
    exact moved.trans (updateCursor_draws moved.onScreen)
  · exact spaced.trans (putcLineRunover_draws spaced.onScreen newline)

/-- Each character of the loop is drawn on the screen. -/
theorem writeCharacters_draws (live : CursorOnScreen c.screenX c.screenY) (s : Buffer)
    (indices : List Nat) :
    Draws c (indices.foldl (fun c index => c.writeCharacter (s index)) c) := by
  induction indices generalizing c with
  | nil => exact draws_refl live
  | cons index rest ih =>
      have first := writeCharacter_draws live (s index)
      exact first.trans (ih first.onScreen)

theorem terminalWrite_draws (live : CursorOnScreen c.screenX c.screenY) (buf : Buffer) (nbytes : Int) :
    Draws c (c.terminalWrite buf nbytes).2 := by
  have opened := terminalOpen_draws live
  have written := opened.trans (writeCharacters_draws opened.onScreen buf (List.range nbytes.toNat))
  exact written.trans (terminalOpen_draws written.onScreen)

theorem tabSpace_draws (live : CursorOnScreen c.screenX c.screenY) : Draws c c.tabSpace := by
  have printed : Draws c (if c.lineRunOverFlag then c.putcLineRunover spaceAscii
      else c.putc spaceAscii) := by
    split_ifs
    · exact putcLineRunover_draws live (by decide)
    · exact putc_draws live (by decide)
  unfold tabSpace
  split
  · exact printed.trans (appendCharacter_draws printed.onScreen spaceAscii)
  · exact draws_refl live

theorem pressTab_draws (live : CursorOnScreen c.screenX c.screenY) : Draws c c.pressTab := by
  have one := tabSpace_draws live
  have two := one.trans (tabSpace_draws one.onScreen)
  have three := two.trans (tabSpace_draws two.onScreen)
  have four := three.trans (tabSpace_draws three.onScreen)
  have five := four.trans (tabSpace_draws four.onScreen)
  exact five.trans (updateCursor_draws five.onScreen)

theorem pressBackspace_draws (live : CursorOnScreen c.screenX c.screenY) : Draws c c.pressBackspace := by
  unfold pressBackspace
  split_ifs
  · exact draws_refl live
  · have shortened : Draws c { c with
        terminalBufferIdxs :=
          Function.update c.terminalBufferIdxs c.terminalOnDisplay (c.lineLength - 1) } :=
      ⟨live, fun _ _ => rfl, rfl, rfl, rfl⟩
    exact shortened.trans (backspaceToPrev_draws shortened.onScreen)
  · exact backspaceToPrev_draws live

/-- The Enter key scrolls before it starts a new line. -/
theorem pressEnter_draws (live : CursorOnScreen c.screenX c.screenY) : Draws c c.pressEnter := by
  obtain ⟨scrolled, room⟩ := shiftRowsUp_draws live
  have moved : Draws c (if c.shiftRowsUp.lineRunOverFlag then c.shiftRowsUp.putcLineRunover 10
      else c.shiftRowsUp.putc 10) := by
    split_ifs
    · exact scrolled.trans (newline_draws scrolled.onScreen room)
    · exact scrolled.trans (putc_newline_draws scrolled.onScreen room)
  have updated := moved.trans (updateCursor_draws moved.onScreen)
  exact updated.trans ⟨updated.onScreen, fun _ _ => rfl, rfl, rfl, rfl⟩

/-- A switch exchanges the cursor for a saved one. -/
theorem OnScreen.switchTerminal (onScreen : c.OnScreen) (terminal : Int) :
    (c.switchTerminal terminal).OnScreen := by
  cases inside : terminalOf terminal with
  | none =>
      rw [c.switchTerminal_of_none inside]
      exact onScreen
  | some next =>
      have saved (other : Fin 3) : CursorOnScreen ((c.switchTerminal terminal).savedX other)
          ((c.switchTerminal terminal).savedY other) := by
        obtain ⟨_, -, -, savedX, savedY, -, -, -⟩ := c.switchTerminal_eq inside
        rw [savedX, savedY, Function.update_apply, Function.update_apply]
        split_ifs
        · exact onScreen.live
        · exact onScreen.saved other
      obtain ⟨_, -, -, -, -, screenX, screenY, -⟩ := c.switchTerminal_eq inside
      exact ⟨by rw [screenX, screenY]; exact saved next, saved⟩

end Console

/-- Before the handler looks at the character, a key draws on the screen at most. -/
theorem KeyOutcome.draws {d after : Driver} {label : Key} {key : UInt8}
    (outcome : KeyOutcome d label key after)
    (live : CursorOnScreen d.console.screenX d.console.screenY) : Draws d.console after.console := by
  cases outcome with
  | modifier => exact Console.draws_refl live
  | tab => exact Console.pressTab_draws live
  | backspace => exact Console.pressBackspace_draws live
  | enter => exact Console.pressEnter_draws live
  | typed => exact Console.draws_refl live

namespace Driver
variable {d : Driver}

/-- This predicate says that the handler switches the terminal for the key. -/
def SwitchesFor (d : Driver) (key : UInt8) : Prop := d.keyboard.alt ∧ key ∈ [0x3B, 0x3C, 0x3D]

theorem scanCodeToAscii_draws (live : CursorOnScreen d.console.screenX d.console.screenY)
    (scanCode : Nat) : Draws d.console (d.scanCodeToAscii scanCode).2.console :=
  (d.scanCodeToAscii_outcome scanCode).draws live

theorem clearOnControl_draws (live : CursorOnScreen d.console.screenX d.console.screenY) (key : UInt8) :
    Draws d.console (d.clearOnControl key).console := by
  unfold clearOnControl
  split_ifs
  · have cleared := d.console.clearScreen_draws
    exact cleared.trans (Console.terminalOpen_draws cleared.onScreen)
  · exact Console.draws_refl live

theorem switchOnAlt_of_not {key : UInt8} (stays : ¬d.SwitchesFor key) : d.switchOnAlt key = d := by
  unfold switchOnAlt
  unfold SwitchesFor at stays
  simp only [List.mem_cons, List.not_mem_nil, or_false, not_and, not_or] at stays
  split_ifs with alt first second third
  · exact absurd first (stays alt).1
  · exact absurd second (stays alt).2.1
  · exact absurd third (stays alt).2.2
  · rfl
  · rfl

/-- Clearing on Ctrl-L does not make a key switch. -/
theorem clearOnControl_stays {key : UInt8} (stays : ¬d.SwitchesFor key) :
    ¬(d.clearOnControl key).SwitchesFor key := by
  unfold clearOnControl
  split_ifs <;> exact stays

theorem switchOnAlt_onScreen (onScreen : d.console.OnScreen) (key : UInt8) :
    (d.switchOnAlt key).console.OnScreen := by
  unfold switchOnAlt
  split_ifs
  · exact onScreen.switchTerminal 0
  · exact onScreen.switchTerminal 1
  · exact onScreen.switchTerminal 2
  · exact onScreen
  · exact onScreen

theorem typeKey_draws (live : CursorOnScreen d.console.screenX d.console.screenY) {key : UInt8}
    (printing : key ≠ 10 ∧ key ≠ 13) : Draws d.console (d.typeKey key).console := by
  have printed : Draws d.console (if d.console.lineLength < 127 then
      (d.console.putcLineRunover (d.capital key)).appendCharacter (d.capital key) else d.console) := by
    split_ifs
    · have stored := Console.putcLineRunover_draws live (d.capital_printing printing).1
      exact stored.trans (Console.appendCharacter_draws stored.onScreen _)
    · exact Console.draws_refl live
  unfold typeKey
  dsimp only
  generalize (if d.console.lineLength < 127 then
    (d.console.putcLineRunover (d.capital key)).appendCharacter (d.capital key)
      else d.console) = middle at printed ⊢
  split_ifs
  · exact printed.trans (Console.updateCursor_draws printed.onScreen)
  · exact Console.draws_refl live
  · exact Console.draws_refl live

/-- A key that does not switch the terminal draws on the live page only. -/
theorem keyboardHandler_draws (live : CursorOnScreen d.console.screenX d.console.screenY)
    {scanCode : Nat}
    (stays : ¬(d.scanCodeToAscii scanCode).2.SwitchesFor (d.scanCodeToAscii scanCode).1) :
    Draws d.console (d.keyboardHandler scanCode).console := by
  have scanned := scanCodeToAscii_draws live scanCode
  have printing := (d.scanCodeToAscii_outcome scanCode).printing
  unfold keyboardHandler
  generalize d.scanCodeToAscii scanCode = outcome at stays scanned printing ⊢
  obtain ⟨key, pressed⟩ := outcome
  dsimp only at stays scanned printing ⊢
  have cleared := scanned.trans (clearOnControl_draws scanned.onScreen key)
  rw [switchOnAlt_of_not (pressed.clearOnControl_stays stays)]
  exact cleared.trans (typeKey_draws cleared.onScreen printing)

theorem keyboardHandler_onScreen (onScreen : d.console.OnScreen) (scanCode : Nat) :
    (d.keyboardHandler scanCode).console.OnScreen := by
  have scanned := (scanCodeToAscii_draws onScreen.live scanCode).keepsOnScreen onScreen
  have printing := (d.scanCodeToAscii_outcome scanCode).printing
  unfold keyboardHandler
  generalize d.scanCodeToAscii scanCode = outcome at scanned printing ⊢
  obtain ⟨key, pressed⟩ := outcome
  dsimp only at scanned printing ⊢
  have cleared := (clearOnControl_draws scanned.live key).keepsOnScreen scanned
  have switched := switchOnAlt_onScreen cleared key
  exact (typeKey_draws switched.live printing).keepsOnScreen switched

end Driver

/-- An event prints on the terminal or switches it. The keyboard finds the flag set or not. -/
inductive OutputEvent where
  | key (lineRunOverFlag : Bool) (scanCode : Nat)
  | terminalWrite (buf : Buffer) (nbytes : Int)
  | clear
  | switchTerminal (terminal : Int)

namespace Driver

def withFlag (d : Driver) (lineRunOverFlag : Bool) : Driver :=
  { d with console := { d.console with lineRunOverFlag } }

def withVideo (d : Driver) (video : Memory) : Driver :=
  { d with console := { d.console with video } }

def outputStep (d : Driver) : OutputEvent → Driver
  | .key lineRunOverFlag scanCode => (d.withFlag lineRunOverFlag).keyboardHandler scanCode
  | .terminalWrite buf nbytes => { d with console := (d.console.terminalWrite buf nbytes).2 }
  | .clear => { d with console := (d.console.clear.setPos 0 0).updateCursor }
  | .switchTerminal terminal => { d with console := d.console.switchTerminal terminal }

/-- The event calls `switch_terminal`, which copies whole pages. -/
def CallsSwitch (d : Driver) : OutputEvent → Prop
  | .key lineRunOverFlag scanCode =>
      ((d.withFlag lineRunOverFlag).scanCodeToAscii scanCode).2.SwitchesFor
        ((d.withFlag lineRunOverFlag).scanCodeToAscii scanCode).1
  | .switchTerminal _ => True
  | _ => False

/-- The screen is cleared and all cursors are at its origin. -/
def cleared (d : Driver) : Driver := { d with console := d.console.cursorInit.clear.setPos 0 0 }

theorem cleared_onScreen (d : Driver) : d.cleared.console.OnScreen :=
  ⟨Console.origin_onScreen, fun _ => Console.origin_onScreen⟩

variable {d : Driver}

theorem outputStep_draws (live : CursorOnScreen d.console.screenX d.console.screenY)
    {event : OutputEvent} (stays : ¬d.CallsSwitch event) :
    Draws d.console (d.outputStep event).console := by
  cases event with
  | key lineRunOverFlag scanCode =>
      have flagged : Draws d.console (d.withFlag lineRunOverFlag).console :=
        ⟨live, fun _ _ => rfl, rfl, rfl, rfl⟩
      exact flagged.trans (keyboardHandler_draws flagged.onScreen stays)
  | terminalWrite buf nbytes => exact Console.terminalWrite_draws live buf nbytes
  | clear => exact d.console.clearScreen_draws
  | switchTerminal terminal => exact absurd trivial stays

theorem outputStep_onScreen (onScreen : d.console.OnScreen) (event : OutputEvent) :
    (d.outputStep event).console.OnScreen := by
  cases event with
  | key lineRunOverFlag scanCode =>
      have flagged : (d.withFlag lineRunOverFlag).console.OnScreen := ⟨onScreen.live, onScreen.saved⟩
      exact keyboardHandler_onScreen flagged scanCode
  | terminalWrite buf nbytes =>
      exact (Console.terminalWrite_draws onScreen.live buf nbytes).keepsOnScreen onScreen
  | clear => exact (d.console.clearScreen_draws).keepsOnScreen onScreen
  | switchTerminal terminal => exact onScreen.switchTerminal terminal

/-- For a key that switches the terminal the handler does nothing else. -/
theorem keyboardHandler_switches {scanCode : Nat}
    (switches : (d.scanCodeToAscii scanCode).2.SwitchesFor (d.scanCodeToAscii scanCode).1) :
    ∃ terminal, (d.keyboardHandler scanCode).console = d.console.switchTerminal terminal := by
  have outcome := d.scanCodeToAscii_outcome scanCode
  unfold keyboardHandler
  generalize Key.ofScanCode scanCode = label at outcome
  generalize d.scanCodeToAscii scanCode = scanned at switches outcome ⊢
  obtain ⟨key, after⟩ := scanned
  dsimp only at switches outcome ⊢
  obtain ⟨alt, named⟩ := switches
  cases outcome with
  | typed =>
      have notL : key ≠ 0x6C := by
        rintro rfl
        exact absurd named (by decide)
      have kept : d.clearOnControl key = d := if_neg fun cleared => notL cleared.2
      have ignored (terminal : Int) : typeKey { d with console := d.console.switchTerminal terminal } key =
          { d with console := d.console.switchTerminal terminal } :=
        if_neg fun typed => typed.2 alt
      rw [kept, switchOnAlt, if_pos alt]
      rcases List.mem_cons.mp named with rfl | named
      · exact ⟨0, congrArg Driver.console (ignored 0)⟩
      rcases List.mem_cons.mp named with rfl | named
      · exact ⟨1, congrArg Driver.console (ignored 1)⟩
      obtain rfl := List.mem_singleton.mp named
      exact ⟨2, congrArg Driver.console (ignored 2)⟩
  | _ => exact absurd named (by decide)

theorem outputStep_switches {event : OutputEvent} (switches : d.CallsSwitch event) :
    ∃ terminal lineRunOverFlag, (d.outputStep event).console =
      (d.withFlag lineRunOverFlag).console.switchTerminal terminal := by
  cases event with
  | key lineRunOverFlag scanCode =>
      obtain ⟨terminal, switched⟩ := keyboardHandler_switches switches
      exact ⟨terminal, lineRunOverFlag, switched⟩
  | switchTerminal terminal => exact ⟨terminal, d.console.lineRunOverFlag, rfl⟩
  | terminalWrite => exact switches.elim
  | clear => exact switches.elim

/-- Neither printing nor switching changes the screen of a terminal that is not on display. -/
theorem outputStep_keepsHidden (onScreen : d.console.OnScreen) (event : OutputEvent)
    {terminal : Fin 3} (hidden : terminal ≠ d.console.terminalOnDisplay) :
    (d.outputStep event).console.screens.value terminal = d.console.screens.value terminal := by
  by_cases switches : d.CallsSwitch event
  · obtain ⟨number, lineRunOverFlag, switched⟩ := outputStep_switches switches
    rw [switched]
    cases inside : terminalOf number with
    | none =>
        rw [Console.switchTerminal_of_none _ inside]
        rfl
    | some next =>
        have selected := (d.withFlag lineRunOverFlag).console.switchTerminal_bank inside
        rw [Console.screens, selected]
        have stepped := (d.withFlag lineRunOverFlag).console.bank.step_members (.select next)
        exact congrFun (congrArg Members.value stepped) terminal
  · rw [(outputStep_draws onScreen.live switches).screens]
    exact Function.update_of_ne hidden _ _

theorem outputRun_onScreen (onScreen : d.console.OnScreen) (events : List OutputEvent) :
    (events.foldl outputStep d).console.OnScreen := by
  induction events generalizing d with
  | nil => exact onScreen
  | cons event rest ih => exact ih (outputStep_onScreen onScreen event)

end Driver

/-- The cursors stay on the screen, and whatever the pages hold, only visible cells are stored. -/
theorem output_stays_on_screen (d : Driver) (events : List OutputEvent) :
    (events.foldl Driver.outputStep d.cleared).console.OnScreen ∧
      ∀ (event : OutputEvent) (video : Memory),
        let before := (events.foldl Driver.outputStep d.cleared).withVideo video
        (¬before.CallsSwitch event →
          Set.EqOn (before.outputStep event).console.video video visibleCellsᶜ) ∧
        (before.CallsSwitch event → ∃ terminal lineRunOverFlag, (before.outputStep event).console =
          (before.withFlag lineRunOverFlag).console.switchTerminal terminal) := by
  have onScreen := Driver.outputRun_onScreen d.cleared_onScreen events
  refine ⟨onScreen, ?_⟩
  intro event video before
  have live : CursorOnScreen before.console.screenX before.console.screenY := onScreen.live
  constructor
  · intro stays
    exact (Driver.outputStep_draws live stays).cells
  · intro switches
    exact Driver.outputStep_switches switches

end OrcaOS
