import OrcaOS.Foundation.Run
import OrcaOS.Proof.LineEditing
import OrcaOS.Proof.ReferenceTerminal
import OrcaOS.Specification.Echo

/-!
The echo on the screen matches the line while no backspace goes back over the start of a row.
-/

namespace OrcaOS
open Foundation

namespace Console
variable {c : Console} {t : ReferenceTerminal}

/-- A backspace in a row erases the cell before the cursor. -/
theorem Shows.backspaceToPrev (shows : c.Shows t) (inside : 0 < t.column.val) :
    c.backspaceToPrev.Shows (t.erase blankCell) := by
  have column := shows.screenX
  have moved : Shows { c with screenX := c.screenX - 1 }
      { t with column := ⟨t.column - 1, Nat.lt_of_le_of_lt (Nat.sub_le _ _) t.column.isLt⟩ } := by
    refine ⟨shows.cells, ?_, shows.screenY⟩
    change c.screenX - 1 = ((t.column.val - 1 : Nat) : Int)
    omega
  have stored := moved.storeCell spaceAscii
  have stays : ¬(c.screenX = 0 ∧ 0 < c.screenY) := by omega
  rw [Console.backspaceToPrev, if_neg stays, backspaceOnScreen, if_pos shows.live.1, if_pos (by omega)]
  dsimp only
  rw [wrapCursor_onScreen stored.live]
  exact stored.updateCursor

/-- The line and its buffer are no part of the screen. -/
theorem Shows.withLine (shows : c.Shows t) (terminalBuffer : Nat → Fin 3 → UInt8) (terminalBufferIdxs : Fin 3 → Nat) :
    Shows { c with terminalBuffer, terminalBufferIdxs } t := ⟨shows.cells, shows.screenX, shows.screenY⟩

/-- The terminal shows the line from a cell on. -/
def HoldsLine (c : Console) (t : ReferenceTerminal) (top left : Nat) : Prop :=
  c.Shows t ∧ t.HoldsLine Prod.fst blankCell.1 top left c.line

/-- An added character is shown behind the line. -/
theorem HoldsLine.type {top left : Nat} (holds : c.HoldsLine t top left) {character : UInt8}
    (printing : character ≠ 10 ∧ character ≠ 13) (room : t.column.val < 79 ∨ t.row.val < 24) :
    ((c.putcLineRunover character).appendCharacter character).updateCursor.HoldsLine
      (t.put blankCell (character, attrib)) top left := by
  obtain ⟨shows, line⟩ := holds
  refine ⟨((shows.putcLineRunover printing).withLine _ _).updateCursor, ?_⟩
  rw [(updateCursor_keeps _).line, appendCharacter_line, (putcLineRunover_keeps c character).line]
  exact line.put (by decide) room (character, attrib)

theorem HoldsLine.type_scrolled {top left : Nat} (holds : c.HoldsLine t (top + 1) left) {character : UInt8}
    (printing : character ≠ 10 ∧ character ≠ 13) (full : ¬t.column.val < 79) (last : ¬t.row.val < 24) :
    ((c.putcLineRunover character).appendCharacter character).updateCursor.HoldsLine
      (t.put blankCell (character, attrib)) top left := by
  obtain ⟨shows, line⟩ := holds
  refine ⟨((shows.putcLineRunover printing).withLine _ _).updateCursor, ?_⟩
  rw [(updateCursor_keeps _).line, appendCharacter_line, (putcLineRunover_keeps c character).line]
  exact line.put_scrolled (by decide) full last (character, attrib)

/-- If there is room, the character is echoed and added to the line. -/
def echoed (c : Console) (character : UInt8) : Console :=
  (if c.lineLength < 127 then (c.putcLineRunover character).appendCharacter character else c).updateCursor

theorem echoed_flag (character : UInt8) : (c.echoed character).lineRunOverFlag = c.lineRunOverFlag := by
  unfold echoed
  split_ifs
  · exact (c.putcLineRunover_keeps character).lineRunOverFlag
  · rfl

theorem echoed_length (short : c.lineLength ≤ 127) (character : UInt8) : (c.echoed character).lineLength ≤ 127 := by
  unfold echoed
  split_ifs with room
  · rw [← length_line, (updateCursor_keeps _).line, appendCharacter_line, List.length_append, length_line,
      (c.putcLineRunover_keeps character).lineLength]
    exact room
  · exact short

/-- The echo behind a full last row moves the start of the line up, which is not in the first row. -/
theorem HoldsLine.echoed {top left : Nat} (holds : c.HoldsLine t top left) (start : left ≤ 79) {character : UInt8}
    (printing : character ≠ 10 ∧ character ≠ 13) : ∃ u, (c.echoed character).HoldsLine u
      (if c.lineLength < 127 ∧ 79 ≤ c.screenX ∧ c.screenY = 24 then top - 1 else top) left := by
  have column := holds.1.screenX
  have row := holds.1.screenY
  have right := t.column.isLt
  have bottom := t.row.isLt
  unfold Console.echoed
  by_cases room : c.lineLength < 127
  · rw [if_pos room]
    refine ⟨t.put blankCell (character, attrib), ?_⟩
    split_ifs with scrolled
    · have place := holds.2.cursor
      rw [length_line] at place
      obtain ⟨above, rfl⟩ : ∃ above, top = above + 1 := ⟨top - 1, by omega⟩
      exact holds.type_scrolled printing (by omega) (by omega)
    · exact holds.type printing (by omega)
  · rw [if_neg room, if_neg fun scrolled => room scrolled.1]
    exact ⟨t, holds.1.updateCursor, holds.2⟩

/-- A removed character is erased. -/
theorem HoldsLine.pressBackspace {top left : Nat} (holds : c.HoldsLine t top left) (pending : c.lineRunOverFlag = true)
    (nonempty : c.lineLength ≠ 0) (inside : 0 < t.column.val) :
    c.pressBackspace.HoldsLine (t.erase blankCell) top left := by
  obtain ⟨shows, line⟩ := holds
  have some : c.line ≠ [] := by
    rw [← List.length_pos_iff, length_line]
    omega
  rw [Console.pressBackspace, if_neg nonempty, if_pos pending]
  refine ⟨(shows.withLine _ _).backspaceToPrev inside, ?_⟩
  rw [(backspaceToPrev_keeps _).line, dropCharacter_line]
  rw [← List.dropLast_append_getLast some] at line
  exact line.erase inside

/-- What the terminal shows is the echo of the line. -/
theorem HoldsLine.echoes {top left : Nat} (holds : c.HoldsLine t top left) : c.Echoes top left := by
  obtain ⟨shows, line⟩ := holds
  have place := line.cursor
  have row := t.row.isLt
  have column := t.column.isLt
  rw [length_line] at place
  refine ⟨by omega, ?_, ?_⟩
  · intro row below column inside behind
    have shown := congrArg Prod.fst (shows.cells ⟨row, below⟩ ⟨column, by omega⟩)
    exact shown.trans (line.text ⟨row, below⟩ ⟨column, by omega⟩ inside behind)
  · intro row below behind
    have shown := congrArg Prod.fst (shows.cells ⟨row, below⟩ 79)
    exact shown.trans (line.edge ⟨row, below⟩ behind)

end Console

namespace Driver
variable {d : Driver}

/-- Without Ctrl and Alt a key with a character is only typed. -/
theorem keyboardHandler_of_bare (ctrl : d.keyboard.ctrl = false) (alt : d.keyboard.alt = false) {scanCode : Nat}
    (loud : (d.scanCodeToAscii scanCode).1 ≠ 0) :
    d.keyboardHandler scanCode = d.typeKey (d.scanCodeToAscii scanCode).1 := by
  have kept (key : UInt8) : (d.clearOnControl key).switchOnAlt key = d := by
    have uncontrolled : d.clearOnControl key = d := if_neg fun cleared => by
      rw [ctrl] at cleared
      cases cleared.1
    rw [uncontrolled]
    exact if_neg fun held => by
      rw [alt] at held
      cases held
  rw [d.keyboardHandler_of_typed loud, kept]

/-- While a read is pending a character is echoed. -/
theorem typeKey_of_pending (pending : d.console.lineRunOverFlag = true) (ctrl : d.keyboard.ctrl = false)
    (alt : d.keyboard.alt = false) {key : UInt8} (loud : key ≠ 0) :
    d.typeKey key = { d with console := d.console.echoed (d.capital key) } := by
  have proper : d.capital key ≠ 0 := fun zero => loud ((d.capital_eq_zero_iff key).mp zero)
  unfold typeKey
  rw [if_pos ⟨pending, by rw [alt]; decide⟩]
  exact if_pos ⟨proper, by rw [ctrl]; decide⟩

end Driver

namespace Echo

/-- The setting that every step of the echo keeps. -/
structure Follows (e : Echo) : Prop where
  pending : e.driver.console.lineRunOverFlag = true
  short : e.driver.console.lineLength ≤ 127
  ctrl : e.driver.keyboard.ctrl = false
  alt : e.driver.keyboard.alt = false
  left : e.left ≤ 79
  shown : ∃ t, e.driver.console.HoldsLine t e.top e.left

theorem Starts.follows {d : Driver} (starts : Starts d) : (ofDriver d).Follows := by
  obtain ⟨left, right, top, bottom⟩ := starts.live
  have live : CursorOnScreen d.console.screenX d.console.screenY := ⟨left, by omega, top, by omega⟩
  have shows := Console.shows_textTerminal live
  have column := shows.screenX
  have row := shows.screenY
  have empty : d.console.line = [] := List.eq_nil_of_length_eq_zero (d.console.length_line.trans starts.empty)
  refine ⟨starts.pending, ?_, starts.ctrl, starts.alt, ?_, d.console.textTerminal live, shows, ?_⟩
  · change d.console.lineLength ≤ 127
    rw [starts.empty]
    exact Nat.zero_le 127
  · change d.console.screenX.toNat ≤ 79
    omega
  · change TextTerminal.HoldsLine Prod.fst blankCell.1 _ d.console.screenY.toNat d.console.screenX.toNat d.console.line
    rw [empty]
    refine ⟨?_, ?_, ?_⟩
    · change 79 * d.console.screenY.toNat + d.console.screenX.toNat = _
      rfl
    · intro row column inside behind
      rw [List.getD_nil]
      exact starts.blank row column row.isLt column.isLt (by omega)
    · intro row behind
      exact starts.blank row 79 row.isLt (by decide) (by omega)

/-- A character is echoed behind the line, and a full line only moves the hardware cursor. -/
theorem Follows.character {e : Echo} (follows : e.Follows) {scanCode : Nat} {plain shifted : UInt8}
    (label : Key.ofScanCode scanCode = .character plain shifted) {after : Echo} (taken : e.step scanCode = some after) :
    after.Follows := by
  obtain ⟨pending, short, ctrl, alt, left, t, holds⟩ := follows
  have found : (e.driver.scanCodeToAscii scanCode).1 = if e.driver.keyboard.shift then shifted else plain := by
    rw [Driver.scanCodeToAscii, label]
  obtain ⟨loud, printing⟩ := Key.ofScanCode_printing label e.driver.keyboard.shift
  rw [← found] at loud printing
  have handled := (Driver.keyboardHandler_of_bare ctrl alt loud).trans (Driver.typeKey_of_pending pending ctrl alt loud)
  have scrolls : e.Scrolls scanCode = decide (e.driver.console.lineLength < 127 ∧
      79 ≤ e.driver.console.screenX ∧ e.driver.console.screenY = 24) := by rw [Scrolls, label]
  have shown := holds.echoed left (e.driver.capital_printing printing)
  obtain rfl := Option.some.inj taken
  rw [handled]
  refine ⟨(Console.echoed_flag _).trans pending, Console.echoed_length short _, ctrl, alt, left, ?_⟩
  simp only [scrolls, decide_eq_true_eq]
  exact shown

/-- A backspace in the row of the cursor removes the last character from the line and from the screen. -/
theorem Follows.backspace {e : Echo} (follows : e.Follows) {scanCode : Nat} (label : Key.ofScanCode scanCode = .backspace)
    (stays : ¬e.LeavesRow scanCode) {after : Echo} (taken : e.step scanCode = some after) : after.Follows := by
  obtain ⟨pending, short, ctrl, alt, left, t, holds⟩ := follows
  have scanned : e.driver.scanCodeToAscii scanCode = (0, { e.driver with console := e.driver.console.pressBackspace }) := by
    rw [Driver.scanCodeToAscii, label]
  have handled : e.driver.keyboardHandler scanCode = { e.driver with console := e.driver.console.pressBackspace } := by
    rw [e.driver.keyboardHandler_of_silent (by rw [scanned]), scanned]
  have still : e.Scrolls scanCode = false := by rw [Scrolls, label]
  obtain rfl := Option.some.inj taken
  rw [still, handled]
  by_cases empty : e.driver.console.lineLength = 0
  · have nothing : e.driver.console.pressBackspace = e.driver.console := if_pos empty
    rw [nothing]
    exact ⟨pending, short, ctrl, alt, left, t, holds⟩
  · have column := holds.1.screenX
    have inside : 0 < t.column.val := by
      by_contra first
      exact stays ⟨label, empty, by omega⟩
    have shorter : e.driver.console.pressBackspace.lineLength ≤ 127 := by
      rw [← Console.length_line, Console.pressBackspace_line, if_pos pending, List.length_dropLast, Console.length_line]
      omega
    have flag : e.driver.console.pressBackspace.lineRunOverFlag = true := by
      rw [Console.pressBackspace, if_neg empty, if_pos pending]
      exact (Console.backspaceToPrev_keeps _).lineRunOverFlag.trans pending
    exact ⟨flag, shorter, ctrl, alt, left, _, holds.pressBackspace pending empty inside⟩

theorem Follows.step {e : Echo} (follows : e.Follows) {scanCode : Nat} (types : Types scanCode)
    (stays : ¬e.LeavesRow scanCode) {after : Echo} (taken : e.step scanCode = some after) : after.Follows := by
  cases label : Key.ofScanCode scanCode with
  | character plain shifted => exact follows.character label taken
  | backspace => exact follows.backspace label stays taken
  | other =>
      have scanned : e.driver.scanCodeToAscii scanCode = (0, e.driver) := by rw [Driver.scanCodeToAscii, label]
      have handled : e.driver.keyboardHandler scanCode = e.driver := by
        rw [e.driver.keyboardHandler_of_silent (by rw [scanned]), scanned]
      have still : e.Scrolls scanCode = false := by rw [Scrolls, label]
      obtain rfl := Option.some.inj taken
      rw [still, handled]
      exact follows
  | _ =>
      rw [Types, label] at types
      cases types

end Echo

/-- The echo matches the line in every state of a run whose backspaces remove characters of their row only. -/
theorem echo_matches_line {d : Driver} (starts : Echo.Starts d) {codes : List Nat} {final : Echo}
    (run : Run Echo.step (fun e scanCode => Echo.Types scanCode ∧ ¬e.LeavesRow scanCode) (.ofDriver d) codes final) :
    final.driver.console.Echoes final.top final.left := by
  have follows := run.invariant Echo.Follows starts.follows
    fun _ _ _ before permitted taken => before.step permitted.1 permitted.2 taken
  obtain ⟨_, holds⟩ := follows.shown
  exact holds.echoes

section Sample

/-- A read is pending on a blank screen, and the cursor stands before the last two columns. -/
def echoDriver : Driver where
  console := { Console.initial fun _ => spaceAscii with screenX := 78, lineRunOverFlag := true }
  keyboard := ⟨false, false, false, false, false, false⟩

theorem echoDriver_starts : Echo.Starts echoDriver :=
  ⟨rfl, rfl, rfl, rfl, by decide, fun _ _ _ _ _ => rfl⟩

/-- The second of two characters goes to the next row, and a backspace removes it. -/
theorem echo_matches_line_wrapped : ∃ final : Echo,
    Run Echo.step (fun e scanCode => Echo.Types scanCode ∧ ¬e.LeavesRow scanCode) (.ofDriver echoDriver)
      [0x1E, 0x30, 0x0E] final ∧ final.driver.console.Echoes final.top final.left := by
  have executes : (execute Echo.step (fun e scanCode => decide (Echo.Types scanCode ∧ ¬e.LeavesRow scanCode))
      (.ofDriver echoDriver) [0x1E, 0x30, 0x0E]).isSome = true := by decide
  obtain ⟨final, executed⟩ := Option.isSome_iff_exists.mp executes
  have run := run_of_execute (fun _ _ => of_decide_eq_true) executed
  exact ⟨final, run, echo_matches_line echoDriver_starts run⟩

/-- The next backspace removes the first character from the line, but it blanks the last column of the row above,
and the character stays on the screen. -/
theorem echo_keeps_removed_character :
    Echo.Starts echoDriver ∧ (∀ scanCode ∈ [0x1E, 0x30, 0x0E, 0x0E], Echo.Types scanCode) ∧
      ([0x1E, 0x30, 0x0E, 0x0E].foldl Driver.keyboardHandler echoDriver).console.line = [] ∧
      ([0x1E, 0x30, 0x0E, 0x0E].foldl Driver.keyboardHandler echoDriver).console.glyph 0 78 = 0x61 ∧
      ¬([0x1E, 0x30, 0x0E, 0x0E].foldl Driver.keyboardHandler echoDriver).console.Echoes 0 78 := by
  have removed : ([0x1E, 0x30, 0x0E, 0x0E].foldl Driver.keyboardHandler echoDriver).console.line = [] := by decide
  have stays : ([0x1E, 0x30, 0x0E, 0x0E].foldl Driver.keyboardHandler echoDriver).console.glyph 0 78 = 0x61 := by decide
  refine ⟨echoDriver_starts, by decide, removed, stays, fun echoes => ?_⟩
  have blank := echoes.text 0 (by decide) 78 (by decide) (by decide)
  rw [stays, removed] at blank
  exact absurd blank (by decide)

end Sample

end OrcaOS
