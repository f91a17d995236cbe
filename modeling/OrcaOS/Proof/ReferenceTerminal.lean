import OrcaOS.Proof.ScreenBounds
import OrcaOS.Specification.ReferenceTerminal

/-!
What `write_string_to_screen` draws is what the reference terminal shows, unless the string has a zero byte.
-/

namespace OrcaOS
open Foundation

theorem cellAddress_eq_iff (row otherRow : Fin 25) (column otherColumn : Fin 80) :
    cellAddress row column = cellAddress otherRow otherColumn ↔ row = otherRow ∧ column = otherColumn := by
  rw [cellAddress, cellAddress, Fin.ext_iff, Fin.ext_iff]
  omega

namespace Console
variable {c : Console} {t : ReferenceTerminal}

theorem Shows.live (shows : c.Shows t) : CursorOnScreen c.screenX c.screenY := by
  have column := t.column.isLt
  have row := t.row.isLt
  rw [shows.screenX, shows.screenY]
  exact ⟨by omega, by omega, by omega, by omega⟩

theorem Shows.updateCursor (shows : c.Shows t) : c.updateCursor.Shows t := ⟨shows.cells, shows.screenX, shows.screenY⟩

/-- The character is stored in the cell of the cursor. -/
theorem Shows.storeCell (shows : c.Shows t) (character : UInt8) :
    (c.storeCell (numCols * c.screenY + c.screenX) character).Shows (t.store (character, attrib)) := by
  have address : wrap32 (videoMemory + 2 * (numCols * c.screenY + c.screenX)) = cellAddress t.row t.column := by
    have column := t.column.isLt
    have row := t.row.isLt
    rw [shows.screenX, shows.screenY]
    unfold wrap32 videoMemory numCols cellAddress videoMemory
    omega
  refine ⟨fun row column => ?_, shows.screenX, shows.screenY⟩
  rw [Console.storeCell, address, TextTerminal.store_cell, ← shows.cells]
  dsimp only
  by_cases own : row = t.row ∧ column = t.column
  · obtain ⟨rfl, rfl⟩ := own
    rw [if_pos ⟨rfl, rfl⟩]
    have first : (Memory.fill (Memory.fill c.video (cellAddress t.row t.column) 1 character)
        (cellAddress t.row t.column + 1) 1 attrib) (cellAddress t.row t.column) = character := by
      rw [Memory.fill, Memory.overlay_outside _ _ _ _ (by omega)]
      exact Memory.overlay_inside _ _ 1 _ Nat.one_pos
    have second : (Memory.fill (Memory.fill c.video (cellAddress t.row t.column) 1 character)
        (cellAddress t.row t.column + 1) 1 attrib) (cellAddress t.row t.column + 1) = attrib :=
      Memory.overlay_inside _ _ 1 _ Nat.one_pos
    rw [first, second]
  · rw [if_neg own]
    have apart : cellAddress row column ≠ cellAddress t.row t.column := fun same =>
      own ((cellAddress_eq_iff _ _ _ _).mp same)
    have kept {address : Nat} (low : address ≠ cellAddress t.row t.column)
        (high : address ≠ cellAddress t.row t.column + 1) :
        (Memory.fill (Memory.fill c.video (cellAddress t.row t.column) 1 character)
          (cellAddress t.row t.column + 1) 1 attrib) address = c.video address := by
      rw [Memory.fill, Memory.overlay_outside _ _ _ _ (by omega), Memory.fill,
        Memory.overlay_outside _ _ _ _ (by omega)]
    unfold cellAddress at apart
    rw [kept (by unfold cellAddress; omega) (by unfold cellAddress; omega),
      kept (by unfold cellAddress; omega) (by unfold cellAddress; omega)]

/-- Blanking keeps what lies before the first cell. -/
theorem blankFrom_before (video : Memory) {first address : Nat} (low : address < videoMemory + 2 * first) :
    blankFrom video first address = video address := by
  rw [blankFrom, Memory.overlay_outside _ _ _ _ (.inl low)]

theorem blankFrom_cell (video : Memory) (first : Nat) {index : Nat} (inside : index < 4000 - 2 * first) :
    blankFrom video first (videoMemory + 2 * first + index) = if index % 2 = 0 then spaceAscii else attrib := by
  rw [blankFrom, Memory.overlay_inside _ _ _ _ inside]

/-- The rows of the screen move up as those of the terminal do. -/
theorem Shows.scrolledCell (shows : c.Shows t) (row : Fin 25) (column : Fin 80) :
    let video := blankFrom (c.video.overlay videoMemory 3840 fun index => c.video (videoMemory + index + 160)) 1920
    (video (cellAddress row column), video (cellAddress row column + 1)) = (t.scroll blankCell).cell row column := by
  have left := column.isLt
  have bottom := row.isLt
  dsimp only
  generalize above : (c.video.overlay videoMemory 3840 fun index => c.video (videoMemory + index + 160)) = moved
  by_cases below : row.val < 24
  · have next (offset : Nat) (inside : offset < 2) :
        blankFrom moved 1920 (cellAddress row column + offset) = c.video (cellAddress (row + 1) column + offset) := by
      have place : cellAddress row column + offset = videoMemory + (2 * (80 * row + column) + offset) := by
        unfold cellAddress
        omega
      rw [blankFrom_before moved (by omega), ← above, place, Memory.overlay_inside _ _ _ _ (by omega)]
      congr 1
      unfold cellAddress
      omega
    rw [TextTerminal.scroll_cell _ _ _ _ below, ← shows.cells]
    exact Prod.ext (next 0 (by decide)) (next 1 (by decide))
  · have blank (offset : Nat) (inside : offset < 2) :
        blankFrom moved 1920 (cellAddress row column + offset) = if offset = 0 then spaceAscii else attrib := by
      have place : cellAddress row column + offset = videoMemory + 2 * 1920 + (2 * column + offset) := by
        unfold cellAddress
        omega
      have parity : (2 * column.val + offset) % 2 = offset := by omega
      rw [place, blankFrom_cell moved _ (by omega), parity]
    rw [TextTerminal.scroll_cell_last _ _ _ _ below]
    exact Prod.ext (blank 0 (by decide)) (blank 1 (by decide))

/-- A new line after the scroll of a full screen is the line feed of the terminal. -/
theorem Shows.lineFeed (shows : c.Shows t) : (c.shiftRowsUp.putc 10).Shows (t.lineFeed blankCell) := by
  have row := shows.screenY
  have newline (c : Console) : c.putc 10 = { c with screenY := c.screenY + 1, screenX := 0 } := rfl
  rw [newline]
  by_cases below : t.row.val < 24
  · have stays : c.shiftRowsUp = c := if_neg (by
      unfold numRows
      omega)
    rw [stays, TextTerminal.lineFeed_of_below _ _ below]
    refine ⟨shows.cells, rfl, ?_⟩
    dsimp only
    rw [row]
    rfl
  · have last := t.row.isLt
    have scrolls : numRows - 1 ≤ c.screenY := by
      unfold numRows
      omega
    rw [shiftRowsUp, if_pos scrolls, TextTerminal.lineFeed_of_last _ _ below]
    refine ⟨shows.scrolledCell, rfl, ?_⟩
    change numRows - 2 + 1 = ((t.row.val : Nat) : Int)
    unfold numRows
    omega

theorem Shows.leaveRow (shows : c.Shows t) : c.leaveRow.Shows (t.leaveRow blankCell) := by
  have column := shows.screenX
  unfold Console.leaveRow TextTerminal.leaveRow numCols
  by_cases inside : t.column.val < 79
  · rw [if_neg (by omega), if_pos inside]
    exact shows
  · have scrolled : (if c.screenY = numRows - 1 then c.shiftRowsUp else c) = c.shiftRowsUp := by
      split_ifs with last
      · rfl
      · have bottom := shows.live.2.2.2
        have row : ¬numRows - 1 ≤ c.screenY := by
          unfold numRows at last ⊢
          omega
        exact (if_neg row).symm
    rw [if_pos (by omega), if_neg inside, scrolled]
    exact shows.lineFeed

/-- A printed character is the one that the terminal puts. -/
theorem Shows.putcLineRunover (shows : c.Shows t) {character : UInt8} (printing : character ≠ 10 ∧ character ≠ 13) :
    (c.putcLineRunover character).Shows (t.put blankCell (character, attrib)) := by
  have left := shows.leaveRow
  have inside := t.leaveRow_column blankCell (by decide)
  rw [putcLineRunover_eq printing, TextTerminal.put]
  generalize t.leaveRow blankCell = u at left inside ⊢
  have stored := left.storeCell character
  have bottom := left.live.2.2.2
  have cut : (if numRows - 1 ≤ c.leaveRow.screenY then { c.leaveRow with screenY := numRows - 1 } else c.leaveRow) =
      c.leaveRow := by
    split_ifs with past
    · have same : numRows - 1 = c.leaveRow.screenY := by
        unfold numRows at past ⊢
        omega
      rw [same]
    · rfl
  have column : (c.leaveRow.screenX + 1).tmod numCols = u.column + 1 := by
    rw [left.screenX]
    unfold numCols
    rw [Int.tmod_eq_of_lt (by omega) (by omega)]
  rw [storeClipped, cut]
  refine Shows.updateCursor ⟨?_, ?_, ?_⟩
  · intro row column
    rw [TextTerminal.advance_cell]
    exact stored.cells row column
  · have next := (u.store (character, attrib)).advance_column inside
    rw [next]
    exact column
  · rw [TextTerminal.advance_row]
    exact stored.screenY

/-- A console shows one terminal only. -/
theorem Shows.unique {u : ReferenceTerminal} (one : c.Shows t) (two : c.Shows u) : t = u := by
  apply TextTerminal.ext
  · funext row column
    rw [← one.cells, ← two.cells]
  · have same := one.screenY.symm.trans two.screenY
    exact Fin.ext (by omega)
  · have same := one.screenX.symm.trans two.screenX
    exact Fin.ext (by omega)

theorem Shows.putc_space (shows : c.Shows t) : c.putc spaceAscii =
    { c.storeCell (numCols * c.screenY + c.screenX) spaceAscii with
      screenX := if t.column.val < 79 then c.screenX + 1 else 0 } := by
  have column := shows.screenX
  have inside : c.screenX < 79 ↔ t.column.val < 79 := by omega
  have moved := putc_column (show ¬(spaceAscii = 10 ∨ spaceAscii = 13) by decide) shows.live
  simp only [inside] at moved
  exact moved

/-- Before the end of a row the first blank of a zero byte is the one of the terminal. -/
theorem Shows.putc_space_inside (shows : c.Shows t) (inside : t.column.val < 79) :
    (c.putc spaceAscii).Shows (t.put blankCell blankCell) := by
  have stored := shows.storeCell spaceAscii
  rw [shows.putc_space, if_pos inside, TextTerminal.put, TextTerminal.leaveRow_of_inside _ _ inside]
  refine ⟨?_, ?_, ?_⟩
  · intro row other
    rw [TextTerminal.advance_cell]
    exact stored.cells row other
  · have next := (t.store blankCell).advance_column inside
    rw [next, shows.screenX]
    rfl
  · rw [TextTerminal.advance_row]
    exact stored.screenY

/-- At the end of a row it is stored there, and the cursor goes back to the start of the same row. -/
theorem Shows.putc_space_end (shows : c.Shows t) (full : ¬t.column.val < 79) :
    (c.putc spaceAscii).Shows { t.store blankCell with column := 0 } := by
  rw [shows.putc_space, if_neg full]
  exact ⟨(shows.storeCell spaceAscii).cells, rfl, shows.screenY⟩

/-- The start of the row of the cursor is not the place where the terminal goes on. -/
theorem put_at_start_ne (full : ¬t.column.val < 79) {zero : Cell} (visible : zero ≠ blankCell) :
    TextTerminal.put blankCell zero { t.store blankCell with column := 0 } ≠ t.put blankCell blankCell := by
  intro same
  have start : ({ t.store blankCell with column := 0 } : ReferenceTerminal).column.val < 79 := Nat.zero_lt_succ 78
  rw [TextTerminal.put, TextTerminal.put, TextTerminal.leaveRow_of_inside _ _ start,
    TextTerminal.leaveRow_of_end _ _ full] at same
  have rows := congrArg TextTerminal.row same
  rw [TextTerminal.advance_row, TextTerminal.advance_row] at rows
  have cells := congrFun (congrFun (congrArg TextTerminal.cell same) t.row) 0
  rw [TextTerminal.advance_cell, TextTerminal.advance_cell, TextTerminal.store_cell, if_pos ⟨rfl, rfl⟩,
    TextTerminal.store_cell] at cells
  have last : ¬t.row.val < 24 := by
    intro below
    rw [TextTerminal.lineFeed_of_below _ _ below] at rows
    have value := congrArg Fin.val rows
    change t.row.val = t.row.val + 1 at value
    omega
  rw [TextTerminal.lineFeed_of_last _ _ last, if_pos ⟨rfl, rfl⟩] at cells
  exact visible cells

/-- A zero byte is drawn twice: as a blank, and as a character of its own. -/
theorem Shows.not_writeCharacter_zero (shows : c.Shows t) : ¬(c.writeCharacter 0).Shows (t.process 0) := by
  have printing : (0 : UInt8) ≠ 10 ∧ (0 : UInt8) ≠ 13 := by decide
  have reference : t.process 0 = t.put blankCell blankCell := rfl
  have written : c.writeCharacter 0 = (c.putc spaceAscii).putcLineRunover 0 := rfl
  rw [reference, written]
  intro both
  by_cases inside : t.column.val < 79
  · have twice := ((shows.putc_space_inside inside).putcLineRunover printing).unique both
    exact TextTerminal.put_column_ne _ _ _ (by decide) (congrArg TextTerminal.column twice)
  · have twice := ((shows.putc_space_end inside).putcLineRunover printing).unique both
    exact put_at_start_ne inside (by decide) twice

/-- Every other byte is drawn as the terminal shows it. -/
theorem Shows.writeCharacter (shows : c.Shows t) {character : UInt8} (nonzero : character ≠ 0) :
    (c.writeCharacter character).Shows (t.process character) := by
  unfold Console.writeCharacter ReferenceTerminal.process
  dsimp only
  rw [if_neg nonzero, if_neg nonzero]
  by_cases newline : character = 10
  · rw [if_pos newline, if_pos newline, newline]
    exact shows.lineFeed.updateCursor
  · rw [if_neg newline, if_neg newline]
    by_cases ignored : character = 13
    · rw [if_pos ignored, Console.putcLineRunover, if_neg (by simp [ignored]), if_neg newline]
      exact shows
    · rw [if_neg ignored]
      exact shows.putcLineRunover ⟨newline, ignored⟩

/-- The line of a terminal is no part of its screen. -/
theorem terminalOpen_shows_iff : c.terminalOpen.2.Shows t ↔ c.Shows t :=
  ⟨fun shows => ⟨shows.cells, shows.screenX, shows.screenY⟩, fun shows => ⟨shows.cells, shows.screenX, shows.screenY⟩⟩

/-- The terminal that the live page shows. -/
def textTerminal (c : Console) (live : CursorOnScreen c.screenX c.screenY) : ReferenceTerminal where
  cell row column := (c.video (cellAddress row column), c.video (cellAddress row column + 1))
  row := ⟨c.screenY.toNat, by
    obtain ⟨left, right, top, bottom⟩ := live
    omega⟩
  column := ⟨c.screenX.toNat, by
    obtain ⟨left, right, top, bottom⟩ := live
    omega⟩

theorem shows_textTerminal (live : CursorOnScreen c.screenX c.screenY) : c.Shows (c.textTerminal live) where
  cells _ _ := rfl
  screenX := (Int.toNat_of_nonneg live.1).symm
  screenY := (Int.toNat_of_nonneg live.2.2.1).symm

/-- The console after the first bytes of a string are drawn. -/
def drawn (c : Console) (s : Buffer) (written : Nat) : Console :=
  (List.range written).foldl (fun c index => c.writeCharacter (s index)) c.terminalOpen.2

theorem drawn_succ (s : Buffer) (written : Nat) : c.drawn s (written + 1) = (c.drawn s written).writeCharacter (s written) := by
  rw [drawn, List.range_succ, List.foldl_append]
  rfl

theorem writeStringToScreen_shows_iff (s : Buffer) (written : Nat) :
    (c.writeStringToScreen s written).2.Shows t ↔ (c.drawn s written).Shows t := by
  rw [writeStringToScreen, Int.toNat_natCast]
  exact terminalOpen_shows_iff

end Console

/-- The terminal after the first bytes of a string. -/
def ReferenceTerminal.shown (t : ReferenceTerminal) (s : Buffer) (written : Nat) : ReferenceTerminal :=
  t.processAll ((List.range written).map s)

theorem ReferenceTerminal.shown_succ (t : ReferenceTerminal) (s : Buffer) (written : Nat) :
    t.shown s (written + 1) = (t.shown s written).process (s written) := by
  rw [shown, List.range_succ, List.map_append, processAll, List.foldl_append]
  rfl

namespace Console
variable {c : Console} {t : ReferenceTerminal}

/-- Without a zero byte every byte keeps the screen and the terminal in step. -/
theorem Shows.drawn (shows : c.Shows t) {s : Buffer} {written : Nat} (nonzero : ∀ index < written, s index ≠ 0) :
    (c.drawn s written).Shows (t.shown s written) := by
  induction written with
  | zero => exact terminalOpen_shows_iff.mpr shows
  | succ written ih =>
      rw [drawn_succ, ReferenceTerminal.shown_succ]
      exact (ih fun index inside => nonzero index (Nat.lt_succ_of_lt inside)).writeCharacter (nonzero written (Nat.lt_succ_self _))

/-- The screen and the terminal agree up to a zero byte and differ after it. -/
theorem Shows.drawn_iff (shows : c.Shows t) (s : Buffer) (count : Nat) :
    (∀ written ≤ count, (c.drawn s written).Shows (t.shown s written)) ↔ ∀ index < count, s index ≠ 0 := by
  constructor
  · intro agrees index inside zero
    have before := agrees index (Nat.le_of_lt inside)
    have after := agrees (index + 1) inside
    rw [drawn_succ, ReferenceTerminal.shown_succ, zero] at after
    exact before.not_writeCharacter_zero after
  · intro nonzero written within
    exact shows.drawn fun index inside => nonzero index (Nat.lt_of_lt_of_le inside within)

end Console

/-- Over every prefix of a string the screen is that of the reference terminal, unless there is a zero byte. -/
theorem terminal_output_agrees_iff {c : Console} (live : CursorOnScreen c.screenX c.screenY) (s : Buffer) (count : Nat) :
    (∀ written : Nat, written ≤ count → (c.writeStringToScreen s written).1 = written ∧
      (c.writeStringToScreen s written).2.Shows ((c.textTerminal live).processAll ((List.range written).map s))) ↔
      ∀ index < count, s index ≠ 0 := by
  rw [← (Console.shows_textTerminal live).drawn_iff s count]
  refine forall₂_congr fun written _ => ?_
  rw [Console.writeStringToScreen_shows_iff]
  exact and_iff_right rfl

section Sample

theorem initial_onScreen (video : Memory) :
    CursorOnScreen (Console.initial video).screenX (Console.initial video).screenY := Console.origin_onScreen

theorem terminal_output_agrees_text :
    ((Console.initial fun _ => 0).writeStringToScreen (cString [0x61, 0x62]) 2).1 = 2 ∧
      ((Console.initial fun _ => 0).writeStringToScreen (cString [0x61, 0x62]) 2).2.Shows
        (((Console.initial fun _ => 0).textTerminal (initial_onScreen _)).processAll
          ((List.range 2).map (cString [0x61, 0x62]))) :=
  (terminal_output_agrees_iff (initial_onScreen _) (cString [0x61, 0x62]) 2).mpr (by decide) 2 (Nat.le_refl 2)

/-- One zero byte at the origin moves the cursor by two columns, where the reference terminal moves it by one. -/
theorem terminal_output_draws_zero_twice :
    ((Console.initial fun _ => 0).writeStringToScreen (fun _ => 0) 1).2.screenX = 2 ∧
      (((Console.initial fun _ => 0).textTerminal (initial_onScreen _)).processAll [0]).column = 1 ∧
      ¬((Console.initial fun _ => 0).writeStringToScreen (fun _ => 0) 1).2.Shows
        (((Console.initial fun _ => 0).textTerminal (initial_onScreen _)).processAll [0]) := by
  refine ⟨by decide, by decide, fun shows => ?_⟩
  have column := shows.screenX
  revert column
  decide

end Sample

end OrcaOS
