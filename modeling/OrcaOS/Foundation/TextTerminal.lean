import Mathlib

/-!
A text terminal: a grid of cells with a cursor. A character at the end of a row goes to the next row,
and the rows move up when there is none.
-/

namespace Foundation

/-- The cursor stands on a cell of the grid. The columns and the rows are numbered up to the last ones. -/
@[ext]
structure TextTerminal (columns rows : Nat) (α : Type*) where
  cell : Fin (rows + 1) → Fin (columns + 1) → α
  row : Fin (rows + 1)
  column : Fin (columns + 1)

namespace TextTerminal
variable {columns rows : Nat} {α β : Type*}

/-- The rows move up by one, and the last one is blank. -/
def scroll (blank : α) (t : TextTerminal columns rows α) : TextTerminal columns rows α :=
  { t with cell := fun row column =>
      if below : row.val < rows then t.cell ⟨row + 1, Nat.succ_lt_succ below⟩ column else blank }

/-- The cursor goes to the first column of the next row. -/
def lineFeed (blank : α) (t : TextTerminal columns rows α) : TextTerminal columns rows α :=
  if below : t.row.val < rows then { t with row := ⟨t.row + 1, Nat.succ_lt_succ below⟩, column := 0 }
  else { t.scroll blank with column := 0 }

/-- This function stores a value in the cell of the cursor. -/
def store (value : α) (t : TextTerminal columns rows α) : TextTerminal columns rows α :=
  { t with cell := Function.update t.cell t.row (Function.update (t.cell t.row) t.column value) }

/-- The cursor moves to the next column, or stays in the last one. -/
def advance (t : TextTerminal columns rows α) : TextTerminal columns rows α :=
  if inside : t.column.val < columns then { t with column := ⟨t.column + 1, Nat.succ_lt_succ inside⟩ } else t

/-- Only a character that follows the last column starts the next row. -/
def leaveRow (blank : α) (t : TextTerminal columns rows α) : TextTerminal columns rows α :=
  if t.column.val < columns then t else t.lineFeed blank

def put (blank value : α) (t : TextTerminal columns rows α) : TextTerminal columns rows α :=
  ((t.leaveRow blank).store value).advance

/-- The cell before the cursor is blanked. -/
def erase (blank : α) (t : TextTerminal columns rows α) : TextTerminal columns rows α :=
  store blank { t with column := ⟨t.column - 1, Nat.lt_of_le_of_lt (Nat.sub_le _ _) t.column.isLt⟩ }

section Cells
variable (blank value : α) (t : TextTerminal columns rows α) (row : Fin (rows + 1)) (column : Fin (columns + 1))

theorem store_cell : (t.store value).cell row column =
    if row = t.row ∧ column = t.column then value else t.cell row column := by
  unfold store
  by_cases sameRow : row = t.row
  · subst sameRow
    simp only [Function.update_self, Function.update_apply, true_and]
  · rw [if_neg fun same => sameRow same.1]
    dsimp only
    rw [Function.update_of_ne sameRow]

theorem advance_cell : t.advance.cell = t.cell := by
  unfold advance
  split <;> rfl

theorem scroll_cell (below : row.val < rows) :
    (t.scroll blank).cell row column = t.cell ⟨row + 1, Nat.succ_lt_succ below⟩ column := dif_pos below

theorem scroll_cell_last (last : ¬row.val < rows) : (t.scroll blank).cell row column = blank := dif_neg last

theorem lineFeed_of_below (below : t.row.val < rows) :
    t.lineFeed blank = { t with row := ⟨t.row + 1, Nat.succ_lt_succ below⟩, column := 0 } := dif_pos below

theorem lineFeed_of_last (last : ¬t.row.val < rows) :
    t.lineFeed blank = { t.scroll blank with column := 0 } := dif_neg last

theorem advance_row : t.advance.row = t.row := by
  unfold advance
  split <;> rfl

theorem advance_column (inside : t.column.val < columns) : t.advance.column.val = t.column + 1 := by
  unfold advance
  rw [dif_pos inside]

theorem leaveRow_of_inside (inside : t.column.val < columns) : t.leaveRow blank = t := if_pos inside

theorem leaveRow_of_end (full : ¬t.column.val < columns) : t.leaveRow blank = t.lineFeed blank := if_neg full

/-- A character finds a column before the last one. -/
theorem leaveRow_column (positive : 0 < columns) : (t.leaveRow blank).column.val < columns := by
  unfold leaveRow lineFeed
  split_ifs with inside below
  · exact inside
  · exact positive
  · exact positive

/-- The cursor leaves its column. -/
theorem put_column_ne (two : 1 < columns) : (t.put blank value).column ≠ t.column := by
  have inside := t.leaveRow_column blank (by omega)
  have next : (t.put blank value).column.val = (t.leaveRow blank).column + 1 := advance_column _ inside
  intro same
  rw [same] at next
  unfold leaveRow lineFeed at next
  split_ifs at next with room
  · omega
  · exact room (by rw [next]; exact two)
  · exact room (by rw [next]; exact two)

end Cells

/-- From a cell on the terminal shows a line and then blanks, and the cursor stands behind the line. The cells are
counted in the order in which characters are put, which leaves out the last column. -/
structure HoldsLine (glyph : α → β) (blank : β) (t : TextTerminal columns rows α) (top left : Nat) (line : List β) :
    Prop where
  cursor : columns * t.row + t.column = columns * top + left + line.length
  text : ∀ (row : Fin (rows + 1)) (column : Fin (columns + 1)), column.val < columns →
    columns * top + left ≤ columns * row + column →
      glyph (t.cell row column) = line.getD (columns * row + column - (columns * top + left)) blank
  edge : ∀ row : Fin (rows + 1), top ≤ row → glyph (t.cell row (Fin.last columns)) = blank

section Line
variable {glyph : α → β} {t : TextTerminal columns rows α} {top left : Nat} {line : List β} {blank : α}

theorem place_injective {row other column otherColumn : Nat} (inside : column < columns) (otherInside : otherColumn < columns)
    (same : columns * row + column = columns * other + otherColumn) : row = other ∧ column = otherColumn := by
  have rows := congrArg (· / columns) same
  have columnsAgree := congrArg (· % columns) same
  rw [Nat.mul_add_div (Nat.zero_lt_of_lt inside), Nat.mul_add_div (Nat.zero_lt_of_lt inside), Nat.div_eq_of_lt inside,
    Nat.div_eq_of_lt otherInside] at rows
  rw [Nat.mul_add_mod, Nat.mul_add_mod, Nat.mod_eq_of_lt inside, Nat.mod_eq_of_lt otherInside] at columnsAgree
  exact ⟨rows, columnsAgree⟩

/-- Other cells have other places. -/
theorem place_ne {row other : Fin (rows + 1)} {column otherColumn : Fin (columns + 1)} (inside : column.val < columns)
    (otherInside : otherColumn.val < columns) (apart : ¬(row = other ∧ column = otherColumn)) :
    columns * row + column ≠ columns * other + otherColumn := by
  intro same
  obtain ⟨rowAgrees, columnAgrees⟩ := place_injective inside otherInside same
  exact apart ⟨Fin.ext rowAgrees, Fin.ext columnAgrees⟩

/-- A last value is found at its own place only. -/
theorem getD_append_of_ne {value other : β} {index : Nat} (apart : index ≠ line.length) :
    (line ++ [value]).getD index other = line.getD index other := by
  obtain early | late := Nat.lt_or_gt_of_ne apart
  · rw [List.getD_append _ _ _ _ early]
  · rw [List.getD_eq_default line _ (Nat.le_of_lt late), List.getD_eq_default]
    rw [List.length_append, List.length_singleton]
    exact late

/-- The cursor leaves a full row for the start of the next one, which is the same place. -/
theorem HoldsLine.leaveRow (holds : t.HoldsLine glyph (glyph blank) top left line) (room : t.column < columns ∨ t.row < rows) :
    (t.leaveRow blank).HoldsLine glyph (glyph blank) top left line := by
  by_cases inside : t.column.val < columns
  · rw [leaveRow_of_inside _ _ inside]
    exact holds
  · have below : t.row.val < rows := room.resolve_left inside
    have place := holds.cursor
    have last : t.column.val = columns := by omega
    rw [leaveRow_of_end _ _ inside, lineFeed_of_below _ _ below]
    refine ⟨?_, holds.text, holds.edge⟩
    change columns * (t.row + 1) + 0 = _
    rw [Nat.mul_succ, ← place, last, Nat.add_zero]

/-- At the end of the last row the start of the line moves up with the rows. -/
theorem HoldsLine.leaveRow_scrolled (holds : t.HoldsLine glyph (glyph blank) (top + 1) left line)
    (full : ¬t.column.val < columns) (last : ¬t.row.val < rows) :
    (t.leaveRow blank).HoldsLine glyph (glyph blank) top left line := by
  have place := holds.cursor
  have bottom : t.row.val = rows := by omega
  have edge : t.column.val = columns := by omega
  rw [bottom, edge, Nat.mul_succ] at place
  rw [leaveRow_of_end _ _ full, lineFeed_of_last _ _ last]
  refine ⟨?_, ?_, ?_⟩
  · change columns * t.row + 0 = _
    rw [bottom]
    omega
  · intro row column inside behind
    change glyph ((t.scroll blank).cell row column) = _
    by_cases below : row.val < rows
    · have next := holds.text ⟨row + 1, Nat.succ_lt_succ below⟩ column inside
      rw [scroll_cell _ _ _ _ below]
      rw [Nat.mul_succ, Nat.mul_succ] at next
      rw [next (by omega)]
      congr 1
      omega
    · have lowest : row.val = rows := by omega
      rw [scroll_cell_last _ _ _ _ below, lowest, List.getD_eq_default _ _ (by omega)]
  · intro row behind
    change glyph ((t.scroll blank).cell row _) = _
    by_cases below : row.val < rows
    · have next := holds.edge ⟨row + 1, Nat.succ_lt_succ below⟩
      rw [scroll_cell _ _ _ _ below]
      exact next (Nat.succ_le_succ behind)
    · rw [scroll_cell_last _ _ _ _ below]

/-- A stored character is added to the line. -/
theorem HoldsLine.storeAdvance (holds : t.HoldsLine glyph (glyph blank) top left line) (inside : t.column.val < columns)
    (value : α) : (t.store value).advance.HoldsLine glyph (glyph blank) top left (line ++ [glyph value]) := by
  have place := holds.cursor
  refine ⟨?_, ?_, ?_⟩
  · have column := (t.store value).advance_column inside
    rw [column, advance_row, List.length_append, List.length_singleton]
    change columns * t.row + (t.column + 1) = _
    omega
  · intro row column within behind
    rw [advance_cell, store_cell]
    by_cases own : row = t.row ∧ column = t.column
    · obtain ⟨rfl, rfl⟩ := own
      have index : columns * t.row + t.column - (columns * top + left) = line.length := by omega
      rw [if_pos ⟨rfl, rfl⟩, index, List.getD_append_right _ _ _ _ (Nat.le_refl _), Nat.sub_self]
      rfl
    · have apart := place_ne within inside own
      rw [if_neg own, holds.text row column within behind, getD_append_of_ne (by omega)]
  · intro row behind
    have apart : ¬(row = t.row ∧ Fin.last columns = t.column) := by
      rintro ⟨-, last⟩
      rw [← last] at inside
      exact Nat.lt_irrefl _ inside
    rw [advance_cell, store_cell, if_neg apart]
    exact holds.edge row behind

theorem HoldsLine.put (holds : t.HoldsLine glyph (glyph blank) top left line) (positive : 0 < columns)
    (room : t.column < columns ∨ t.row < rows) (value : α) :
    (t.put blank value).HoldsLine glyph (glyph blank) top left (line ++ [glyph value]) :=
  (holds.leaveRow room).storeAdvance (t.leaveRow_column blank positive) value

theorem HoldsLine.put_scrolled (holds : t.HoldsLine glyph (glyph blank) (top + 1) left line) (positive : 0 < columns)
    (full : ¬t.column.val < columns) (last : ¬t.row.val < rows) (value : α) :
    (t.put blank value).HoldsLine glyph (glyph blank) top left (line ++ [glyph value]) :=
  (holds.leaveRow_scrolled full last).storeAdvance (t.leaveRow_column blank positive) value

/-- A character in the row of the cursor is removed from the line. -/
theorem HoldsLine.erase {value : β} (holds : t.HoldsLine glyph (glyph blank) top left (line ++ [value]))
    (inside : 0 < t.column.val) : (t.erase blank).HoldsLine glyph (glyph blank) top left line := by
  have place := holds.cursor
  have bound := t.column.isLt
  rw [List.length_append, List.length_singleton] at place
  refine ⟨?_, ?_, ?_⟩
  · change columns * t.row + (t.column - 1) = _
    omega
  · intro row column within behind
    rw [TextTerminal.erase, store_cell]
    dsimp only
    split_ifs with own
    · obtain ⟨rfl, rfl⟩ := own
      dsimp only
      rw [List.getD_eq_default _ _ (by omega)]
    · have apart := place_ne within (show t.column.val - 1 < columns by omega) own
      dsimp only at apart
      rw [holds.text row column within behind, getD_append_of_ne (by omega)]
  · intro row behind
    rw [TextTerminal.erase, store_cell]
    dsimp only
    split_ifs
    · rfl
    · exact holds.edge row behind

end Line

end TextTerminal

end Foundation
