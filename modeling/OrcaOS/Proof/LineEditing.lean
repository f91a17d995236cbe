import OrcaOS.Proof.ScreenBounds
import OrcaOS.Specification.LineReading

/-!
How a key edits the line of the terminal on display.
-/

namespace OrcaOS
open Foundation

/-- Output keeps the lines, the terminal on display and the two flags. -/
structure KeepsTyping (before after : Console) : Prop where
  terminalBuffer : after.terminalBuffer = before.terminalBuffer
  terminalBufferIdxs : after.terminalBufferIdxs = before.terminalBufferIdxs
  terminalOnDisplay : after.terminalOnDisplay = before.terminalOnDisplay
  enter : after.enter = before.enter
  lineRunOverFlag : after.lineRunOverFlag = before.lineRunOverFlag

namespace KeepsTyping
variable {first second third : Console}

theorem refl (c : Console) : KeepsTyping c c := ⟨rfl, rfl, rfl, rfl, rfl⟩

theorem trans (one : KeepsTyping first second) (two : KeepsTyping second third) : KeepsTyping first third where
  terminalBuffer := two.terminalBuffer.trans one.terminalBuffer
  terminalBufferIdxs := two.terminalBufferIdxs.trans one.terminalBufferIdxs
  terminalOnDisplay := two.terminalOnDisplay.trans one.terminalOnDisplay
  enter := two.enter.trans one.enter
  lineRunOverFlag := two.lineRunOverFlag.trans one.lineRunOverFlag

theorem lineLength (keeps : KeepsTyping first second) : second.lineLength = first.lineLength := by
  rw [Console.lineLength, keeps.terminalBufferIdxs, keeps.terminalOnDisplay]
  rfl

theorem line (keeps : KeepsTyping first second) : second.line = first.line := by
  rw [Console.line, keeps.lineLength, keeps.terminalBuffer, keeps.terminalOnDisplay]
  rfl

end KeepsTyping

namespace Console
variable (c : Console)

@[simp] theorem length_line : c.line.length = c.lineLength := by
  rw [line, List.length_map, List.length_range]

theorem shiftRowsUp_keeps : KeepsTyping c c.shiftRowsUp := by
  unfold shiftRowsUp
  split
  · exact ⟨rfl, rfl, rfl, rfl, rfl⟩
  · exact .refl c

theorem updateCursor_keeps : KeepsTyping c c.updateCursor := ⟨rfl, rfl, rfl, rfl, rfl⟩

theorem putc_keeps (character : UInt8) : KeepsTyping c (c.putc character) := by
  unfold putc
  split <;> exact ⟨rfl, rfl, rfl, rfl, rfl⟩

theorem leaveRow_keeps : KeepsTyping c c.leaveRow := by
  unfold leaveRow
  split_ifs
  · exact c.shiftRowsUp_keeps.trans (c.shiftRowsUp.putc_keeps 10)
  · exact c.putc_keeps 10
  · exact .refl c

theorem storeClipped_keeps (character : UInt8) : KeepsTyping c (c.storeClipped character) := by
  unfold storeClipped
  dsimp only
  split <;> exact ⟨rfl, rfl, rfl, rfl, rfl⟩

theorem putcLineRunover_keeps (character : UInt8) : KeepsTyping c (c.putcLineRunover character) := by
  by_cases printing : character ≠ 10 ∧ character ≠ 13
  · rw [putcLineRunover_eq printing]
    exact c.leaveRow_keeps.trans (c.leaveRow.storeClipped_keeps character)
  · rw [putcLineRunover, if_neg printing]
    split <;> exact ⟨rfl, rfl, rfl, rfl, rfl⟩

theorem backspaceOnScreen_keeps : KeepsTyping c c.backspaceOnScreen := by
  unfold backspaceOnScreen
  dsimp only
  split_ifs <;> exact ⟨rfl, rfl, rfl, rfl, rfl⟩

theorem backspaceToPrev_keeps : KeepsTyping c c.backspaceToPrev := by
  unfold backspaceToPrev
  split
  · exact ⟨rfl, rfl, rfl, rfl, rfl⟩
  · exact c.backspaceOnScreen_keeps

/-- An appended character stands at the end of the line. -/
theorem appendCharacter_line (character : UInt8) : (c.appendCharacter character).line = c.line ++ [character] := by
  have length : (c.appendCharacter character).lineLength = c.lineLength + 1 := Function.update_self _ _ _
  rw [line, length, List.range_succ, List.map_append, List.map_singleton]
  congr 1
  · apply List.map_congr_left
    intro index inside
    have earlier : index ≠ c.lineLength := Nat.ne_of_lt (List.mem_range.mp inside)
    change Function.update c.terminalBuffer c.lineLength _ index c.terminalOnDisplay = _
    rw [Function.update_of_ne earlier]
  · change [Function.update c.terminalBuffer c.lineLength _ c.lineLength c.terminalOnDisplay] = _
    rw [Function.update_self, Function.update_self]

theorem tabSpace_line : c.tabSpace.line = if c.lineLength < 127 then c.line ++ [spaceAscii] else c.line := by
  unfold tabSpace
  split
  · rw [appendCharacter_line]
    congr 1
    split
    · exact (c.putcLineRunover_keeps spaceAscii).line
    · exact (c.putc_keeps spaceAscii).line
  · rfl

/-- Each turn of the tab key adds a space while there is room. -/
theorem tabSpace_replicate {line : List UInt8} {count : Nat}
    (typed : c.line = line ++ List.replicate (min count (127 - line.length)) spaceAscii) :
    c.tabSpace.line = line ++ List.replicate (min (count + 1) (127 - line.length)) spaceAscii := by
  have length := c.length_line
  rw [typed, List.length_append, List.length_replicate] at length
  rw [tabSpace_line, typed]
  split
  · have more : min (count + 1) (127 - line.length) = min count (127 - line.length) + 1 := by omega
    rw [more, List.replicate_succ', List.append_assoc]
  · have same : min (count + 1) (127 - line.length) = min count (127 - line.length) := by omega
    rw [same]

theorem pressTab_line : c.pressTab.line = c.line ++ List.replicate (min 5 (127 - c.line.length)) spaceAscii := by
  have none : c.line = c.line ++ List.replicate (min 0 (127 - c.line.length)) spaceAscii := by
    rw [Nat.zero_min, List.replicate_zero, List.append_nil]
  have two := tabSpace_replicate _ (tabSpace_replicate _ none)
  have four := tabSpace_replicate _ (tabSpace_replicate _ two)
  unfold pressTab
  rw [(updateCursor_keeps _).line]
  exact tabSpace_replicate _ four

theorem dropCharacter_line : Console.line { c with
    terminalBufferIdxs := Function.update c.terminalBufferIdxs c.terminalOnDisplay (c.lineLength - 1) } =
      c.line.dropLast := by
  have length : Console.lineLength { c with
      terminalBufferIdxs := Function.update c.terminalBufferIdxs c.terminalOnDisplay (c.lineLength - 1) } =
        c.lineLength - 1 := Function.update_self _ _ _
  rw [List.dropLast_eq_take, length_line, line, length, line, ← List.map_take, List.take_range,
    Nat.min_eq_left (Nat.sub_le _ _)]

/-- The backspace removes a character only while a program waits for the line. -/
theorem pressBackspace_line : c.pressBackspace.line = if c.lineRunOverFlag then c.line.dropLast else c.line := by
  unfold pressBackspace
  split
  · rename_i empty
    have nothing : c.line = [] := List.eq_nil_of_length_eq_zero (c.length_line.trans empty)
    rw [nothing, List.dropLast_nil, ite_self]
  · split
    · rw [(backspaceToPrev_keeps _).line, dropCharacter_line]
    · exact c.backspaceToPrev_keeps.line

theorem pressEnter_line : c.pressEnter.line = c.line := by
  unfold pressEnter
  dsimp only
  have scrolled := c.shiftRowsUp_keeps
  split_ifs
  · exact (scrolled.trans (putcLineRunover_keeps _ 10)).line
  · exact (scrolled.trans (putc_keeps _ 10)).line

theorem tabSpace_enter : c.tabSpace.enter = c.enter := by
  unfold tabSpace
  split_ifs
  · exact (c.putcLineRunover_keeps spaceAscii).enter
  · exact (c.putc_keeps spaceAscii).enter
  · rfl

theorem pressTab_enter : c.pressTab.enter = c.enter := by
  unfold pressTab
  rw [(updateCursor_keeps _).enter]
  simp only [tabSpace_enter]

theorem pressBackspace_enter : c.pressBackspace.enter = c.enter := by
  unfold pressBackspace
  split_ifs
  · rfl
  · exact (backspaceToPrev_keeps _).enter
  · exact c.backspaceToPrev_keeps.enter

/-- Ctrl-L and opening a terminal empty the line. -/
theorem terminalOpen_line : c.terminalOpen.2.line = [] := by
  have length : c.terminalOpen.2.lineLength = 0 := Function.update_self _ _ _
  exact List.eq_nil_of_length_eq_zero ((length_line _).trans length)

theorem switchTerminal_keeps {terminal : Int}
    (same : (c.switchTerminal terminal).terminalOnDisplay = c.terminalOnDisplay) :
    KeepsTyping c (c.switchTerminal terminal) := by
  unfold switchTerminal at same ⊢
  split at same
  · rename_i inside
    rw [dif_pos inside]
    exact ⟨rfl, rfl, same, rfl, rfl⟩
  · rename_i outside
    rw [dif_neg outside]
    exact .refl c

end Console

section Prefixes
variable {α : Type*} {line : List α} {room : Nat}

/-- Appended characters are visible when the line does not fill the room. -/
theorem take_append_ne_iff {added : List α} :
    (line ++ added).take room ≠ line.take room ↔ line.length < room ∧ added ≠ [] := by
  constructor
  · intro different
    refine ⟨?_, fun nothing => different (by rw [nothing, List.append_nil])⟩
    by_contra full
    exact different (List.take_append_of_le_length (by omega))
  · intro visible same
    obtain ⟨short, some⟩ := visible
    have length := congrArg List.length same
    have positive := List.length_pos_iff.mpr some
    rw [List.length_take, List.length_take, List.length_append] at length
    omega

/-- The removed last character is visible when the whole line is. -/
theorem take_dropLast_ne_iff : line.dropLast.take room ≠ line.take room ↔ 0 < line.length ∧ line.length ≤ room := by
  rw [List.dropLast_eq_take, List.take_take]
  constructor
  · intro different
    by_contra hidden
    refine different ?_
    by_cases empty : line = []
    · rw [empty, List.take_nil, List.take_nil]
    · have positive := List.length_pos_iff.mpr empty
      rw [Nat.min_eq_left (by omega)]
  · intro visible same
    have length := congrArg List.length same
    rw [List.length_take, List.length_take] at length
    omega

end Prefixes

namespace Driver
variable (d : Driver)

theorem capital_eq_zero_iff (key : UInt8) : d.capital key = 0 ↔ key = 0 := by
  refine ⟨d.capital_low (by decide), ?_⟩
  rintro rfl
  exact if_neg fun letter => absurd letter.1 (by decide)

/-- A key without a character has no further effect. -/
theorem handled_zero : ((d.clearOnControl 0).switchOnAlt 0).typeKey 0 = d := by
  have cleared : d.clearOnControl 0 = d := if_neg fun control => absurd control.2 (by decide)
  have shown : d.switchOnAlt 0 = d := d.switchOnAlt_of_not fun switches => absurd switches.2 (by decide)
  have silent : ¬(d.capital 0 ≠ 0 ∧ ¬d.keyboard.ctrl) := fun typed =>
    typed.1 ((d.capital_eq_zero_iff 0).mpr rfl)
  rw [cleared, shown, typeKey]
  dsimp only
  rw [if_neg silent, ite_self]

theorem clearOnControl_setting (key : UInt8) : (d.clearOnControl key).keyboard = d.keyboard ∧
    (d.clearOnControl key).console.lineRunOverFlag = d.console.lineRunOverFlag ∧
    (d.clearOnControl key).console.terminalOnDisplay = d.console.terminalOnDisplay ∧
    (d.clearOnControl key).console.enter = d.console.enter ∧
    (d.clearOnControl key).console.line = if d.keyboard.ctrl ∧ key = 0x6C then [] else d.console.line := by
  unfold clearOnControl
  split
  · exact ⟨rfl, rfl, rfl, rfl, Console.terminalOpen_line _⟩
  · exact ⟨rfl, rfl, rfl, rfl, rfl⟩

/-- A switch to the terminal on display keeps its line. -/
theorem switchOnAlt_keeps {key : UInt8}
    (same : (d.switchOnAlt key).console.terminalOnDisplay = d.console.terminalOnDisplay) :
    KeepsTyping d.console (d.switchOnAlt key).console := by
  unfold switchOnAlt at same ⊢
  split_ifs at same ⊢
  · exact d.console.switchTerminal_keeps same
  · exact d.console.switchTerminal_keeps same
  · exact d.console.switchTerminal_keeps same
  · exact .refl _
  · exact .refl _

theorem switchOnAlt_setting (key : UInt8) : (d.switchOnAlt key).keyboard = d.keyboard ∧
    (d.switchOnAlt key).console.enter = d.console.enter := by
  unfold switchOnAlt Console.switchTerminal
  split_ifs <;> exact ⟨rfl, rfl⟩

theorem typeKey_setting (key : UInt8) :
    (d.typeKey key).console.terminalOnDisplay = d.console.terminalOnDisplay ∧
      (d.typeKey key).console.enter = d.console.enter := by
  have printed := d.console.putcLineRunover_keeps (d.capital key)
  unfold typeKey
  dsimp only
  split_ifs
  · exact ⟨printed.terminalOnDisplay, printed.enter⟩
  all_goals exact ⟨rfl, rfl⟩

/-- A character is added while a program waits and there is room. -/
theorem typeKey_line (key : UInt8) : (d.typeKey key).console.line =
    if d.console.lineRunOverFlag ∧ ¬d.keyboard.alt ∧ ¬d.keyboard.ctrl ∧ key ≠ 0 ∧ d.console.lineLength < 127 then
      d.console.line ++ [d.capital key] else d.console.line := by
  have printed := d.console.putcLineRunover_keeps (d.capital key)
  have proper := d.capital_eq_zero_iff key
  unfold typeKey
  dsimp only
  by_cases waits : d.console.lineRunOverFlag ∧ ¬d.keyboard.alt
  · rw [if_pos waits]
    by_cases plain : d.capital key ≠ 0 ∧ ¬d.keyboard.ctrl
    · rw [if_pos plain]
      by_cases room : d.console.lineLength < 127
      · rw [if_pos room, if_pos ⟨waits.1, waits.2, plain.2, fun zero => plain.1 (proper.mpr zero), room⟩]
        exact (Console.updateCursor_keeps _).line.trans
          ((Console.appendCharacter_line _ _).trans (by rw [printed.line]))
      · rw [if_neg room, if_neg fun typed => room typed.2.2.2.2]
        exact (Console.updateCursor_keeps _).line
    · rw [if_neg plain, if_neg fun typed => plain ⟨fun zero => typed.2.2.2.1 (proper.mp zero), typed.2.2.1⟩]
  · rw [if_neg waits, if_neg fun typed => waits ⟨typed.1, typed.2.1⟩]

/-- What the handler does with the character of a key to the line. -/
theorem handled_line (key : UInt8) (same : (((d.clearOnControl key).switchOnAlt key).typeKey
      key).console.terminalOnDisplay = d.console.terminalOnDisplay) :
    (((d.clearOnControl key).switchOnAlt key).typeKey key).console.line =
      if d.keyboard.ctrl ∧ key = 0x6C then []
      else if d.console.lineRunOverFlag ∧ ¬d.keyboard.alt ∧ ¬d.keyboard.ctrl ∧ key ≠ 0 ∧
          d.console.line.length < 127 then d.console.line ++ [d.capital key]
      else d.console.line := by
  obtain ⟨keyboard, flag, terminal, -, line⟩ := d.clearOnControl_setting key
  rw [((d.clearOnControl key).switchOnAlt key).typeKey_setting key |>.1, ← terminal] at same
  have shown := (d.clearOnControl key).switchOnAlt_keeps same
  have modifiers := ((d.clearOnControl key).switchOnAlt_setting key).1.trans keyboard
  have capital : ((d.clearOnControl key).switchOnAlt key).capital key = d.capital key := by
    rw [Driver.capital, modifiers, Driver.capital]
  rw [typeKey_line, modifiers, capital, ← Console.length_line, shown.line, shown.lineRunOverFlag, flag, line]
  by_cases control : d.keyboard.ctrl ∧ key = 0x6C
  · rw [if_pos control, if_pos control, if_neg fun typed => typed.2.2.1 control.1]
  · rw [if_neg control, if_neg control]

/-- A key that is no tab and no backspace edits the line through its character. -/
theorem lineAfter_of_plain {scanCode : Nat} (notTab : Key.ofScanCode scanCode ≠ .tab)
    (notBackspace : Key.ofScanCode scanCode ≠ .backspace) : d.lineAfter scanCode =
      if d.keyboard.ctrl ∧ (d.scanCodeToAscii scanCode).1 = 0x6C then []
      else if d.console.lineRunOverFlag ∧ ¬d.keyboard.alt ∧ ¬d.keyboard.ctrl ∧
          (d.scanCodeToAscii scanCode).1 ≠ 0 ∧ d.console.line.length < 127 then
        d.console.line ++ [d.capital (d.scanCodeToAscii scanCode).1]
      else d.console.line := by
  unfold lineAfter
  split
  · contradiction
  · contradiction
  · rfl

/-- Before the handler looks at the character, only a tab and a backspace change the line. -/
theorem scanCodeToAscii_line (scanCode : Nat) : (d.scanCodeToAscii scanCode).2.console.line =
    match Key.ofScanCode scanCode with
    | .tab => d.console.line ++ List.replicate (min 5 (127 - d.console.line.length)) spaceAscii
    | .backspace => if d.console.lineRunOverFlag then d.console.line.dropLast else d.console.line
    | _ => d.console.line := by
  unfold scanCodeToAscii
  cases Key.ofScanCode scanCode with
  | tab => exact d.console.pressTab_line
  | backspace => exact d.console.pressBackspace_line
  | enter => exact d.console.pressEnter_line
  | shiftL | shiftLReleased | shiftR | shiftRReleased =>
      dsimp only
      split <;> rfl
  | _ => rfl

/-- A key with a character changes nothing before the handler looks at the character. -/
theorem scanCodeToAscii_typed {scanCode : Nat} (loud : (d.scanCodeToAscii scanCode).1 ≠ 0) :
    (d.scanCodeToAscii scanCode).2 = d ∧ (Key.ofScanCode scanCode).edits = false := by
  have outcome := d.scanCodeToAscii_outcome scanCode
  generalize Key.ofScanCode scanCode = label at outcome ⊢
  generalize d.scanCodeToAscii scanCode = scanned at loud outcome ⊢
  obtain ⟨key, after⟩ := scanned
  cases outcome with
  | typed quiet _ => exact ⟨rfl, quiet⟩
  | _ => exact absurd rfl loud

theorem keyboardHandler_eq (scanCode : Nat) : d.keyboardHandler scanCode =
    (((d.scanCodeToAscii scanCode).2.clearOnControl (d.scanCodeToAscii scanCode).1).switchOnAlt
      (d.scanCodeToAscii scanCode).1).typeKey (d.scanCodeToAscii scanCode).1 := rfl

theorem typeKey_keyboard (key : UInt8) : (d.typeKey key).keyboard = d.keyboard := by
  unfold typeKey
  dsimp only
  split_ifs <;> rfl

/-- Only the switch on the scan code changes the modifiers. -/
theorem keyboardHandler_keyboard (scanCode : Nat) :
    (d.keyboardHandler scanCode).keyboard = (d.scanCodeToAscii scanCode).2.keyboard := by
  rw [keyboardHandler_eq, typeKey_keyboard, (switchOnAlt_setting _ _).1, (clearOnControl_setting _ _).1]

theorem keyboardHandler_of_silent {scanCode : Nat} (silent : (d.scanCodeToAscii scanCode).1 = 0) :
    d.keyboardHandler scanCode = (d.scanCodeToAscii scanCode).2 := by
  rw [keyboardHandler_eq, silent, handled_zero]

theorem keyboardHandler_of_typed {scanCode : Nat} (loud : (d.scanCodeToAscii scanCode).1 ≠ 0) :
    d.keyboardHandler scanCode = ((d.clearOnControl (d.scanCodeToAscii scanCode).1).switchOnAlt
      (d.scanCodeToAscii scanCode).1).typeKey (d.scanCodeToAscii scanCode).1 := by
  rw [keyboardHandler_eq, (d.scanCodeToAscii_typed loud).1]

/-- The handler edits the line of the terminal on display as the line discipline says. -/
theorem keyboardHandler_line {scanCode : Nat} (keeps : d.KeepsTerminal scanCode) :
    (d.keyboardHandler scanCode).console.line = d.lineAfter scanCode := by
  by_cases silent : (d.scanCodeToAscii scanCode).1 = 0
  · rw [d.keyboardHandler_of_silent silent, scanCodeToAscii_line]
    have uncontrolled : ¬(d.keyboard.ctrl ∧ (d.scanCodeToAscii scanCode).1 = 0x6C) := by
      rw [silent]
      exact fun control => absurd control.2 (by decide)
    split
    · rename_i named
      simp only [lineAfter, named]
    · rename_i named
      simp only [lineAfter, named]
    · rename_i notTab notBackspace
      rw [d.lineAfter_of_plain notTab notBackspace, if_neg uncontrolled]
      exact (if_neg fun typed => typed.2.2.2.1 silent).symm
  · have plain := (d.scanCodeToAscii_typed silent).2
    have notTab : Key.ofScanCode scanCode ≠ .tab := fun named => by
      rw [named] at plain
      cases plain
    have notBackspace : Key.ofScanCode scanCode ≠ .backspace := fun named => by
      rw [named] at plain
      cases plain
    unfold KeepsTerminal at keeps
    rw [d.keyboardHandler_of_typed silent] at keeps ⊢
    rw [d.handled_line _ keeps, d.lineAfter_of_plain notTab notBackspace]

theorem scanCodeToAscii_enter (scanCode : Nat) : (d.scanCodeToAscii scanCode).2.console.enter =
    (decide (Key.ofScanCode scanCode = .enter) || d.console.enter) := by
  unfold scanCodeToAscii
  cases Key.ofScanCode scanCode with
  | tab => exact d.console.pressTab_enter
  | backspace => exact d.console.pressBackspace_enter
  | shiftL | shiftLReleased | shiftR | shiftRReleased =>
      dsimp only
      split <;> rfl
  | _ => rfl

/-- Only the Enter key sets the flag of the reader. -/
theorem keyboardHandler_enter (scanCode : Nat) : (d.keyboardHandler scanCode).console.enter =
    (decide (Key.ofScanCode scanCode = .enter) || d.console.enter) := by
  rw [keyboardHandler_eq, (typeKey_setting _ _).2, (switchOnAlt_setting _ _).2,
    (clearOnControl_setting _ _).2.2.2.1, scanCodeToAscii_enter]

theorem silent_of_edits {scanCode : Nat} (edits : (Key.ofScanCode scanCode).edits) :
    (d.scanCodeToAscii scanCode).1 = 0 := by
  by_contra loud
  rw [(d.scanCodeToAscii_typed loud).2] at edits
  cases edits

theorem lineAfter_of_enter {scanCode : Nat} (named : Key.ofScanCode scanCode = .enter) :
    d.lineAfter scanCode = d.console.line := by
  have silent := d.silent_of_edits (by rw [named]; rfl)
  rw [d.lineAfter_of_plain (by rw [named]; decide) (by rw [named]; decide), silent,
    if_neg fun control => absurd control.2 (by decide)]
  exact if_neg fun typed => typed.2.2.2.1 rfl

/-- A key edits the line exactly when its first characters change. -/
theorem editsLine_iff (room scanCode : Nat) :
    d.EditsLine room scanCode ↔ (d.lineAfter scanCode).take room ≠ d.console.line.take room := by
  have length := d.console.length_line
  unfold EditsLine
  by_cases tab : Key.ofScanCode scanCode = .tab
  · have key := d.silent_of_edits (by rw [tab]; rfl)
    have room : List.replicate (min 5 (127 - d.console.line.length)) spaceAscii ≠ [] ↔
        d.console.lineLength < 127 := by
      rw [Ne, List.replicate_eq_nil_iff]
      omega
    simp only [lineAfter, tab, take_append_ne_iff, room, key]
    rw [length]
    simp
    tauto
  by_cases backspace : Key.ofScanCode scanCode = .backspace
  · have key := d.silent_of_edits (by rw [backspace]; rfl)
    simp only [lineAfter, backspace, key]
    split
    · rename_i waits
      rw [take_dropLast_ne_iff, length]
      simp [waits]
    · rename_i idle
      simp [idle]
  · rw [d.lineAfter_of_plain tab backspace, length]
    simp only [tab, backspace, false_and, false_or]
    split
    · rename_i control
      obtain ⟨held, letter⟩ := control
      have emptied : ([] : List UInt8).take room ≠ d.console.line.take room ↔
          0 < d.console.lineLength ∧ 0 < room := by
        rw [List.take_nil, ne_comm, Ne, List.take_eq_nil_iff, ← List.length_eq_zero_iff, length]
        omega
      rw [emptied]
      tauto
    · rename_i uncontrolled
      split
      · rename_i typed
        have added : [d.capital (d.scanCodeToAscii scanCode).1] ≠ [] := List.cons_ne_nil _ _
        rw [take_append_ne_iff, length]
        tauto
      · rename_i ignored
        tauto

end Driver

end OrcaOS
