import OrcaOS.Proof.LineReading

/-!
The buffers of the terminals: what `terminal_read` stores in the buffer of its caller, and which rows of
the line buffers the driver stores to.
-/

namespace OrcaOS
open Foundation

/-- Whatever its buffer holds, the reader fills the requested bytes with the line and zeros, returns a
count within the request and empties the line of the terminal on display only. -/
structure RespectsBuffer (waited : Console) (nbytes : Nat) : Prop where
  copied : ∀ (buf : Buffer) index, index < min (nbytes - 1) waited.lineLength →
    (waited.terminalRead buf nbytes).2.1 index = waited.terminalBuffer index waited.terminalOnDisplay
  zeros : ∀ (buf : Buffer) index, min (nbytes - 1) waited.lineLength ≤ index → index < nbytes →
    (waited.terminalRead buf nbytes).2.1 index = 0
  kept : ∀ (buf : Buffer) index, nbytes ≤ index → (waited.terminalRead buf nbytes).2.1 index = buf index
  count : ∀ buf, 0 ≤ (waited.terminalRead buf nbytes).1 ∧ (waited.terminalRead buf nbytes).1 ≤ nbytes
  emptied : ∀ buf, (waited.terminalRead buf nbytes).2.2.terminalBufferIdxs waited.terminalOnDisplay = 0
  others : ∀ buf, ∀ other ≠ waited.terminalOnDisplay,
    (waited.terminalRead buf nbytes).2.2.terminalBufferIdxs other = waited.terminalBufferIdxs other ∧
      ∀ row, (waited.terminalRead buf nbytes).2.2.terminalBuffer row other = waited.terminalBuffer row other

/-- Only a request of no bytes makes the terminator fall outside the buffer. -/
theorem terminalRead_respects_iff (waited : Console) (nbytes : Nat) :
    RespectsBuffer waited nbytes ↔ 0 < nbytes := by
  have request : ((nbytes : Int) - 1).toNat = nbytes - 1 := by omega
  constructor
  · intro respects
    have bound := (respects.count fun _ => 0).2
    rw [Console.terminalRead_eq] at bound
    change ((min ((nbytes : Int) - 1).toNat waited.lineLength : Nat) : Int) + 1 ≤ nbytes at bound
    omega
  · intro positive
    constructor
    · intro buf index inside
      rw [← request] at inside
      rw [Console.terminalRead_eq]
      exact if_pos inside
    · intro buf index beyond inside
      rw [← request] at beyond
      rw [Console.terminalRead_eq]
      refine (if_neg (Nat.not_lt.mpr beyond)).trans (if_pos (.inr ?_))
      rw [Int.toNat_natCast]
      exact inside
    · intro buf index outside
      rw [Console.terminalRead_eq]
      refine (if_neg ?_).trans (if_neg ?_)
      · omega
      · omega
    · intro buf
      rw [Console.terminalRead_eq]
      change 0 ≤ ((min ((nbytes : Int) - 1).toNat waited.lineLength : Nat) : Int) + 1 ∧
        ((min ((nbytes : Int) - 1).toNat waited.lineLength : Nat) : Int) + 1 ≤ nbytes
      omega
    · intro buf
      exact Function.update_self _ _ _
    · intro buf other different
      exact ⟨Function.update_of_ne different _ _, fun _ => rfl⟩

/-- A read of no bytes stores a zero in the byte that the pointer reaches and returns one. -/
theorem terminalRead_overruns :
    (sampleDriver.console.terminalRead (fun _ => 7) 0).1 = 1 ∧
      (sampleDriver.console.terminalRead (fun _ => 7) 0).2.1 0 = 0 ∧
      ¬RespectsBuffer sampleDriver.console 0 := by
  refine ⟨rfl, rfl, fun respects => ?_⟩
  have bound := (respects.count fun _ => 7).2
  exact absurd bound (by decide)

/-- Every index into a line buffer stays within its 127 rows. -/
def Console.LinesFit (c : Console) : Prop := ∀ terminal, c.terminalBufferIdxs terminal ≤ 127

/-- An operation stores only in the rows of the line buffer and only for the terminal on display. -/
structure KeepsRows (before after : Console) : Prop where
  terminalOnDisplay : after.terminalOnDisplay = before.terminalOnDisplay
  fits : before.lineLength ≤ 127 → after.lineLength ≤ 127
  rows : ∀ row, 127 ≤ row → after.terminalBuffer row = before.terminalBuffer row
  others : ∀ other ≠ before.terminalOnDisplay,
    after.terminalBufferIdxs other = before.terminalBufferIdxs other ∧
      ∀ row, after.terminalBuffer row other = before.terminalBuffer row other

namespace KeepsRows
variable {first second third : Console}

theorem refl (c : Console) : KeepsRows c c := ⟨rfl, id, fun _ _ => rfl, fun _ _ => ⟨rfl, fun _ => rfl⟩⟩

theorem trans (one : KeepsRows first second) (two : KeepsRows second third) : KeepsRows first third where
  terminalOnDisplay := two.terminalOnDisplay.trans one.terminalOnDisplay
  fits bound := two.fits (one.fits bound)
  rows row outside := (two.rows row outside).trans (one.rows row outside)
  others other different := by
    have later := two.others other (by rwa [one.terminalOnDisplay])
    have earlier := one.others other different
    exact ⟨later.1.trans earlier.1, fun row => (later.2 row).trans (earlier.2 row)⟩

theorem linesFit (keeps : KeepsRows first second) (fit : first.LinesFit) : second.LinesFit := by
  intro terminal
  by_cases shown : terminal = first.terminalOnDisplay
  · have bound := keeps.fits (fit first.terminalOnDisplay)
    rw [Console.lineLength, keeps.terminalOnDisplay] at bound
    rwa [shown]
  · rw [(keeps.others terminal shown).1]
    exact fit terminal

end KeepsRows

/-- Output stores nothing in the line buffers. -/
theorem KeepsTyping.keepsRows {before after : Console} (keeps : KeepsTyping before after) :
    KeepsRows before after where
  terminalOnDisplay := keeps.terminalOnDisplay
  fits bound := by rwa [keeps.lineLength]
  rows row _ := by rw [keeps.terminalBuffer]
  others other _ := ⟨by rw [keeps.terminalBufferIdxs], fun row => by rw [keeps.terminalBuffer]⟩

namespace Console
variable (c : Console)

/-- The guard of each store leaves room for one more character. -/
theorem appendCharacter_keepsRows (character : UInt8) (room : c.lineLength < 127) :
    KeepsRows c (c.appendCharacter character) where
  terminalOnDisplay := rfl
  fits _ := by
    have length : (c.appendCharacter character).lineLength = c.lineLength + 1 := Function.update_self _ _ _
    omega
  rows row outside := Function.update_of_ne (by omega) _ _
  others other different := by
    refine ⟨Function.update_of_ne different _ _, fun row => ?_⟩
    change Function.update c.terminalBuffer c.lineLength _ row other = _
    obtain rfl | elsewhere := eq_or_ne row c.lineLength
    · rw [Function.update_self, Function.update_of_ne different]
    · rw [Function.update_of_ne elsewhere]

theorem terminalOpen_keepsRows : KeepsRows c c.terminalOpen.2 where
  terminalOnDisplay := rfl
  fits _ := by
    have length : c.terminalOpen.2.lineLength = 0 := Function.update_self _ _ _
    omega
  rows row outside := by
    funext terminal
    exact if_neg fun cleared => absurd cleared.1 (Nat.not_lt.mpr outside)
  others other different :=
    ⟨Function.update_of_ne different _ _, fun row => if_neg fun cleared => different cleared.2⟩

theorem terminalRead_keepsRows (buf : Buffer) (nbytes : Int) :
    KeepsRows c (c.terminalRead buf nbytes).2.2 where
  terminalOnDisplay := rfl
  fits _ := by
    have length : (c.terminalRead buf nbytes).2.2.lineLength = 0 := Function.update_self _ _ _
    omega
  rows _ _ := rfl
  others other different := ⟨Function.update_of_ne different _ _, fun _ => rfl⟩

theorem writeCharacter_keeps (character : UInt8) : KeepsTyping c (c.writeCharacter character) := by
  have spaced : KeepsTyping c (if character = 0 then c.putc spaceAscii else c) := by
    split
    · exact c.putc_keeps spaceAscii
    · exact .refl c
  unfold writeCharacter
  dsimp only
  generalize (if character = 0 then c.putc spaceAscii else c) = middle at spaced ⊢
  split
  · exact spaced.trans ((middle.shiftRowsUp_keeps.trans (putc_keeps _ character)).trans (updateCursor_keeps _))
  · exact spaced.trans (middle.putcLineRunover_keeps character)

theorem writeCharacters_keeps (s : Buffer) (indices : List Nat) :
    KeepsTyping c (indices.foldl (fun c index => c.writeCharacter (s index)) c) := by
  induction indices generalizing c with
  | nil => exact .refl c
  | cons index rest ih => exact (c.writeCharacter_keeps (s index)).trans (ih (c.writeCharacter (s index)))

/-- Writing empties the line before and after it prints. -/
theorem terminalWrite_keepsRows (buf : Buffer) (nbytes : Int) : KeepsRows c (c.terminalWrite buf nbytes).2 := by
  have opened := c.terminalOpen_keepsRows
  have written := (c.terminalOpen.2.writeCharacters_keeps buf (List.range nbytes.toNat)).keepsRows
  exact (opened.trans written).trans (terminalOpen_keepsRows _)

theorem tabSpace_keepsRows : KeepsRows c c.tabSpace := by
  have printed : KeepsTyping c (if c.lineRunOverFlag then c.putcLineRunover spaceAscii else c.putc spaceAscii) := by
    split
    · exact c.putcLineRunover_keeps spaceAscii
    · exact c.putc_keeps spaceAscii
  unfold tabSpace
  split
  · rename_i room
    exact printed.keepsRows.trans (appendCharacter_keepsRows _ spaceAscii (by rwa [printed.lineLength]))
  · exact .refl c

theorem pressTab_keepsRows : KeepsRows c c.pressTab := by
  have two := c.tabSpace_keepsRows.trans (tabSpace_keepsRows _)
  have four := two.trans ((tabSpace_keepsRows _).trans (tabSpace_keepsRows _))
  exact (four.trans (tabSpace_keepsRows _)).trans (updateCursor_keeps _).keepsRows

/-- The index is decremented only when it is not zero. -/
theorem pressBackspace_keepsRows : KeepsRows c c.pressBackspace := by
  unfold pressBackspace
  split_ifs
  · exact .refl c
  · have shortened : KeepsRows c { c with
        terminalBufferIdxs := Function.update c.terminalBufferIdxs c.terminalOnDisplay (c.lineLength - 1) } := by
      refine ⟨rfl, fun bound => ?_, fun _ _ => rfl, fun other different =>
        ⟨Function.update_of_ne different _ _, fun _ => rfl⟩⟩
      refine Nat.le_trans (Nat.le_of_eq (Function.update_self _ _ _)) ?_
      omega
    exact shortened.trans (backspaceToPrev_keeps _).keepsRows
  · exact c.backspaceToPrev_keeps.keepsRows

theorem pressEnter_keepsRows : KeepsRows c c.pressEnter := by
  have moved : KeepsTyping c (if c.shiftRowsUp.lineRunOverFlag then c.shiftRowsUp.putcLineRunover 10
      else c.shiftRowsUp.putc 10) := by
    split
    · exact c.shiftRowsUp_keeps.trans (putcLineRunover_keeps _ 10)
    · exact c.shiftRowsUp_keeps.trans (putc_keeps _ 10)
  have updated := (moved.trans (updateCursor_keeps _)).keepsRows
  exact updated.trans ⟨rfl, id, fun _ _ => rfl, fun _ _ => ⟨rfl, fun _ => rfl⟩⟩

/-- A switch of the terminal leaves the line buffers alone. -/
theorem switchTerminal_lines (terminal : Int) :
    (c.switchTerminal terminal).terminalBuffer = c.terminalBuffer ∧
      (c.switchTerminal terminal).terminalBufferIdxs = c.terminalBufferIdxs := by
  unfold switchTerminal
  split <;> exact ⟨rfl, rfl⟩

end Console

theorem KeyOutcome.keepsRows {d after : Driver} {label : Key} {key : UInt8}
    (outcome : KeyOutcome d label key after) : KeepsRows d.console after.console := by
  cases outcome with
  | modifier => exact .refl _
  | tab => exact d.console.pressTab_keepsRows
  | backspace => exact d.console.pressBackspace_keepsRows
  | enter => exact d.console.pressEnter_keepsRows
  | typed => exact .refl _

namespace Driver
variable (d : Driver)

theorem clearOnControl_keepsRows (key : UInt8) : KeepsRows d.console (d.clearOnControl key).console := by
  unfold clearOnControl
  split
  · have cleared : KeepsTyping d.console (d.console.clear.setPos 0 0).updateCursor := ⟨rfl, rfl, rfl, rfl, rfl⟩
    exact cleared.keepsRows.trans (Console.terminalOpen_keepsRows _)
  · exact .refl _

theorem typeKey_keepsRows (key : UInt8) : KeepsRows d.console (d.typeKey key).console := by
  have printed := d.console.putcLineRunover_keeps (d.capital key)
  unfold typeKey
  dsimp only
  split_ifs with _ _ room
  · have stored := Console.appendCharacter_keepsRows _ (d.capital key) (by rwa [printed.lineLength])
    exact (printed.keepsRows.trans stored).trans (Console.updateCursor_keeps _).keepsRows
  · exact (Console.updateCursor_keeps _).keepsRows
  · exact .refl _
  · exact .refl _

/-- A key that does not switch the terminal stores for the terminal on display only. -/
theorem keyboardHandler_keepsRows {scanCode : Nat}
    (stays : ¬(d.scanCodeToAscii scanCode).2.SwitchesFor (d.scanCodeToAscii scanCode).1) :
    KeepsRows d.console (d.keyboardHandler scanCode).console := by
  have scanned := (d.scanCodeToAscii_outcome scanCode).keepsRows
  unfold keyboardHandler
  generalize d.scanCodeToAscii scanCode = outcome at stays scanned ⊢
  obtain ⟨key, pressed⟩ := outcome
  dsimp only at stays scanned ⊢
  rw [switchOnAlt_of_not (pressed.clearOnControl_stays stays)]
  exact (scanned.trans (pressed.clearOnControl_keepsRows key)).trans (typeKey_keepsRows _ key)

end Driver

/-- An event prints or switches, or is a call of the terminal driver. -/
inductive LineEvent where
  | output (event : OutputEvent)
  | terminalOpen
  | terminalClose
  | terminalRead (buf : Buffer) (nbytes : Int)

namespace Driver
variable (d : Driver)

def lineStep (d : Driver) : LineEvent → Driver
  | .output event => d.outputStep event
  | .terminalOpen => { d with console := d.console.terminalOpen.2 }
  | .terminalClose => { d with console := d.console.terminalClose.2 }
  | .terminalRead buf nbytes => { d with console := (d.console.terminalRead buf nbytes).2.2 }

/-- All lines are empty when the kernel starts. -/
def emptied (d : Driver) : Driver := { d with console := { d.console with terminalBufferIdxs := fun _ => 0 } }

def withBuffer (d : Driver) (terminalBuffer : Nat → Fin 3 → UInt8) : Driver :=
  { d with console := { d.console with terminalBuffer } }

theorem outputStep_keepsRows {event : OutputEvent} (stays : ¬d.CallsSwitch event) :
    KeepsRows d.console (d.outputStep event).console := by
  cases event with
  | key lineRunOverFlag scanCode =>
      have flagged : KeepsRows d.console (d.withFlag lineRunOverFlag).console :=
        ⟨rfl, id, fun _ _ => rfl, fun _ _ => ⟨rfl, fun _ => rfl⟩⟩
      exact flagged.trans ((d.withFlag lineRunOverFlag).keyboardHandler_keepsRows stays)
  | terminalWrite buf nbytes => exact d.console.terminalWrite_keepsRows buf nbytes
  | clear =>
      have cleared : KeepsTyping d.console (d.outputStep .clear).console := ⟨rfl, rfl, rfl, rfl, rfl⟩
      exact cleared.keepsRows
  | switchTerminal terminal => exact absurd trivial stays

/-- An event stores for the terminal on display, or it switches the terminal and stores nothing. -/
theorem lineStep_outcome (event : LineEvent) : KeepsRows d.console (d.lineStep event).console ∨
    (d.lineStep event).console.terminalBuffer = d.console.terminalBuffer ∧
      (d.lineStep event).console.terminalBufferIdxs = d.console.terminalBufferIdxs := by
  cases event with
  | output event =>
      by_cases switches : d.CallsSwitch event
      · obtain ⟨terminal, lineRunOverFlag, switched⟩ := outputStep_switches switches
        right
        rw [lineStep, switched]
        exact (d.withFlag lineRunOverFlag).console.switchTerminal_lines terminal
      · exact .inl (d.outputStep_keepsRows switches)
  | terminalOpen => exact .inl d.console.terminalOpen_keepsRows
  | terminalClose => exact .inl d.console.terminalOpen_keepsRows
  | terminalRead buf nbytes => exact .inl (d.console.terminalRead_keepsRows buf nbytes)

variable {d} in
theorem lineStep_linesFit (fit : d.console.LinesFit) (event : LineEvent) :
    (d.lineStep event).console.LinesFit := by
  obtain keeps | ⟨-, indices⟩ := d.lineStep_outcome event
  · exact keeps.linesFit fit
  · intro terminal
    rw [indices]
    exact fit terminal

variable {d} in
theorem lineRun_linesFit (fit : d.console.LinesFit) (events : List LineEvent) :
    (events.foldl lineStep d).console.LinesFit := by
  induction events generalizing d with
  | nil => exact fit
  | cons event rest ih => exact ih (lineStep_linesFit fit event)

end Driver

/-- After every run the indices fit, and whatever the buffers hold, the next event stores only in rows
below 127 and, unless it switches the terminal, only for the terminal on display. -/
theorem line_buffers_bounded (d : Driver) (events : List LineEvent) :
    (events.foldl Driver.lineStep d.emptied).console.LinesFit ∧
      ∀ (event : LineEvent) (content : Nat → Fin 3 → UInt8),
        let before := (events.foldl Driver.lineStep d.emptied).withBuffer content
        (∀ row, 127 ≤ row → (before.lineStep event).console.terminalBuffer row = content row) ∧
        ((before.lineStep event).console.terminalOnDisplay = before.console.terminalOnDisplay →
          ∀ other ≠ before.console.terminalOnDisplay,
            (before.lineStep event).console.terminalBufferIdxs other =
              before.console.terminalBufferIdxs other ∧
            ∀ row, (before.lineStep event).console.terminalBuffer row other = content row other) := by
  refine ⟨Driver.lineRun_linesFit (fun _ => Nat.zero_le 127) events, ?_⟩
  intro event content before
  obtain keeps | ⟨buffer, indices⟩ := before.lineStep_outcome event
  · exact ⟨keeps.rows, fun _ => keeps.others⟩
  · refine ⟨fun row _ => by rw [buffer]; rfl, fun _ other _ => ⟨by rw [indices], fun row => ?_⟩⟩
    rw [buffer]
    rfl

end OrcaOS
