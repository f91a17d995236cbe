import OrcaOS.Proof.BootSequence
import OrcaOS.Proof.LineEditing

/-!
A reader of the terminal delivers the line at its Enter, unless a key edits the line before the reader
has disabled the interrupts.
-/

namespace OrcaOS
open Foundation

namespace Console

/-- The first loop stops at its bound or at the end of the line, whichever comes first. -/
theorem copyLine_eq (line : Nat → UInt8) (length turns : Nat) {i : Nat} (within : i ≤ length) (buf : Buffer) :
    copyLine line length turns i buf = (min (i + turns) length,
      fun index => if i ≤ index ∧ index < min (i + turns) length then line index else buf index) := by
  induction turns generalizing i buf with
  | zero =>
      have none (index : Nat) : ¬(i ≤ index ∧ index < min (i + 0) length) := by omega
      simp only [none, if_false]
      rw [Nat.add_zero, Nat.min_eq_left within]
      rfl
  | succ turns ih =>
      rw [copyLine]
      split_ifs with ended
      · have last : min (i + (turns + 1)) length = i := by omega
        have none (index : Nat) : ¬(i ≤ index ∧ index < i) := by omega
        rw [last]
        simp only [none, if_false]
      · have shifted : i + 1 + turns = i + (turns + 1) := by omega
        rw [ih (by omega), shifted]
        congr 1
        funext index
        by_cases first : index = i
        · rw [first, if_neg (by omega), if_pos (by omega), Function.update_self]
        · rw [Function.update_of_ne first]
          exact if_congr (by omega) rfl rfl

theorem clearBytes_eq (turns j : Nat) (buf : Buffer) :
    clearBytes turns j buf = fun index => if j ≤ index ∧ index < j + turns then 0 else buf index := by
  induction turns generalizing j buf with
  | zero =>
      have none (index : Nat) : ¬(j ≤ index ∧ index < j + 0) := by omega
      simp only [none, if_false]
      rfl
  | succ turns ih =>
      rw [clearBytes, ih]
      funext index
      by_cases first : index = j
      · rw [first, if_neg (by omega), if_pos (by omega), Function.update_self]
      · rw [Function.update_of_ne first]
        exact if_congr (by omega) rfl rfl

variable (c : Console) (buf : Buffer) (nbytes : Int)

/-- The two loops leave the first characters of the line and zeros behind them. -/
theorem terminalRead_eq : c.terminalRead buf nbytes =
    (((min (nbytes - 1).toNat c.lineLength : Nat) : Int) + 1, fun index =>
      if index < min (nbytes - 1).toNat c.lineLength then c.terminalBuffer index c.terminalOnDisplay
      else if index = min (nbytes - 1).toNat c.lineLength ∨ index < nbytes.toNat then 0 else buf index,
      { c with
        lineRunOverFlag := false
        terminalBufferIdxs := Function.update c.terminalBufferIdxs c.terminalOnDisplay 0 }) := by
  have copied := copyLine_eq (c.terminalBuffer · c.terminalOnDisplay) c.lineLength (nbytes - 1).toNat (Nat.zero_le _) buf
  rw [Nat.zero_add] at copied
  change copyLine _ (c.terminalBufferIdxs c.terminalOnDisplay) _ _ _ = _ at copied
  rw [terminalRead]
  dsimp only
  rw [copied, clearBytes_eq]
  dsimp only
  congr 2
  funext index
  rw [Function.update_apply]
  split_ifs <;> first | rfl | omega

/-- The copied characters are the first ones of the line. -/
theorem terminalRead_characters :
    Reader.characters (c.terminalRead buf nbytes).1 (c.terminalRead buf nbytes).2.1 =
      c.line.take (nbytes - 1).toNat := by
  have count : ((c.terminalRead buf nbytes).1 - 1).toNat = min (nbytes - 1).toNat c.lineLength := by
    rw [terminalRead_eq]
    change (((min (nbytes - 1).toNat c.lineLength : Nat) : Int) + 1 - 1).toNat = _
    omega
  rw [Reader.characters, count, Console.line, ← List.map_take, List.take_range]
  apply List.map_congr_left
  intro index inside
  rw [terminalRead_eq]
  exact if_pos (List.mem_range.mp inside)

end Console

namespace Reader
variable {buf : Buffer} {nbytes : Int} {before after : Reader}

/-- The characters that will be copied are those of the line at the Enter. -/
def Visible (nbytes : Int) (reader : Reader) : Prop :=
  ∀ line ∈ reader.entered,
    reader.driver.console.line.take (nbytes - 1).toNat = line.take (nbytes - 1).toNat

/-- What holds at each stage of the reader. -/
def Reading (nbytes : Int) (reader : Reader) : Prop :=
  match reader.stage with
  | .clearing => reader.entered = none
  | .waiting => reader.driver.console.enter = reader.entered.isSome ∧ reader.Visible nbytes
  | .stopping | .copying => reader.entered.isSome ∧ reader.Visible nbytes
  | .returned _ _ => reader.ReturnsEntered nbytes

theorem reading_advance (reading : before.Reading nbytes) (taken : before.step buf nbytes .advance = some after) :
    after.Reading nbytes := by
  obtain ⟨driver, stage, entered⟩ := before
  cases stage with
  | clearing =>
      obtain rfl := Option.some.inj taken
      obtain rfl : entered = none := reading
      exact ⟨rfl, fun line member => absurd member (Option.not_mem_none line)⟩
  | waiting =>
      obtain ⟨flag, visible⟩ := reading
      obtain rfl := Option.some.inj taken
      dsimp only
      split
      · rename_i set
        exact ⟨flag.symm.trans set, visible⟩
      · exact ⟨flag, visible⟩
  | stopping =>
      obtain rfl := Option.some.inj taken
      exact reading
  | copying =>
      obtain ⟨recorded, visible⟩ := reading
      obtain rfl := Option.some.inj taken
      obtain ⟨line, rfl⟩ := Option.isSome_iff_exists.mp recorded
      intro returned delivered
      obtain rfl := Option.some.inj delivered
      have characters := driver.console.terminalRead_characters buf nbytes
      rw [visible line rfl] at characters
      exact congrArg some characters.symm
  | returned => cases taken

/-- A key that does not edit the line keeps what will be copied. -/
theorem Visible.press {driver : Driver} {stage : ReadStage} {entered : Option (List UInt8)} {scanCode : Nat}
    (visible : Visible nbytes ⟨driver, stage, entered⟩) (keeps : driver.KeepsTerminal scanCode)
    (quiet : ¬driver.EditsLine (nbytes - 1).toNat scanCode) :
    Visible nbytes ⟨driver.keyboardHandler scanCode, stage, entered⟩ := by
  intro line member
  rw [driver.editsLine_iff, not_not] at quiet
  dsimp only
  rw [driver.keyboardHandler_line keeps, quiet]
  exact visible line member

theorem reading_press {scanCode : Nat} (reading : before.Reading nbytes)
    (undisturbed : before.Undisturbed nbytes (.press scanCode))
    (taken : before.step buf nbytes (.press scanCode) = some after) : after.Reading nbytes := by
  obtain ⟨driver, stage, entered⟩ := before
  obtain ⟨keeps, window⟩ := undisturbed
  cases stage with
  | clearing =>
      obtain rfl := Option.some.inj taken
      exact reading
  | waiting =>
      obtain ⟨flag, visible⟩ := reading
      have enter := driver.keyboardHandler_enter scanCode
      dsimp only at flag window
      rw [flag] at enter
      obtain rfl := Option.some.inj taken
      cases entered with
      | some line => exact ⟨enter.trans (Bool.or_true _), visible.press keeps (window rfl)⟩
      | none =>
          by_cases named : Key.ofScanCode scanCode = .enter
          · -- This is the Enter for which the reader waits.
            have awaited : awaits ⟨driver, .waiting, none⟩ scanCode = true := by simp [awaits, named]
            simp only [awaited, if_true]
            refine ⟨by rw [enter, named]; rfl, fun line member => ?_⟩
            obtain rfl := Option.mem_some_iff.mp member
            dsimp only
            rw [driver.keyboardHandler_line keeps, driver.lineAfter_of_enter named]
          · have ignored : awaits ⟨driver, .waiting, none⟩ scanCode = false := by simp [awaits, named]
            simp only [ignored, Bool.false_eq_true, if_false]
            refine ⟨by rw [enter, decide_eq_false named]; rfl, fun line member => ?_⟩
            exact absurd member (Option.not_mem_none line)
  | stopping =>
      obtain ⟨recorded, visible⟩ := reading
      obtain rfl := Option.some.inj taken
      exact ⟨recorded, visible.press keeps (window recorded)⟩
  | copying => cases taken
  | returned =>
      obtain rfl := Option.some.inj taken
      exact reading

end Reader

/-- In every undisturbed run the reader returns the line at its Enter, cut to its buffer. -/
theorem reader_returns_entered {buf : Buffer} {nbytes : Int} {driver : Driver} {events : List ReadEvent}
    {reader : Reader} (run : Run (Reader.step buf nbytes) (Reader.Undisturbed nbytes) (.initial driver) events reader) :
    reader.ReturnsEntered nbytes := by
  have initial : (Reader.initial driver).Reading nbytes := by
    change (Reader.initial driver).entered = none
    rfl
  have reading : reader.Reading nbytes := by
    refine run.invariant (Reader.Reading nbytes) initial fun before event after reading undisturbed taken => ?_
    cases event with
    | advance => exact Reader.reading_advance reading taken
    | press scanCode => exact Reader.reading_press reading undisturbed taken
  obtain ⟨driver, stage, entered⟩ := reader
  cases stage with
  | returned => exact reading
  | _ =>
      intro returned delivered
      cases delivered

section Sample

/-- The keyboard of the sample kernel before any key. -/
def sampleDriver : Driver := ⟨sampleKernel.console, ⟨false, false, false, false, false, false⟩⟩

/-- The reader waits, "a" and Enter are pressed, and the release of Enter is handled before the test. -/
theorem reader_returns_entered_sample : ∃ reader : Reader,
    reader.delivered = some [0x61] ∧ reader.ReturnsEntered 128 := by
  let events : List ReadEvent := [.advance, .advance, .press 0x1E, .press 0x1C, .press 0x9C, .advance,
    .advance, .advance, .press 0x30]
  have executes : ((execute (Reader.step (fun _ => 0) 128) (fun reader event =>
      decide (reader.Undisturbed 128 event)) (.initial sampleDriver) events).any fun reader =>
        decide (reader.delivered = some [0x61])) = true := by decide +kernel
  obtain ⟨reader, executed, delivered⟩ := (Option.any_eq_true _ _).mp executes
  have run := run_of_execute (fun _ _ => of_decide_eq_true) executed
  exact ⟨reader, of_decide_eq_true delivered, reader_returns_entered run⟩

/-- A "b" that is pressed after the Enter and before the test is returned as well. -/
theorem reader_returns_more : ∃ events reader,
    Run (Reader.step (fun _ => 0) 128) Reader.Displayed (.initial sampleDriver) events reader ∧
      reader.entered = some [0x61] ∧ reader.delivered = some [0x61, 0x62] ∧ ¬reader.ReturnsEntered 128 := by
  let events : List ReadEvent := [.advance, .advance, .press 0x1E, .press 0x1C, .press 0x30, .advance,
    .advance, .advance]
  have executes : ((execute (Reader.step (fun _ => 0) 128) (fun reader event =>
      decide (reader.Displayed event)) (.initial sampleDriver) events).any fun reader =>
        decide (reader.entered = some [0x61] ∧ reader.delivered = some [0x61, 0x62])) = true := by decide +kernel
  obtain ⟨reader, executed, observed⟩ := (Option.any_eq_true _ _).mp executes
  obtain ⟨entered, delivered⟩ := of_decide_eq_true observed
  refine ⟨events, reader, run_of_execute (fun _ _ => of_decide_eq_true) executed, entered, delivered, ?_⟩
  intro returns
  have same := returns _ delivered
  rw [entered] at same
  exact absurd (Option.some.inj same) (by decide)

end Sample

end OrcaOS
