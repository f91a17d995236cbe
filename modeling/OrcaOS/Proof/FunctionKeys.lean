import OrcaOS.Foundation.Traced
import OrcaOS.Proof.ShiftKeys
import OrcaOS.Proof.TerminalBuffers

/-!
When the handler takes a function key for a character, or a character for a function key.
-/

namespace OrcaOS
open Foundation

/-- The make codes of F1, F2 and F3. -/
def functionKeys : List Nat := [0x3B, 0x3C, 0x3D]

/-- The characters that are numbers of function keys belong to three keys. -/
theorem characterKeys_function : ∀ entry ∈ characterKeys, ∀ shift : Bool,
    (if shift then entry.2.2 else entry.2.1) ∈ [0x3B, 0x3C, 0x3D] ↔
      (shift = false ∧ entry.1 ∈ [0x0D, 0x27]) ∨ (shift = true ∧ entry.1 = 0x33) := by decide

/-- The three keys have characters. -/
theorem confused_labels : ∀ code ∈ [0x0D, 0x27, 0x33],
    Key.ofScanCode code ≠ .other ∧ (Key.ofScanCode code).scanCode? = none := by decide

namespace Driver
variable (d : Driver) {scanCode : Nat}

/-- A call of `switch_terminal` is recorded with its terminal. -/
def tracedSwitch (d : Driver) (terminal : Int) : Traced Int Driver :=
  .access terminal { d with console := d.console.switchTerminal terminal }

def tracedSwitchOnAlt (d : Driver) (key : UInt8) : Traced Int Driver :=
  if d.keyboard.alt then
    if key = 0x3B then d.tracedSwitch 0
    else if key = 0x3C then d.tracedSwitch 1
    else if key = 0x3D then d.tracedSwitch 2
    else pure d
  else pure d

/-- The handler, with the terminals that it switches to. -/
def tracedKeyboardHandler (d : Driver) (scanCode : Nat) : Traced Int Driver := do
  let (key, d) := d.scanCodeToAscii scanCode
  let d ← (d.clearOnControl key).tracedSwitchOnAlt key
  pure (d.typeKey key)

/-- Recording the switches does not change what the handler does. -/
theorem tracedKeyboardHandler_value : (d.tracedKeyboardHandler scanCode).value = d.keyboardHandler scanCode := by
  have switched (d : Driver) (key : UInt8) : (d.tracedSwitchOnAlt key).value = d.switchOnAlt key := by
    unfold tracedSwitchOnAlt switchOnAlt
    split_ifs <;> rfl
  rw [tracedKeyboardHandler, keyboardHandler_eq, ← switched]
  rfl

/-- The handler switches exactly for Alt and the number of a function key. -/
theorem tracedKeyboardHandler_switches : (d.tracedKeyboardHandler scanCode).accesses ≠ [] ↔
    (d.scanCodeToAscii scanCode).2.SwitchesFor (d.scanCodeToAscii scanCode).1 := by
  have cleared (d : Driver) (key : UInt8) : (d.clearOnControl key).SwitchesFor key ↔ d.SwitchesFor key := by
    rw [SwitchesFor, SwitchesFor, (d.clearOnControl_setting key).1]
  have switched (d : Driver) (key : UInt8) : (d.tracedSwitchOnAlt key).accesses ≠ [] ↔ d.SwitchesFor key := by
    unfold tracedSwitchOnAlt tracedSwitch SwitchesFor
    split_ifs <;> simp_all [Traced.access, pure]
  have calls : (d.tracedKeyboardHandler scanCode).accesses =
      (((d.scanCodeToAscii scanCode).2.clearOnControl (d.scanCodeToAscii scanCode).1).tracedSwitchOnAlt
        (d.scanCodeToAscii scanCode).1).accesses := List.append_nil _
  rw [calls, switched, cleared]

/-- Without a function key the number of one is the character of one of the three keys. -/
theorem scanned_number_iff (other : scanCode ∉ functionKeys) : (d.scanCodeToAscii scanCode).1 ∈ [0x3B, 0x3C, 0x3D] ↔
    (d.keyboard.shift = false ∧ scanCode ∈ [0x0D, 0x27]) ∨ (d.keyboard.shift = true ∧ scanCode = 0x33) := by
  cases label : Key.ofScanCode scanCode with
  | character plain shifted =>
      have found : (d.scanCodeToAscii scanCode).1 = if d.keyboard.shift then shifted else plain := by
        rw [scanCodeToAscii, label]
      rw [found]
      exact characterKeys_function _ (Key.ofScanCode_character label) d.keyboard.shift
  | f1 =>
      obtain rfl : scanCode = 0x3B := Key.scanCode_of_label (by rw [label]; rfl)
      exact absurd (by decide) other
  | f2 =>
      obtain rfl : scanCode = 0x3C := Key.scanCode_of_label (by rw [label]; rfl)
      exact absurd (by decide) other
  | f3 =>
      obtain rfl : scanCode = 0x3D := Key.scanCode_of_label (by rw [label]; rfl)
      exact absurd (by decide) other
  | _ =>
      have silent : (d.scanCodeToAscii scanCode).1 = 0 := by rw [scanCodeToAscii, label]
      rw [silent]
      refine iff_of_false (by decide) fun either => ?_
      have member : scanCode ∈ [0x0D, 0x27, 0x33] := by
        obtain ⟨-, two⟩ | ⟨-, rfl⟩ := either
        · exact List.mem_append_left [0x33] two
        · decide
      have typed := confused_labels scanCode member
      rw [label] at typed
      exact absurd typed (by decide)

theorem scanned_function (named : scanCode ∈ functionKeys) :
    d.scanCodeToAscii scanCode = (UInt8.ofNat scanCode, d) ∧ UInt8.ofNat scanCode ∈ [0x3B, 0x3C, 0x3D] := by
  simp only [functionKeys, List.mem_cons, List.not_mem_nil, or_false] at named
  obtain rfl | rfl | rfl := named <;> exact ⟨rfl, by decide⟩

/-- A function key is no `l`. -/
theorem function_uncontrolled {key : UInt8} (number : key ∈ [0x3B, 0x3C, 0x3D]) : d.clearOnControl key = d :=
  if_neg fun control => absurd number (by rw [control.2]; decide)

/-- With Alt a function key only switches the terminal. -/
theorem keyboardHandler_switch (named : scanCode ∈ functionKeys) (alt : d.keyboard.alt = true) :
    d.keyboardHandler scanCode = { d with console := d.console.switchTerminal (scanCode - 0x3B) } := by
  obtain ⟨scanned, number⟩ := d.scanned_function named
  have ignored (console : Console) (key : UInt8) : typeKey { d with console } key = { d with console } :=
    if_neg fun typed => typed.2 alt
  have switched : d.switchOnAlt (UInt8.ofNat scanCode) = { d with console := d.console.switchTerminal (scanCode - 0x3B) } := by
    rw [switchOnAlt, if_pos alt]
    simp only [functionKeys, List.mem_cons, List.not_mem_nil, or_false] at named
    obtain rfl | rfl | rfl := named <;> rfl
  rw [keyboardHandler_eq, scanned, d.function_uncontrolled number, switched, ignored]

/-- Without Alt a function key is typed as its number. -/
theorem keyboardHandler_number (named : scanCode ∈ functionKeys) (alt : d.keyboard.alt = false) :
    d.keyboardHandler scanCode = d.typeKey (UInt8.ofNat scanCode) := by
  obtain ⟨scanned, number⟩ := d.scanned_function named
  have shown : d.switchOnAlt (UInt8.ofNat scanCode) = d := if_neg (by rw [alt]; decide)
  rw [keyboardHandler_eq, scanned, d.function_uncontrolled number, shown]

/-- A key that is not typed changes nothing but the hardware cursor. -/
theorem typeKey_idle (idle : ¬(d.keyboard.ctrl = false ∧ d.console.lineRunOverFlag = true ∧
    d.console.lineLength < 127)) (key : UInt8) : d.typeKey key = d ∨ d.typeKey key = { d with console := d.console.updateCursor } := by
  unfold typeKey
  dsimp only
  split_ifs with pending typed room
  · exact absurd ⟨Bool.eq_false_iff.mpr typed.2, pending.1, room⟩ idle
  · exact .inr rfl
  · exact .inl rfl
  · exact .inl rfl

end Driver

namespace KeyState
variable (s : KeyState) (interrupt : KeyInterrupt)

/-- The console after the interrupt. -/
def consoleAfter : Console := ((s.driver interrupt).keyboardHandler interrupt.scanCode).console

/-- The handler calls `switch_terminal`. -/
def CallsSwitch : Prop := ((s.driver interrupt).tracedKeyboardHandler interrupt.scanCode).accesses ≠ []

/-- Only a function key with Alt switches the terminal, and no function key adds or echoes a character. -/
structure KeepsApart : Prop where
  handler : ((s.driver interrupt).tracedKeyboardHandler interrupt.scanCode).value =
    (s.driver interrupt).keyboardHandler interrupt.scanCode
  switches : s.CallsSwitch interrupt ↔ interrupt.scanCode ∈ functionKeys ∧ s.held.altL = true
  lines : interrupt.scanCode ∈ functionKeys →
    (s.consoleAfter interrupt).terminalBuffer = interrupt.console.terminalBuffer ∧
      (s.consoleAfter interrupt).terminalBufferIdxs = interrupt.console.terminalBufferIdxs
  shown : interrupt.scanCode ∈ functionKeys → s.held.altL = true →
    s.consoleAfter interrupt = interrupt.console.switchTerminal (interrupt.scanCode - 0x3B)
  silent : interrupt.scanCode ∈ functionKeys → s.held.altL = false →
    (s.consoleAfter interrupt).video = interrupt.console.video ∧
      (s.consoleAfter interrupt).screenX = interrupt.console.screenX ∧
      (s.consoleAfter interrupt).screenY = interrupt.console.screenY

/-- With Alt one of the three keys has a character that is the number of a function key, or a function key without Alt
and Ctrl is typed while a read is pending and its line has room. -/
def Confuses : Prop :=
  (s.keyboard.alt = true ∧ ((s.keyboard.shift = false ∧ interrupt.scanCode ∈ [0x0D, 0x27]) ∨
    (s.keyboard.shift = true ∧ interrupt.scanCode = 0x33))) ∨
  (interrupt.scanCode ∈ functionKeys ∧ s.keyboard.alt = false ∧ s.keyboard.ctrl = false ∧
    interrupt.console.lineRunOverFlag = true ∧ interrupt.console.lineLength < 127)

instance : Decidable (s.Confuses interrupt) := inferInstanceAs (Decidable (_ ∨ _))

/-- The variable follows the Alt key. -/
theorem alt_follows (follows : s.keyboard.alt = s.held.altL) :
    (s.step interrupt).keyboard.alt = (s.step interrupt).held.altL := by
  rw [step_eq]
  cases Key.ofScanCode interrupt.scanCode with
  | shiftL | shiftLReleased | shiftR | shiftRReleased =>
      unfold typed Keyboard.pressed
      dsimp only
      split <;> exact follows
  | altL | altLReleased => rfl
  | _ => exact follows

variable {s interrupt}

/-- Without a function key the handler switches for the number of one and Alt. -/
theorem callsSwitch_iff_of_other (other : interrupt.scanCode ∉ functionKeys) : s.CallsSwitch interrupt ↔
    s.keyboard.alt = true ∧ ((s.keyboard.shift = false ∧ interrupt.scanCode ∈ [0x0D, 0x27]) ∨
      (s.keyboard.shift = true ∧ interrupt.scanCode = 0x33)) := by
  have number := (s.driver interrupt).scanned_number_iff other
  rw [CallsSwitch, Driver.tracedKeyboardHandler_switches, Driver.SwitchesFor, number]
  refine and_congr_left fun typed => ?_
  have loud : ((s.driver interrupt).scanCodeToAscii interrupt.scanCode).1 ≠ 0 := by
    intro silent
    have member := number.mpr typed
    rw [silent] at member
    exact absurd member (by decide)
  rw [((s.driver interrupt).scanCodeToAscii_typed loud).1]
  rfl

/-- A key other than the function keys is confused exactly when it switches. -/
theorem keepsApart_iff_of_other (other : interrupt.scanCode ∉ functionKeys) :
    s.KeepsApart interrupt ↔ ¬s.Confuses interrupt := by
  have switches := callsSwitch_iff_of_other (s := s) other
  constructor
  · rintro keeps (confused | ⟨named, -⟩)
    · exact other (keeps.switches.mp (switches.mpr confused)).1
    · exact other named
  · intro apart
    refine ⟨Driver.tracedKeyboardHandler_value _,
      iff_of_false (fun calls => apart (.inl (switches.mp calls))) fun named => other named.1, ?_, ?_, ?_⟩
    · exact fun named => absurd named other
    · exact fun named => absurd named other
    · exact fun named => absurd named other

/-- A function key switches with Alt only. -/
theorem callsSwitch_iff_of_function (named : interrupt.scanCode ∈ functionKeys) (follows : s.keyboard.alt = s.held.altL) :
    s.CallsSwitch interrupt ↔ interrupt.scanCode ∈ functionKeys ∧ s.held.altL = true := by
  obtain ⟨scanned, number⟩ := (s.driver interrupt).scanned_function named
  rw [CallsSwitch, Driver.tracedKeyboardHandler_switches, Driver.SwitchesFor, scanned, ← follows]
  exact ⟨fun calls => ⟨named, calls.1⟩, fun held => ⟨held.2, number⟩⟩

/-- With Alt a function key is never confused. -/
theorem keepsApart_iff_of_alt (named : interrupt.scanCode ∈ functionKeys) (follows : s.keyboard.alt = s.held.altL)
    (alt : s.keyboard.alt = true) : s.KeepsApart interrupt ↔ ¬s.Confuses interrupt := by
  have handled : s.consoleAfter interrupt = interrupt.console.switchTerminal (interrupt.scanCode - 0x3B) :=
    congrArg Driver.console ((s.driver interrupt).keyboardHandler_switch named alt)
  have apart : interrupt.scanCode ∉ [0x0D, 0x27] ∧ interrupt.scanCode ≠ 0x33 := by
    simp only [functionKeys, List.mem_cons, List.not_mem_nil, or_false] at named
    obtain same | same | same := named <;> rw [same] <;> decide
  refine iff_of_true ⟨Driver.tracedKeyboardHandler_value _, callsSwitch_iff_of_function named follows, fun _ => ?_,
    fun _ _ => handled, fun _ free => ?_⟩ ?_
  · rw [handled]
    exact interrupt.console.switchTerminal_lines _
  · rw [← follows, alt] at free
    cases free
  · rintro (⟨-, ⟨-, letter⟩ | ⟨-, letter⟩⟩ | ⟨-, free, -⟩)
    · exact apart.1 letter
    · exact apart.2 letter
    · rw [alt] at free
      cases free

/-- A function key that is typed makes the line longer. -/
theorem not_keepsApart_of_typed (named : interrupt.scanCode ∈ functionKeys) (alt : s.keyboard.alt = false)
    (ctrl : s.keyboard.ctrl = false) (pending : interrupt.console.lineRunOverFlag = true)
    (room : interrupt.console.lineLength < 127) : ¬s.KeepsApart interrupt := by
  intro keeps
  have handled : s.consoleAfter interrupt = ((s.driver interrupt).typeKey (UInt8.ofNat interrupt.scanCode)).console :=
    congrArg Driver.console ((s.driver interrupt).keyboardHandler_number named alt)
  have loud : UInt8.ofNat interrupt.scanCode ≠ 0 := fun silent => by
    have number := ((s.driver interrupt).scanned_function named).2
    rw [silent] at number
    exact absurd number (by decide)
  have display := ((s.driver interrupt).typeKey_setting (UInt8.ofNat interrupt.scanCode)).1
  have longer := (s.driver interrupt).typeKey_line (UInt8.ofNat interrupt.scanCode)
  rw [if_pos ⟨pending, Bool.eq_false_iff.mp alt, Bool.eq_false_iff.mp ctrl, loud, room⟩, ← handled] at longer
  rw [← handled] at display
  have same : (s.consoleAfter interrupt).lineLength = interrupt.console.lineLength := by
    rw [Console.lineLength, (keeps.lines named).2, display]
    rfl
  have lengths := congrArg List.length longer
  rw [Console.length_line, same, List.length_append, Console.length_line, List.length_singleton] at lengths
  exact absurd lengths (Nat.ne_of_lt (Nat.lt_succ_self _))

/-- Without Alt a function key is confused exactly when it is typed. -/
theorem keepsApart_iff_of_free (named : interrupt.scanCode ∈ functionKeys) (follows : s.keyboard.alt = s.held.altL)
    (alt : s.keyboard.alt = false) : s.KeepsApart interrupt ↔ ¬s.Confuses interrupt := by
  have handled : s.consoleAfter interrupt = ((s.driver interrupt).typeKey (UInt8.ofNat interrupt.scanCode)).console :=
    congrArg Driver.console ((s.driver interrupt).keyboardHandler_number named alt)
  by_cases types : s.keyboard.ctrl = false ∧ interrupt.console.lineRunOverFlag = true ∧
      interrupt.console.lineLength < 127
  · obtain ⟨ctrl, pending, room⟩ := types
    exact iff_of_false (not_keepsApart_of_typed named alt ctrl pending room)
      fun other => other (.inr ⟨named, alt, ctrl, pending, room⟩)
  · have idle := (s.driver interrupt).typeKey_idle types (UInt8.ofNat interrupt.scanCode)
    refine iff_of_true ⟨Driver.tracedKeyboardHandler_value _, callsSwitch_iff_of_function named follows,
      fun _ => ?_, fun _ held => ?_, fun _ _ => ?_⟩ ?_
    · rw [handled]
      obtain idle | idle := idle <;> rw [idle] <;> exact ⟨rfl, rfl⟩
    · rw [← follows, alt] at held
      cases held
    · rw [handled]
      obtain idle | idle := idle <;> rw [idle] <;> exact ⟨rfl, rfl, rfl⟩
    · rintro (⟨held, -⟩ | ⟨-, -, typed⟩)
      · rw [alt] at held
        cases held
      · exact types typed

theorem keepsApart_iff (follows : s.keyboard.alt = s.held.altL) : s.KeepsApart interrupt ↔ ¬s.Confuses interrupt := by
  by_cases named : interrupt.scanCode ∈ functionKeys
  · cases alt : s.keyboard.alt with
    | true => exact keepsApart_iff_of_alt named follows alt
    | false => exact keepsApart_iff_of_free named follows alt
  · exact keepsApart_iff_of_other named

end KeyState

/-- Function keys and characters are kept apart in every run exactly when none of its keys is one of the confused ones. -/
theorem function_keys_kept_apart_iff (interrupts : List KeyInterrupt) :
    Throughout KeyState.step KeyState.KeepsApart .initial interrupts ↔
      Throughout KeyState.step (fun s interrupt => ¬s.Confuses interrupt) .initial interrupts :=
  throughout_congr (fun s => s.keyboard.alt = s.held.altL) (fun _ _ follows _ => KeyState.keepsApart_iff follows)
    (fun s interrupt follows _ _ => s.alt_follows interrupt follows) rfl throughout_true

section Sample

/-- A read is pending, and the line is empty. -/
def pendingConsole : Console := { Console.initial fun _ => 0 with lineRunOverFlag := true }

/-- A semicolon that is typed while Alt is held switches the terminal, and F1 types a semicolon without Alt. -/
theorem function_keys_confused :
    KeyState.CallsSwitch (([⟨pendingConsole, 0x38⟩] : List KeyInterrupt).foldl KeyState.step .initial) ⟨pendingConsole, 0x27⟩ ∧
      ¬Throughout KeyState.step KeyState.KeepsApart .initial [⟨pendingConsole, 0x38⟩, ⟨pendingConsole, 0x27⟩] ∧
      (KeyState.initial.consoleAfter ⟨pendingConsole, 0x3B⟩).line = [0x3B] ∧
      ¬Throughout KeyState.step KeyState.KeepsApart .initial [⟨pendingConsole, 0x3B⟩] := by
  have semicolon : KeyState.CallsSwitch (([⟨pendingConsole, 0x38⟩] : List KeyInterrupt).foldl KeyState.step .initial)
      ⟨pendingConsole, 0x27⟩ := (Driver.tracedKeyboardHandler_switches _).mpr ⟨by decide, by decide⟩
  have typed : (KeyState.initial.consoleAfter ⟨pendingConsole, 0x3B⟩).terminalBufferIdxs 0 = 1 := by decide
  refine ⟨semicolon, fun always => ?_, by decide, fun always => ?_⟩
  · have apart := always [⟨pendingConsole, 0x38⟩] ⟨pendingConsole, 0x27⟩ [] rfl
    exact absurd (apart.switches.mp semicolon).1 (by decide)
  · have apart := always [] ⟨pendingConsole, 0x3B⟩ [] rfl
    have kept := congrFun (apart.lines (by decide)).2 0
    rw [List.foldl_nil, typed] at kept
    exact absurd kept (by decide)

end Sample

end OrcaOS
