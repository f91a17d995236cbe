import OrcaOS.Construction.Keyboard

/-!
What a key does before the interrupt handler looks at its character.
-/

namespace OrcaOS
open Foundation

/-- No character key returns zero, a new line or a carriage return. -/
theorem characterKeys_printing : ∀ entry ∈ characterKeys,
    entry.2.1 ∉ [0, 10, 13] ∧ entry.2.2 ∉ [0, 10, 13] := by decide

theorem Key.ofScanCode_character {scanCode : Nat} {plain shifted : UInt8}
    (found : Key.ofScanCode scanCode = .character plain shifted) : (scanCode, plain, shifted) ∈ characterKeys := by
  unfold Key.ofScanCode at found
  split at found <;> try cases found
  split at found
  · rename_i entry first second searched
    obtain ⟨rfl, rfl⟩ : first = plain ∧ second = shifted := by simpa using found
    obtain rfl : entry = scanCode := by simpa using List.find?_some searched
    exact List.mem_of_find?_eq_some searched
  · cases found

/-- The scan code of a label that has only one. -/
def Key.scanCode? : Key → Option Nat
  | .f1 => some 0x3B
  | .f2 => some 0x3C
  | .f3 => some 0x3D
  | .shiftL => some 0x2A
  | .shiftLReleased => some 0xAA
  | .shiftR => some 0x36
  | .shiftRReleased => some 0xB6
  | .tab => some 0x0F
  | .capsLock => some 0x3A
  | .controlL => some 0x1D
  | .controlLReleased => some 0x9D
  | .backspace => some 0x0E
  | .enter => some 0x1C
  | .altL => some 0x38
  | .altLReleased => some 0xB8
  | .character _ _ | .other => none

theorem Key.scanCode_of_label {scanCode code : Nat} (named : (Key.ofScanCode scanCode).scanCode? = some code) :
    scanCode = code := by
  unfold Key.ofScanCode at named
  split at named
  case h_16 =>
    split at named <;> cases named
  all_goals exact Option.some.inj named

/-- A character key has a character that is printed. -/
theorem Key.ofScanCode_printing {scanCode : Nat} {plain shifted : UInt8}
    (found : Key.ofScanCode scanCode = .character plain shifted) (shift : Bool) :
    (if shift then shifted else plain) ≠ 0 ∧ (if shift then shifted else plain) ≠ 10 ∧
      (if shift then shifted else plain) ≠ 13 := by
  have printing := characterKeys_printing _ (Key.ofScanCode_character found)
  split_ifs
  · simpa using printing.2
  · simpa using printing.1

/-- The keys that change the console before the handler does. -/
def Key.edits (label : Key) : Bool := label = .tab || label = .backspace || label = .enter

/-- A key sets modifiers, changes the console, or has a character. -/
inductive KeyOutcome (d : Driver) : Key → UInt8 → Driver → Prop where
  | modifier {label : Key} (quiet : label.edits = false) (keyboard : Keyboard) :
      KeyOutcome d label 0 { d with keyboard }
  | tab : KeyOutcome d .tab 0 { d with console := d.console.pressTab }
  | backspace : KeyOutcome d .backspace 0 { d with console := d.console.pressBackspace }
  | enter : KeyOutcome d .enter 0 { d with console := d.console.pressEnter }
  | typed {label : Key} {key : UInt8} (quiet : label.edits = false)
      (printing : key ≠ 10 ∧ key ≠ 13) : KeyOutcome d label key d

theorem KeyOutcome.printing {d after : Driver} {label : Key} {key : UInt8}
    (outcome : KeyOutcome d label key after) : key ≠ 10 ∧ key ≠ 13 := by
  cases outcome with
  | typed quiet printing => exact printing
  | _ => exact ⟨by decide, by decide⟩

namespace Driver
variable (d : Driver)

theorem scanCodeToAscii_outcome (scanCode : Nat) : KeyOutcome d (Key.ofScanCode scanCode)
    (d.scanCodeToAscii scanCode).1 (d.scanCodeToAscii scanCode).2 := by
  unfold scanCodeToAscii
  cases label : Key.ofScanCode scanCode with
  | tab => exact .tab
  | backspace => exact .backspace
  | enter => exact .enter
  | f1 | f2 | f3 =>
      dsimp only
      exact .typed rfl ⟨by decide, by decide⟩
  | character plain shifted =>
      obtain ⟨-, printing⟩ := Key.ofScanCode_printing label d.keyboard.shift
      exact .typed rfl printing
  | shiftL | shiftLReleased | shiftR | shiftRReleased =>
      dsimp only
      split_ifs
      · exact .modifier rfl _
      · exact .modifier rfl d.keyboard
  | _ => exact .modifier rfl _

/-- A capital letter is at least `A`. -/
theorem capital_cases (key : UInt8) : d.capital key = key ∨ 0x41 ≤ d.capital key := by
  unfold capital
  split_ifs with letter
  · obtain ⟨low, high, -⟩ := letter
    right
    rw [UInt8.le_iff_toNat_le] at low high ⊢
    rw [UInt8.toNat_sub_of_le _ _ (by rw [UInt8.le_iff_toNat_le]; exact Nat.le_trans (by decide) low)]
    change 0x41 ≤ key.toNat - 0x20
    change 0x61 ≤ key.toNat at low
    omega
  · exact .inl rfl

/-- Below the letters every character is its own capital. -/
theorem capital_low {key other : UInt8} (low : other < 0x41) (same : d.capital key = other) : key = other := by
  obtain kept | letter := d.capital_cases key
  · rw [← kept, same]
  · rw [same] at letter
    exact absurd low (UInt8.not_lt.mpr letter)

/-- The capital of a printed character is printed. -/
theorem capital_printing {key : UInt8} (printing : key ≠ 10 ∧ key ≠ 13) :
    d.capital key ≠ 10 ∧ d.capital key ≠ 13 :=
  ⟨fun newline => printing.1 (d.capital_low (by decide) newline),
    fun carriage => printing.2 (d.capital_low (by decide) carriage)⟩

end Driver

end OrcaOS
