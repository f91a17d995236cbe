import OrcaOS.Foundation.Run
import OrcaOS.Proof.FormatScan
import OrcaOS.Proof.ScreenBounds

/-!
Where the characters of `puts` and `printf` go on the screen.
-/

namespace OrcaOS
open Foundation

/-- A new line and a carriage return move the cursor to the next row. -/
def endsLine (character : UInt8) : Bool := character = 10 || character = 13

namespace Console

/-- Whatever the screen holds, the character is stored in a cell of the screen. The cursor stays on the screen, and
behind the last column it goes to the next row. -/
structure PrintsCharacter (c : Console) (character : UInt8) : Prop where
  cells : ∀ video : Memory, Set.EqOn (putc { c with video } character).video video visibleCellsᶜ
  cursor : CursorOnScreen (c.putc character).screenX (c.putc character).screenY
  wraps : endsLine character = false → c.screenX = 79 →
    (c.putc character).screenX = 0 ∧ (c.putc character).screenY = c.screenY + 1

/-- Each of the characters is printed on the screen. -/
def PrintsOnScreen (c : Console) (characters : List UInt8) : Prop := Throughout putc PrintsCharacter c characters

end Console

/-- From the column `x` of the row `y` no line reaches the last column, and the lines do not pass the last row. -/
def LinesFit (x y : Int) (characters : List UInt8) : Prop :=
  let lines := characters.splitOnP endsLine
  x + lines.head?.elim 0 List.length ≤ 79 ∧ (∀ line ∈ lines.tail, line.length ≤ 79) ∧ y + lines.tail.length ≤ 24

instance (x y : Int) (characters : List UInt8) : Decidable (LinesFit x y characters) :=
  inferInstanceAs (Decidable (_ ∧ _ ∧ _))

/-- The first line is followed through its characters, and each line end starts the next row. -/
theorem linesFit_cons {x y : Int} (inside : x ≤ 79) (character : UInt8) (characters : List UInt8) :
    LinesFit x y (character :: characters) ↔
      if endsLine character then y < 24 ∧ LinesFit 0 (y + 1) characters else x < 79 ∧ LinesFit (x + 1) y characters := by
  obtain ⟨first, others, split⟩ := List.exists_cons_of_ne_nil (List.splitOnP_ne_nil endsLine characters)
  unfold LinesFit
  rw [List.splitOnP_cons_eq_if_modifyHead, split]
  split_ifs
  · simp only [List.head?_cons, Option.elim_some, List.tail_cons, List.forall_mem_cons, List.length_nil, List.length_cons]
    constructor
    · rintro ⟨-, ⟨short, rest⟩, bottom⟩
      exact ⟨by omega, by omega, rest, by omega⟩
    · rintro ⟨-, short, rest, bottom⟩
      exact ⟨by omega, ⟨by omega, rest⟩, by omega⟩
  · simp only [List.modifyHead_cons, List.head?_cons, Option.elim_some, List.tail_cons, List.length_cons]
    constructor
    · rintro ⟨short, rest, bottom⟩
      exact ⟨by omega, by omega, rest, bottom⟩
    · rintro ⟨-, short, rest, bottom⟩
      exact ⟨by omega, rest, bottom⟩

namespace Console
variable {c : Console}

theorem endsLine_iff (character : UInt8) : endsLine character = true ↔ character = 10 ∨ character = 13 := by
  rw [endsLine, Bool.or_eq_true, decide_eq_true_iff, decide_eq_true_iff]

theorem putc_lineEnd {character : UInt8} (ends : endsLine character = true) :
    c.putc character = { c with screenX := 0, screenY := c.screenY + 1 } := if_pos ((endsLine_iff character).mp ends)

theorem putc_printing {character : UInt8} (printing : ¬endsLine character = true)
    (live : CursorOnScreen c.screenX c.screenY) : c.putc character =
      { c.storeCell (numCols * c.screenY + c.screenX) character with
        screenX := if c.screenX < 79 then c.screenX + 1 else 0 } :=
  putc_column (fun ended => printing ((endsLine_iff character).mpr ended)) live

/-- Only a line end in the last row and a character in the last column go wrong. -/
theorem printsCharacter_iff (live : CursorOnScreen c.screenX c.screenY) (character : UInt8) :
    c.PrintsCharacter character ↔ if endsLine character then c.screenY < 24 else c.screenX < 79 := by
  split_ifs with ends
  · constructor
    · intro prints
      have bottom := prints.cursor.2.2.2
      rw [putc_lineEnd ends] at bottom
      change c.screenY + 1 ≤ 24 at bottom
      omega
    · intro room
      refine ⟨fun video address _ => ?_, ?_, fun printing => ?_⟩
      · rw [putc_lineEnd ends]
      · rw [putc_lineEnd ends]
        exact (newline_draws live (by omega)).onScreen
      · rw [ends] at printing
        cases printing
  · constructor
    · intro prints
      by_contra last
      have right := live.2.1
      have next := (prints.wraps (Bool.eq_false_iff.mpr ends) (by omega)).2
      rw [putc_printing ends live] at next
      change c.screenY = c.screenY + 1 at next
      omega
    · intro room
      have printing : ¬(character = 10 ∨ character = 13) := fun ended => ends ((endsLine_iff character).mpr ended)
      refine ⟨fun video => ?_, (putc_draws live printing).onScreen, fun _ edge => by omega⟩
      exact (putc_draws (c := { c with video }) live printing).cells

/-- The characters are followed one by one with the cursor. -/
theorem printsOnScreen_iff (live : CursorOnScreen c.screenX c.screenY) (characters : List UInt8) :
    c.PrintsOnScreen characters ↔ LinesFit c.screenX c.screenY characters := by
  induction characters generalizing c with
  | nil =>
      obtain ⟨left, right, top, bottom⟩ := live
      refine iff_of_true throughout_nil ⟨?_, ?_, ?_⟩
      · change c.screenX + 0 ≤ 79
        omega
      · intro line member
        cases member
      · change c.screenY + 0 ≤ 24
        omega
  | cons character characters ih =>
      unfold PrintsOnScreen at ih ⊢
      rw [throughout_cons, linesFit_cons live.2.1, printsCharacter_iff live]
      split_ifs with ends
      · refine and_congr_right fun room => ?_
        have after := ih (c := c.putc character) (by
          rw [putc_lineEnd ends]
          exact (newline_draws live (by omega)).onScreen)
        rw [after, putc_lineEnd ends]
      · refine and_congr_right fun room => ?_
        have printing : ¬(character = 10 ∨ character = 13) := fun ended => ends ((endsLine_iff character).mpr ended)
        have after := ih (putc_draws live printing).onScreen
        rw [after, putc_printing ends live]
        dsimp only
        rw [if_pos room]
        rfl

end Console

/-- The bytes before the first zero are printed. -/
theorem puts_prints (s : Buffer) (size : Nat) : printedCharacters (puts s size) = Text.upTo s size := by
  have printed (index : Nat) :
      printedCharacters (putsFrom s size index) = ((List.range' index size).map s).takeWhile (· ≠ 0) := by
    induction size generalizing index with
    | zero => rfl
    | succ size ih =>
        rw [putsFrom, List.range'_succ, List.map_cons]
        by_cases ended : s index ≠ 0
        · rw [if_pos ended, printedCharacters_bind, ih (index + 1), List.takeWhile_cons, if_pos (decide_eq_true ended)]
          rfl
        · rw [if_neg ended, List.takeWhile_cons, if_neg fun some => ended (of_decide_eq_true some)]
          rfl
  rw [puts, printed, Text.upTo, List.range_eq_range']

/-- `puts` prints the bytes of its string and `printf` the text of its format and arguments, and the output stays on
the screen exactly when its lines fit behind the cursor. -/
theorem kernel_printing_stays_iff {c : Console} (live : CursorOnScreen c.screenX c.screenY) :
    (∀ (s : Buffer) (size : Nat), printedCharacters (puts s size) = Text.upTo s size ∧
      (c.PrintsOnScreen (printedCharacters (puts s size)) ↔ LinesFit c.screenX c.screenY (Text.upTo s size))) ∧
    ∀ (convBuf : Buffer) (format : List UInt8) (args : List Argument),
      printedCharacters (printf convBuf format args) = formattedText none format args ∧
      (c.PrintsOnScreen (printedCharacters (printf convBuf format args)) ↔
        LinesFit c.screenX c.screenY (formattedText none format args)) := by
  refine ⟨fun s size => ⟨puts_prints s size, ?_⟩, fun convBuf format args => ⟨printf_prints convBuf format args, ?_⟩⟩
  · rw [puts_prints]
    exact Console.printsOnScreen_iff live _
  · rw [printf_prints]
    exact Console.printsOnScreen_iff live _

section Sample

theorem kernel_printing_stays_number : (Console.initial fun _ => 0).PrintsOnScreen
    (printedCharacters (printf (fun _ => 0) [0x61, 0x25, 0x64, 0x0A, 0] [.word 7])) :=
  ((kernel_printing_stays_iff (c := Console.initial fun _ => 0) Console.origin_onScreen).2 _ _ _).2.mpr
    (by decide)

/-- A character in the last column goes back to the start of its row, and a new line in the last row goes below the
screen, where the next character is stored. -/
theorem kernel_printing_leaves_screen :
    let atEnd : Console := { Console.initial fun _ => 0 with screenX := 79 }
    let inLastRow : Console := { Console.initial fun _ => 0 with screenY := 24 }
    (atEnd.print (puts (cString [0x61]) 2)).screenX = 0 ∧ (atEnd.print (puts (cString [0x61]) 2)).screenY = 0 ∧
      ¬atEnd.PrintsOnScreen (printedCharacters (puts (cString [0x61]) 2)) ∧
      (inLastRow.print (puts (cString [0x0A, 0x61]) 3)).video (videoMemory + 4000) = 0x61 ∧
      ¬inLastRow.PrintsOnScreen (printedCharacters (puts (cString [0x0A, 0x61]) 3)) := by
  intro atEnd inLastRow
  have endLive : CursorOnScreen atEnd.screenX atEnd.screenY := ⟨by decide, by decide, by decide, by decide⟩
  have lastLive : CursorOnScreen inLastRow.screenX inLastRow.screenY := ⟨by decide, by decide, by decide, by decide⟩
  rw [Console.printsOnScreen_iff endLive, Console.printsOnScreen_iff lastLive]
  decide

end Sample

end OrcaOS
