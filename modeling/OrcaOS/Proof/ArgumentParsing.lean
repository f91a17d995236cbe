import OrcaOS.Proof.ExecutableCheck
import OrcaOS.Proof.SlotReuse
import OrcaOS.Specification.ArgumentText

/-!
Which command lines give a program its exact argument text, and which texts stay in the argument array.
-/

namespace OrcaOS
open Foundation Kernel

/-- The first word ends at a space or at the terminator. -/
theorem firstWord_append {word rest : List UInt8} {stop : UInt8} {room : Nat}
    (characters : ∀ character ∈ word, character ≠ 32 ∧ character ≠ 0) (short : word.length ≤ room)
    (stops : stop = 32 ∨ stop = 0) : firstWord (word ++ stop :: rest) room = some (word, stop :: rest) := by
  induction word generalizing room with
  | nil =>
      have ended : ¬(stop ≠ 32 ∧ stop ≠ 0 ∧ 0 < room) := fun passes =>
        stops.elim passes.1 passes.2.1
      rw [List.nil_append, firstWord, if_neg ended]
  | cons character word ih =>
      obtain ⟨notSpace, notZero⟩ := characters character List.mem_cons_self
      rw [List.length_cons] at short
      have later := @ih (room - 1) (fun other member => characters other (List.mem_cons_of_mem _ member)) (by omega)
      rw [List.cons_append, firstWord, if_pos ⟨notSpace, notZero, by omega⟩, later]
      rfl

/-- Spaces before the text are skipped, and the text ends at the terminator. -/
theorem copiedText_spaces (spaces : Nat) {text : List UInt8} (proper : 0 ∉ text) (start : text.head? ≠ some 32)
    (stale : List UInt8) :
    copiedText (List.replicate spaces 32 ++ (text ++ 0 :: stale)) = some text := by
  have skipped : (List.replicate spaces 32 ++ (text ++ 0 :: stale)).dropWhile (· = 32) = text ++ 0 :: stale := by
    rw [List.dropWhile_append_of_pos (by simp)]
    cases text with
    | nil => rfl
    | cons first rest =>
        have different : first ≠ 32 := fun equal => start (by rw [equal]; rfl)
        rw [List.cons_append, List.dropWhile_cons_of_neg (by simpa using different)]
  unfold copiedText
  dsimp only
  rw [skipped, if_pos (by simp), Text.takeWhile_append_zero proper]

/-- Nothing is copied when the first character after the spaces is the terminator. -/
theorem copiedText_eq_nil_iff {bytes text : List UInt8} (copied : copiedText bytes = some text) :
    text = [] ↔ (bytes.dropWhile (· = 32)).head? = some 0 := by
  unfold copiedText at copied
  dsimp only at copied
  split at copied
  · rename_i ended
    obtain rfl := Option.some.inj copied
    cases skipped : bytes.dropWhile (· = 32) with
    | nil => simp [skipped] at ended
    | cons first rest =>
        rw [List.head?_cons, Option.some_inj]
        by_cases zero : first = 0
        · simp [zero]
        · simp [zero]
  · cases copied

namespace CommandLine
variable (line : CommandLine) (stale : List UInt8) {k : Kernel}

/-- The bytes from the character that is skipped. -/
def rest : List UInt8 := List.replicate line.spaces 32 ++ (line.text ++ 0 :: stale)

theorem rest_eq : ∃ stop tail, line.rest stale = stop :: tail ∧ (stop = 32 ∨ stop = 0) := by
  unfold rest
  cases count : line.spaces with
  | zero =>
      have empty : line.text = [] := by
        by_contra nonempty
        have separated := line.separated nonempty
        omega
      rw [empty]
      exact ⟨0, stale, rfl, .inr rfl⟩
  | succ spaces => exact ⟨32, _, by rw [List.replicate_succ, List.cons_append], .inl rfl⟩

/-- The word of a command line is the name of the program. -/
theorem reached (valid : k.processNumber < 6) : Reached k (line.command stale) line.word (line.rest stale) := by
  obtain ⟨positive, short⟩ := line.wordLength
  obtain ⟨first, word, named⟩ := List.exists_cons_of_length_pos positive
  obtain ⟨stop, tail, rest, stops⟩ := line.rest_eq stale
  have parsed := @firstWord_append line.word tail stop 31 line.wordCharacters short stops
  rw [← rest] at parsed
  have nonzero := (line.wordCharacters first (by rw [named]; exact List.mem_cons_self)).2
  refine ⟨valid, first, word ++ line.rest stale, ?_, nonzero, ?_⟩
  · rw [command, named]
    rfl
  · rw [← List.cons_append, ← named]
    exact parsed

/-- The skipped character is one of the spaces, or it is the terminator of the line. -/
theorem copiedText_rest : copiedText (line.rest stale).tail =
    if 0 < line.spaces then some line.text else copiedText stale := by
  unfold rest
  cases count : line.spaces with
  | zero =>
      have empty : line.text = [] := by
        by_contra nonempty
        have separated := line.separated nonempty
        omega
      rw [if_neg (Nat.lt_irrefl 0), empty]
      rfl
  | succ spaces =>
      rw [if_pos (Nat.succ_pos spaces), List.replicate_succ, List.cons_append, List.tail_cons,
        copiedText_spaces spaces line.textCharacters line.textStart]

end CommandLine

section Launched
variable {k after : Kernel} {command : Command} {processName tail text : List UInt8} {locals : Locals} {result : Int}

/-- A program that passes the check is launched with the copied text. -/
theorem Reached.launched (reached : Reached k command processName tail)
    (executable : (k.prepare processName locals.tempBuffer).isExecutable)
    (returned : k.sysExecute command locals = some (result, after)) :
    ∃ text, copiedText tail.tail = some text ∧
      launch (k.prepare processName locals.tempBuffer) locals text = some (result, after) := by
  rw [reached.sysExecute_eq, if_pos executable] at returned
  exact Option.bind_eq_some_iff.mp returned

/-- A copied text that ends inside the block is launched. -/
theorem Reached.accepted (reached : Reached k command processName tail)
    (executable : (k.prepare processName locals.tempBuffer).isExecutable) (copied : copiedText tail.tail = some text)
    (short : text.length ≤ 132) : k.sysExecute command locals =
      some (enterProgram (copyArguments (k.prepare processName locals.tempBuffer) locals text)) := by
  rw [reached.sysExecute_eq, if_pos executable, copied, Option.bind_some, launch_eq_some_iff, k.prepare_argumentsStart]
  exact ⟨locals.spared_of_short k reached.valid short, rfl⟩

/-- The argument bytes of a launched program. -/
theorem Reached.arguments_eq (reached : Reached k command processName tail)
    (launched : launch (k.prepare processName locals.tempBuffer) locals text = some (result, after)) {index : Nat}
    (inside : index < 132) : after.arguments index = k.programByte text index := by
  obtain ⟨_, _, rfl⟩ := (k.launch_prepared_iff processName text locals result after).mp launched
  have effect := k.enterProgram_accepted reached.valid processName locals.tempBuffer locals text
  have byte := k.enterProgram_argument reached.valid processName locals.tempBuffer locals text inside
  rw [Kernel.arguments, effect.currentPcb]
  exact byte

end Launched

/-- The bytes behind a text of at most 126 characters were cleared. -/
theorem held_programByte (k : Kernel) {text : List UInt8} (short : text.length ≤ 126) :
    Text.Held (k.programByte text) text := by
  intro index inside
  unfold programByte clearedByte
  split
  · rfl
  · rename_i beyond
    rw [if_neg (by omega), List.getD_eq_default _ _ (by omega)]

/-- A line gives its exact argument text when a space follows the word, or when the stale bytes after
the terminator give no text. -/
theorem arguments_exact_iff (line : CommandLine) (stale : List UInt8) {k after : Kernel} {locals : Locals}
    {result : Int} (valid : k.processNumber < 6)
    (executable : (k.prepare line.word locals.tempBuffer).isExecutable)
    (returned : k.sysExecute (line.command stale) locals = some (result, after)) :
    Text.Held after.arguments line.text ↔ 0 < line.spaces ∨ (stale.dropWhile (· = 32)).head? = some 0 := by
  have reached := line.reached stale valid
  obtain ⟨text, copied, launched⟩ := reached.launched executable returned
  have bytes {index : Nat} (inside : index < 132) := reached.arguments_eq launched inside
  have exactly (short : text.length ≤ 126) : Text.Held after.arguments text := by
    intro index inside
    rw [bytes (by omega)]
    exact held_programByte k short index inside
  rw [line.copiedText_rest] at copied
  by_cases separated : 0 < line.spaces
  · rw [if_pos separated] at copied
    obtain rfl := Option.some.inj copied
    exact iff_of_true (exactly line.textLength) (.inl separated)
  · -- The terminator was skipped, so the stale bytes are copied.
    rw [if_neg separated] at copied
    have empty : line.text = [] := by
      by_contra nonempty
      exact separated (line.separated nonempty)
    rw [empty, or_iff_right separated, ← copiedText_eq_nil_iff copied]
    constructor
    · intro held
      by_contra nonempty
      have positive := List.length_pos_iff.mpr nonempty
      have first := held 0 (Nat.le_refl 0)
      rw [bytes (by decide), programByte, if_pos positive, List.getD_eq_getElem _ _ positive] at first
      exact copiedText_nonzero copied _ (List.getElem_mem positive) first
    · rintro rfl
      exact exactly (by decide)

/-- One of the 128 bytes ends the text when it has at most 126 characters, or 127 and a zero is left in
the last byte. -/
theorem programByte_ended_iff (k : Kernel) {text : List UInt8} (proper : ∀ byte ∈ text, byte ≠ 0) :
    (∃ index < 128, k.programByte text index = 0) ↔
      text.length ≤ 126 ∨ text.length = 127 ∧ lastArgument k = 0 := by
  constructor
  · intro found
    obtain ⟨index, inside, ended⟩ := found
    rw [programByte] at ended
    split at ended
    · rename_i character
      rw [List.getD_eq_getElem _ _ character] at ended
      exact absurd ended (proper _ (List.getElem_mem character))
    · rename_i beyond
      by_cases short : text.length ≤ 126
      · exact .inl short
      · obtain rfl : index = 127 := by omega
        exact .inr ⟨by omega, ended⟩
  · intro condition
    obtain small | ⟨long, last⟩ := condition
    · refine ⟨text.length, by omega, ?_⟩
      rw [held_programByte k small _ (Nat.le_refl _), List.getD_eq_default _ _ (Nat.le_refl _)]
    · refine ⟨127, by omega, ?_⟩
      rw [programByte, if_neg (by omega), clearedByte, if_pos rfl]
      exact last

/-- A call returns with the arguments inside their array exactly when the text ends in the array. -/
theorem arguments_inside_iff {k : Kernel} {command : Command} {processName tail : List UInt8} {locals : Locals}
    (reached : Reached k command processName tail) (executable : (k.prepare processName locals.tempBuffer).isExecutable) :
    (∃ result after, k.sysExecute command locals = some (result, after) ∧
      ArgumentsInside (pcbAddress k.processNumber) k.created after.memory) ↔
      ∃ text, copiedText tail.tail = some text ∧
        (text.length ≤ 126 ∨ text.length = 127 ∧ lastArgument k = 0) := by
  have offset : argumentsOffset = 292 := rfl
  have byte (text : List UInt8) {index : Nat} (inside : index < 132) :=
    k.enterProgram_argument reached.valid processName locals.tempBuffer locals text inside
  constructor
  · intro stays
    obtain ⟨result, after, returned, arguments⟩ := stays
    obtain ⟨text, copied, launched⟩ := reached.launched executable returned
    obtain ⟨index, inside, ended⟩ := arguments.terminated
    obtain ⟨_, _, rfl⟩ := (k.launch_prepared_iff processName text locals result after).mp launched
    have same := byte text (show index < 132 by omega)
    rw [ended] at same
    exact ⟨text, copied, (programByte_ended_iff k (copiedText_nonzero copied)).mp ⟨index, inside, same.symm⟩⟩
  · intro condition
    obtain ⟨text, copied, short⟩ := condition
    have effect := k.enterProgram_accepted reached.valid processName locals.tempBuffer locals text
    have stores : Set.EqOn (enterProgram (copyArguments (k.prepare processName locals.tempBuffer) locals text)).2.memory k.created
        (loadedRegion (pcbAddress k.processNumber) 128)ᶜ := by
      refine effect.memory.mono (Set.compl_subset_compl.mpr (Set.union_subset_union_right _ ?_))
      exact Memory.window_subset (Nat.le_refl _) (by omega)
    refine ⟨_, _, reached.accepted executable copied (by omega), stores, ?_, ?_⟩
    · obtain ⟨index, inside, ended⟩ := (programByte_ended_iff k (copiedText_nonzero copied)).mpr short
      exact ⟨index, inside, (byte text (by omega)).trans ended⟩
    · refine readField_outside stores ?_
      rw [Set.disjoint_union_right]
      simp only [PcbField.offset]
      exact ⟨Memory.window_disjoint (by omega), Memory.window_disjoint (by omega)⟩

section Sample

def shellWord : List UInt8 := [115, 104, 101, 108, 108]

theorem length_shellWord : 1 ≤ shellWord.length ∧ shellWord.length ≤ 31 := by decide
theorem shellWord_characters : ∀ character ∈ shellWord, character ≠ 32 ∧ character ≠ 0 := by simp [shellWord]

def sampleText : List UInt8 := [97, 98]

theorem sampleText_characters : 0 ∉ sampleText := by decide
theorem sampleText_start : sampleText.head? ≠ some 32 := by decide
theorem length_sampleText : sampleText.length ≤ 126 := by decide
theorem noText_start : ([] : List UInt8).head? ≠ some 32 := by decide

/-- The shell is started with the argument text "ab". -/
def sampleLine : CommandLine where
  word := shellWord
  spaces := 1
  text := sampleText
  wordLength := length_shellWord
  wordCharacters := shellWord_characters
  textCharacters := sampleText_characters
  textStart := sampleText_start
  textLength := length_sampleText
  separated _ := Nat.one_pos

/-- The shell is started without arguments. -/
def bareLine : CommandLine where
  word := shellWord
  spaces := 0
  text := []
  wordLength := length_shellWord
  wordCharacters := shellWord_characters
  textCharacters := List.not_mem_nil
  textStart := noText_start
  textLength := Nat.zero_le 126
  separated nonempty := absurd rfl nonempty

theorem sampleKernel_valid : sampleKernel.processNumber < 6 := by
  rw [sampleKernel_booted.processNumber]
  decide

theorem sampleLine_executable : (sampleKernel.prepare sampleLine.word sampleLocals.tempBuffer).isExecutable := by decide +kernel

theorem arguments_exact_iff_sample : ∃ result after,
    sampleKernel.sysExecute (sampleLine.command []) sampleLocals = some (result, after) ∧
      Text.Held after.arguments sampleText := by
  have copied : copiedText (sampleLine.rest []).tail = some sampleText := sampleLine.copiedText_rest []
  have returned := (sampleLine.reached [] sampleKernel_valid).accepted sampleLine_executable copied (by decide)
  have exactly := arguments_exact_iff sampleLine [] sampleKernel_valid sampleLine_executable returned
  exact ⟨_, _, returned, exactly.mpr (.inl (by decide))⟩

/-- A stale "A" behind the terminator becomes the argument text of a command without arguments. -/
theorem arguments_stale : ∃ result after,
    sampleKernel.sysExecute (bareLine.command [65, 0]) sampleLocals = some (result, after) ∧
      after.arguments 0 = 65 ∧ ¬Text.Held after.arguments bareLine.text := by
  have reached := bareLine.reached [65, 0] sampleKernel_valid
  have copied : copiedText (bareLine.rest [65, 0]).tail = some [65] := by decide
  obtain ⟨⟨result, after⟩, returned⟩ : ∃ outcome,
      sampleKernel.sysExecute (bareLine.command [65, 0]) sampleLocals = some outcome :=
    ⟨_, reached.accepted sampleLine_executable copied (by decide)⟩
  obtain ⟨text, taken, launched⟩ := reached.launched sampleLine_executable returned
  obtain rfl := Option.some.inj (copied.symm.trans taken)
  have stale := reached.arguments_eq launched (show 0 < 132 by decide)
  rw [programByte, if_pos (by decide), List.getD_cons_zero] at stale
  refine ⟨_, _, returned, stale, fun held => ?_⟩
  have ended := held 0 (Nat.le_refl 0)
  rw [stale] at ended
  exact absurd ended (by decide)

theorem arguments_inside_iff_sample : ∃ result after,
    sampleKernel.sysExecute (sampleLine.command []) sampleLocals = some (result, after) ∧
      ArgumentsInside (pcbAddress sampleKernel.processNumber) sampleKernel.created after.memory :=
  (arguments_inside_iff (sampleLine.reached [] sampleKernel_valid) sampleLine_executable).mpr
    ⟨sampleText, rfl, .inl (by decide)⟩

/-- The command starts the shell with 128 characters of arguments. -/
def overlongCommand : Command := some ([115, 104, 101, 108, 108, 32] ++ (List.replicate 128 97 ++ [0]))

/-- A text of 128 characters leaves no terminator in the argument array. -/
theorem arguments_overrun :
    Reached sampleKernel overlongCommand sampleLine.word (32 :: (List.replicate 128 97 ++ [0])) ∧
      (sampleKernel.prepare sampleLine.word sampleLocals.tempBuffer).isExecutable ∧
      ¬∃ result after, sampleKernel.sysExecute overlongCommand sampleLocals = some (result, after) ∧
        ArgumentsInside (pcbAddress sampleKernel.processNumber) sampleKernel.created after.memory := by
  have reached : Reached sampleKernel overlongCommand sampleLine.word (32 :: (List.replicate 128 97 ++ [0])) :=
    reached_of_word (by decide) rfl
  have start : (List.replicate 128 (97 : UInt8)).head? ≠ some 32 := by decide
  have characters : copiedText (List.replicate 128 97 ++ [0]) = some (List.replicate 128 97) :=
    copiedText_spaces 0 (by simp) start []
  refine ⟨reached, sampleLine_executable, fun stays => ?_⟩
  obtain ⟨result, after, returned, arguments⟩ := stays
  obtain ⟨text, copied, launched⟩ := reached.launched sampleLine_executable returned
  obtain rfl := Option.some.inj (characters.symm.trans copied)
  obtain ⟨index, inside, ended⟩ := arguments.terminated
  obtain ⟨_, _, rfl⟩ := (sampleKernel.launch_prepared_iff _ _ sampleLocals result after).mp launched
  have byte := sampleKernel.enterProgram_argument reached.valid sampleLine.word sampleLocals.tempBuffer sampleLocals
    (List.replicate 128 97) (show index < 132 by omega)
  rw [ended] at byte
  have short := (programByte_ended_iff sampleKernel (copiedText_nonzero copied)).mp ⟨index, inside, byte.symm⟩
  rw [List.length_replicate] at short
  omega

end Sample

end OrcaOS
