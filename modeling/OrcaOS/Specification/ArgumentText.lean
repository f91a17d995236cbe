import OrcaOS.Construction.SystemCall
import OrcaOS.Foundation.Text
import OrcaOS.Specification.File

/-!
The argument text of a program: how a command line gives it, where it lies in the control block, and
how the program reads it in pieces.
-/

namespace OrcaOS
open Foundation

/-- A program name is followed by spaces and an argument text that starts with another character. -/
structure CommandLine where
  word : List UInt8
  spaces : Nat
  text : List UInt8
  wordLength : 1 ≤ word.length ∧ word.length ≤ 31
  wordCharacters : ∀ character ∈ word, character ≠ 32 ∧ character ≠ 0
  textCharacters : 0 ∉ text
  textStart : text.head? ≠ some 32
  textLength : text.length ≤ 126
  separated : text ≠ [] → 0 < spaces

/-- The terminator of the line is followed by the stale bytes of the memory. -/
def CommandLine.command (line : CommandLine) (stale : List UInt8) : Command :=
  some (line.word ++ (List.replicate line.spaces 32 ++ (line.text ++ 0 :: stale)))

/-- The bytes of the argument array of the current control block, and those that follow it. -/
def Kernel.arguments (k : Kernel) : Buffer := fun index => k.memory (k.currentPcb + argumentsOffset + index)

/-- Beside the descriptors only the 128 argument bytes of the block change, and one of them ends the text. -/
structure ArgumentsInside (pcb : Nat) (created after : Memory) : Prop where
  stores : Set.EqOn after created
    (Memory.window (pcb + 64) 224 ∪ Memory.window (pcb + argumentsOffset) 128)ᶜ
  terminated : ∃ index < 128, after (pcb + argumentsOffset + index) = 0
  argPosition : readField after pcb .argPosition = readField created pcb .argPosition

/-- The current control block holds the text, which was read up to the position. -/
structure HoldsText (k : Kernel) (text : List UInt8) (position : Nat) : Prop where
  fits : k.currentPcb + 424 ≤ 4294967296
  short : text.length ≤ 127
  characters : 0 ∉ text
  held : Text.Held k.arguments text
  argPosition : k.current .argPosition = position
  within : position ≤ text.length

namespace Kernel

/-- This function makes consecutive calls of `sys_getargs`. -/
def getargsReads : Kernel → List (Nat × Buffer) → List ReadOutcome
  | _, [] => []
  | k, (request, before) :: rest =>
      let (result, after, k) := k.sysGetargs before request
      ⟨request, result, before, after⟩ :: getargsReads k rest

end Kernel

/-- The characters before the terminator of the buffer. -/
def ReadOutcome.piece (outcome : ReadOutcome) : List UInt8 := Text.upTo outcome.after outcome.request

/-- The pieces that the successful calls returned. -/
def pieces (outcomes : List ReadOutcome) : List UInt8 :=
  outcomes.flatMap fun outcome => if outcome.result = 0 then outcome.piece else []

/-- Each call keeps the bytes behind its buffer and returns the next terminated piece of the text, or -1
when nothing is left. -/
structure DeliversPieces (text : List UInt8) (outcomes : List ReadOutcome) : Prop where
  inside : ∀ outcome ∈ outcomes, ∀ index, outcome.request ≤ index → outcome.after index = outcome.before index
  terminated : ∀ outcome ∈ outcomes, outcome.result = 0 → ∃ index < outcome.request, outcome.after index = 0
  next : ∀ earlier outcome later, outcomes = earlier ++ outcome :: later →
    outcome.result = 0 ∧ pieces earlier ≠ text ∧ pieces (earlier ++ [outcome]) <+: text ∧
        (outcome.request = 1 ∨ outcome.piece ≠ []) ∨
      outcome.result = -1 ∧ pieces earlier = text

end OrcaOS
