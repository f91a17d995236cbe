import OrcaOS.Construction.Rtc
import OrcaOS.Specification.Screens

/-!
A rate of its own for each terminal: only the calls made while a terminal is on display count for it.
-/

namespace OrcaOS
open Foundation

/-- This function gives the rate that a call sets for the terminal it is made for. -/
def ClockEvent.callRate : ClockEvent → Int → Int
  | .rtcInit, _ => 512
  | .rtcOpen, _ => 512
  | .rtcWrite (some buf), rate =>
      let freq := signed32 (Memory.load32 buf 0)
      if freq ∈ [512, 256, 128, 64, 32, 16, 8, 4, 2] then (1024 : Int).tdiv freq else rate
  | _, rate => rate

def ClockEvent.shownAfter : ClockEvent → Fin 3 → Fin 3
  | .switchTerminal terminal, shown => (terminalOf terminal).getD shown
  | _, shown => shown

/-- One event with the terminal on display and the rate of the given terminal. -/
def ownStep (terminal : Fin 3) (state : Fin 3 × Int) (event : ClockEvent) : Fin 3 × Int :=
  (event.shownAfter state.1, if state.1 = terminal then event.callRate state.2 else state.2)

/-- The rate that the terminal has if the calls made for the other terminals are left out. -/
def ownRate (terminal shown : Fin 3) (events : List ClockEvent) : Int :=
  (events.foldl (ownStep terminal) (shown, 512)).2

def ClockEvent.initializes : ClockEvent → Bool
  | .rtcInit | .rtcOpen => true
  | _ => false

/-- The clock is initialized or opened only when the rates of all other terminals are the initial one. -/
def OpensAtInitialRates (clock : Clock) (event : ClockEvent) : Prop :=
  event.initializes = true →
    ∀ other ≠ clock.console.terminalOnDisplay, clock.rtc.frequencyDivisionRate other = 512

instance (clock : Clock) (event : ClockEvent) : Decidable (OpensAtInitialRates clock event) :=
  inferInstanceAs (Decidable (event.initializes = true →
    ∀ other ≠ clock.console.terminalOnDisplay, clock.rtc.frequencyDivisionRate other = 512))

end OrcaOS
