import OrcaOS.Proof.ClockRate
import OrcaOS.Specification.ClockRates
import OrcaOS.Proof.BootSequence

/-!
The rates of the terminals are independent as long as nobody opens the clock while another terminal
has set its rate: `rtc_open` initializes the rates of all terminals.
-/

namespace OrcaOS
open Foundation

namespace Clock
variable {clock after : Clock} {event : ClockEvent}

theorem step_shown (taken : clock.step event = some after) :
    after.console.terminalOnDisplay = event.shownAfter clock.console.terminalOnDisplay := by
  cases event with
  | switchTerminal terminal =>
      obtain rfl := Option.some.inj taken
      dsimp only
      cases inside : terminalOf terminal with
      | none =>
          rw [clock.console.switchTerminal_of_none inside, ClockEvent.shownAfter, inside]
          rfl
      | some next =>
          rw [(clock.console.switchTerminal_switchesTo inside).shown, ClockEvent.shownAfter, inside]
          rfl
  | rtcHandler =>
      obtain ⟨rtc, -, rfl⟩ := Option.map_eq_some_iff.mp taken
      rfl
  | rtcInit | rtcOpen | rtcClose | rtcWrite =>
      obtain rfl := Option.some.inj taken
      rfl

/-- A write sets the rate of the terminal on display, and an initialization those of all terminals. -/
theorem step_rates (taken : clock.step event = some after) : after.rtc.frequencyDivisionRate =
    if event.initializes then fun _ => 512
    else Function.update clock.rtc.frequencyDivisionRate clock.console.terminalOnDisplay
      (event.callRate (clock.rtc.frequencyDivisionRate clock.console.terminalOnDisplay)) := by
  cases event with
  | rtcInit =>
      obtain rfl := Option.some.inj taken
      rfl
  | rtcOpen =>
      obtain rfl := Option.some.inj taken
      exact (clock.rtc.rtcInit.rtcSetFreq_virtual 1024).1
  | rtcClose =>
      obtain rfl := Option.some.inj taken
      exact (clock.rtc.rtcSetFreq_virtual 1024).1.trans (Function.update_eq_self _ _).symm
  | rtcWrite buf =>
      obtain rfl := Option.some.inj taken
      cases buf with
      | none => exact (Function.update_eq_self _ _).symm
      | some buf =>
          have written : ¬ClockEvent.initializes (.rtcWrite (some buf)) = true := Bool.false_ne_true
          rw [if_neg written, Rtc.rtcWrite, Rtc.rtcSetVirtualizedFreq, ClockEvent.callRate]
          dsimp only
          split_ifs
          · rfl
          · exact (Function.update_eq_self _ _).symm
  | rtcHandler =>
      obtain ⟨rtc, handled, rfl⟩ := Option.map_eq_some_iff.mp taken
      rw [Rtc.rtcHandler] at handled
      split at handled
      · cases handled
      · obtain rfl := Option.some.inj handled
        exact (Function.update_eq_self _ _).symm
  | switchTerminal terminal =>
      obtain rfl := Option.some.inj taken
      exact (Function.update_eq_self _ _).symm

/-- A call sets the rate of the terminal on display. -/
theorem step_ownRate (taken : clock.step event = some after) :
    after.rtc.frequencyDivisionRate clock.console.terminalOnDisplay =
      event.callRate (clock.rtc.frequencyDivisionRate clock.console.terminalOnDisplay) := by
  rw [step_rates taken]
  split_ifs with initializes
  · cases event <;> first | rfl | cases initializes
  · exact Function.update_self _ _ _

/-- An event keeps the rates of the other terminals exactly if they have their initial rates when it
initializes the clock. -/
theorem step_otherRates_iff (taken : clock.step event = some after) :
    (∀ other ≠ clock.console.terminalOnDisplay,
      after.rtc.frequencyDivisionRate other = clock.rtc.frequencyDivisionRate other) ↔
      OpensAtInitialRates clock event := by
  rw [step_rates taken, OpensAtInitialRates]
  split_ifs with initializes
  · constructor
    · intro kept _ other different
      exact (kept other different).symm
    · intro initial other different
      exact (initial initializes other different).symm
  · constructor
    · intro _ impossible
      exact absurd impossible initializes
    · intro _ other different
      exact Function.update_of_ne different _ _

/-- In a run that opens the clock at initial rates only, each rate comes from its own calls. -/
theorem run_ownRate {start : Clock} {events : List ClockEvent} {final : Clock} (terminal : Fin 3)
    (initial : start.rtc.frequencyDivisionRate terminal = 512)
    (run : Run step OpensAtInitialRates start events final) :
    events.foldl (ownStep terminal) (start.console.terminalOnDisplay, 512) =
      (final.console.terminalOnDisplay, final.rtc.frequencyDivisionRate terminal) := by
  induction run with
  | nil =>
      rw [List.foldl_nil, initial]
  | @snoc events before after event earlier permitted taken ih =>
      rw [List.foldl_append, ih, List.foldl_cons, List.foldl_nil, ownStep, step_shown taken]
      dsimp only
      split_ifs with own
      · rw [← own, step_ownRate taken]
      · rw [(step_otherRates_iff taken).mpr permitted terminal (Ne.symm own)]

end Clock

section Sample

/-- The frequency that a program writes, in little-endian order. -/
def frequencyBuffer (freq : Nat) : Option Buffer := some (cString (sampleWord freq))

end Sample

/-- Each rate depends on the calls of its own terminal only, in every run that opens the clock at
initial rates of the other terminals; and no other call to open the clock keeps their rates. -/
theorem clock_rates_independent {console : Console} {rtc : Rtc} {events : List ClockEvent}
    {final : Clock}
    (run : Run Clock.step OpensAtInitialRates ⟨console, rtc.rtcInit⟩ events final) :
    (∀ terminal, final.rtc.frequencyDivisionRate terminal =
        ownRate terminal console.terminalOnDisplay events) ∧
      ∀ event after, final.step event = some after →
        ((∀ other ≠ final.console.terminalOnDisplay,
          after.rtc.frequencyDivisionRate other = final.rtc.frequencyDivisionRate other) ↔
          OpensAtInitialRates final event) := by
  constructor
  · intro terminal
    exact (congrArg Prod.snd (Clock.run_ownRate terminal rfl run)).symm
  · intro event after taken
    exact Clock.step_otherRates_iff taken

/-- The second terminal opens the clock before the first one sets its rate. -/
theorem clock_rates_independent_sample : ∃ final : Clock, ∀ terminal,
    final.rtc.frequencyDivisionRate terminal = ownRate terminal 0
      [.switchTerminal 1, .rtcOpen, .rtcWrite (frequencyBuffer 32), .rtcClose, .switchTerminal 0,
        .rtcWrite (frequencyBuffer 128), .rtcHandler] := by
  have executes : (execute Clock.step (fun clock event => decide (OpensAtInitialRates clock event))
      ⟨sampleKernel.console, sampleKernel.rtc.rtcInit⟩
      [.switchTerminal 1, .rtcOpen, .rtcWrite (frequencyBuffer 32), .rtcClose, .switchTerminal 0,
        .rtcWrite (frequencyBuffer 128), .rtcHandler]).isSome = true := by decide +kernel
  have shown : sampleKernel.console.terminalOnDisplay = 0 := by decide +kernel
  obtain ⟨final, executed⟩ := Option.isSome_iff_exists.mp executes
  have run := run_of_execute (fun _ _ => of_decide_eq_true) executed
  have rates := (clock_rates_independent run).1
  rw [shown] at rates
  exact ⟨final, rates⟩

/-- After the first terminal has set its rate, the second one resets it by opening the clock. -/
theorem clock_rates_reset : ∃ events final after,
    Run Clock.step (fun _ _ => True) ⟨sampleKernel.console, sampleKernel.rtc.rtcInit⟩ events final ∧
      final.step .rtcOpen = some after ∧ final.console.terminalOnDisplay = 1 ∧
      after.rtc.frequencyDivisionRate 0 ≠ final.rtc.frequencyDivisionRate 0 := by
  have reset : ((execute Clock.step (fun _ _ => true)
      ⟨sampleKernel.console, sampleKernel.rtc.rtcInit⟩
      [.rtcWrite (frequencyBuffer 128), .switchTerminal 1]).any fun final =>
      (final.step .rtcOpen).any fun after => decide (final.console.terminalOnDisplay = 1 ∧
        after.rtc.frequencyDivisionRate 0 ≠ final.rtc.frequencyDivisionRate 0)) = true := by
    decide +kernel
  obtain ⟨final, executed, reset⟩ := (Option.any_eq_true _ _).mp reset
  obtain ⟨after, opened, reset⟩ := (Option.any_eq_true _ _).mp reset
  obtain ⟨shown, differs⟩ := of_decide_eq_true reset
  exact ⟨_, final, after, run_of_execute (fun _ _ _ => trivial) executed, opened, shown, differs⟩

end OrcaOS
