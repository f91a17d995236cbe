import OrcaOS.Construction.Rtc
import OrcaOS.Foundation.Cycle
import OrcaOS.Proof.Screens

/-!
The virtual rate of the real-time clock: the handler wakes a reader at evenly spaced interrupts,
also where its counter wraps.
-/

namespace OrcaOS
open Foundation

/-- Every rate is a power of two between 2 and 512, and the counter is below 1024. -/
structure RatesValid (rtc : Rtc) : Prop where
  rates : ∀ terminal, ∃ n, 1 ≤ n ∧ n ≤ 9 ∧ rtc.frequencyDivisionRate terminal = (2 ^ n : Nat)
  counter : rtc.virtualizationCounter ≤ 1023

namespace Rtc
variable (rtc : Rtc)

theorem rtcInit_valid : RatesValid rtc.rtcInit where
  rates _ := ⟨9, by decide, by decide, rfl⟩
  counter := Nat.zero_le _

/-- Setting the hardware frequency changes no virtual rate. -/
theorem rtcSetFreq_virtual (freq : BitVec 32) :
    (rtc.rtcSetFreq freq).2.frequencyDivisionRate = rtc.frequencyDivisionRate ∧
      (rtc.rtcSetFreq freq).2.virtualizationCounter = rtc.virtualizationCounter := by
  unfold rtcSetFreq
  dsimp only
  split <;> exact ⟨rfl, rfl⟩

/-- Each accepted frequency is a power of two, and so is the rate that the driver stores for it. -/
theorem accepted_rate {freq : Int} (accepted : freq ∈ [512, 256, 128, 64, 32, 16, 8, 4, 2]) :
    ∃ n, 1 ≤ n ∧ n ≤ 9 ∧ (1024 : Int).tdiv freq = (2 ^ n : Nat) := by
  simp only [List.mem_cons, List.not_mem_nil, or_false] at accepted
  rcases accepted with rfl | rfl | rfl | rfl | rfl | rfl | rfl | rfl | rfl
  · exact ⟨1, by decide⟩
  · exact ⟨2, by decide⟩
  · exact ⟨3, by decide⟩
  · exact ⟨4, by decide⟩
  · exact ⟨5, by decide⟩
  · exact ⟨6, by decide⟩
  · exact ⟨7, by decide⟩
  · exact ⟨8, by decide⟩
  · exact ⟨9, by decide⟩

variable {rtc}

theorem rtcOpen_valid : RatesValid rtc.rtcOpen.2 := by
  obtain ⟨rates, counter⟩ := rtc.rtcInit.rtcSetFreq_virtual 1024
  constructor
  · rw [rtcOpen, rates]
    exact rtc.rtcInit_valid.rates
  · rw [rtcOpen, counter]
    exact rtc.rtcInit_valid.counter

theorem rtcClose_valid (valid : RatesValid rtc) : RatesValid rtc.rtcClose.2 := by
  obtain ⟨rates, counter⟩ := rtc.rtcSetFreq_virtual 1024
  constructor
  · rw [rtcClose, rates]
    exact valid.rates
  · rw [rtcClose, counter]
    exact valid.counter

theorem rtcSetVirtualizedFreq_valid (valid : RatesValid rtc) (shown : Fin 3) (freq : Int) :
    RatesValid (rtc.rtcSetVirtualizedFreq shown freq).2 := by
  unfold rtcSetVirtualizedFreq
  split
  · rename_i accepted
    refine ⟨fun terminal => ?_, valid.counter⟩
    dsimp only
    rw [Function.update_apply]
    split_ifs
    · exact accepted_rate accepted
    · exact valid.rates terminal
  · exact valid

theorem rtcWrite_valid (valid : RatesValid rtc) (shown : Fin 3) (buf : Option Buffer) :
    RatesValid (rtc.rtcWrite shown buf).2 := by
  cases buf with
  | none => exact valid
  | some buf => exact rtcSetVirtualizedFreq_valid valid shown _

/-- The clock after one run of the handler. -/
def handled (rtc : Rtc) (shown : Fin 3) : Rtc :=
  { rtc with
    virtualizationCounter := rtc.tickedCounter
    interruptFlag := rtc.interruptFlag || rtc.wakesUp shown }

theorem handled_valid (valid : RatesValid rtc) (shown : Fin 3) : RatesValid (rtc.handled shown) where
  rates := valid.rates
  counter := by
    change (rtc.virtualizationCounter + 1) % 1024 ≤ 1023
    omega

/-- A valid rate is not zero, so the handler does not fail. -/
theorem rtcHandler_eq (valid : RatesValid rtc) (shown : Fin 3) :
    rtc.rtcHandler shown = some (rtc.handled shown) := by
  obtain ⟨n, -, -, rate⟩ := valid.rates shown
  have positive : 0 < 2 ^ n := Nat.two_pow_pos n
  refine if_neg ?_
  rw [rate]
  omega

end Rtc

namespace Clock
variable {clock : Clock}

/-- Every event leaves valid rates, and the handler does not fail. -/
theorem step_valid (valid : RatesValid clock.rtc) (event : ClockEvent) :
    ∃ after, clock.step event = some after ∧ RatesValid after.rtc := by
  cases event with
  | rtcInit => exact ⟨_, rfl, clock.rtc.rtcInit_valid⟩
  | rtcOpen => exact ⟨_, rfl, Rtc.rtcOpen_valid⟩
  | rtcClose => exact ⟨_, rfl, Rtc.rtcClose_valid valid⟩
  | rtcWrite buf => exact ⟨_, rfl, Rtc.rtcWrite_valid valid _ buf⟩
  | rtcHandler =>
      rw [step, Rtc.rtcHandler_eq valid]
      exact ⟨_, rfl, Rtc.handled_valid valid _⟩
  | switchTerminal terminal => exact ⟨_, rfl, valid⟩

theorem run_valid (valid : RatesValid clock.rtc) (events : List ClockEvent) :
    ∃ final, events.foldlM step clock = some final ∧ RatesValid final.rtc := by
  induction events generalizing clock with
  | nil => exact ⟨clock, rfl, valid⟩
  | cons event rest ih =>
      obtain ⟨after, taken, later⟩ := step_valid valid event
      obtain ⟨final, finished, last⟩ := ih later
      exact ⟨final, by rw [List.foldlM_cons, taken]; exact finished, last⟩

end Clock

/-- The events that neither open nor write the clock nor switch the terminal. -/
def ClockEvent.Quiet (event : ClockEvent) : Prop := event = .rtcHandler ∨ event = .rtcClose

def ClockEvent.isHandler : ClockEvent → Bool
  | .rtcHandler => true
  | _ => false

namespace Clock

/-- What is observed at each run of the handler. -/
def atHandlers (observed : Clock → Bool) : Clock → List ClockEvent → List Bool
  | _, [] => []
  | clock, event :: rest =>
      let later := (clock.step event).elim [] fun after => after.atHandlers observed rest
      if event.isHandler then observed clock :: later else later

/-- The wake-up condition at each run of the handler. -/
def wakeUps : Clock → List ClockEvent → List Bool :=
  atHandlers fun clock => clock.rtc.wakesUp clock.console.terminalOnDisplay

/-- The handler sets the flag that a reader has cleared before its wait. -/
def raisesFlag (clock : Clock) : Bool :=
  ({ clock.rtc with interruptFlag := false }.rtcHandler clock.console.terminalOnDisplay).elim false (·.interruptFlag)

def raisedFlags : Clock → List ClockEvent → List Bool := atHandlers raisesFlag

variable {clock : Clock}

/-- The flag is raised exactly at the wake-up conditions. -/
theorem raisedFlags_eq (valid : RatesValid clock.rtc) (events : List ClockEvent) :
    clock.raisedFlags events = clock.wakeUps events := by
  induction events generalizing clock with
  | nil => rfl
  | cons event rest ih =>
      obtain ⟨after, taken, later⟩ := step_valid valid event
      have raised : clock.raisesFlag = clock.rtc.wakesUp clock.console.terminalOnDisplay := by
        have cleared : RatesValid { clock.rtc with interruptFlag := false } := ⟨valid.rates, valid.counter⟩
        rw [raisesFlag, Rtc.rtcHandler_eq cleared]
        exact Bool.false_or _
      unfold raisedFlags wakeUps at ih ⊢
      rw [atHandlers, atHandlers, taken, raised]
      dsimp only [Option.elim_some]
      rw [ih later]

theorem wakesUp_eq {rate : Nat}
    (same : clock.rtc.frequencyDivisionRate clock.console.terminalOnDisplay = rate) :
    clock.rtc.wakesUp clock.console.terminalOnDisplay =
      decide ((clock.rtc.virtualizationCounter + 1) % 1024 % rate = 0) := by
  rw [Rtc.wakesUp, same, Rtc.tickedCounter, ← Int.ofNat_tmod]
  simp only [Int.natCast_eq_zero]

/-- While the rate is not changed the handler raises the signal of its counter. -/
theorem wakeUps_eq (valid : RatesValid clock.rtc) {rate : Nat}
    (same : clock.rtc.frequencyDivisionRate clock.console.terminalOnDisplay = rate)
    {events : List ClockEvent} (quiet : ∀ event ∈ events, event.Quiet) :
    clock.wakeUps events = Cycle.signals 1024 rate clock.rtc.virtualizationCounter
      (events.countP ClockEvent.isHandler) := by
  induction events generalizing clock with
  | nil => rfl
  | cons event rest ih =>
      have others : ∀ event ∈ rest, event.Quiet := fun event member => quiet event (by simp [member])
      rcases quiet event List.mem_cons_self with rfl | rfl
      · -- The handler raises the first signal and leaves the ticked counter.
        have first : clock.wakeUps (.rtcHandler :: rest) =
            clock.rtc.wakesUp clock.console.terminalOnDisplay ::
              (clock.step .rtcHandler).elim [] fun after => after.wakeUps rest := rfl
        have later := @ih { clock with rtc := clock.rtc.handled clock.console.terminalOnDisplay }
          (Rtc.handled_valid valid _) same others
        rw [first, step, Rtc.rtcHandler_eq valid, wakesUp_eq same, List.countP_cons_of_pos rfl,
          Cycle.signals_succ]
        exact congrArg _ later
      · obtain ⟨rates, counter⟩ := clock.rtc.rtcSetFreq_virtual 1024
        have first : clock.wakeUps (.rtcClose :: rest) =
            wakeUps { clock with rtc := clock.rtc.rtcClose.2 } rest := rfl
        have kept : clock.rtc.rtcClose.2.frequencyDivisionRate clock.console.terminalOnDisplay = rate := by
          rw [Rtc.rtcClose, rates]
          exact same
        have later := @ih { clock with rtc := clock.rtc.rtcClose.2 } (Rtc.rtcClose_valid valid) kept others
        have passed : ¬ClockEvent.isHandler .rtcClose = true := by decide
        rw [first, later, List.countP_cons_of_neg passed]
        exact congrArg (Cycle.signals 1024 rate · _) counter

end Clock

/-- After the first initialization the rates stay valid, no handler divides by zero, and from every
state 1024 runs of the handler set the flag of a waiting reader at evenly spaced interrupts. -/
theorem clock_wakes_evenly (console : Console) (rtc : Rtc) (events : List ClockEvent) :
    ∃ final, events.foldlM Clock.step ⟨console, rtc.rtcInit⟩ = some final ∧ RatesValid final.rtc ∧
      ∃ rate : Nat, final.rtc.frequencyDivisionRate final.console.terminalOnDisplay = rate ∧
        ∀ quiet : List ClockEvent, (∀ event ∈ quiet, event.Quiet) →
          quiet.countP ClockEvent.isHandler = 1024 →
          final.raisedFlags quiet = final.wakeUps quiet ∧ (final.wakeUps quiet).length = 1024 ∧
            (final.wakeUps quiet).count true = 1024 / rate ∧ Cycle.EvenlySpaced rate (final.wakeUps quiet) := by
  have started : RatesValid (Clock.mk console rtc.rtcInit).rtc := rtc.rtcInit_valid
  obtain ⟨final, finished, valid⟩ := Clock.run_valid started events
  obtain ⟨n, low, high, same⟩ := valid.rates final.console.terminalOnDisplay
  have divides : 2 ^ n ∣ 1024 := Nat.pow_dvd_pow 2 (show n ≤ 10 by omega)
  refine ⟨final, finished, valid, 2 ^ n, same, ?_⟩
  intro quiet calm count
  rw [Clock.raisedFlags_eq valid, Clock.wakeUps_eq valid same calm, count]
  exact ⟨rfl, Cycle.length_signals _ _ _ _, Cycle.count_signals (Nat.two_pow_pos n) divides,
    Cycle.signals_evenlySpaced divides⟩

end OrcaOS
