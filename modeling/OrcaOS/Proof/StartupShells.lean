import OrcaOS.Proof.BootSequence

/-!
The start of the system: timer ticks start three base shells, while terminals are switched and the
shells that have started execute programs.
-/

namespace OrcaOS
open Foundation Kernel

/-- The kernel with the process numbers of the shells that its scheduler has started. -/
structure Startup where
  kernel : Kernel
  launched : List Nat

inductive StartupEvent where
  | tick (literalTail : List UInt8) (locals : Locals) (registerEsp : Nat)
  | switchTerminal (terminal : Int)
  | execute (command : Command) (locals : Locals) (registerEsp : Nat)

/-- The tick executes a shell, and the shell gets past `system_execute`. -/
def Kernel.launches (k : Kernel) (literalTail : List UInt8) (locals : Locals) (registerEsp : Nat) : Bool :=
  (k.terminalInitFlag = 0 ∧ k.executeCounter < 3) &&
    ((tickPrepared k).systemExecute (shellLiteral literalTail) locals registerEsp).any
      fun (result, _) => result ≠ -1

/-- The command names a program that `sys_execute` takes for an executable. -/
def Kernel.admits (k : Kernel) (command : Command) (tempBuffer : Buffer) : Bool :=
  match command with
  | some (first :: rest) =>
      first ≠ 0 && k.processNumber < 6 && (firstWord (first :: rest) (maxCommandLen - 1)).any
        fun (processName, _) => (k.prepare processName tempBuffer).isExecutable
  | _ => false

namespace Startup

def step (state : Startup) : StartupEvent → Option Startup
  | .tick literalTail locals registerEsp =>
      (state.kernel.scheduler literalTail locals registerEsp).map fun after =>
        ⟨after, if state.kernel.launches literalTail locals registerEsp
          then state.launched ++ [state.kernel.processNumber] else state.launched⟩
  | .switchTerminal terminal => some ⟨state.kernel.switchTerminal terminal, state.launched⟩
  | .execute command locals registerEsp =>
      (state.kernel.systemExecute command locals registerEsp).map fun (_, after) => ⟨after, state.launched⟩

/-- A shell has to be started before it can execute a program. -/
def Issued (state : Startup) : StartupEvent → Prop
  | .execute _ _ _ => state.launched ≠ []
  | _ => True

/-- The first tick finds the first terminal on display, no program starts before the third tick, and
the arguments of each program fit in its slot. -/
def Orderly (state : Startup) : StartupEvent → Prop
  | .tick literalTail _ _ =>
      (state.kernel.executeCounter = 0 → state.kernel.console.terminalOnDisplay.val = 0) ∧
        ArgumentsFit (shellLiteral literalTail)
  | .switchTerminal _ => True
  | .execute command locals registerEsp =>
      state.Issued (.execute command locals registerEsp) ∧
        (state.kernel.executeCounter < 3 → state.kernel.admits command locals.tempBuffer = false) ∧
        ArgumentsFit command

/-- The three shells have the first numbers and terminals, and no later tick starts another one. -/
structure OneShellEach (state : Startup) : Prop where
  numbered : state.launched = [0, 1, 2]
  blocks : BaseShells 3 state.kernel.memory
  complete : ∀ literalTail locals registerEsp,
    state.kernel.launches literalTail locals registerEsp = false

instance (state : Startup) : (event : StartupEvent) → Decidable (state.Issued event)
  | .tick _ _ _ => .isTrue trivial
  | .switchTerminal _ => .isTrue trivial
  | .execute _ _ _ => inferInstanceAs (Decidable (_ ≠ _))

instance (state : Startup) : (event : StartupEvent) → Decidable (state.Orderly event)
  | .tick _ _ _ => inferInstanceAs (Decidable (_ ∧ _))
  | .switchTerminal _ => .isTrue trivial
  | .execute _ _ _ => inferInstanceAs (Decidable (_ ∧ _ ∧ _))

end Startup

theorem Reached.admits {k : Kernel} {command : Command} {processName tail : List UInt8}
    (reached : Reached k command processName tail) (tempBuffer : Buffer) :
    k.admits command tempBuffer = (k.prepare processName tempBuffer).isExecutable := by
  obtain ⟨valid, first, rest, rfl, nonzero, word⟩ := reached
  simp [Kernel.admits, nonzero, valid, word]

/-- The kernel and the shells while the ticks start them. -/
structure Launching (state : Startup) : Prop where
  terminalInitFlag : state.kernel.terminalInitFlag = 0
  recoverNum : state.kernel.recoverNum = 0
  few : state.launched.length ≤ min state.kernel.executeCounter 3
  ready : state.launched.length = min state.kernel.executeCounter 3 →
    state.launched = List.range state.launched.length ∧
      BaseShells state.launched.length state.kernel.memory ∧
      state.launched.length ≤ state.kernel.processNumber ∧
      (state.kernel.executeCounter < 3 → state.kernel.processNumber = state.launched.length)

namespace Launching
variable {state : Startup} {after : Kernel}

theorem initial (machine : Machine) : Launching ⟨entry machine, []⟩ where
  terminalInitFlag := rfl
  recoverNum := rfl
  few := Nat.zero_le _
  ready _ := ⟨rfl, ⟨fun number small => absurd small (Nat.not_lt_zero number),
    fun number small => absurd small (Nat.not_lt_zero number)⟩, Nat.zero_le _, fun _ => rfl⟩

/-- The variables of the startup are the same. -/
theorem congr (launching : Launching state) (flag : after.terminalInitFlag = state.kernel.terminalInitFlag)
    (recover : after.recoverNum = state.kernel.recoverNum)
    (counter : after.executeCounter = state.kernel.executeCounter)
    (number : after.processNumber = state.kernel.processNumber)
    (blocks : state.launched.length ≤ state.kernel.processNumber →
      BaseShells state.launched.length state.kernel.memory →
      BaseShells state.launched.length after.memory) : Launching ⟨after, state.launched⟩ where
  terminalInitFlag := flag.trans launching.terminalInitFlag
  recoverNum := recover.trans launching.recoverNum
  few := by
    rw [counter]
    exact launching.few
  ready all := by
    rw [counter] at all ⊢
    rw [number]
    obtain ⟨numbered, shells, above, next⟩ := launching.ready all
    exact ⟨numbered, blocks above shells, above, next⟩

/-- A program that starts after the third tick takes a slot above the shells. -/
theorem entered (launching : Launching state) (third : 3 ≤ state.kernel.executeCounter)
    {processName text : List UInt8} (effect : Entered processName text state.kernel after)
    (fits : text.length ≤ 7900) : Launching ⟨after, state.launched⟩ where
  terminalInitFlag := effect.terminalInitFlag.trans launching.terminalInitFlag
  recoverNum := effect.recoverNum.trans launching.recoverNum
  few := by
    rw [effect.executeCounter]
    exact launching.few
  ready all := by
    rw [effect.executeCounter] at all ⊢
    have few := launching.few
    obtain ⟨numbered, shells, above, _⟩ := launching.ready all
    refine ⟨numbered, shells.kept (effect.slots fits) above (by omega), ?_, fun early => by omega⟩
    rw [effect.processNumber]
    exact Nat.le_trans (Nat.le_succ_of_le above) (Nat.le_max_left _ _)

theorem rejected (launching : Launching state) {processName : List UInt8} (valid : state.kernel.processNumber < 6)
    (effect : Rejected processName state.kernel after) : Launching ⟨after, state.launched⟩ :=
  launching.congr effect.terminalInitFlag effect.recoverNum effect.executeCounter effect.processNumber
    fun above shells => shells.kept (effect.slotClaimed valid) above (by omega)

/-- Before the third tick an execute is refused, and afterwards it does not touch the shells. -/
theorem systemExecute (launching : Launching state) {command : Command} {locals : Locals}
    {registerEsp : Nat} {result : Int}
    (early : state.kernel.executeCounter < 3 → state.kernel.admits command locals.tempBuffer = false)
    (fit : ArgumentsFit command)
    (returned : state.kernel.systemExecute command locals registerEsp = some (result, after)) :
    Launching ⟨after, state.launched⟩ := by
  by_cases third : 3 ≤ state.kernel.executeCounter
  · cases systemExecute_outcome returned with
    | early => exact launching
    | rejected reached _ effect => exact launching.rejected reached.valid effect
    | unsaved reached copied effect => exact launching.entered third effect (reached.fits copied fit)
    | started reached copied _ effect => exact launching.entered third effect.toEntered (reached.fits copied fit)
  · have refused := early (by omega)
    obtain ⟨⟨value, loaded⟩, executed, wrapped⟩ := Option.map_eq_some_iff.mp returned
    cases sysExecute_outcome executed with
    | early =>
        obtain ⟨_, rfl⟩ := Prod.mk.inj wrapped
        exact launching
    | rejected reached _ effect =>
        obtain ⟨_, rfl⟩ := Prod.mk.inj wrapped
        exact launching.rejected reached.valid effect
    | accepted reached executable _ _ =>
        rw [reached.admits, executable] at refused
        cases refused

/-- A tick whose shell does not start leaves one shell missing for good. -/
theorem missed (launching : Launching state) (few : state.kernel.executeCounter < 3)
    (setting : SameSetting (tickPrepared state.kernel) after) : Launching ⟨after, state.launched⟩ := by
  obtain ⟨counter, flag, _, recover, _⟩ := tickPrepared_setting state.kernel
  have next : after.executeCounter = state.kernel.executeCounter + 1 := setting.executeCounter.trans counter
  have started := launching.few
  constructor
  · exact (setting.terminalInitFlag.trans flag).trans launching.terminalInitFlag
  · exact (setting.recoverNum.trans recover).trans launching.recoverNum
  · rw [next]
    dsimp only
    omega
  · rw [next]
    dsimp only
    intro all
    omega

/-- The shell of a tick takes the number of the tick and the terminal of this number. -/
theorem launched (launching : Launching state) (few : state.kernel.executeCounter < 3)
    (first : state.kernel.executeCounter = 0 → state.kernel.console.terminalOnDisplay = 0)
    {processName text : List UInt8} (effect : Entered processName text (tickPrepared state.kernel) after)
    (fits : text.length ≤ 7900) : Launching ⟨after, state.launched ++ [state.kernel.processNumber]⟩ := by
  obtain ⟨counter, flag, number, recover, _, memory, _⟩ := tickPrepared_setting state.kernel
  have next : after.executeCounter = state.kernel.executeCounter + 1 := effect.executeCounter.trans counter
  have started := launching.few
  have last : after.processNumber = state.kernel.processNumber + 1 := by
    rw [effect.processNumber, number, recover, launching.recoverNum]
    exact Nat.max_eq_left (Nat.zero_le _)
  constructor
  · exact (effect.terminalInitFlag.trans flag).trans launching.terminalInitFlag
  · exact (effect.recoverNum.trans recover).trans launching.recoverNum
  · rw [next]
    dsimp only
    rw [List.length_append, List.length_singleton]
    omega
  · intro all
    dsimp only at all ⊢
    rw [next, List.length_append, List.length_singleton] at all
    obtain ⟨numbered, shells, _, own⟩ := launching.ready (by omega)
    have process := own few
    have length : state.launched.length = state.kernel.executeCounter := by omega
    rw [← memory] at shells
    have shown := tickPrepared_terminal few first
    rw [List.length_append, List.length_singleton, last, process, next]
    refine ⟨?_, shells.claimed (effect.slots fits) (number.trans process) (shown.trans length.symm) (by omega),
      Nat.le_refl _, fun _ => rfl⟩
    rw [List.range_succ, ← numbered]

/-- A tick after the third one starts no shell. -/
theorem tick_late (launching : Launching state) (late : 3 ≤ state.kernel.executeCounter)
    {literalTail : List UInt8} {locals : Locals} {registerEsp : Nat}
    (tick : state.kernel.scheduler literalTail locals registerEsp = some after) :
    Launching ⟨after, state.launched⟩ := by
  have few := launching.few
  rw [scheduler, if_neg (fun early => by omega)] at tick
  split at tick
  · obtain rfl := Option.some.inj tick
    constructor
    · exact launching.terminalInitFlag
    · exact launching.recoverNum
    · dsimp only
      omega
    · intro all
      dsimp only at all ⊢
      obtain ⟨numbered, shells, above, _⟩ := launching.ready (by omega)
      exact ⟨numbered, shells, above, fun early => by omega⟩
  · obtain rfl := Option.some.inj tick
    exact launching

end Launching

theorem Launching.tick {state : Startup} {after : Kernel} (launching : Launching state)
    {literalTail : List UInt8} {locals : Locals} {registerEsp : Nat}
    (first : state.kernel.executeCounter = 0 → state.kernel.console.terminalOnDisplay = 0)
    (fit : ArgumentsFit (shellLiteral literalTail))
    (tick : state.kernel.scheduler literalTail locals registerEsp = some after) :
    Launching ⟨after, if state.kernel.launches literalTail locals registerEsp
      then state.launched ++ [state.kernel.processNumber] else state.launched⟩ := by
  by_cases few : state.kernel.executeCounter < 3
  · rw [scheduler_eq launching.terminalInitFlag few] at tick
    obtain ⟨⟨result, final⟩, returned, rfl⟩ := Option.map_eq_some_iff.mp tick
    have launches : state.kernel.launches literalTail locals registerEsp = decide (result ≠ -1) := by
      simp [Kernel.launches, launching.terminalInitFlag, few, returned]
    rw [launches]
    by_cases success : result ≠ -1
    · rw [if_pos (decide_eq_true success)]
      obtain ⟨_, _, _, reached, copied, effect⟩ := systemExecute_started returned success
      exact launching.launched few first effect.toEntered (reached.fits copied fit)
    · rw [if_neg (by simpa using success)]
      exact launching.missed few (systemExecute_setting returned)
  · have launches : state.kernel.launches literalTail locals registerEsp = false := by
      simp [Kernel.launches, few]
    rw [launches]
    exact launching.tick_late (by omega) tick

/-- Each orderly step keeps the shells on their terminals. -/
theorem Launching.step {before after : Startup} {event : StartupEvent} (launching : Launching before)
    (orderly : before.Orderly event) (taken : before.step event = some after) : Launching after := by
  cases event with
  | tick literalTail locals registerEsp =>
      obtain ⟨kernel, tick, rfl⟩ := Option.map_eq_some_iff.mp taken
      exact launching.tick (fun first => Fin.ext (orderly.1 first)) orderly.2 tick
  | switchTerminal terminal =>
      obtain rfl := Option.some.inj taken
      exact launching.congr rfl rfl rfl rfl fun _ shells => shells
  | execute command locals registerEsp =>
      obtain ⟨⟨result, kernel⟩, returned, rfl⟩ := Option.map_eq_some_iff.mp taken
      exact launching.systemExecute orderly.2.1 orderly.2.2 returned

/-- In every orderly run the third shell completes one base shell for each terminal. -/
theorem startup_one_shell_each {machine : Machine} {events : List StartupEvent} {state : Startup}
    (run : Run Startup.step Startup.Orderly ⟨entry machine, []⟩ events state)
    (third : state.launched.length = 3) : state.OneShellEach := by
  have launching : Launching state :=
    run.invariant Launching (.initial machine) fun _ _ _ earlier orderly taken => earlier.step orderly taken
  have few := launching.few
  rw [third] at few
  obtain ⟨numbered, shells, _⟩ := launching.ready (by omega)
  rw [third] at numbered shells
  refine ⟨numbered, shells, fun literalTail locals registerEsp => ?_⟩
  have late : ¬state.kernel.executeCounter < 3 := by omega
  simp [Kernel.launches, late]

section Sample

/-- One tick of the sample machine. -/
def sampleTick : StartupEvent := .tick [0] sampleLocals 0x7fff00

/-- Terminals are switched and a missing program is executed while the sample machine starts. -/
theorem startup_one_shell_each_sample : ∃ state : Startup, state.launched.length = 3 ∧ state.OneShellEach := by
  let events : List StartupEvent := [sampleTick, .switchTerminal 2,
    .execute missingCommand sampleLocals 0x7fff00, sampleTick, .switchTerminal 0, sampleTick,
    .execute (sampleCommand 1) sampleLocals 0x7fff00, sampleTick]
  have executes : ((execute Startup.step (fun state event => decide (state.Orderly event))
      ⟨entry sampleMachine, []⟩ events).any fun state => decide (state.launched.length = 3)) = true := by
    decide +kernel
  obtain ⟨state, executed, third⟩ := (Option.any_eq_true _ _).mp executes
  have run := run_of_execute (fun _ _ => of_decide_eq_true) executed
  exact ⟨state, of_decide_eq_true third, startup_one_shell_each run (of_decide_eq_true third)⟩

/-- The first shell starts on the second terminal after a switch before the first tick, and the second
shell loses its number to a program that the first one executes before the second tick. -/
theorem startup_mixed_up :
    (∃ events state, Run Startup.step Startup.Issued ⟨entry sampleMachine, []⟩ events state ∧
      state.launched.length = 3 ∧ readField state.kernel.memory (pcbAddress 0) .parentTerminal = 1 ∧
      ¬state.OneShellEach) ∧
    ∃ events state, Run Startup.step Startup.Issued ⟨entry sampleMachine, []⟩ events state ∧
      state.launched = [0, 2, 3] ∧ ¬state.OneShellEach := by
  let switched : List StartupEvent := [.switchTerminal 1, sampleTick, sampleTick, sampleTick]
  let executed : List StartupEvent :=
    [sampleTick, .execute (sampleCommand 1) sampleLocals 0x7fff00, sampleTick, sampleTick]
  have misplaced : ((execute Startup.step (fun state event => decide (state.Issued event))
      ⟨entry sampleMachine, []⟩ switched).any fun state => decide (state.launched.length = 3 ∧
        readField state.kernel.memory (pcbAddress 0) .parentTerminal = 1)) = true := by decide +kernel
  have misnumbered : ((execute Startup.step (fun state event => decide (state.Issued event))
      ⟨entry sampleMachine, []⟩ executed).any fun state => decide (state.launched = [0, 2, 3])) = true := by
    decide +kernel
  obtain ⟨first, ran, misplaced⟩ := (Option.any_eq_true _ _).mp misplaced
  obtain ⟨second, reran, misnumbered⟩ := (Option.any_eq_true _ _).mp misnumbered
  obtain ⟨third, terminal⟩ := of_decide_eq_true misplaced
  have numbers := of_decide_eq_true misnumbered
  refine ⟨⟨switched, first, run_of_execute (fun _ _ => of_decide_eq_true) ran, third, terminal, fun each => ?_⟩,
    executed, second, run_of_execute (fun _ _ => of_decide_eq_true) reran, numbers, fun each => ?_⟩
  · rw [each.blocks.parents 0 (by decide)] at terminal
    cases terminal
  · rw [each.numbered] at numbers
    cases numbers

end Sample

end OrcaOS
