import OrcaOS.Proof.BootSequence

/-!
A new process never takes the slot of a live one while each halt finds its own number.
-/

namespace OrcaOS
open Foundation Kernel

/-- A kernel with the numbers of the processes that were started and have not halted. -/
structure Population where
  kernel : Kernel
  live : List Nat

namespace Population

/-- A successful execute adds its process, and the process that calls halt leaves. -/
def step (state : Population) : Event → Option Population
  | .execute command locals registerEsp =>
      (state.kernel.systemExecute command locals registerEsp).map fun (result, after) =>
        ⟨after, if result = -1 then state.live else state.kernel.processNumber :: state.live⟩
  | .halt literalTail locals registerEsp =>
      (state.kernel.systemHalt literalTail locals registerEsp).map fun after =>
        let others := state.live.filter fun number => pcbAddress number ≠ state.kernel.currentPcb
        ⟨after, if state.kernel.haltsDirectly then others
          else state.kernel.console.terminalOnDisplay.val :: others⟩
  | .switchTerminal terminal => some ⟨state.kernel.switchTerminal terminal, state.live⟩
  | .vidmap screenStart => some ⟨(state.kernel.sysVidmap screenStart).2, state.live⟩

end Population

/-- The number that `create_pcb` is about to use in an event. -/
def Claims (k : Kernel) (event : Event) (number : Nat) : Prop :=
  match event with
  | .execute command _ _ =>
      number = k.processNumber ∧ ∃ processName tail, Reached k command processName tail
  | .halt _ _ _ => k.haltsDirectly = false ∧ number = k.console.terminalOnDisplay
  | _ => False

/-- A restart replaces the process that halts and the shell that is restarted. -/
def Replaced (k : Kernel) (event : Event) (number : Nat) : Prop :=
  match event with
  | .halt _ _ _ => number = k.console.terminalOnDisplay ∨ pcbAddress number = k.currentPcb
  | _ => False

/-- No event is about to give the slot of a live process to another one. -/
def SlotFree (state : Population) : Prop :=
  ∀ event number, Claims state.kernel event number → number ∈ state.live →
    Replaced state.kernel event number

/-- A base shell that halts is restarted, and a nested program finds its own number in its table. -/
def HaltsInOrder (k : Kernel) : Prop :=
  if k.current .processNum ≤ 2 then k.haltsDirectly = false
  else k.haltsDirectly = true ∧
    k.lastEntry.map (activeProcesses k.memory k.homePcb) = some (k.current .processNum)

instance (k : Kernel) : Decidable (HaltsInOrder k) := by
  unfold HaltsInOrder
  infer_instance

/-- The condition on the steps of a run. -/
def Orderly (state : Population) : Event → Prop
  | .execute command _ _ => ArgumentsFit command
  | .halt literalTail _ _ => HaltsInOrder state.kernel ∧ ArgumentsFit (shellLiteral literalTail)
  | .switchTerminal _ => True
  | .vidmap _ => False

instance (state : Population) : (event : Event) → Decidable (Orderly state event)
  | .execute command _ _ => inferInstanceAs (Decidable (ArgumentsFit command))
  | .halt _ _ _ => inferInstanceAs (Decidable (_ ∧ _))
  | .switchTerminal _ => .isTrue trivial
  | .vidmap _ => .isFalse id

/-- The process that runs has the number right below the counter, or it is a base shell. -/
structure Ordered (running : Nat) (state : Population) : Prop where
  low : 3 ≤ state.kernel.processNumber
  high : state.kernel.processNumber ≤ 6
  recoverNum : state.kernel.recoverNum ≤ 3
  numbers : ∀ number < state.kernel.processNumber,
    readField state.kernel.memory (pcbAddress number) .processNum = number
  currentPcb : state.kernel.currentPcb = pcbAddress running
  below : running < state.kernel.processNumber
  top : running + 1 = state.kernel.processNumber ∨ state.kernel.processNumber = 3
  live : ∀ number ∈ state.live, number < state.kernel.processNumber

theorem Booted.ordered {k : Kernel} (booted : Booted k) : Ordered 2 ⟨k, [2, 1, 0]⟩ := by
  have number := booted.processNumber
  constructor <;> dsimp only <;> try omega
  · have recover := booted.recoverNum
    omega
  · intro other small
    exact booted.numbers other (by omega)
  · exact booted.currentPcb
  · intro other member
    simp only [List.mem_cons, List.not_mem_nil, or_false] at member
    omega

namespace Ordered
variable {running : Nat} {state : Population} {after : Kernel}

theorem slotFree (ordered : Ordered running state) : SlotFree state := by
  rintro event number claims member
  cases event with
  | execute =>
      have small := ordered.live number member
      rw [claims.1] at small
      exact absurd small (Nat.lt_irrefl _)
  | halt => exact .inl claims.2
  | switchTerminal => exact claims.elim
  | vidmap => exact claims.elim

theorem current_processNum (ordered : Ordered running state) :
    state.kernel.current .processNum = running := by
  rw [current, ordered.currentPcb]
  exact ordered.numbers running ordered.below

theorem aligned (ordered : Ordered running state) : state.kernel.currentPcb % 8192 = 0 := by
  rw [ordered.currentPcb]
  exact pcbAddress_aligned _

/-- A process that was started runs on top of the others. -/
theorem entered {live : List Nat} {processName text : List UInt8} (ordered : Ordered running state)
    (effect : Entered processName text state.kernel after) (fits : text.length ≤ 7900)
    (few : ∀ number ∈ live, number ≤ state.kernel.processNumber) :
    Ordered state.kernel.processNumber ⟨after, live⟩ := by
  have low := ordered.low
  have valid := effect.valid
  have recover := ordered.recoverNum
  have claimed := effect.slots fits
  have next : after.processNumber = state.kernel.processNumber + 1 := by
    rw [effect.processNumber]
    omega
  constructor <;> dsimp only <;> try omega
  · rw [effect.recoverNum]
    exact recover
  · intro number small
    by_cases own : number = state.kernel.processNumber
    · rw [own]
      exact claimed.processNum
    · rw [claimed.others number (by omega) own .processNum trivial (by simp)]
      exact ordered.numbers number (by omega)
  · exact effect.currentPcb
  · intro number member
    have := few number member
    omega

theorem rejected {processName : List UInt8} (ordered : Ordered running state)
    (valid : state.kernel.processNumber < 6) (effect : Rejected processName state.kernel after) :
    Ordered (state.kernel.processNumber - 1) ⟨after, state.live⟩ := by
  have low := ordered.low
  have same := effect.processNumber
  have claimed := effect.slotClaimed valid
  constructor <;> dsimp only <;> try omega
  · rw [effect.recoverNum]
    exact ordered.recoverNum
  · intro number small
    rw [claimed.others number (by omega) (by omega) .processNum trivial (by simp)]
    exact ordered.numbers number (by omega)
  · rw [effect.currentPcb, pcbAddress, Nat.sub_add_cancel (by omega)]
  · intro number member
    rw [same]
    exact ordered.live number member

/-- A nested program that finds its own number gives back the number right below the counter. -/
theorem halted (ordered : Ordered running state) (nested : ¬running ≤ 2)
    (own : state.kernel.lastEntry.map (activeProcesses state.kernel.memory state.kernel.homePcb) =
      some running) (effect : Halted state.kernel after) :
    Ordered (running - 1) ⟨after,
      state.live.filter fun number => pcbAddress number ≠ state.kernel.currentPcb⟩ := by
  have below := ordered.below
  have top := ordered.top
  have returned : state.kernel.returnNumber = running := by
    obtain ⟨index, found, value⟩ := Option.map_eq_some_iff.mp own
    rw [returnNumber, found]
    exact value
  have number : after.processNumber = running := effect.processNumber.trans returned
  constructor <;> dsimp only <;> try omega
  · have high := ordered.high
    omega
  · rw [effect.recoverNum]
    exact ordered.recoverNum
  · intro other small
    rw [effect.kept ordered.aligned (pcbAddress_aligned _) (.inl (by decide))]
    exact ordered.numbers other (by omega)
  · rw [effect.currentPcb, returned, pcbAddress, Nat.sub_add_cancel (by omega)]
  · intro other member
    obtain ⟨member, different⟩ := List.mem_filter.mp member
    have small := ordered.live other member
    have unequal : other ≠ running := by
      rintro rfl
      exact absurd ordered.currentPcb.symm (by simpa using different)
    omega

/-- A base shell is restarted while no program runs. -/
theorem restarted {processName text : List UInt8} (ordered : Ordered running state) (base : running ≤ 2)
    (effect : Entered processName text { state.kernel with
      currentPcb := 0
      recoverNum := state.kernel.processNumber
      processNumber := state.kernel.console.terminalOnDisplay } after) (fits : text.length ≤ 7900) :
    Ordered state.kernel.console.terminalOnDisplay ⟨after,
      state.kernel.console.terminalOnDisplay.val ::
        state.live.filter fun number => pcbAddress number ≠ state.kernel.currentPcb⟩ := by
  have low := ordered.low
  have top := ordered.top
  have shown := state.kernel.console.terminalOnDisplay.isLt
  have claimed := effect.slots fits
  have three : state.kernel.processNumber = 3 := by omega
  have number : after.processNumber = 3 := by
    rw [effect.processNumber]
    dsimp only
    omega
  constructor <;> dsimp only <;> try omega
  · rw [effect.recoverNum]
    exact Nat.le_of_eq three
  · intro other small
    by_cases own : other = state.kernel.console.terminalOnDisplay
    · rw [own]
      exact claimed.processNum
    · rw [claimed.others other (by omega) own .processNum trivial (by simp)]
      exact ordered.numbers other (by omega)
  · exact effect.currentPcb
  · intro other member
    rcases List.mem_cons.mp member with rfl | member
    · omega
    · have small := ordered.live other (List.mem_filter.mp member).1
      omega

theorem systemExecute (ordered : Ordered running state) {command : Command} {locals : Locals}
    {registerEsp : Nat} {result : Int} (fit : ArgumentsFit command)
    (returned : state.kernel.systemExecute command locals registerEsp = some (result, after)) :
    ∃ running, Ordered running
      ⟨after, if result = -1 then state.live else state.kernel.processNumber :: state.live⟩ := by
  have few : ∀ number ∈ state.live, number ≤ state.kernel.processNumber :=
    fun number member => Nat.le_of_lt (ordered.live number member)
  cases systemExecute_outcome returned with
  | early => exact ⟨running, ordered⟩
  | rejected reached _ effect => exact ⟨_, ordered.rejected reached.valid effect⟩
  | unsaved reached copied effect => exact ⟨_, ordered.entered effect (reached.fits copied fit) few⟩
  | started reached copied success effect =>
      rw [if_neg success]
      refine ⟨_, ordered.entered effect.toEntered (reached.fits copied fit) ?_⟩
      intro number member
      rcases List.mem_cons.mp member with rfl | member
      · exact Nat.le_refl _
      · exact few number member

theorem systemHalt (ordered : Ordered running state) {literalTail : List UInt8} {locals : Locals}
    {registerEsp : Nat} (inOrder : HaltsInOrder state.kernel)
    (fit : ArgumentsFit (shellLiteral literalTail))
    (halted : state.kernel.systemHalt literalTail locals registerEsp = some after) :
    ∃ running, Ordered running ⟨after,
      let others := state.live.filter fun number => pcbAddress number ≠ state.kernel.currentPcb
      if state.kernel.haltsDirectly then others
      else state.kernel.console.terminalOnDisplay.val :: others⟩ := by
  have low := ordered.low
  unfold HaltsInOrder at inOrder
  rw [ordered.current_processNum] at inOrder
  cases systemHalt_outcome halted with
  | halted direct returned =>
      rw [direct] at inOrder ⊢
      split at inOrder
      · cases inOrder
      · exact ⟨_, ordered.halted (by omega) inOrder.2 (sysHalt_halted ordered.aligned (by omega) returned).2⟩
  | restarted indirect reached copied effect =>
      rw [indirect] at inOrder ⊢
      split at inOrder
      · rename_i base
        exact ⟨_, ordered.restarted base effect (reached.fits copied fit)⟩
      · cases inOrder.1

theorem step (ordered : Ordered running state) {event : Event} {next : Population}
    (orderly : Orderly state event) (taken : state.step event = some next) :
    ∃ running, Ordered running next := by
  cases event with
  | execute command locals registerEsp =>
      obtain ⟨⟨result, final⟩, returned, rfl⟩ := Option.map_eq_some_iff.mp taken
      exact ordered.systemExecute orderly returned
  | halt literalTail locals registerEsp =>
      obtain ⟨final, returned, rfl⟩ := Option.map_eq_some_iff.mp taken
      exact ordered.systemHalt orderly.1 orderly.2 returned
  | switchTerminal terminal =>
      obtain rfl := Option.some.inj taken
      exact ⟨running, { ordered with }⟩
  | vidmap screenStart => exact orderly.elim

end Ordered

/-- No live process loses its slot in a run whose halts are in order. -/
theorem live_slot_free {start : Kernel} (booted : Booted start) {events : List Event} {state : Population}
    (run : Run Population.step Orderly ⟨start, [2, 1, 0]⟩ events state) : SlotFree state := by
  have ordered : ∃ running, Ordered running state := by
    refine run.invariant (fun state => ∃ running, Ordered running state) ⟨_, booted.ordered⟩ ?_
    rintro before event after ⟨running, ordered⟩ orderly taken
    exact ordered.step orderly taken
  exact ordered.elim fun _ ordered => ordered.slotFree

/-- Two terminals with programs, one of which halts. -/
theorem live_slot_free_sample : ∃ events state,
    Run Population.step Orderly ⟨sampleKernel, [2, 1, 0]⟩ events state ∧ state.live = [3, 2, 1, 0] ∧
      SlotFree state := by
  let events : List Event := [.execute (shellLiteral [0]) sampleLocals 0x7fff00, .switchTerminal 1,
    .execute (shellLiteral [0]) sampleLocals 0x7fdf00, .halt [0] sampleLocals 0x7fdf00]
  have executes : ((execute Population.step (fun state event => decide (Orderly state event))
      ⟨sampleKernel, [2, 1, 0]⟩ events).any fun state => decide (state.live = [3, 2, 1, 0])) = true := by
    decide +kernel
  obtain ⟨state, executed, live⟩ := (Option.any_eq_true _ _).mp executes
  have run := run_of_execute (fun _ _ => of_decide_eq_true) executed
  exact ⟨events, state, run, of_decide_eq_true live, live_slot_free sampleKernel_booted run⟩

/-- Four refused programs fill the first table, so that a later halt sets the counter to the number
of a program that still runs on the second terminal. -/
theorem live_slot_lost : Booted sampleKernel ∧ ∃ events state,
    Run Population.step (fun _ event => ∀ screenStart, event ≠ .vidmap screenStart)
      ⟨sampleKernel, [2, 1, 0]⟩ events state ∧ ¬SlotFree state := by
  let refused : Event := .execute missingCommand sampleLocals 0x7fff00
  let program : Event := .execute (shellLiteral [0]) sampleLocals 0x7fff00
  let events : List Event := [refused, refused, refused, refused, .switchTerminal 1, program,
    .switchTerminal 0, program, .halt [0] sampleLocals 0x7fdf00]
  have lost : ((execute Population.step (fun _ event => match event with
      | .vidmap _ => false
      | _ => true) ⟨sampleKernel, [2, 1, 0]⟩ events).any fun state =>
        decide (state.kernel.processNumber = 3 ∧ 3 ∈ state.live)) = true := by decide +kernel
  obtain ⟨state, executed, lost⟩ := (Option.any_eq_true _ _).mp lost
  obtain ⟨number, member⟩ := of_decide_eq_true lost
  refine ⟨sampleKernel_booted, events, state, run_of_execute ?_ executed, fun free => ?_⟩
  · rintro _ event passed screenStart rfl
    cases passed
  · have reached : Reached state.kernel (shellLiteral [0]) [115, 104, 101, 108, 108] [0, 0] :=
      ⟨by omega, 115, [104, 101, 108, 108, 0, 0], rfl, by decide, by decide⟩
    exact free program 3 ⟨number.symm, _, _, reached⟩ member

end OrcaOS
