import Mathlib
import OrcaOS.Proof.BootSequence

/-!
A program that halts gives back what was in force before it was executed.
-/

namespace OrcaOS
open Foundation Kernel

/-- The records that decide which process runs and which ones wait. -/
structure Snapshot where
  processNumber : Nat
  currentPcb : Nat
  upperAddress : BitVec 10
  esp0 : Nat
  tables : Fin 3 → Fin 4 → Nat

def Kernel.snapshot (k : Kernel) : Snapshot where
  processNumber := k.processNumber
  currentPcb := k.currentPcb
  upperAddress := OrcaOS.upperAddress (k.pageTables.pageDirectory 32)
  esp0 := k.esp0
  tables terminal index := activeProcesses k.memory (pcbAddress terminal) index

/-- The records of a kernel that represents the session. -/
def Session.snapshot (s : Session) : Snapshot where
  processNumber := s.next
  currentPcb := pcbAddress s.running
  upperAddress := BitVec.ofNat 10 (2 + s.running)
  esp0 := stackTop s.running
  tables terminal index := (s.numbersAt terminal).getD index 0

/-- The entries of a table that holds a stack. -/
theorem holdsStack_getD {entries : Nat → Nat} {stack : List Nat} (holds : HoldsStack 0 entries 4 stack)
    {index : Nat} (small : index < 4) : entries index = stack.getD index 0 := by
  rcases Nat.lt_or_ge index stack.length with inside | outside
  · rw [holds.used index inside, List.getD_eq_getElem _ _ inside]
  · rw [holds.rest index outside small, List.getD_eq_default _ _ outside]

theorem Represents.snapshot_eq {k : Kernel} {s : Session} (represents : Represents k s) :
    k.snapshot = s.snapshot := by
  unfold Kernel.snapshot Session.snapshot
  rw [Snapshot.mk.injEq]
  refine ⟨represents.processNumber, represents.currentPcb, represents.program, represents.esp0, ?_⟩
  funext terminal index
  exact holdsStack_getD (represents.tables terminal) index.isLt

/-- What was in force when a program was executed, and the stack pointer saved for it. -/
structure Record where
  pcb : Nat
  before : Snapshot
  esp : Nat

/-- A kernel with a record of each program that was executed and has not halted. -/
structure Tracked where
  kernel : Kernel
  records : List Record

/-- The events of a session without base-shell restarts. -/
inductive ProgramEvent where
  | execute (command : Command) (locals : Locals) (registerEsp : Nat)
  | halt
  | switchTerminal (terminal : Int)

namespace Tracked

/-- An execute is recorded when it succeeds, and the process that halts is above the base shells. -/
def step (state : Tracked) : ProgramEvent → Option Tracked
  | .execute command locals registerEsp =>
      (state.kernel.systemExecute command locals registerEsp).bind fun (result, after) =>
        if result = -1 then none
        else some ⟨after, ⟨after.currentPcb, state.kernel.snapshot, wrap32 (registerEsp + 4)⟩ ::
          state.records⟩
  | .halt =>
      if state.kernel.current .processNum ≤ 2 then none
      else state.kernel.sysHalt.map fun (_, after) =>
        ⟨after, state.records.eraseP fun record => record.pcb = state.kernel.currentPcb⟩
  | .switchTerminal terminal => some ⟨state.kernel.switchTerminal terminal, state.records⟩

/-- The record of the process that is running. -/
def record? (state : Tracked) : Option Record :=
  state.records.find? fun record => record.pcb = state.kernel.currentPcb

end Tracked

/-- A nested program that calls `sys_halt` finds its own stack pointer and restores its record. -/
def HaltRestores (state : Tracked) : Prop :=
  2 < state.kernel.current .processNum → ∃ record after, state.record? = some record ∧
    state.kernel.sysHalt = some (0, after) ∧ after.snapshot = record.before ∧
    state.kernel.restoreEsp = record.esp

/-- The descriptors that `create_pcb` leaves as they are can be closed. -/
def Kernel.StaleClosable (k : Kernel) : Prop :=
  ∀ fd < 8, 2 ≤ fd → readField k.memory (pcbAddress k.processNumber) (.fileArray fd .flags) = 1 →
    readField k.memory (pcbAddress k.processNumber) (.fileArray fd .closeOp) ≠ 0 →
    (k.symbols.resolve
      (readField k.memory (pcbAddress k.processNumber) (.fileArray fd .closeOp))).any
      Operation.isClose = true

/-- An execute keeps its arguments inside its slot and inherits no descriptor that cannot be closed. -/
def Tracked.Contained (state : Tracked) : ProgramEvent → Prop
  | .execute command _ _ => ArgumentsFit command ∧ state.kernel.StaleClosable
  | _ => True

instance (k : Kernel) : Decidable k.StaleClosable :=
  inferInstanceAs (Decidable (∀ fd < 8, 2 ≤ fd → _ → _ → _))

instance (state : Tracked) : (event : ProgramEvent) → Decidable (state.Contained event)
  | .execute _ _ _ => inferInstanceAs (Decidable (_ ∧ _))
  | .halt => .isTrue trivial
  | .switchTerminal _ => .isTrue trivial

/-- Every descriptor of a new program can be closed. -/
theorem Entered.closable {before after : Kernel} {processName text : List UInt8}
    (effect : Entered processName text before after) (stale : before.StaleClosable) :
    Closable after.symbols after.memory (pcbAddress before.processNumber) := by
  intro fd small used close
  have created (field : FdField) : before.claimed.current (.fileArray fd field) =
      readField before.created (pcbAddress before.processNumber) (.fileArray fd field) := by
    rw [current, claimed_memory, claimed_currentPcb]
  have closeOp : readField after.memory (pcbAddress before.processNumber) (.fileArray fd .closeOp) =
      readField before.created (pcbAddress before.processNumber) (.fileArray fd .closeOp) := by
    rw [effect.descriptors fd small, settledField, if_neg (by simp [FdField.OfFile]), created]
  have flags : readField before.created (pcbAddress before.processNumber) (.fileArray fd .flags) = 1 := by
    rw [effect.descriptors fd small, settledField] at used
    split at used
    · cases used
    · rw [← created, used]
  rw [closeOp] at close ⊢
  rw [effect.symbols]
  rw [before.created_descriptor effect.valid small] at close flags ⊢
  by_cases standard : fd < 2
  · rw [if_pos standard, standardWord, Symbols.resolve_address]
    rfl
  · rw [if_neg standard] at close flags ⊢
    exact stale fd small (by omega) flags close

/-- The records match the programs of the session, the newest first. -/
inductive Recorded (memory : Memory) : Session → List Record → Prop where
  | base (base : Fin 3) : Recorded memory ⟨base, []⟩ []
  | program {s : Session} {records : List Record} (home : Fin 3) (earlier : Recorded memory s records) :
      Recorded memory (s.start home)
        (⟨pcbAddress s.next, s.snapshot, readField memory (pcbAddress s.next) .esp⟩ :: records)

/-- The records depend on the saved stack pointers only. -/
theorem Recorded.congr {memory other : Memory} {s : Session} {records : List Record}
    (recorded : Recorded memory s records) (same : ∀ number < s.next,
      readField other (pcbAddress number) .esp = readField memory (pcbAddress number) .esp) :
    Recorded other s records := by
  induction recorded with
  | base base => exact .base base
  | program home earlier ih =>
      rw [← same _ (by rw [Session.next_start]; omega)]
      exact .program home (ih fun number small => same number (by rw [Session.next_start]; omega))

/-- The newest record belongs to the newest program. -/
theorem Recorded.start_inv {memory : Memory} {s : Session} {records : List Record}
    (recorded : Recorded memory s records) (nested : s.homes ≠ []) :
    ∃ earlier home rest, s = earlier.start home ∧ Recorded memory earlier rest ∧
      records = ⟨pcbAddress earlier.next, earlier.snapshot,
        readField memory (pcbAddress earlier.next) .esp⟩ :: rest := by
  cases recorded with
  | base base => exact absurd rfl nested
  | program home earlier => exact ⟨_, home, _, rfl, earlier, rfl⟩

/-- The tracked kernel follows a session above the third base shell. -/
structure Follows (state : Tracked) (s : Session) : Prop where
  represents : Represents state.kernel s
  third : s.base = 2
  closable : ∀ number, 3 ≤ number → number < s.next →
    Closable state.kernel.symbols state.kernel.memory (pcbAddress number)
  recorded : Recorded state.kernel.memory s state.records

namespace Follows
variable {state after : Tracked} {s : Session}

/-- Only the programs of the session have numbers above the base shells. -/
theorem nested_iff (follows : Follows state s) :
    2 < state.kernel.current .processNum ↔ s.homes ≠ [] := by
  rw [follows.represents.current_processNum, Session.running, follows.third]
  cases s.homes with
  | nil => simp
  | cons home homes => simp

theorem started {k : Kernel} (follows : Follows state s) {processName text : List UInt8}
    {registerEsp : Nat} (effect : Started processName text registerEsp state.kernel k)
    (fits : text.length ≤ 7900) (stale : state.kernel.StaleClosable) :
    Follows ⟨k, ⟨k.currentPcb, state.kernel.snapshot, wrap32 (registerEsp + 4)⟩ :: state.records⟩
      (s.start state.kernel.console.terminalOnDisplay) := by
  have claimed := effect.slots fits
  have next := follows.represents.processNumber
  have valid := effect.valid
  constructor
  · exact follows.represents.entered effect.toEntered fits
  · exact follows.third
  · intro number low small
    rw [Session.next_start, ← next] at small
    by_cases own : number = state.kernel.processNumber
    · rw [own]
      exact effect.closable stale
    · change Closable k.symbols _ _
      rw [effect.symbols]
      refine (follows.closable number low (by omega)).congr fun fd inside field => ?_
      exact claimed.others number (by omega) own _ inside (by simp)
  · rw [follows.represents.snapshot_eq, effect.currentPcb, ← effect.esp, next]
    refine .program _ (follows.recorded.congr fun number small => ?_)
    exact claimed.others number (by omega) (by omega) .esp trivial (by simp)

theorem halted {k : Kernel} (follows : Follows state s) (nested : s.homes ≠ [])
    (effect : Halted state.kernel k) :
    Follows ⟨k, state.records.eraseP fun record => record.pcb = state.kernel.currentPcb⟩ s.finish := by
  obtain ⟨earlier, home, rest, rfl, recorded, newest⟩ := follows.recorded.start_inv nested
  have third : earlier.base = 2 := follows.third
  have undone : (earlier.start home).finish = earlier := earlier.finish_start home fun _ => third
  have position : state.kernel.currentPcb = pcbAddress earlier.next := by
    rw [follows.represents.currentPcb, Session.running_start]
  have bound := follows.represents.running_lt.2
  rw [Session.next_start] at bound
  have aligned := follows.represents.aligned
  constructor
  · exact follows.represents.halted home effect
  · rw [undone]
    exact third
  · intro number low small
    rw [undone] at small
    change Closable k.symbols _ _
    rw [effect.symbols]
    refine (follows.closable number low (by rw [Session.next_start]; omega)).congr fun fd inside field => ?_
    refine effect.otherDescriptor aligned (pcbAddress_aligned _) ?_ inside field
    intro equal
    rw [position] at equal
    have same := (pcbAddress_inj (by omega) (by omega)).mp equal
    omega
  · rw [undone, newest, List.eraseP_cons_of_pos (by simp [position])]
    refine recorded.congr fun number _ => ?_
    exact effect.kept aligned (pcbAddress_aligned _) (.inr (by decide))

theorem step (follows : Follows state s) {event : ProgramEvent} (contained : state.Contained event)
    (taken : state.step event = some after) : ∃ s, Follows after s := by
  cases event with
  | execute command locals registerEsp =>
      obtain ⟨fit, stale⟩ := contained
      obtain ⟨⟨result, k⟩, returned, taken⟩ := Option.bind_eq_some_iff.mp taken
      dsimp only at taken
      split at taken
      · cases taken
      · rename_i success
        obtain rfl := Option.some.inj taken
        obtain ⟨_, _, _, reached, copied, effect⟩ := systemExecute_started returned success
        exact ⟨_, follows.started effect (reached.fits copied fit) stale⟩
  | halt =>
      rw [Tracked.step] at taken
      split at taken
      · cases taken
      · rename_i above
        obtain ⟨⟨result, k⟩, returned, rfl⟩ := Option.map_eq_some_iff.mp taken
        have nested := follows.nested_iff.mp (by omega)
        have many : 2 < state.kernel.processNumber := by
          rw [follows.represents.processNumber, Session.next]
          omega
        exact ⟨_, follows.halted nested
          (sysHalt_halted follows.represents.aligned many returned).2⟩
  | switchTerminal terminal =>
      obtain rfl := Option.some.inj taken
      exact ⟨s, follows.represents.switchTerminal terminal, follows.third, follows.closable,
        follows.recorded⟩

/-- In a tracked session halting restores the newest record. -/
theorem haltRestores (follows : Follows state s) : HaltRestores state := by
  intro above
  have nested := follows.nested_iff.mp above
  obtain ⟨earlier, home, rest, rfl, _, newest⟩ := follows.recorded.start_inv nested
  have third : earlier.base = 2 := follows.third
  have position : state.kernel.currentPcb = pcbAddress earlier.next := by
    rw [follows.represents.currentPcb, Session.running_start]
  have many : 2 < state.kernel.processNumber := by
    rw [follows.represents.processNumber, Session.next]
    omega
  have closable := follows.closable earlier.next (by unfold Session.next; omega)
    (by rw [Session.next_start]; omega)
  rw [← position] at closable
  obtain ⟨after, returned⟩ := sysHalt_returns many closable
  have effect := (sysHalt_halted follows.represents.aligned many returned).2
  refine ⟨⟨pcbAddress earlier.next, earlier.snapshot,
    readField state.kernel.memory (pcbAddress earlier.next) .esp⟩, after, ?_, returned, ?_, ?_⟩
  · rw [Tracked.record?, newest, List.find?_cons_of_pos (by simp [position])]
  · rw [(follows.represents.halted home effect).snapshot_eq,
      earlier.finish_start home fun _ => third]
  · rw [restoreEsp, current, position]

end Follows

/-- Halting undoes executing in every run whose executes are contained. -/
theorem halt_undoes_execute {start : Kernel} (booted : Booted start) {events : List ProgramEvent}
    {state : Tracked} (run : Run Tracked.step Tracked.Contained ⟨start, []⟩ events state) :
    HaltRestores state := by
  have follows : ∃ s, Follows state s := by
    refine run.invariant (fun state => ∃ s, Follows state s)
      ⟨.initial, booted.represents, rfl, ?_, .base 2⟩ ?_
    · intro number low small
      exact absurd small (by unfold Session.initial Session.next; simpa using low)
    · rintro before event after ⟨s, follows⟩ contained taken
      exact follows.step contained taken
  exact follows.elim fun _ follows => follows.haltRestores

/-- Two nested programs on different terminals, the second of which has halted. -/
theorem halt_undoes_execute_sample : ∃ state, HaltRestores state ∧
    2 < state.kernel.current .processNum := by
  let events : List ProgramEvent := [.execute (sampleCommand 3) sampleLocals 0x7fff00,
    .switchTerminal 1, .execute (sampleCommand 1) sampleLocals 0x7fdf00, .halt]
  have above : ((execute Tracked.step (fun state event => decide (state.Contained event))
      ⟨sampleKernel, []⟩ events).any fun state => decide (2 < state.kernel.current .processNum)) = true := by
    decide +kernel
  obtain ⟨state, executed, above⟩ := (Option.any_eq_true _ _).mp above
  have run := run_of_execute (fun _ _ => of_decide_eq_true) executed
  exact ⟨state, halt_undoes_execute sampleKernel_booted run, of_decide_eq_true above⟩

/-- Arguments that reach the block of the parent change the kernel stack it resumes on. -/
theorem halt_undoes_execute_overrun : Booted sampleKernel ∧ ∃ events state,
    Run Tracked.step (fun _ _ => True) ⟨sampleKernel, []⟩ events state ∧ ¬HaltRestores state := by
  let event : ProgramEvent := .execute (sampleCommand 7904) sampleLocals 0x7fff00
  have valid : sampleKernel.processNumber < 6 := by
    rw [sampleKernel_booted.processNumber]
    decide
  have differs : ((Tracked.step ⟨sampleKernel, []⟩ event).any fun state =>
      decide (2 < state.kernel.current .processNum ∧
        state.record?.map (fun record => record.before.esp0) ≠
          state.kernel.sysHalt.map fun outcome => outcome.2.esp0)) = true := by
    simp only [event, Tracked.step, systemExecute, sysExecute_sampleCommand sampleKernel valid, launch,
      copyArguments, List.length_replicate, Memory.storeBytes_replicate]
    decide +kernel
  obtain ⟨state, taken, differs⟩ := (Option.any_eq_true _ _).mp differs
  refine ⟨sampleKernel_booted, [] ++ [event], state, .snoc .nil trivial taken, fun restores => ?_⟩
  obtain ⟨above, differs⟩ := of_decide_eq_true differs
  obtain ⟨record, after, found, returned, same, _⟩ := restores above
  rw [found, returned] at differs
  exact differs (congrArg some (congrArg Snapshot.esp0 same).symm)

end OrcaOS
