import OrcaOS.Proof.BootSequence

/-!
The guard of `system_halt` looks at the terminal on display, not at the halting process.
-/

namespace OrcaOS
open Foundation Kernel

/-- The kernel's guard agrees with the number of the halting process. -/
def GuardCorrect (k : Kernel) : Prop := k.haltsDirectly = true ↔ 2 < k.current .processNum

/-- A program above the base shells runs on a terminal on display that has programs. -/
def GuardCondition (k : Kernel) : Prop :=
  2 < k.current .processNum →
    ∃ index < 4, activeProcesses k.memory (pcbAddress k.console.terminalOnDisplay) index ≠ 0

instance (k : Kernel) : Decidable (GuardCorrect k) := inferInstanceAs (Decidable (_ ↔ _))

instance (k : Kernel) : Decidable (GuardCondition k) := inferInstanceAs (Decidable (_ → _))

/-- The execute of an event starts its program. -/
def Succeeds (k : Kernel) : Event → Prop
  | .execute command locals registerEsp =>
      (k.systemExecute command locals registerEsp).any (fun outcome => outcome.1 ≠ -1) = true
  | .vidmap _ => False
  | _ => True

instance (k : Kernel) : (event : Event) → Decidable (Succeeds k event)
  | .execute _ _ _ => inferInstanceAs (Decidable (_ = true))
  | .halt _ _ _ => .isTrue trivial
  | .switchTerminal _ => .isTrue trivial
  | .vidmap _ => .isFalse id

/-- The executes succeed with arguments that fit, and the halts meet the condition of the guard. -/
def Guarded (k : Kernel) (event : Event) : Prop :=
  Succeeds k event ∧
    match event with
    | .execute command _ _ => ArgumentsFit command
    | .halt literalTail _ _ => GuardCondition k ∧ ArgumentsFit (shellLiteral literalTail)
    | _ => True

instance (k : Kernel) : (event : Event) → Decidable (Guarded k event)
  | .execute _ _ _ => inferInstanceAs (Decidable (_ ∧ ArgumentsFit _))
  | .halt _ _ _ => inferInstanceAs (Decidable (_ ∧ GuardCondition _ ∧ ArgumentsFit _))
  | .switchTerminal _ => inferInstanceAs (Decidable (_ ∧ True))
  | .vidmap _ => inferInstanceAs (Decidable (_ ∧ True))

namespace Represents
variable {k after : Kernel} {s : Session}

/-- The guard lets a halt through exactly when the terminal on display has programs. -/
theorem haltsDirectly_iff (represents : Represents k s) :
    k.haltsDirectly = true ↔ s.numbersAt k.console.terminalOnDisplay ≠ [] := by
  have stack := represents.tables k.console.terminalOnDisplay
  have shown := k.console.terminalOnDisplay.isLt
  have bound := represents.running_lt
  have number := represents.processNumber
  unfold haltsDirectly checkProcessNum
  rw [decide_eq_true_iff]
  rcases List.eq_nil_or_concat' (s.numbersAt k.console.terminalOnDisplay) with empty | ⟨earlier, top, same⟩
  · rw [empty] at stack ⊢
    rw [stack.lastUsed_nil]
    dsimp only
    rw [signed32_of_small (by omega)]
    constructor
    · intro large
      omega
    · intro programs
      exact absurd rfl programs
  · rw [same] at stack
    rw [stack.lastUsed_eq.1]
    dsimp only
    have bounds := s.numbersAt_bounds k.console.terminalOnDisplay (by simp [same] : top ∈ _)
    rw [signed32_of_small (by omega), same]
    constructor
    · intro _
      exact List.append_ne_nil_of_right_ne_nil _ (List.cons_ne_nil _ _)
    · intro _
      omega

/-- A program runs exactly when the session has programs. -/
theorem nested_iff (represents : Represents k s) : 2 < k.current .processNum ↔ s.homes ≠ [] := by
  have base := s.base.isLt
  rw [represents.current_processNum, Session.running]
  cases s.homes with
  | nil =>
      rw [if_pos rfl]
      constructor
      · intro large
        omega
      · intro programs
        exact absurd rfl programs
  | cons home homes => simp

/-- The table of the terminal on display tells whether it has programs. -/
theorem displayed_iff (represents : Represents k s) :
    (∃ index < 4, activeProcesses k.memory (pcbAddress k.console.terminalOnDisplay) index ≠ 0) ↔
      s.numbersAt k.console.terminalOnDisplay ≠ [] := by
  have stack := represents.tables k.console.terminalOnDisplay
  constructor
  · rintro ⟨index, small, used⟩ empty
    rw [empty] at stack
    exact used (stack.rest index (Nat.zero_le _) small)
  · intro programs
    have positive := List.length_pos_of_ne_nil programs
    refine ⟨0, by decide, ?_⟩
    rw [stack.used 0 positive]
    exact stack.proper _ (List.getElem_mem positive)

/-- In a session the guard is right exactly under its condition. -/
theorem guardCorrect_iff (represents : Represents k s) : GuardCorrect k ↔ GuardCondition k := by
  unfold GuardCorrect GuardCondition
  rw [represents.haltsDirectly_iff, represents.nested_iff, represents.displayed_iff]
  constructor
  · exact fun correct => correct.mpr
  · refine fun condition => ⟨fun programs empty => ?_, condition⟩
    exact programs (s.numbersAt_of_empty _ empty)

/-- A halt that meets the condition ends in a session again. -/
theorem systemHalt (represents : Represents k s) (condition : GuardCondition k)
    {literalTail : List UInt8} {locals : Locals} {registerEsp : Nat}
    (fit : ArgumentsFit (shellLiteral literalTail))
    (halted : k.systemHalt literalTail locals registerEsp = some after) :
    ∃ s, Represents after s := by
  have correct := represents.guardCorrect_iff.mpr condition
  unfold GuardCorrect at correct
  rw [represents.nested_iff] at correct
  cases systemHalt_outcome halted with
  | halted direct returned =>
      have nested := correct.mp direct
      obtain ⟨earlier, home, rfl, _⟩ := s.eq_start_of_ne_nil nested
      have many : 2 < k.processNumber := by
        rw [represents.processNumber, Session.next]
        omega
      exact ⟨_, represents.halted home (sysHalt_halted represents.aligned many returned).2⟩
  | restarted indirect reached copied effect =>
      have empty : s.homes = [] := by
        by_contra nested
        rw [correct.mpr nested] at indirect
        cases indirect
      exact ⟨_, represents.restarted empty effect (reached.fits copied fit)⟩

theorem guardedStep (represents : Represents k s) {event : Event} (guarded : Guarded k event)
    (taken : Kernel.step k event = some after) : ∃ s, Represents after s := by
  obtain ⟨succeeds, condition⟩ := guarded
  cases event with
  | execute command locals registerEsp =>
      obtain ⟨⟨result, final⟩, returned, rfl⟩ := Option.map_eq_some_iff.mp taken
      change (k.systemExecute command locals registerEsp).any
        (fun outcome => outcome.1 ≠ -1) = true at succeeds
      rw [returned] at succeeds
      obtain ⟨_, _, _, reached, copied, effect⟩ :=
        systemExecute_started returned (of_decide_eq_true succeeds)
      exact ⟨_, represents.entered effect.toEntered (reached.fits copied condition)⟩
  | halt literalTail locals registerEsp => exact represents.systemHalt condition.1 condition.2 taken
  | switchTerminal terminal =>
      obtain rfl := Option.some.inj taken
      exact ⟨s, represents.switchTerminal terminal⟩
  | vidmap screenStart => exact succeeds.elim

end Represents

/-- After every run whose halts met the condition, the guard is right exactly under the condition. -/
theorem haltGuard_correct_iff {start k : Kernel} (booted : Booted start) {events : List Event}
    (run : Run Kernel.step Guarded start events k) : GuardCorrect k ↔ GuardCondition k := by
  have represents : ∃ s, Represents k s := by
    refine run.invariant (fun k => ∃ s, Represents k s) ⟨_, booted.represents⟩ ?_
    rintro before event after ⟨s, represents⟩ guarded taken
    exact represents.guardedStep guarded taken
  exact represents.elim fun _ represents => represents.guardCorrect_iff

/-- The fourth process has halted, and the guard would let the third one halt, too. -/
theorem haltGuard_correct_iff_sample : ∃ events k, Run Kernel.step Guarded sampleKernel events k ∧
    k.current .processNum = 3 ∧ GuardCondition k ∧ GuardCorrect k := by
  let events : List Event := [.execute (shellLiteral [0]) sampleLocals 0x7fff00, .switchTerminal 1,
    .switchTerminal 0, .execute (shellLiteral [0]) sampleLocals 0x7fdf00, .halt [0] sampleLocals 0x7fff00]
  have executes : ((execute Kernel.step (fun k event => decide (Guarded k event))
      sampleKernel events).any fun k => decide (k.current .processNum = 3 ∧ GuardCondition k)) = true := by
    decide +kernel
  obtain ⟨k, executed, halted⟩ := (Option.any_eq_true _ _).mp executes
  obtain ⟨number, condition⟩ := of_decide_eq_true halted
  have run := run_of_execute (fun _ _ => of_decide_eq_true) executed
  exact ⟨events, k, run, number, condition, (haltGuard_correct_iff sampleKernel_booted run).mpr condition⟩

/-- A program on the first terminal would be taken for a base shell while the second is on display. -/
theorem haltGuard_misled : Booted sampleKernel ∧ ∃ events k,
    Run Kernel.step Succeeds sampleKernel events k ∧ ¬GuardCorrect k := by
  let events : List Event := [.execute (shellLiteral [0]) sampleLocals 0x7fff00, .switchTerminal 1]
  have wrong : ((execute Kernel.step (fun k event => decide (Succeeds k event))
      sampleKernel events).any fun k => decide (¬GuardCorrect k)) = true := by decide +kernel
  obtain ⟨k, executed, wrong⟩ := (Option.any_eq_true _ _).mp wrong
  exact ⟨sampleKernel_booted, events, k, run_of_execute (fun _ _ => of_decide_eq_true) executed,
    of_decide_eq_true wrong⟩

end OrcaOS
