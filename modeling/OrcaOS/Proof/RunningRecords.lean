import OrcaOS.Proof.BootSequence

/-!
The current block, the mapped user page and the kernel stack name the same process.
-/

namespace OrcaOS
open Foundation Kernel

/-- The mapped page and the kernel stack belong to the process that the current block names. -/
def RecordsAgree (k : Kernel) : Prop :=
  (upperAddress (k.pageTables.pageDirectory 32)).toNat = 2 + k.current .processNum ∧
    k.esp0 = stackTop (k.current .processNum)

instance (k : Kernel) : Decidable (RecordsAgree k) := inferInstanceAs (Decidable (_ ∧ _))

/-- The slots below the bound hold blocks, and the tables hold numbers up to it. -/
structure Slots (bound : Nat) (memory : Memory) : Prop where
  low : 3 ≤ bound
  high : bound ≤ 6
  numbers : ∀ number < bound, readField memory (pcbAddress number) .processNum = number
  parents : ∀ number < bound, readField memory (pcbAddress number) .parentTerminal < 3
  entries : ∀ terminal < 3, ∀ index < 4,
    activeProcesses memory (pcbAddress terminal) index = 0 ∨
      3 ≤ activeProcesses memory (pcbAddress terminal) index ∧
        activeProcesses memory (pcbAddress terminal) index ≤ bound

/-- Each entry was there before or is the registered number. -/
theorem registered_cases (entries : Nat → Nat) (number index : Nat) :
    registered entries number index = entries index ∨ registered entries number index = number := by
  unfold registered
  cases firstFree 0 entries 4 with
  | none => exact .inl rfl
  | some slot =>
      dsimp only
      rw [Function.update_apply]
      split
      · exact .inr rfl
      · exact .inl rfl

/-- Claiming a slot initializes it. -/
theorem Slots.claimed {bound : Nat} {before : Kernel} {memory : Memory} (slots : Slots bound before.memory)
    (number : before.processNumber ≤ bound) (valid : before.processNumber < 6)
    (claimed : SlotClaimed before memory) : Slots (max bound (before.processNumber + 1)) memory where
  low := by have := slots.low; omega
  high := by have := slots.high; omega
  numbers other small := by
    have high := slots.high
    by_cases own : other = before.processNumber
    · rw [own]
      exact claimed.processNum
    · rw [claimed.others other (by omega) own .processNum trivial (by simp)]
      exact slots.numbers other (by omega)
  parents other small := by
    have high := slots.high
    by_cases own : other = before.processNumber
    · rw [own, claimed.parentTerminal]
      exact before.console.terminalOnDisplay.isLt
    · rw [claimed.others other (by omega) own .parentTerminal trivial (by simp)]
      exact slots.parents other (by omega)
  entries terminal small index inside := by
    have earlier := slots.entries terminal small index inside
    rw [claimed.tables terminal small index inside, tableAfter]
    split
    · rename_i nested
      rcases registered_cases (activeProcesses before.memory (pcbAddress terminal))
        before.processNumber index with same | own
      · rw [same]
        omega
      · rw [own]
        omega
    · omega

/-- All records name one process, and its slot is initialized. -/
structure Running (bound number : Nat) (k : Kernel) : Prop where
  slots : Slots bound k.memory
  positive : 3 ≤ k.processNumber
  processNumber : k.processNumber ≤ bound
  recoverNum : k.recoverNum ≤ bound
  inside : number < bound
  currentPcb : k.currentPcb = pcbAddress number
  program : upperAddress (k.pageTables.pageDirectory 32) = BitVec.ofNat 10 (2 + number)
  esp0 : k.esp0 = stackTop number

theorem Booted.running {k : Kernel} (booted : Booted k) : Running 3 2 k where
  slots := {
    low := Nat.le_refl 3
    high := by decide
    numbers := booted.numbers
    parents := fun number small => (booted.parents number small).symm ▸ small
    entries := fun terminal small index inside => .inl (booted.tables terminal small index inside) }
  positive := booted.processNumber.symm ▸ Nat.le_refl 3
  processNumber := booted.processNumber.symm ▸ Nat.le_refl 3
  recoverNum := booted.recoverNum.symm ▸ Nat.zero_le 3
  inside := by decide
  currentPcb := booted.currentPcb
  program := booted.program
  esp0 := booted.esp0

/-- Rejected programs are executed by the process right below the counter only. -/
def Steady (k : Kernel) : Event → Prop
  | .execute command locals _ =>
      ArgumentsFit command ∧
        (k.rejects command locals.tempBuffer = true → k.currentPcb = stackTop k.processNumber)
  | .halt literalTail _ _ => ArgumentsFit (shellLiteral literalTail)
  | .switchTerminal _ => True
  | .vidmap _ => False

instance (k : Kernel) : (event : Event) → Decidable (Steady k event)
  | .execute _ _ _ => inferInstanceAs (Decidable (_ ∧ (_ → _)))
  | .halt literalTail _ _ => inferInstanceAs (Decidable (ArgumentsFit (shellLiteral literalTail)))
  | .switchTerminal _ => .isTrue trivial
  | .vidmap _ => .isFalse id

namespace Running
variable {bound number : Nat} {k after : Kernel}

theorem agree (running : Running bound number k) : RecordsAgree k := by
  have high := running.slots.high
  have inside := running.inside
  have named : k.current .processNum = number := by
    rw [current, running.currentPcb]
    exact running.slots.numbers number inside
  unfold RecordsAgree
  rw [named, running.program, BitVec.toNat_ofNat]
  exact ⟨by omega, running.esp0⟩

theorem aligned (running : Running bound number k) : k.currentPcb % 8192 = 0 := by
  rw [running.currentPcb]
  exact pcbAddress_aligned _

/-- A started program is the one that runs. The counter may have been replaced before. -/
theorem entered {before : Kernel} {processName text : List UInt8} (slots : Slots bound before.memory)
    (small : before.processNumber ≤ bound) (recover : before.recoverNum ≤ bound)
    (low : 3 ≤ before.processNumber + 1 ∨ 3 ≤ before.recoverNum)
    (effect : Entered processName text before after) (fits : text.length ≤ 7900) :
    Running (max bound (before.processNumber + 1)) before.processNumber after where
  slots := slots.claimed small effect.valid (effect.slots fits)
  positive := by rw [effect.processNumber]; omega
  processNumber := by rw [effect.processNumber]; omega
  recoverNum := by rw [effect.recoverNum]; omega
  inside := by omega
  currentPcb := effect.currentPcb
  program := by
    rw [effect.pageTables]
    exact upperAddress_mapProgram _ _
  esp0 := effect.esp0

/-- A rejected program gives the records back to the process below the counter. -/
theorem rejected {processName : List UInt8} (running : Running bound number k)
    (below : k.currentPcb = stackTop k.processNumber) (valid : k.processNumber < 6)
    (effect : Rejected processName k after) :
    Running (max bound (k.processNumber + 1)) (k.processNumber - 1) after := by
  have positive := running.positive
  have high := running.slots.high
  have inside := running.inside
  have previous : stackTop k.processNumber = pcbAddress (k.processNumber - 1) := by
    rw [pcbAddress, Nat.sub_add_cancel (by omega)]
  have same : number = k.processNumber - 1 := by
    refine (pcbAddress_inj (by omega) (by omega)).mp ?_
    rw [← running.currentPcb, below, previous]
  exact {
    slots := running.slots.claimed running.processNumber valid (effect.slotClaimed valid)
    positive := by rw [effect.processNumber]; omega
    processNumber := by rw [effect.processNumber]; omega
    recoverNum := by rw [effect.recoverNum]; have := running.recoverNum; omega
    inside := by omega
    currentPcb := effect.currentPcb.trans previous
    program := by rw [effect.pageTables, ← same]; exact running.program
    esp0 := by rw [effect.esp0, ← same]; exact running.esp0 }

/-- The number that a halt returns to lies in a table, or it is three. -/
theorem returnNumber (running : Running bound number k) :
    3 ≤ k.returnNumber ∧ k.returnNumber ≤ bound := by
  have low := running.slots.low
  unfold Kernel.returnNumber
  split
  · rename_i index found
    obtain ⟨small, used⟩ := lastUsed_some found
    have parent : k.current .parentTerminal < 3 := by
      rw [current, running.currentPcb]
      exact running.slots.parents number running.inside
    rcases running.slots.entries _ parent index small with free | bounds
    · exact absurd free used
    · exact bounds
  · omega

theorem halted (running : Running bound number k) (effect : Halted k after) :
    Running bound (k.returnNumber - 1) after := by
  obtain ⟨low, high⟩ := running.returnNumber
  have numbers (other : Nat) (small : other < bound) :
      readField after.memory (pcbAddress other) .processNum = other := by
    rw [effect.kept running.aligned (pcbAddress_aligned _) (.inl (by decide))]
    exact running.slots.numbers other small
  have position : after.currentPcb = pcbAddress (k.returnNumber - 1) := by
    rw [effect.currentPcb, pcbAddress, Nat.sub_add_cancel (by omega)]
  have named : after.current .processNum = k.returnNumber - 1 := by
    rw [current, position]
    exact numbers _ (by omega)
  exact {
    slots := {
      low := running.slots.low
      high := running.slots.high
      numbers := numbers
      parents := fun other small => by
        rw [effect.kept running.aligned (pcbAddress_aligned _) (.inl (by decide))]
        exact running.slots.parents other small
      entries := fun terminal small index inside => by
        by_cases own : pcbAddress terminal = k.homePcb
        · have earlier := running.slots.entries terminal small index inside
          rw [own] at earlier ⊢
          rw [effect.table index inside]
          split
          · exact .inl rfl
          · exact earlier
        · rw [effect.otherTable running.aligned (pcbAddress_aligned _) own inside]
          exact running.slots.entries terminal small index inside }
    positive := by rw [effect.processNumber]; exact low
    processNumber := by rw [effect.processNumber]; exact high
    recoverNum := by rw [effect.recoverNum]; exact running.recoverNum
    inside := by omega
    currentPcb := position
    program := by
      rw [effect.pageTables, named]
      exact upperAddress_mapProgram _ _
    esp0 := by rw [effect.esp0, named] }

theorem systemExecute (running : Running bound number k) {command : Command} {locals : Locals}
    {registerEsp : Nat} {result : Int} (fit : ArgumentsFit command)
    (below : k.rejects command locals.tempBuffer = true → k.currentPcb = stackTop k.processNumber)
    (returned : k.systemExecute command locals registerEsp = some (result, after)) :
    ∃ bound number, Running bound number after := by
  have positive := running.positive
  cases systemExecute_outcome returned with
  | early => exact ⟨bound, number, running⟩
  | rejected reached rejects effect => exact ⟨_, _, running.rejected (below rejects) reached.valid effect⟩
  | unsaved reached copied effect =>
      exact ⟨_, _, entered running.slots running.processNumber running.recoverNum (.inl (by omega)) effect
        (reached.fits copied fit)⟩
  | started reached copied _ effect =>
      exact ⟨_, _, entered running.slots running.processNumber running.recoverNum (.inl (by omega))
        effect.toEntered (reached.fits copied fit)⟩

theorem systemHalt (running : Running bound number k) {literalTail : List UInt8} {locals : Locals}
    {registerEsp : Nat} (fit : ArgumentsFit (shellLiteral literalTail))
    (halted : k.systemHalt literalTail locals registerEsp = some after) :
    ∃ bound number, Running bound number after := by
  have positive := running.positive
  cases systemHalt_outcome halted with
  | halted _ returned =>
      exact ⟨_, _, running.halted (sysHalt_halted running.aligned (by omega) returned).2⟩
  | restarted _ reached copied effect =>
      have shown := k.console.terminalOnDisplay.isLt
      have low := running.slots.low
      refine ⟨_, _, @entered bound after { k with
        currentPcb := 0
        recoverNum := k.processNumber
        processNumber := k.console.terminalOnDisplay } _ _ running.slots ?_ running.processNumber
        (.inr positive) effect (reached.fits copied fit)⟩
      exact Nat.le_trans (Nat.le_of_lt shown) low

theorem step (running : Running bound number k) {event : Event} (steady : Steady k event)
    (taken : Kernel.step k event = some after) : ∃ bound number, Running bound number after := by
  cases event with
  | execute command locals registerEsp =>
      obtain ⟨⟨result, final⟩, returned, rfl⟩ := Option.map_eq_some_iff.mp taken
      exact running.systemExecute steady.1 steady.2 returned
  | halt literalTail locals registerEsp => exact running.systemHalt steady taken
  | switchTerminal terminal =>
      obtain rfl := Option.some.inj taken
      exact ⟨bound, number, { running with }⟩
  | vidmap screenStart => exact steady.elim

end Running

/-- The records agree after every run in which only the process below the counter is refused a program. -/
theorem records_agree {start k : Kernel} (booted : Booted start) {events : List Event}
    (run : Run Kernel.step Steady start events k) : RecordsAgree k := by
  have running : ∃ bound number, Running bound number k := by
    refine run.invariant (fun k => ∃ bound number, Running bound number k) ⟨_, _, booted.running⟩ ?_
    rintro before event after ⟨bound, number, running⟩ steady taken
    exact running.step steady taken
  obtain ⟨_, _, running⟩ := running
  exact running.agree

/-- A program, a refused one and a halt on another terminal, which restarts the second base shell. -/
theorem records_agree_sample : ∃ events k, Run Kernel.step Steady sampleKernel events k ∧
    k.currentPcb = pcbAddress 1 ∧ RecordsAgree k := by
  let events : List Event := [.execute (shellLiteral [0]) sampleLocals 0x7fff00,
    .execute missingCommand sampleLocals 0x7fdf00, .switchTerminal 1, .halt [0] sampleLocals 0x7fdf00]
  have executes : ((execute Kernel.step (fun k event => decide (Steady k event))
      sampleKernel events).any fun k => decide (k.currentPcb = pcbAddress 1)) = true := by decide +kernel
  obtain ⟨k, executed, position⟩ := (Option.any_eq_true _ _).mp executes
  have run := run_of_execute (fun _ _ => of_decide_eq_true) executed
  exact ⟨events, k, run, of_decide_eq_true position, records_agree sampleKernel_booted run⟩

/-- A refused program leaves the restarted first shell under the third shell's block. -/
theorem records_disagree : Booted sampleKernel ∧ ∃ events k,
    Run Kernel.step (fun _ event => ∀ screenStart, event ≠ .vidmap screenStart) sampleKernel events k ∧
      ¬RecordsAgree k := by
  let restart : Event := .halt [0] sampleLocals 0x7fff00
  let refused : Event := .execute missingCommand sampleLocals 0x7fff00
  have wrong : ((Kernel.step sampleKernel restart).any fun k => (Kernel.step k refused).any
      fun k => decide (¬RecordsAgree k)) = true := by decide +kernel
  obtain ⟨middle, first, wrong⟩ := (Option.any_eq_true _ _).mp wrong
  obtain ⟨k, second, wrong⟩ := (Option.any_eq_true _ _).mp wrong
  refine ⟨sampleKernel_booted, [] ++ [restart] ++ [refused], k, ?_, of_decide_eq_true wrong⟩
  exact .snoc (.snoc .nil (by simp [restart]) first) (by simp [refused]) second

end OrcaOS
