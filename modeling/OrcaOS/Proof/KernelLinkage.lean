import OrcaOS.Proof.BootSequence
import OrcaOS.Proof.ExecuteEffect
import OrcaOS.Proof.ProgramSwitch

/-!
The wrappers of the assembly code do to the kernel what `systemExecute` and `systemHalt` say. The words on the
kernel stacks lie in the memory of the processor, and the kernel is the data of the C functions.
-/

namespace OrcaOS
open Foundation

/-- What `sys_execute` finds beside the kernel, and what the two functions that switch programs leave in their argument
and in the interrupt flag. -/
structure SwitchSite where
  /-- The string at an address of the caller. -/
  command : Kernel → Word → Command
  locals : Kernel → Word → Locals
  slot : SystemCall → Kernel → Word → Word
  interrupts : Kernel → Word → Bool → Bool
  /-- `sys_execute` ends with `sti` or does not touch the flag. -/
  enabled : ∀ k pointer, interrupts k pointer true = true

def SwitchSite.meaning (site : SwitchSite) : SystemCall → Kernel → List Word → Option (Outcome Kernel)
  | .execute, k, [pointer] =>
      (k.sysExecute (site.command k pointer) (site.locals k pointer)).map fun (result, after) =>
        ⟨BitVec.ofInt 32 result, [site.slot .execute k pointer], after, site.interrupts k pointer⟩
  | .halt, k, [status] =>
      k.sysHalt.map fun (result, after) => ⟨BitVec.ofInt 32 result, [site.slot .halt k status], after, id⟩
  | _, _, _ => none

namespace Kernel

/-- The gate of the system calls takes the stack of the task state segment. -/
def systemCallGate (k : Kernel) (labels : Labels) : Processor.Gate :=
  ⟨labels.systemCallLinkage, kernelCs, BitVec.ofNat 32 k.esp0, BitVec.ofNat 16 k.ss0⟩

/-- The function has no result, so `eax` is left with anything. The wrapper relies on the argument that is kept. -/
def saveEspCall (left : Kernel → Word) (k : Kernel) : List Word → Option (Outcome Kernel)
  | [registerEsp] => some ⟨left k, [registerEsp], k.saveEsp registerEsp.toNat, id⟩
  | _ => none

/-- A function without arguments that only computes a word. -/
def wordCall (word : Kernel → Nat) (k : Kernel) : List Word → Option (Outcome Kernel)
  | [] => some ⟨BitVec.ofNat 32 (word k), [], k, id⟩
  | _ => none

variable {k after : Kernel} {command : Command} {locals : Locals} {result : Int}

theorem sysExecute_result (returned : k.sysExecute command locals = some (result, after)) :
    -2147483648 ≤ result ∧ result < 2147483648 := by
  have signed (word : Nat) (fits : word < 4294967296) : -2147483648 ≤ signed32 word ∧ signed32 word < 2147483648 := by
    unfold signed32
    split <;> omega
  cases sysExecute_outcome returned with
  | early => decide
  | rejected => decide
  | accepted => exact signed _ (Memory.load32_lt _ _)

/-- The comparison of the wrapper finds the result -1. -/
theorem word_eq_neg_one_iff (low : -2147483648 ≤ result) (high : result < 2147483648) :
    BitVec.ofInt 32 result = -1 ↔ result = -1 := by
  rw [← BitVec.toInt_inj, BitVec.toInt_ofInt, Int.bmod_eq_of_le (by omega) (by omega)]
  rfl

theorem saveEspCall_keeps (left : Kernel → Word) : KeepsArguments (saveEspCall left) := by
  intro world arguments outcome kept
  match arguments with
  | [registerEsp] =>
      obtain rfl := Option.some.inj kept
      exact ⟨rfl, rfl⟩

/-- The saved stack pointer is the one that the child gives back. -/
theorem restoreEsp_saveEsp (k : Kernel) (esp : Word) : (k.saveEsp (esp - 4).toNat).restoreEsp = esp.toNat := by
  rw [saveEsp, restoreEsp, current_setCurrent k .esp (wrap32_lt _), wrap32]
  bv_omega

theorem word_toInt_signed32 {word : Nat} (fits : word < 4294967296) : (BitVec.ofNat 32 word).toInt = signed32 word := by
  rw [BitVec.toInt_eq_toNat_cond, BitVec.toNat_ofNat, Nat.mod_eq_of_lt fits, signed32]
  split_ifs <;> omega

/-- The comparison of the wrapper decides as the model does. -/
theorem haltsDirectly_eq (k : Kernel) (fits : k.processNumber < 4294967296) :
    (3 : Word).slt (BitVec.ofNat 32 k.checkProcessNum) = k.haltsDirectly := by
  have small : k.checkProcessNum < 4294967296 := by
    unfold checkProcessNum
    split
    · exact fits
    · omega
  rw [BitVec.slt_eq_decide, word_toInt_signed32 small]
  rfl

end Kernel

section Wrappers
variable {code : Code Kernel} {labels : Labels} {limit : Nat} {p : Processor Kernel} {gate : Processor.Gate}
  {site : SwitchSite}

/-- The kernel as the execute leaves it, and either the caller with the result -1 or the program with the registers
of the caller on the stack. -/
def ExecuteAnswered (p q : Processor Kernel) (gate : Processor.Gate) (slot : Word) (result : Int) (after : Kernel) : Prop :=
  q.world = after ∧
    if result = -1 then CallReturns p q ⟨-1, [slot], after, id⟩
    else ∃ flags, ProgramStarts q (BitVec.ofInt 32 result) flags ∧ Flag.interrupt.read flags = true ∧
      after.restoreEsp = (linkageEsp gate).toNat ∧
      Waits q.memory after.restoreEsp (slot :: (savedWords p.registers).drop 1) p.frame

/-- The execute call of a program does what `systemExecute` says. -/
theorem execute_refines (linked : Linked code labels) (traps : Traps labels limit p gate)
    (executes : Compiled code limit (labels.function .execute) 1 (site.meaning .execute)) {left : Kernel → Word}
    (saves : Compiled code limit labels.saveEsp 1 (Kernel.saveEspCall left))
    (number : p.registers.general .eax = BitVec.ofNat 32 SystemCall.execute.number) {result : Int} {after : Kernel}
    (executed : p.world.systemExecute (site.command p.world (p.registers.general .ebx))
      (site.locals p.world (p.registers.general .ebx)) (linkageEsp gate - 4).toNat = some (result, after)) :
    ∃ q, Reaches code (p.enter gate) q ∧
      ExecuteAnswered p q gate (site.slot .execute p.world (p.registers.general .ebx)) result after ∧
      Set.EqOn q.memory p.memory (Memory.window limit (gate.stack.toNat - limit))ᶜ := by
  obtain ⟨⟨entry, middle⟩, ran, answered⟩ := Option.map_eq_some_iff.mp executed
  obtain ⟨low, high⟩ := Kernel.sysExecute_result ran
  have meant : site.meaning .execute p.world [p.registers.general .ebx] = some ⟨BitVec.ofInt 32 entry,
      [site.slot .execute p.world (p.registers.general .ebx)], middle, site.interrupts p.world (p.registers.general .ebx)⟩ := by
    rw [SwitchSite.meaning, ran]
    rfl
  dsimp only at answered
  by_cases failed : entry = -1
  · rw [if_pos failed] at answered
    obtain ⟨rfl, rfl⟩ := answered
    obtain ⟨q, reaches, returns, memory⟩ := system_call_returns linked traps executes number (by decide) meant
      fun _ => by rw [failed]; rfl
    refine ⟨q, reaches, ⟨returns.world, ?_⟩, memory⟩
    rw [if_pos rfl]
    exact ⟨by rw [returns.result, failed]; rfl, returns.saved, returns.esp, returns.flags, returns.selector, returns.eip,
      returns.world⟩
  · rw [if_neg failed] at answered
    obtain ⟨rfl, rfl⟩ := answered
    have success : BitVec.ofInt 32 result ≠ -1 := fun minus => failed ((Kernel.word_eq_neg_one_iff low high).mp minus)
    obtain ⟨q, flags, reaches, starts, interrupts, world, holds, memory⟩ := execute_starts linked traps executes
      saves (Kernel.saveEspCall_keeps left) number meant success rfl
    refine ⟨q, reaches, ⟨world, ?_⟩, memory⟩
    rw [if_neg failed]
    have room := traps.room
    have pointer := Kernel.restoreEsp_saveEsp middle (linkageEsp gate)
    refine ⟨flags, starts, interrupts.trans (site.enabled _ _), pointer, ?_, rfl, ?_⟩
    · rw [pointer]
      exact holds
    · rw [pointer, linkageEsp]
      bv_omega

variable {below : Nat} {literalTail : List UInt8} {locals : Locals} {registerEsp : Nat} {after : Kernel}

/-- The halt of a nested program does what `systemHalt` says and resumes the parent with the status. -/
theorem halt_refines (linked : Linked code labels) (traps : Traps labels limit p gate)
    (restores : Compiled code limit labels.restoreEsp 0 (Kernel.wordCall Kernel.restoreEsp))
    (checks : Compiled code below labels.checkProcessNum 0 (Kernel.wordCall Kernel.checkProcessNum))
    (halts : Compiled code below (labels.function .halt) 1 (site.meaning .halt))
    (number : p.registers.general .eax = BitVec.ofNat 32 SystemCall.halt.number)
    {words : List Word} {frame : Frame} (waits : Waits p.memory p.world.restoreEsp words frame)
    (room : below + 4 ≤ p.world.restoreEsp)
    (apart : p.world.restoreEsp + 44 ≤ limit ∨ gate.stack.toNat ≤ p.world.restoreEsp)
    (outward : Processor.privilege gate.code < Processor.privilege (frame.code.setWidth 16))
    (fits : p.world.processNumber < 4294967296) (direct : p.world.haltsDirectly = true)
    (halted : p.world.systemHalt literalTail locals registerEsp = some after) :
    ∃ q slot result, Reaches code (p.enter gate) q ∧ ParentResumes p q words frame ⟨result, [slot], after, id⟩ ∧
      Set.EqOn q.memory p.memory (Memory.window limit (gate.stack.toNat - limit) ∪
        Memory.window below (p.world.restoreEsp + 44 - below))ᶜ := by
  rw [Kernel.systemHalt, if_pos direct] at halted
  obtain ⟨⟨result, halting⟩, ran, rfl⟩ := Option.map_eq_some_iff.mp halted
  have pointer : (BitVec.ofNat 32 p.world.restoreEsp).toNat = p.world.restoreEsp := by
    have bound := waits.fits
    exact Nat.mod_eq_of_lt (by omega)
  obtain ⟨status, rest, rfl⟩ := List.exists_cons_of_length_eq_add_one waits.six
  have meant : site.meaning .halt p.world [status] =
      some ⟨BitVec.ofInt 32 result, [site.slot .halt p.world status], halting, id⟩ := by
    rw [SwitchSite.meaning, ran]
    rfl
  rw [← pointer] at waits room apart
  obtain ⟨q, reaches, resumes, memory⟩ := halt_resumes linked traps restores checks halts number rfl waits room apart outward
    rfl ((p.world.haltsDirectly_eq fits).trans direct) meant
  rw [pointer] at memory
  exact ⟨q, _, _, reaches, resumes, memory⟩

/-- The kernel in which the base shell of the terminal on display is started again. -/
def Kernel.restarting (k : Kernel) : Kernel :=
  { k with currentPcb := 0, recoverNum := k.processNumber, processNumber := k.console.terminalOnDisplay }

/-- The caller of an execute goes on behind it with the status that the program has passed to its halt. -/
structure ExecuteReturns (p child r : Processor Kernel) (after : Kernel) : Prop where
  status : r.registers.general .eax = ((child.registers.general .ebx).setWidth 8).setWidth 32
  saved : (savedWords r.registers).drop 1 = (savedWords p.registers).drop 1
  esp : r.esp = p.esp
  flags : r.registers.flags = p.registers.flags
  eip : r.eip = p.eip
  cs : r.registers.selector .cs = p.registers.selector .cs
  ss : r.registers.selector .ss = p.registers.selector .ss
  world : r.world = after

/-- A restart is an execute of the literal. -/
theorem Kernel.systemHalt_restarting {k : Kernel} (restarts : k.haltsDirectly = false)
    (halted : k.systemHalt literalTail locals registerEsp = some after) : ∃ result middle, result ≠ -1 ∧
      k.restarting.sysExecute (shellLiteral literalTail) locals = some (result, middle) ∧
      middle.saveEsp registerEsp = after := by
  rw [systemHalt, if_neg (by rw [restarts]; exact Bool.false_ne_true)] at halted
  obtain ⟨⟨entry, _⟩, executed, answered⟩ := Option.bind_eq_some_iff.mp halted
  obtain ⟨⟨result, middle⟩, ran, same⟩ := Option.map_eq_some_iff.mp executed
  dsimp only at answered same
  by_cases failed : result = -1
  · rw [if_pos failed] at same
    obtain ⟨rfl, rfl⟩ := same
    rw [if_pos rfl] at answered
    cases answered
  · rw [if_neg failed] at same
    obtain ⟨rfl, rfl⟩ := same
    rw [if_neg failed] at answered
    exact ⟨entry, middle, failed, ran, Option.some.inj answered⟩

/-- On the stack of the parent of a base shell the wrapper starts the shell again, above words of its own. -/
theorem systemHalt_restarts (linked : Linked code labels) {depth : Nat} {literal : Word} {left : Kernel → Word}
    (checks : Compiled code below labels.checkProcessNum 0 (Kernel.wordCall Kernel.checkProcessNum))
    (starts : Enters code below labels.startFirstShell (labels.wrapper .execute) literal depth Kernel.restarting)
    (executes : Compiled code below (labels.function .execute) 1 (site.meaning .execute))
    (saves : Compiled code below labels.saveEsp 1 (Kernel.saveEspCall left)) {v : View Kernel} {start : Word}
    (placed : Placed code start ((Assembly.systemHalt labels).drop 3) labels.validHalt) (stack : v.stack = [])
    (room : below + 4 * (depth + 8) ≤ v.base) (restarts : (3 : Word).slt (BitVec.ofNat 32 v.world.checkProcessNum) = false)
    {outcome : Outcome Kernel} (meant : site.meaning .execute v.world.restarting [literal] = some outcome)
    (success : outcome.result ≠ -1) :
    Runs code below start v fun address last => ReturnsAt code address ∧ ∃ frame : Frame, ∃ rest,
      last.stack = frame.words ++ rest ∧ last.world = outcome.world.saveEsp (v.base - 4 * (depth + 3)) ∧
        last.registers.selector .cs = v.registers.selector .cs ∧ ProgramFrame last frame outcome.result ∧
        Flag.interrupt.read frame.flags = outcome.interrupts true := by
  refine Runs.callRoutine placed checks [] [] stack rfl (by rw [stack]; change below + 4 * (0 + 1) ≤ _; omega) rfl
    fun _ checked placed base returns none => ?_
  have empty : checked.stack = [] := by
    rw [returns.stack, List.eq_nil_of_length_eq_zero none]
    rfl
  have world : checked.world = v.world := returns.world
  have eax : checked.registers.general .eax = BitVec.ofNat 32 v.world.checkProcessNum := returns.result
  refine Runs.straight placed rfl rfl (by rw [empty, base]; change below + 4 * 0 ≤ _; omega) fun _ placed => ?_
  cases placed with | cons fetched placed => ?_
  refine Runs.fallThrough fetched (by simpa [Registers.run, Registers.read, eax] using restarts) ?_
  cases placed with | cons fetched placed => ?_
  refine Runs.call fetched (by rw [base, empty]; change below + 4 * (0 + 1) ≤ _; omega) ?_
  refine Runs.enters starts ?_ fun entered back own kept length words changed selector => ?_
  · change below + 4 * (checked.stack.length + 1 + depth + 2) ≤ checked.base
    rw [base, empty]
    change below + 4 * (0 + 1 + depth + 2) ≤ _
    omega
  -- The wrapper of the execute call finds the literal above the frame of `start_first_shell`.
  have bottom : entered.base = v.base := kept.trans base
  have meant : site.meaning .execute entered.world [literal] = some outcome := by
    rw [changed]
    change site.meaning .execute checked.world.restarting [literal] = _
    rw [world]
    exact meant
  have count : entered.stack.length = depth + 3 := by
    rw [words, List.length_cons, List.length_append, List.length_append, length]
    change 1 + (depth + (checked.stack.length + 1)) + 1 = _
    rw [empty]
    change 1 + (depth + (0 + 1)) + 1 = _
    omega
  refine execute_continues linked executes words rfl meant success (by rw [count, bottom]; omega)
    fun middle answered slots interrupts => ?_
  have size : middle.stack.length = depth + 2 := by
    have whole := congrArg List.length words
    rw [count, List.length_cons, List.length_append] at whole
    rw [answered.stack, List.length_append, slots]
    change depth + 3 = 1 + _ + 1 at whole
    omega
  refine Runs.pointer fun pointer => ?_
  rw [size, answered.base, bottom] at pointer
  have argument : (middle.registers.general .esp - 4).toNat = v.base - 4 * (depth + 3) := by bv_omega
  have stored : Kernel.saveEspCall left middle.world [middle.registers.general .esp - 4] =
      some ⟨left outcome.world, [middle.registers.general .esp - 4], outcome.world.saveEsp (v.base - 4 * (depth + 3)), id⟩ := by
    rw [answered.world, Kernel.saveEspCall, argument]
  have leaves : Runs code below labels.continueExecute middle _ := continueExecute_leaves linked saves
    (Kernel.saveEspCall_keeps left) stored (by rw [size, answered.base, bottom]; omega)
  refine leaves.mono fun address last reached => ?_
  obtain ⟨returning, frame, left, saved, kept, built, flags⟩ := reached
  refine ⟨returning, frame, _, left, saved, ?_, answered.result ▸ built, flags.trans interrupts⟩
  rw [kept, answered.selector, selector]
  exact congrFun returns.selector .cs

end Wrappers

section Sample

/-- The sample shell is executed with three characters, and the functions keep their arguments. -/
def sampleSite : SwitchSite where
  command _ pointer := if pointer = sampleLiteral then Kernel.shellLiteral [0] else sampleCommand 3
  locals _ _ := sampleLocals
  slot _ _ argument := argument
  interrupts _ _ := id
  enabled _ _ := rfl

theorem sampleSite_keeps (call : SystemCall) : KeepsArguments (sampleSite.meaning call) := by
  intro k arguments outcome meant
  unfold SwitchSite.meaning at meant
  split at meant
  · obtain ⟨_, -, rfl⟩ := Option.map_eq_some_iff.mp meant
    exact ⟨rfl, rfl⟩
  · obtain ⟨_, -, rfl⟩ := Option.map_eq_some_iff.mp meant
    exact ⟨rfl, rfl⟩
  · cases meant

theorem Kernel.wordCall_keeps (word : Kernel → Nat) : KeepsArguments (Kernel.wordCall word) := by
  intro k arguments outcome meant
  match arguments with
  | [] =>
      obtain rfl := Option.some.inj meant
      exact ⟨rfl, rfl⟩

/-- The functions of the kernel that switch programs. -/
def kernelFunctions : Functions Kernel where
  function call := computed (sampleSite.meaning call)
  restoreEsp := computed (Kernel.wordCall Kernel.restoreEsp)
  saveEsp := computed (Kernel.saveEspCall fun _ => 0)
  checkProcessNum := computed (Kernel.wordCall Kernel.checkProcessNum)
  startFirstShell := Kernel.restarting
  keyboardHandler _ _ := none
  rtcHandler _ _ := none
  pitHandler _ _ := none
  saveRegistersEsp _ _ := none
  restoreRegisterEsp _ _ := none

theorem kernelCode_compiled {entry : Word} {arity : Nat} {meaning : Kernel → List Word → Option (Outcome Kernel)}
    (found : kernelFunctions.table.lookup entry = some (plainRoutine arity (computed meaning))) (keeps : KeepsArguments meaning)
    (limit : Nat) : Compiled (sampleCode kernelFunctions) limit entry arity meaning := by
  rw [← plainMeaning_computed keeps]
  exact sampleCode_compiled kernelFunctions found limit

end Sample

end OrcaOS
