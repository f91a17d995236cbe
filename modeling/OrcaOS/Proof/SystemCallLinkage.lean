import OrcaOS.Foundation.InterruptFrame
import OrcaOS.Foundation.Assembly
import OrcaOS.Construction.Linkage

/-!
The system call linkage hands the arguments to the wrapper of the call and gives the registers back.
-/

namespace OrcaOS
open Foundation

/-- The words that the linkage pushes, the arguments of the call first. -/
def savedWords (registers : Registers) : List Word :=
  [registers.general .ebx, registers.general .ecx, registers.general .edx, registers.general .esi,
    registers.general .edi, registers.general .ebp]

namespace Assembly

/-- The linkage behind its call. -/
def behindCall (labels : Labels) : List Line := (systemCallLinkage labels).drop 13

end Assembly

/-- The linkage has pushed the registers and the return address, and changed only flags and the frame pointer. -/
structure Dispatched {World : Type} (v after : View World) (back : Word) : Prop where
  stack : after.stack = back :: (savedWords v.registers ++ v.stack)
  world : after.world = v.world
  base : after.base = v.base
  general : ∀ name, name ≠ .esp → name ≠ .ebp → after.registers.general name = v.registers.general name
  selector : after.registers.selector = v.registers.selector

section Linkage
variable {World : Type} {code : Code World} {labels : Labels} {limit : Nat} {v : View World}
  {goal : Word → View World → Prop}

/-- A number of the table leads to the wrapper of its call. -/
theorem linkage_dispatches (linked : Linked code labels) (call : SystemCall)
    (number : v.registers.general .eax = BitVec.ofNat 32 call.number)
    (room : limit + 4 * (v.stack.length + 7) ≤ v.base)
    (next : ∀ back after, Placed code back (Assembly.behindCall labels) labels.invalidEax →
      Dispatched v after back → Runs code limit (labels.wrapper call) after goal) :
    Runs code limit labels.systemCallLinkage v goal := by
  have low : (v.registers.general .eax).sle 0#32 = false := by
    rw [number]
    cases call <;> decide
  have high : (10#32).slt (v.registers.general .eax) = false := by
    rw [number]
    cases call <;> decide
  refine Runs.straight linked.linkage rfl rfl (show limit + 4 * v.stack.length ≤ v.base by omega) fun _ placed => ?_
  cases placed with | cons fetched placed => ?_
  refine Runs.fallThrough fetched (by simp [Registers.run, Registers.read, low]) ?_
  refine Runs.straight placed rfl rfl (show limit + 4 * v.stack.length ≤ v.base by omega) fun _ placed => ?_
  cases placed with | cons fetched placed => ?_
  refine Runs.fallThrough fetched (by simp [Registers.run, Registers.read, high]) ?_
  refine Runs.straight placed rfl rfl (show limit + 4 * (v.stack.length + 6) ≤ v.base by omega) fun _ placed => ?_
  cases placed with | cons fetched placed => ?_
  refine Runs.callIndirect fetched room ?_
  have entry := linked.table call
  rw [← number] at entry
  change Runs code limit (code.constant (labels.systemCallTable - 4 + 4 * v.registers.general .eax)) _ goal
  rw [entry]
  refine next _ _ placed ⟨rfl, rfl, rfl, fun name notStack notFrame => ?_, rfl⟩
  cases name <;> first | rfl | contradiction

/-- A function has been called with the stack of the linkage and has returned above the given rest. -/
structure Answered {World : Type} (v after : View World) (outcome : Outcome World) (rest : List Word) : Prop where
  stack : after.stack = outcome.slots ++ rest
  world : after.world = outcome.world
  base : after.base = v.base
  result : after.registers.general .eax = outcome.result
  selector : after.registers.selector = v.registers.selector

variable {meaning : SystemCall → World → List Word → Option (Outcome World)} {call : SystemCall}
  {back start finish : Word} {arguments rest : List Word} {outcome : Outcome World} {tail : List Line}

/-- The stack is shorter by the return address. -/
theorem Answered.room {after : View World} (answered : Answered v after outcome rest)
    (stack : v.stack = back :: (arguments ++ rest)) (slots : outcome.slots.length = arguments.length)
    (room : limit + 4 * v.stack.length ≤ v.base) : limit + 4 * after.stack.length ≤ after.base := by
  rw [stack, List.length_cons, List.length_append] at room
  rw [answered.stack, answered.base, List.length_append, slots]
  omega

/-- A wrapper moves its return address to `edi`, which its function gives back. -/
theorem function_answers (placed : Placed code start (.op (.pop .edi) :: .go (.call (labels.function call)) :: tail) finish)
    (compiled : Compiled code limit (labels.function call) call.arity (meaning call))
    (stack : v.stack = back :: (arguments ++ rest)) (count : arguments.length = call.arity)
    (meant : meaning call v.world arguments = some outcome) (room : limit + 4 * v.stack.length ≤ v.base)
    (next : ∀ middle after, Placed code middle tail finish → Answered v after outcome rest →
      after.registers.general .edi = back → outcome.slots.length = call.arity →
      Flag.interrupt.read after.registers.flags = outcome.interrupts (Flag.interrupt.read v.registers.flags) →
      Runs code limit middle after goal) : Runs code limit start v goal := by
  obtain ⟨registers, world, base, words⟩ := v
  obtain rfl : words = back :: (arguments ++ rest) := stack
  refine Runs.straight placed rfl rfl room fun _ placed => ?_
  cases placed with | cons fetched placed => ?_
  refine Runs.call fetched room ?_
  refine Runs.routine compiled arguments rest rfl count room meant fun after kept returns slots => ?_
  exact next _ after placed ⟨returns.stack, returns.world, kept, returns.result, returns.selector⟩
    (returns.saved .edi (by decide)) slots returns.interrupts

theorem plainWrapper_answers (placed : Placed code start (Assembly.plainWrapper labels call) finish)
    (compiled : Compiled code limit (labels.function call) call.arity (meaning call))
    (stack : v.stack = back :: (arguments ++ rest)) (count : arguments.length = call.arity)
    (meant : meaning call v.world arguments = some outcome) (room : limit + 4 * v.stack.length ≤ v.base)
    (next : ∀ after, Answered v after outcome rest → outcome.slots.length = call.arity →
      Runs code limit back after goal) : Runs code limit start v goal := by
  refine function_answers placed compiled stack count meant room fun _ after placed answered edi slots _ => ?_
  cases placed with | cons fetched placed => ?_
  refine Runs.jumpRegister fetched ?_
  rw [edi]
  exact next after answered slots

/-- Every wrapper of a call that is neither a halt nor an execute comes back. -/
theorem wrapper_answers (linked : Linked code labels) (notHalt : call ≠ .halt) (notExecute : call ≠ .execute)
    (compiled : Compiled code limit (labels.function call) call.arity (meaning call))
    (stack : v.stack = back :: (arguments ++ rest)) (count : arguments.length = call.arity)
    (meant : meaning call v.world arguments = some outcome) (room : limit + 4 * v.stack.length ≤ v.base)
    (next : ∀ after, Answered v after outcome rest → outcome.slots.length = call.arity →
      Runs code limit back after goal) : Runs code limit (labels.wrapper call) v goal := by
  obtain ⟨finish, -, placed⟩ := linked.wrapper call
  cases call with
  | halt => exact absurd rfl notHalt
  | execute => exact absurd rfl notExecute
  | read =>
      refine Runs.setFlag placed room fun _ placed => ?_
      exact plainWrapper_answers placed compiled stack count meant room fun after answered =>
        next after ⟨answered.stack, answered.world, answered.base, answered.result, answered.selector⟩
  | write =>
      refine Runs.setFlag placed room fun _ placed => ?_
      refine function_answers placed compiled stack count meant room fun _ after placed answered edi slots _ => ?_
      refine Runs.setFlag placed (answered.room stack (slots.trans count.symm) room) fun _ placed => ?_
      cases placed with | cons fetched placed => ?_
      refine Runs.jumpRegister fetched ?_
      change Runs code limit (after.registers.general .edi) _ goal
      rw [edi]
      exact next _ ⟨answered.stack, answered.world, answered.base, answered.result, answered.selector⟩ slots
  | _ => exact plainWrapper_answers placed compiled stack count meant room next

/-- An execute that fails comes back like any other call. -/
theorem execute_answers (linked : Linked code labels)
    (compiled : Compiled code limit (labels.function .execute) 1 (meaning .execute))
    (stack : v.stack = back :: (arguments ++ rest)) (count : arguments.length = 1)
    (meant : meaning .execute v.world arguments = some outcome) (failed : outcome.result = -1)
    (room : limit + 4 * v.stack.length ≤ v.base)
    (next : ∀ after, Answered v after outcome rest → outcome.slots.length = 1 →
      Runs code limit back after goal) : Runs code limit (labels.wrapper .execute) v goal := by
  obtain ⟨finish, -, placed⟩ := linked.wrapper .execute
  refine Runs.setFlag placed room fun _ placed => ?_
  refine function_answers placed compiled stack count meant room fun _ after placed answered edi slots _ => ?_
  refine Runs.straight placed rfl rfl (answered.room stack (slots.trans count.symm) room) fun _ placed => ?_
  cases placed with | cons fetched placed => ?_
  refine Runs.fallThrough fetched (by simp [Registers.run, Registers.read, answered.result, failed]) ?_
  cases placed with | cons fetched placed => ?_
  refine Runs.jumpRegister fetched ?_
  change Runs code limit (after.registers.general .edi) _ goal
  rw [edi]
  exact next _ ⟨answered.stack, answered.world, answered.base, answered.result, answered.selector⟩ slots

/-- The saved words are back in their registers. -/
structure Restored {World : Type} (v after : View World) (words rest : List Word) : Prop where
  stack : after.stack = rest
  world : after.world = v.world
  base : after.base = v.base
  result : after.registers.general .eax = v.registers.general .eax
  saved : savedWords after.registers = words
  selector : after.registers.selector = v.registers.selector

/-- Behind its call the linkage gives six words back to their registers. -/
theorem linkage_restores {words : List Word} (placed : Placed code back (Assembly.behindCall labels) labels.invalidEax)
    (stack : v.stack = words ++ rest) (count : words.length = 6) (room : limit + 4 * v.stack.length ≤ v.base) :
    Runs code limit back v fun address after => ReturnsAt code address ∧ Restored v after words rest := by
  obtain ⟨registers, world, base, list⟩ := v
  obtain rfl : list = words ++ rest := stack
  match words, count with
  | [ebx, ecx, edx, esi, edi, ebp], _ =>
      refine Runs.straight placed rfl rfl room fun _ placed => ?_
      cases placed with | cons fetched placed => ?_
      exact .done ⟨⟨_, fetched⟩, rfl, rfl, rfl, rfl, rfl, rfl⟩

/-- The program interrupts itself through the gate of the system calls, and its kernel stack has room. -/
structure Traps (labels : Labels) (limit : Nat) (p : Processor World) (gate : Processor.Gate) : Prop where
  target : gate.target = labels.systemCallLinkage
  lower : Processor.privilege gate.code < Processor.privilege (p.registers.selector .cs)
  room : limit + 80 ≤ gate.stack.toNat

/-- The program goes on behind its call with the result, and its arguments are as the function left them. -/
structure CallReturns (p q : Processor World) (outcome : Outcome World) : Prop where
  result : q.registers.general .eax = outcome.result
  saved : savedWords q.registers = outcome.slots ++ (savedWords p.registers).drop outcome.slots.length
  esp : q.esp = p.esp
  flags : q.registers.flags = p.registers.flags
  selector : q.registers.selector = p.registers.selector
  eip : q.eip = p.eip
  world : q.world = outcome.world

variable {p : Processor World} {gate : Processor.Gate}

/-- The entered gate leaves room for fifteen words. -/
theorem Traps.space (traps : Traps labels limit p gate) {count : Nat} (few : count ≤ 15) :
    limit + 4 * ((p.entered gate).stack.length + count) ≤ (p.entered gate).base := by
  rw [Processor.entered_stack, Processor.entered_base]
  change limit + 4 * (5 + count) ≤ gate.stack.toNat
  exact le_trans (by omega) traps.room

/-- The wrapper of a call finds twelve words and has room for three more. -/
theorem Traps.dispatched_space (traps : Traps labels limit p gate) {after : View World}
    (dispatched : Dispatched (p.entered gate) after back) : limit + 4 * after.stack.length ≤ after.base := by
  rw [dispatched.stack, dispatched.base]
  exact le_trans (Nat.le_of_eq (by simp [savedWords])) (traps.space (show 7 ≤ 15 by decide))

theorem savedWords_entered : savedWords (p.entered gate).registers = savedWords p.registers := by
  simp [savedWords]

theorem savedWords_resumed (registers : Registers) (frame : Frame) :
    savedWords (registers.resumed frame) = savedWords registers := rfl

theorem SystemCall.arity_le (call : SystemCall) : call.arity ≤ 3 := by
  cases call <;> decide

/-- The code is about to return to the program with the outcome of its call. -/
abbrev LeavesWith (code : Code World) (p : Processor World) (gate : Processor.Gate) (outcome : Outcome World)
    (address : Word) (after : View World) : Prop :=
  ReturnsAt code address ∧ after.stack = p.frame.words ∧
    after.registers.selector = (p.entered gate).registers.selector ∧ after.registers.general .eax = outcome.result ∧
    savedWords after.registers = outcome.slots ++ (savedWords p.registers).drop outcome.slots.length ∧
    after.world = outcome.world

/-- A system call that comes back returns the result of its function and keeps every other register
than those of its arguments. -/
theorem system_call_returns (linked : Linked code labels) (traps : Traps labels limit p gate)
    (compiled : Compiled code limit (labels.function call) call.arity (meaning call))
    (number : p.registers.general .eax = BitVec.ofNat 32 call.number) (notHalt : call ≠ .halt)
    (meant : meaning call p.world ((savedWords p.registers).take call.arity) = some outcome)
    (failed : call = .execute → outcome.result = -1) :
    ∃ q, Reaches code (p.enter gate) q ∧ CallReturns p q outcome ∧
      Set.EqOn q.memory p.memory (Memory.window limit (gate.stack.toNat - limit))ᶜ := by
  have room := traps.room
  have runs : Runs code limit gate.target (p.entered gate) (LeavesWith code p gate outcome) := by
    rw [traps.target]
    refine linkage_dispatches linked call (by simpa using number) (traps.space (by decide))
      fun back after placed dispatched => ?_
    have stack : after.stack = back :: ((savedWords p.registers).take call.arity ++
        ((savedWords p.registers).drop call.arity ++ p.frame.words)) := by
      rw [dispatched.stack, savedWords_entered, Processor.entered_stack, ← List.append_assoc, List.take_append_drop]
    have small := call.arity_le
    have count : ((savedWords p.registers).take call.arity).length = call.arity :=
      List.length_take_of_le (show call.arity ≤ 6 by omega)
    have space := traps.dispatched_space dispatched
    have answer (middle : View World) (answered : Answered after middle outcome
        ((savedWords p.registers).drop call.arity ++ p.frame.words)) (slots : outcome.slots.length = call.arity) :
        Runs code limit back middle (LeavesWith code p gate outcome) := by
      have words : middle.stack = outcome.slots ++ (savedWords p.registers).drop outcome.slots.length ++ p.frame.words := by
        rw [answered.stack, slots, List.append_assoc]
      have six : (outcome.slots ++ (savedWords p.registers).drop outcome.slots.length).length = 6 := by
        rw [List.length_append, List.length_drop, slots]
        exact Nat.add_sub_cancel' (show call.arity ≤ 6 by omega)
      have fits := answered.room stack (slots.trans count.symm) space
      have runs : Runs code limit back middle _ := linkage_restores placed words six fits
      exact runs.mono fun address last ⟨returns, restored⟩ => ⟨returns, restored.stack,
        restored.selector.trans (answered.selector.trans dispatched.selector), restored.result.trans answered.result,
        restored.saved, restored.world.trans answered.world⟩
    by_cases execute : call = .execute
    · subst execute
      exact execute_answers linked compiled stack count (by rw [dispatched.world]; exact meant) (failed rfl) space answer
    · exact wrapper_answers linked notHalt execute compiled stack count (by rw [dispatched.world]; exact meant) space answer
  obtain ⟨q, after, ⟨result, saved, world⟩, reaches, registers, selector, eip, last, memory⟩ :=
    Runs.resumes traps.lower (by omega) runs
  refine ⟨q, reaches, ⟨?_, ?_, ?_, ?_, selector, eip, last.trans world⟩, memory⟩
  · rw [registers]
    exact result
  · rw [registers, savedWords_resumed, saved]
  · rw [Processor.esp, registers]
    rfl
  · rw [registers]
    rfl

/-- The numbers from one to ten are those of the calls. -/
theorem SystemCall.exists_number {word : Word} (low : ¬word.sle 0#32) (high : ¬(10#32).slt word) :
    ∃ call : SystemCall, word = BitVec.ofNat 32 call.number := by
  have table : ∀ index : Fin 10, ∃ call ∈ all, call.number = index + 1 := by decide
  rw [BitVec.sle_eq_decide, decide_eq_true_iff, Int.not_le] at low
  rw [BitVec.slt_eq_decide, decide_eq_true_iff, Int.not_lt] at high
  have fits := word.isLt
  change 0 < word.toInt at low
  change word.toInt ≤ 10 at high
  rw [BitVec.toInt_eq_toNat_cond] at low high
  have bounds : 1 ≤ word.toNat ∧ word.toNat ≤ 10 := by
    split at low <;> omega
  obtain ⟨call, -, number⟩ := table ⟨word.toNat - 1, by omega⟩
  refine ⟨call, ?_⟩
  rw [number, Nat.sub_add_cancel bounds.1, BitVec.ofNat_toNat, BitVec.setWidth_eq]

/-- A number outside the table leads to `invalid_eax`. -/
theorem linkage_rejects (linked : Linked code labels)
    (invalid : ∀ call : SystemCall, v.registers.general .eax ≠ BitVec.ofNat 32 call.number)
    (room : limit + 4 * v.stack.length ≤ v.base)
    (next : ∀ flags, Runs code limit labels.invalidEax
      { v with registers := { v.registers with flags } } goal) : Runs code limit labels.systemCallLinkage v goal := by
  refine Runs.straight linked.linkage rfl rfl room fun _ placed => ?_
  cases placed with | cons fetched placed => ?_
  by_cases low : (v.registers.general .eax).sle 0#32
  · exact Runs.jumpIf fetched (by simp [Registers.run, Registers.read, low]) (next _)
  refine Runs.fallThrough fetched (by simp [Registers.run, Registers.read, low]) ?_
  refine Runs.straight placed rfl rfl room fun _ placed => ?_
  cases placed with | cons fetched placed => ?_
  have high : (10#32).slt (v.registers.general .eax) := by
    by_contra small
    obtain ⟨call, number⟩ := SystemCall.exists_number low small
    exact invalid call number
  exact Runs.jumpIf fetched (by simp [Registers.run, Registers.read, high]) (next _)

/-- A number outside the table returns -1 and changes nothing else. -/
theorem system_call_rejected (linked : Linked code labels) (traps : Traps labels limit p gate)
    (invalid : ∀ call : SystemCall, p.registers.general .eax ≠ BitVec.ofNat 32 call.number) :
    ∃ q, Reaches code (p.enter gate) q ∧ q.registers = p.registers.set .eax (-1) ∧ q.eip = p.eip ∧ q.world = p.world ∧
      Set.EqOn q.memory p.memory (Memory.window limit (gate.stack.toNat - limit))ᶜ := by
  have space := traps.room
  have room : limit + 4 * (p.entered gate).stack.length ≤ (p.entered gate).base := traps.space (Nat.zero_le _)
  have runs : Runs code limit gate.target (p.entered gate) fun address after =>
      ReturnsAt code address ∧ after.stack = p.frame.words ∧
        after.registers.selector = (p.entered gate).registers.selector ∧
        after.registers.general = Function.update (p.entered gate).registers.general .eax (-1) ∧
        after.world = p.world := by
    rw [traps.target]
    refine linkage_rejects linked (fun call => by simpa using invalid call) room fun flags => ?_
    obtain ⟨finish, placed⟩ := linked.invalidEax
    refine Runs.straight placed rfl rfl room fun _ placed => ?_
    cases placed with | cons fetched placed => ?_
    exact .done ⟨⟨_, fetched⟩, Processor.entered_stack p gate, rfl, rfl, rfl⟩
  obtain ⟨q, after, ⟨general, world⟩, reaches, registers, selector, eip, last, memory⟩ :=
    Runs.resumes traps.lower (by omega) runs
  refine ⟨q, reaches, ?_, eip, last.trans world, memory⟩
  refine Registers.ext ?_ ?_ selector
  · rw [registers]
    funext name
    by_cases pointer : name = .esp
    · rw [pointer]
      rfl
    · change Function.update after.registers.general .esp p.frame.esp name =
        Function.update p.registers.general .eax (-1) name
      rw [Function.update_of_ne pointer, general, Function.update_apply, Function.update_apply,
        p.entered_general gate pointer]
  · rw [registers]
    rfl

end Linkage

section Sample
variable {World : Type}

/-- The C functions that the assembly code calls, by what they compute. -/
structure Functions (World : Type) where
  function : SystemCall → World → List Word → Option (Word × World)
  restoreEsp : World → List Word → Option (Word × World)
  saveEsp : World → List Word → Option (Word × World)
  checkProcessNum : World → List Word → Option (Word × World)
  /-- This function calls the wrapper of the execute call. -/
  startFirstShell : World → World
  keyboardHandler : World → List Word → Option (Word × World)
  rtcHandler : World → List Word → Option (Word × World)
  pitHandler : World → List Word → Option (Word × World)
  saveRegistersEsp : World → List Word → Option (Word × World)
  restoreRegisterEsp : World → List Word → Option (Word × World)

def sampleLabels : Labels where
  systemCallLinkage := 0
  invalidEax := 21
  systemCallTable := 4096
  validHalt := 31
  continueExecute := 41
  wrapper
    | .halt => 24
    | .execute => 35
    | .read => 55
    | .write => 59
    | .open => 64
    | .close => 67
    | .getargs => 70
    | .vidmap => 73
    | .setHandler => 76
    | .sigreturn => 79
  function call := BitVec.ofNat 32 (256 + call.number)
  restoreEsp := 512
  saveEsp := 513
  checkProcessNum := 514
  startFirstShell := 515
  keyboardLinkage := 82
  keyboardHandler := 516
  rtcLinkage := 88
  rtcHandler := 517
  pitLinkage := 94
  pitHandler := 518
  saveRegistersEsp := 519
  restoreRegisterEsp := 520

open Assembly in
def sampleLines : List Line :=
  systemCallLinkage sampleLabels ++ invalidEax ++ systemHalt sampleLabels ++ validHalt sampleLabels ++
    systemExecute sampleLabels ++ continueExecute sampleLabels ++
    (SystemCall.all.drop 2).flatMap (wrapper sampleLabels) ++ interruptLink sampleLabels.keyboardHandler ++
    interruptLink sampleLabels.rtcHandler ++ pitLinkage sampleLabels

/-- The address of the string "shell". -/
def sampleLiteral : Word := 0x400800

/-- The functions at their addresses. -/
def Functions.table (functions : Functions World) : List (Word × (Processor World → Option (Processor World))) :=
  (SystemCall.all.map fun call => (sampleLabels.function call, plainRoutine call.arity (functions.function call))) ++
    [(sampleLabels.restoreEsp, plainRoutine 0 functions.restoreEsp), (sampleLabels.saveEsp, plainRoutine 1 functions.saveEsp),
      (sampleLabels.checkProcessNum, plainRoutine 0 functions.checkProcessNum),
      (sampleLabels.startFirstShell,
        plainEnter (sampleLabels.wrapper .execute) sampleLiteral 0x400900 functions.startFirstShell),
      (sampleLabels.keyboardHandler, plainRoutine 0 functions.keyboardHandler),
      (sampleLabels.rtcHandler, plainRoutine 0 functions.rtcHandler),
      (sampleLabels.pitHandler, plainRoutine 0 functions.pitHandler),
      (sampleLabels.saveRegistersEsp, plainRoutine 1 functions.saveRegistersEsp),
      (sampleLabels.restoreRegisterEsp, plainRoutine 0 functions.restoreRegisterEsp)]

/-- The system call table leads to the wrappers. -/
def sampleTable (address : Word) : Word :=
  ((SystemCall.all.find? fun call => address = sampleLabels.systemCallTable - 4 + 4 * BitVec.ofNat 32 call.number).map
    sampleLabels.wrapper).getD 0

def sampleCode (functions : Functions World) : Code World :=
  .assembled sampleLines (fun address => functions.table.lookup address) sampleTable

/-- The functions lie behind the lines. -/
theorem sampleTable_clear (functions : Functions World) (address : Word) (low : address.toNat < sampleLines.length) :
    functions.table.lookup address = none := by
  have entries : ∀ entry ∈ functions.table, 117 ≤ entry.1.toNat := by
    rw [Functions.table, List.forall_mem_append]
    constructor
    · intro entry member
      obtain ⟨call, -, rfl⟩ := List.mem_map.mp member
      change 117 ≤ (sampleLabels.function call).toNat
      cases call <;> decide
    · simp only [List.forall_mem_cons, List.not_mem_nil, false_imp_iff, implies_true, and_true]
      decide
  refine List.lookup_eq_none_iff.mpr fun entry member => bne_iff_ne.mpr fun same => ?_
  have high := entries entry member
  rw [same] at low
  exact absurd low (by change ¬entry.1.toNat < 117; omega)

theorem sampleCode_compiled (functions : Functions World) {entry : Word} {arity : Nat}
    {meaning : World → List Word → Option (Word × World)}
    (found : functions.table.lookup entry = some (plainRoutine arity meaning)) (limit : Nat) :
    Compiled (sampleCode functions) limit entry arity (plainMeaning meaning) := by
  refine ⟨_, ?_, plainRoutine_complies limit arity meaning⟩
  dsimp only [sampleCode, Code.assembled]
  rw [found]

theorem sampleCode_placed (functions : Functions World) (start : Nat) (block : List Line)
    (same : (sampleLines.drop start).take block.length = block) :
    Placed (sampleCode functions) (BitVec.ofNat 32 start) block (BitVec.ofNat 32 (start + block.length)) :=
  placed_assembled (by decide) (sampleTable_clear functions) start block same

theorem sampleCode_linked (functions : Functions World) : Linked (sampleCode functions) sampleLabels where
  linkage := sampleCode_placed functions 0 _ (by decide)
  invalidEax := ⟨_, sampleCode_placed functions 21 _ (by decide)⟩
  table call := by
    change sampleTable _ = _
    cases call <;> decide
  wrapper call := by
    cases call with
    | halt => exact ⟨_, rfl, sampleCode_placed functions 24 _ (by decide)⟩
    | execute => exact ⟨_, rfl, sampleCode_placed functions 35 _ (by decide)⟩
    | read => exact ⟨_, trivial, sampleCode_placed functions 55 _ (by decide)⟩
    | write => exact ⟨_, trivial, sampleCode_placed functions 59 _ (by decide)⟩
    | «open» => exact ⟨_, trivial, sampleCode_placed functions 64 _ (by decide)⟩
    | close => exact ⟨_, trivial, sampleCode_placed functions 67 _ (by decide)⟩
    | getargs => exact ⟨_, trivial, sampleCode_placed functions 70 _ (by decide)⟩
    | vidmap => exact ⟨_, trivial, sampleCode_placed functions 73 _ (by decide)⟩
    | setHandler => exact ⟨_, trivial, sampleCode_placed functions 76 _ (by decide)⟩
    | sigreturn => exact ⟨_, trivial, sampleCode_placed functions 79 _ (by decide)⟩
  validHalt := ⟨_, sampleCode_placed functions 31 _ (by decide)⟩
  continueExecute := ⟨_, sampleCode_placed functions 41 _ (by decide)⟩
  keyboard := ⟨_, sampleCode_placed functions 82 _ (by decide)⟩
  rtc := ⟨_, sampleCode_placed functions 88 _ (by decide)⟩
  pit := ⟨_, sampleCode_placed functions 94 _ (by decide)⟩

/-- What the functions of the system calls mean. -/
def Functions.meaning (functions : Functions World) (call : SystemCall) : World → List Word → Option (Outcome World) :=
  plainMeaning (functions.function call)

theorem sampleCode_function (functions : Functions World) (call : SystemCall) (limit : Nat) :
    Compiled (sampleCode functions) limit (sampleLabels.function call) call.arity (functions.meaning call) := by
  refine sampleCode_compiled functions ?_ limit
  cases call <;> rfl

/-- Functions that count their calls and return one more than their first argument. -/
def sampleFunctions : Functions Nat :=
  let count (calls : Nat) (arguments : List Word) : Option (Word × Nat) := some (arguments.headD 0 + 1, calls + 1)
  ⟨fun _ => count, count, count, count, id, count, count, count, count, count⟩

/-- A program with one value in every register but `eax` and the stack pointer. -/
def sampleProcessor (eax : Word) (world : World) : Processor World where
  registers := {
    general := fun name => if name = .eax then eax else if name = .esp then userStack else 5
    flags := 0
    selector := fun segment => if segment = .cs then 0x23 else 0x2B }
  eip := 0x08048100
  memory := fun _ => 0
  world

def sampleGate : Processor.Gate := ⟨sampleLabels.systemCallLinkage, kernelCs, 0x7fe000, 0x18⟩

theorem sampleTraps (eax : Word) : Traps sampleLabels 0x7fd000 (sampleProcessor eax 0) sampleGate where
  target := rfl
  lower := by
    change Processor.privilege kernelCs < Processor.privilege 0x23
    decide
  room := by decide

example : ∃ q, Reaches (sampleCode sampleFunctions) ((sampleProcessor 5 0).enter sampleGate) q ∧
    q.registers.general .eax = 6 ∧ q.world = 1 ∧ savedWords q.registers = List.replicate 6 5 := by
  obtain ⟨q, reaches, returns, _⟩ := system_call_returns (sampleCode_linked sampleFunctions) (sampleTraps 5)
    (sampleCode_function sampleFunctions .open 0x7fd000) rfl (by decide) rfl (by decide)
  exact ⟨q, reaches, returns.result, returns.world, returns.saved⟩

theorem system_call_rejected_sample : ∃ q, Reaches (sampleCode sampleFunctions) ((sampleProcessor 11 0).enter sampleGate) q ∧
    q.registers.general .eax = -1 ∧ q.world = 0 := by
  obtain ⟨q, reaches, registers, _, world, _⟩ := system_call_rejected (sampleCode_linked sampleFunctions) (sampleTraps 11)
    (fun call => by cases call <;> decide)
  exact ⟨q, reaches, by rw [registers, Registers.set_general_self], world⟩

end Sample

end OrcaOS
