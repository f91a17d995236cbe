import OrcaOS.Proof.SystemCallLinkage

/-!
A device interrupt gives every register back, except that a timer tick leaves its stack pointer in `eax`.
-/

namespace OrcaOS
open Foundation

section Linkage
variable {World : Type} {code : Code World} {labels : Labels} {limit : Nat} {v : View World} {start finish : Word}

theorem interruptLink_keeps {handler : Word} {meaning : World → List Word → Option (Outcome World)}
    {outcome : Outcome World} (placed : Placed code start (Assembly.interruptLink handler) finish)
    (handles : Compiled code limit handler 0 meaning) (meant : meaning v.world [] = some outcome)
    (room : limit + 4 * (v.stack.length + 10) ≤ v.base) :
    Runs code limit start v fun address after => ReturnsAt code address ∧ after.stack = v.stack ∧
      after.registers = v.registers ∧ after.world = outcome.world := by
  refine Runs.pointer fun own => ?_
  have pushed := (v.push v.registers.flags).pushes Processor.savedRegisters (v.push v.registers.flags).registers.general
  refine Runs.straight placed (congrArg some pushed) rfl (show limit + 4 * (v.stack.length + 9) ≤ v.base by omega)
    fun _ placed => ?_
  cases placed with | cons fetched placed => ?_
  refine Runs.call fetched (show limit + 4 * (v.stack.length + 9 + 1) ≤ v.base by omega) ?_
  refine Runs.routine handles [] _ rfl rfl (show limit + 4 * (v.stack.length + 10) ≤ v.base by omega) meant
    fun after base returns none => ?_
  have stack : after.stack = Processor.savedRegisters.reverse.map (v.push v.registers.flags).registers.general ++
      (v.registers.flags :: v.stack) := by
    rw [returns.stack, List.eq_nil_of_length_eq_zero none]
    rfl
  have length : after.stack.length = v.stack.length + 9 := by
    rw [stack]
    rfl
  refine Runs.pointer fun pointer => ?_
  rw [length, base] at pointer
  change _ + 4 * (v.stack.length + 9) = v.base at pointer
  obtain ⟨general, popped, esp, words⟩ := after.pops (by decide) _ stack
  refine Runs.straight placed (by rw [Foundation.straight, List.foldlM_cons, View.run, popped]; rfl) rfl ?_ fun _ placed => ?_
  · rw [base, length]
    change limit + 4 * (v.stack.length + 9) ≤ v.base
    omega
  cases placed with | cons fetched placed => ?_
  refine .done ⟨⟨_, fetched⟩, rfl, Registers.ext ?_ rfl returns.selector, returns.world⟩
  funext name
  change Function.update general .esp (general .esp + 4) name = v.registers.general name
  by_cases own : name = .esp
  · rw [own, Function.update_self, esp]
    change after.registers.general .esp + 32 + 4 = _
    bv_omega
  · have saved : name ∈ Processor.savedRegisters.reverse := by cases name <;> decide
    rw [Function.update_of_ne own, words name own, if_pos saved]
    exact Function.update_of_ne own _ _

/-- Behind its last call the tick takes its registers back, from the stack pointer that the call returned. -/
theorem pitLinkage_restores {saved : Registers} {rest : List Word} (placed : Placed code start ((Assembly.pitLinkage labels).drop 13) finish)
    (pointer : v.registers.general .eax = v.registers.general .esp)
    (stack : v.stack = saved.flags :: (savedWords saved ++ rest)) (room : limit + 4 * v.stack.length ≤ v.base) :
    Runs code limit start v fun address after => ReturnsAt code address ∧ after.stack = rest ∧ after.world = v.world ∧
      after.registers.selector = v.registers.selector ∧ after.registers.general .eax = v.registers.general .esp ∧
      savedWords after.registers = savedWords saved := by
  refine Runs.movePointer placed pointer fun _ placed => ?_
  obtain ⟨registers, world, base, list⟩ := v
  obtain rfl : list = _ := stack
  refine Runs.straight placed rfl rfl room fun _ placed => ?_
  cases placed with | cons fetched placed => ?_
  exact .done ⟨⟨_, fetched⟩, rfl, rfl, rfl, pointer, rfl⟩

/-- A tick whose stack pointer is restored keeps six registers. -/
theorem pitLinkage_ticks {save handle restore : World → List Word → Option (Outcome World)} {first second third : Outcome World}
    (placed : Placed code start (Assembly.pitLinkage labels) finish)
    (saves : Compiled code limit labels.saveRegistersEsp 1 save) (handles : Compiled code limit labels.pitHandler 0 handle)
    (restores : Compiled code limit labels.restoreRegisterEsp 0 restore)
    (saved : save v.world [v.registers.general .esp - 28] = some first) (handled : handle first.world [] = some second)
    (restored : restore second.world [] = some third) (same : third.result = v.registers.general .esp - 28)
    (room : limit + 4 * (v.stack.length + 9) ≤ v.base) :
    Runs code limit start v fun address after => ReturnsAt code address ∧ after.stack = v.stack ∧
      after.registers.selector = v.registers.selector ∧ after.registers.general .eax = v.registers.general .esp - 28 ∧
      savedWords after.registers = savedWords v.registers ∧ after.world = third.world := by
  have argument : v.registers.general .esp - 4 - 4 - 4 - 4 - 4 - 4 - 4 = v.registers.general .esp - 28 := by bv_omega
  rw [← argument] at saved
  let cleared : Registers := { v.registers with flags := Flag.interrupt.write false v.registers.flags }
  let words := cleared.flags :: (savedWords cleared ++ v.stack)
  have length : words.length = v.stack.length + 7 := rfl
  refine Runs.pointer fun own => ?_
  refine Runs.straight placed rfl rfl (show limit + 4 * (v.stack.length + 8) ≤ v.base by omega) fun _ placed => ?_
  refine Runs.callRoutine placed saves [_] words rfl rfl (show limit + 4 * (words.length + 1 + 1) ≤ v.base by omega) saved
    fun _ one placed base returns slots => ?_
  -- The function may have changed its argument, which is dropped.
  obtain ⟨slot, single⟩ := List.length_eq_one_iff.mp slots
  have stack : one.stack = slot :: words := by rw [returns.stack, single]; rfl
  obtain ⟨registers, world, top, list⟩ := one
  obtain rfl : list = slot :: words := stack
  obtain rfl : top = v.base := base
  refine Runs.straight placed rfl rfl (show limit + 4 * (words.length + 1) ≤ v.base by omega) fun _ placed => ?_
  refine Runs.callRoutine placed handles [] words rfl rfl (show limit + 4 * (words.length + 1) ≤ v.base by omega)
    (by rw [← handled, ← returns.world]) fun _ two placed base handling none => ?_
  have stack : two.stack = words := by rw [handling.stack, List.eq_nil_of_length_eq_zero none]; rfl
  have above : two.base = v.base := base
  refine Runs.callRoutine placed restores [] words stack rfl (by rw [stack, above]; omega)
    (by rw [← restored, ← handling.world]) fun _ three placed base restoring none => ?_
  have stack : three.stack = words := by rw [restoring.stack, List.eq_nil_of_length_eq_zero none]; rfl
  have bottom : three.base = v.base := base.trans above
  refine Runs.pointer fun pointer => ?_
  rw [stack, bottom] at pointer
  have esp : three.registers.general .esp = v.registers.general .esp - 28 := by bv_omega
  have eax : three.registers.general .eax = v.registers.general .esp - 28 := restoring.result.trans same
  have behind : Placed code _ ((Assembly.pitLinkage labels).drop 13) finish := placed
  have restored : Runs code limit _ three _ :=
    pitLinkage_restores behind (eax.trans esp.symm) stack (by rw [stack, bottom]; omega)
  refine restored.mono fun address last ⟨returning, left, world, selector, result, six⟩ =>
    ⟨returning, left, ?_, result.trans esp, six, world.trans restoring.world⟩
  rw [selector, restoring.selector, handling.selector]
  exact returns.selector

variable {p : Processor World} {gate : Processor.Gate}

/-- The stack pointer that a tick saves. -/
def tickEsp (p : Processor World) (gate : Processor.Gate) : Word := (p.interrupted gate).registers.general .esp - 28

end Linkage

section Sample

variable {World : Type} (world : World) (target : Word)

/-- The gate of a device interrupt takes the stack of the kernel. -/
def deviceGate (target : Word) : Processor.Gate := { sampleGate with target }

theorem deviceGate_interrupted : (sampleProcessor 3 world).interrupted (deviceGate target) =
    (sampleProcessor 3 world).entered (deviceGate target) := by
  refine if_pos ?_
  change Processor.privilege kernelCs < Processor.privilege 0x23
  decide

/-- The stack pointer that the tick saves is restored. -/
def tickFunctions : Functions Word where
  function _ _ _ := none
  restoreEsp _ _ := none
  saveEsp _ _ := none
  checkProcessNum _ _ := none
  startFirstShell := id
  keyboardHandler _ _ := none
  rtcHandler _ _ := none
  pitHandler saved _ := some (0, saved)
  saveRegistersEsp _ arguments := some (0, arguments.headD 0)
  restoreRegisterEsp saved _ := some (saved, saved)

end Sample

end OrcaOS
