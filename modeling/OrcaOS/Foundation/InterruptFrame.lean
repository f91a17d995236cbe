import OrcaOS.Foundation.Routine

/-!
The words that an interrupt leaves on the stack, and the return through them.
-/

namespace Foundation
open Memory

/-- The words that an interrupt of a program with less privilege leaves, the top first. -/
structure Frame where
  eip : Word
  code : Word
  flags : Word
  esp : Word
  stackSegment : Word

def Frame.words (frame : Frame) : List Word :=
  [frame.eip, frame.code, frame.flags, frame.esp, frame.stackSegment]

namespace Processor
variable {World : Type} (p : Processor World)

def frame : Frame where
  eip := p.eip
  code := (p.registers.selector .cs).setWidth 32
  flags := p.registers.flags
  esp := p.esp
  stackSegment := (p.registers.selector .ss).setWidth 32

end Processor

/-- The registers when the gate has been entered on the stack in use. -/
def Registers.entered (registers : Registers) (gate : Processor.Gate) (esp : Word) : Registers where
  general := Function.update registers.general .esp esp
  flags := Flag.interrupt.write false registers.flags
  selector := Function.update registers.selector .cs gate.code

/-- The registers when an interrupt has returned to a program with less privilege. -/
def Registers.resumed (registers : Registers) (frame : Frame) : Registers where
  general := Function.update registers.general .esp frame.esp
  flags := frame.flags
  selector := Function.update (Function.update registers.selector .cs (frame.code.setWidth 16)) .ss
    (frame.stackSegment.setWidth 16)

section Frames
variable {World : Type} {p : Processor World} {v : View World} {limit : Nat} {gate : Processor.Gate}

theorem Processor.enterInner_registers :
    (p.enterInner gate).registers = p.registers.entered gate (p.esp - 4 - 4 - 4) := by
  unfold enterInner goto setFlags setSelector
  simp [Registers.entered, Registers.set]

/-- The list when the gate has been entered on the stack in use. -/
def View.enterInner (v : View World) (gate : Processor.Gate) (eip : Word) : View World :=
  { v with
    registers := v.registers.entered gate (v.registers.general .esp - 4 - 4 - 4)
    stack := eip :: (v.registers.selector .cs).setWidth 32 :: v.registers.flags :: v.stack }

/-- An interrupt of the code that the stack belongs to pushes three words. -/
theorem Shows.advances_enterInner (shows : Shows p v) (gate : Processor.Gate) (limit : Nat)
    (room : limit + 4 * (v.stack.length + 3) ≤ v.base) :
    Advances limit p v (p.enterInner gate) (v.enterInner gate p.eip) := by
  have first := shows.advances_push limit p.registers.flags (by omega)
  have second := first.shows.advances_push limit ((p.registers.selector .cs).setWidth 32)
    (by change limit + 4 * (v.stack.length + 1 + 1) ≤ v.base; omega)
  have third := second.shows.advances_push limit p.eip
    (by change limit + 4 * (v.stack.length + 1 + 1 + 1) ≤ v.base; omega)
  have pushed := first.trans (second.trans third)
  refine pushed.trans (.quiet ?_ rfl rfl)
  rw [View.enterInner, ← shows.registers]
  exact ⟨p.enterInner_registers, pushed.shows.world, pushed.shows.base, pushed.shows.fits, pushed.shows.stack⟩

/-- The list when the gate has been entered on a stack of its own. -/
def Processor.entered (p : Processor World) (gate : Processor.Gate) : View World :=
  let switched := (p.setSelector .ss (gate.stackSegment.setWidth 32)).set .esp gate.stack
  let empty : View World := ⟨switched.registers, p.world, gate.stack.toNat, []⟩
  ((empty.push ((p.registers.selector .ss).setWidth 32)).push p.esp).enterInner gate p.eip

section Entered
variable (p : Processor World) (gate : Processor.Gate)

@[simp] theorem Processor.entered_stack : (p.entered gate).stack = p.frame.words := by
  simp [entered, View.enterInner, View.push, Registers.set, setSelector, set, frame, Frame.words]

@[simp] theorem Processor.entered_base : (p.entered gate).base = gate.stack.toNat := rfl

@[simp] theorem Processor.entered_world : (p.entered gate).world = p.world := rfl

@[simp] theorem Processor.entered_general {name : Register} (other : name ≠ .esp) :
    (p.entered gate).registers.general name = p.registers.general name := by
  simp [entered, View.enterInner, View.push, Registers.entered, Registers.set, setSelector, set, other]

@[simp] theorem Processor.entered_selector : (p.entered gate).registers.selector =
    Function.update (Function.update p.registers.selector .ss gate.stackSegment) .cs gate.code := by
  simp [entered, View.enterInner, View.push, Registers.entered, Registers.set, setSelector, set]

/-- An interrupt of a program with less privilege starts a stack with the five words of its frame. -/
theorem Processor.enter_outer (limit : Nat) (lower : privilege gate.code < privilege (p.registers.selector .cs))
    (room : limit + 20 ≤ gate.stack.toNat) :
    Shows (p.enter gate) (p.entered gate) ∧
      Set.EqOn (p.enter gate).memory p.memory (window limit (gate.stack.toNat - limit))ᶜ := by
  let switched : Processor World := (p.setSelector .ss (gate.stackSegment.setWidth 32)).set .esp gate.stack
  have empty : Shows switched ⟨switched.registers, p.world, gate.stack.toNat, []⟩ := by
    have pointer : switched.esp = gate.stack := Registers.set_general_self _ _ _
    refine ⟨rfl, rfl, ?_, gate.stack.isLt, trivial⟩
    rw [pointer]
    rfl
  have first := empty.advances_push limit ((p.registers.selector .ss).setWidth 32) (by simp; omega)
  have second := first.shows.advances_push limit p.esp (by simp [View.push]; omega)
  have third := second.shows.advances_enterInner gate limit (by simp [View.push]; omega)
  have all := first.trans (second.trans third)
  rw [enter, if_pos lower]
  exact ⟨all.shows, all.memory⟩

theorem Processor.enter_eip {gate : Processor.Gate} (lower : privilege gate.code < privilege (p.registers.selector .cs)) :
    (p.enter gate).eip = gate.target := by
  rw [enter, if_pos lower]
  rfl

end Entered

/-- A return to less privilege goes back to the frame. -/
theorem Shows.interruptReturn_outer {frame : Frame} {rest : List Word} (shows : Shows p v)
    (stack : v.stack = frame.words ++ rest)
    (outward : Processor.privilege (v.registers.selector .cs) < Processor.privilege (frame.code.setWidth 16)) :
    p.interruptReturn = ⟨v.registers.resumed frame, frame.eip, p.memory, p.world⟩ := by
  obtain ⟨eip, one⟩ := shows.drop stack
  obtain ⟨code, two⟩ := one.drop rfl
  obtain ⟨flags, three⟩ := two.drop rfl
  obtain ⟨esp, four⟩ := three.drop rfl
  obtain ⟨stackSegment, -⟩ := four.drop rfl
  unfold Processor.interruptReturn Registers.resumed
  dsimp only
  rw [eip, code, flags, esp, stackSegment, shows.registers, if_pos outward]
  simp [Registers.set, shows.registers]

/-- A return within one privilege takes three words from the stack. -/
theorem Shows.advances_interruptReturn {eip code flags : Word} {rest : List Word} (shows : Shows p v)
    (stack : v.stack = eip :: code :: flags :: rest)
    (inward : ¬Processor.privilege (v.registers.selector .cs) < Processor.privilege (code.setWidth 16)) :
    p.interruptReturn.eip = eip ∧ Advances limit p v p.interruptReturn
      { v with
        registers := {
          general := Function.update v.registers.general .esp (v.registers.general .esp + 4 + 4 + 4)
          flags
          selector := Function.update v.registers.selector .cs (code.setWidth 16) }
        stack := rest } := by
  obtain ⟨top, one⟩ := shows.drop stack
  obtain ⟨second, two⟩ := one.drop rfl
  obtain ⟨third, three⟩ := two.drop rfl
  have returned : p.interruptReturn =
      ⟨⟨p.drop.drop.drop.registers.general, flags, Function.update v.registers.selector .cs (code.setWidth 16)⟩,
        eip, p.memory, p.world⟩ := by
    unfold Processor.interruptReturn
    dsimp only
    rw [top, second, third, shows.registers, if_neg inward]
  rw [returned]
  refine ⟨rfl, .quiet ⟨?_, shows.world, three.base, shows.fits, three.stack⟩ rfl rfl⟩
  simp [Registers.set, shows.registers, shows.esp]

/-- Selectors that the code kept are those of the program again. -/
theorem Registers.resumed_selector {registers : Registers}
    (kept : registers.selector = (p.entered gate).registers.selector) :
    (registers.resumed p.frame).selector = p.registers.selector := by
  funext segment
  rw [Registers.resumed, kept, Processor.entered_selector]
  cases segment <;> simp [Processor.frame, BitVec.setWidth_setWidth_of_le]

/-- The code at the address returns from an interrupt. -/
def ReturnsAt (code : Code World) (address : Word) : Prop :=
  ∃ following, code.fetch address = some (.line (.go .interruptReturn) following)

variable {code : Code World}

/-- Code that ends with a return to less privilege leaves the rest of its stack in memory. -/
theorem Runs.leaves {start : Word} {goal : Frame → List Word → View World → Prop} (own : p.eip = start)
    (shows : Shows p v)
    (runs : Runs code limit start v fun address after => ReturnsAt code address ∧
      ∃ frame rest, after.stack = frame.words ++ rest ∧
        Processor.privilege (after.registers.selector .cs) < Processor.privilege (frame.code.setWidth 16) ∧
        goal frame rest after) :
    ∃ q frame rest after, goal frame rest after ∧ Reaches code p q ∧
      q = ⟨after.registers.resumed frame, frame.eip, q.memory, after.world⟩ ∧
      q.memory.Holds (v.base - 4 * rest.length) rest ∧
      Set.EqOn q.memory p.memory (window limit (v.base - limit))ᶜ := by
  obtain ⟨q, after, reaches, advances, ⟨following, fetched⟩, frame, rest, stack, outward, reached⟩ := runs p own shows
  have returned := advances.shows.interruptReturn_outer stack outward
  have base := advances.shows.base
  rw [stack, List.length_append, advances.base] at base
  have words : frame.words.length = 5 := rfl
  have above : v.base - 4 * rest.length = q.esp.toNat + 4 * frame.words.length := by omega
  have held := advances.shows.stack
  rw [stack, holds_append, ← above] at held
  rw [advances.shows.world] at returned
  refine ⟨q.interruptReturn, frame, rest, after, reached, reaches.trans (.line fetched), ?_, ?_, ?_⟩
  · rw [returned]
  · rw [returned]
    exact held.2
  · rw [returned]
    exact advances.memory

/-- Code that ends with a return through a given frame. -/
theorem Runs.leavesThrough {start : Word} {frame : Frame} {selector : Segment → BitVec 16} {goal : View World → Prop}
    (own : p.eip = start) (shows : Shows p v)
    (outward : Processor.privilege (selector .cs) < Processor.privilege (frame.code.setWidth 16))
    (runs : Runs code limit start v fun address after => ReturnsAt code address ∧ after.stack = frame.words ∧
      after.registers.selector = selector ∧ goal after) :
    ∃ q after, goal after ∧ after.registers.selector = selector ∧ Reaches code p q ∧
      q = ⟨after.registers.resumed frame, frame.eip, q.memory, after.world⟩ ∧
      Set.EqOn q.memory p.memory (window limit (v.base - limit))ᶜ := by
  have leaving : Runs code limit start v fun address after => ReturnsAt code address ∧
      ∃ (restored : Frame) (rest : List Word), after.stack = restored.words ++ rest ∧
        Processor.privilege (after.registers.selector .cs) < Processor.privilege (restored.code.setWidth 16) ∧
        restored = frame ∧ after.registers.selector = selector ∧ goal after := by
    refine runs.mono fun address after ⟨returns, stack, kept, reached⟩ => ⟨returns, frame, [], ?_, ?_, rfl, kept, reached⟩
    · rw [stack, List.append_nil]
    · rw [kept]
      exact outward
  obtain ⟨q, restored, _, after, ⟨rfl, kept, reached⟩, reaches, last, -, memory⟩ := Runs.leaves own shows leaving
  exact ⟨q, after, reached, kept, reaches, last, memory⟩

/-- Code from a gate to a return goes back to the program that was interrupted. -/
theorem Runs.resumes {goal : View World → Prop}
    (lower : Processor.privilege gate.code < Processor.privilege (p.registers.selector .cs))
    (room : limit + 20 ≤ gate.stack.toNat)
    (runs : Runs code limit gate.target (p.entered gate) fun address after => ReturnsAt code address ∧
      after.stack = p.frame.words ∧ after.registers.selector = (p.entered gate).registers.selector ∧ goal after) :
    ∃ q after, goal after ∧ Reaches code (p.enter gate) q ∧ q.registers = after.registers.resumed p.frame ∧
      q.registers.selector = p.registers.selector ∧ q.eip = p.eip ∧ q.world = after.world ∧
      Set.EqOn q.memory p.memory (window limit (gate.stack.toNat - limit))ᶜ := by
  obtain ⟨shows, entered⟩ := p.enter_outer gate limit lower room
  have outward : Processor.privilege ((p.entered gate).registers.selector .cs) <
      Processor.privilege (p.frame.code.setWidth 16) := by
    rw [Processor.entered_selector]
    simpa [Processor.frame, BitVec.setWidth_setWidth_of_le] using lower
  obtain ⟨q, after, reached, selector, reaches, last, memory⟩ :=
    Runs.leavesThrough (p.enter_eip lower) shows outward runs
  rw [Processor.entered_base] at memory
  refine ⟨q, after, reached, reaches, ?_, ?_, ?_, ?_, memory.trans entered⟩
  · rw [last]
  · rw [last]
    exact Registers.resumed_selector selector
  · rw [last]
    rfl
  · rw [last]

/-- The empty stack list above the stack pointer. -/
def Processor.bare (p : Processor World) : View World := ⟨p.registers, p.world, p.esp.toNat, []⟩

theorem Processor.shows_bare (p : Processor World) : Shows p p.bare := ⟨rfl, rfl, rfl, p.esp.isLt, trivial⟩

/-- The list when an interrupt of any privilege has entered the gate. -/
def Processor.interrupted (p : Processor World) (gate : Processor.Gate) : View World :=
  if privilege gate.code < privilege (p.registers.selector .cs) then p.entered gate else p.bare.enterInner gate p.eip

section Interrupted
variable (p : Processor World) (gate : Processor.Gate)

@[simp] theorem Processor.interrupted_world : (p.interrupted gate).world = p.world := by
  unfold interrupted
  split <;> rfl

@[simp] theorem Processor.interrupted_general {name : Register} (other : name ≠ .esp) :
    (p.interrupted gate).registers.general name = p.registers.general name := by
  unfold interrupted
  split
  · exact p.entered_general gate other
  · exact Function.update_of_ne other _ _

theorem Processor.interrupted_length : (p.interrupted gate).stack.length ≤ 5 := by
  unfold interrupted
  split
  · rw [Processor.entered_stack]
    exact Nat.le_refl 5
  · exact show 3 ≤ 5 by decide

end Interrupted

/-- Code from a gate to a return goes back to what was interrupted, whatever its privilege. -/
theorem Runs.returns {goal : View World → Prop} (room : limit + 20 ≤ (p.interrupted gate).base)
    (runs : Runs code limit gate.target (p.interrupted gate) fun address after => ReturnsAt code address ∧
      after.stack = (p.interrupted gate).stack ∧
      after.registers.selector = (p.interrupted gate).registers.selector ∧ goal after) :
    ∃ q after, goal after ∧ Reaches code (p.enter gate) q ∧
      q.registers = ⟨Function.update after.registers.general .esp p.esp, p.registers.flags, p.registers.selector⟩ ∧
      q.eip = p.eip ∧ q.world = after.world ∧
      Set.EqOn q.memory p.memory (window limit ((p.interrupted gate).base - limit))ᶜ := by
  unfold Processor.interrupted at room runs ⊢
  by_cases lower : Processor.privilege gate.code < Processor.privilege (p.registers.selector .cs)
  · rw [if_pos lower] at room runs ⊢
    rw [Processor.entered_stack] at runs
    obtain ⟨q, after, reached, reaches, registers, selector, eip, world, memory⟩ := runs.resumes lower room
    refine ⟨q, after, reached, reaches, Registers.ext ?_ ?_ selector, eip, world, memory⟩
    · rw [registers]
      rfl
    · rw [registers]
      rfl
  · rw [if_neg lower] at room runs ⊢
    have space : limit + 12 ≤ p.esp.toNat := by
      change limit + 20 ≤ p.esp.toNat at room
      omega
    have entered := p.shows_bare.advances_enterInner gate limit space
    have start : p.enter gate = p.enterInner gate := by rw [Processor.enter, if_neg lower]
    obtain ⟨q, after, reaches, advances, ⟨following, fetched⟩, stack, selector, reached⟩ :=
      runs (p.enterInner gate) rfl entered.shows
    have code : ((p.registers.selector .cs).setWidth 32).setWidth 16 = p.registers.selector .cs :=
      BitVec.setWidth_setWidth_of_le _ (by decide)
    have inward : ¬Processor.privilege (after.registers.selector .cs) <
        Processor.privilege (((p.registers.selector .cs).setWidth 32).setWidth 16) := by
      rw [code, selector]
      exact lower
    obtain ⟨eip, returned⟩ := advances.shows.advances_interruptReturn stack inward
    have whole := entered.trans (advances.trans returned)
    have pointer := whole.shows.base
    refine ⟨q.interruptReturn, after, reached, ?_, ?_, eip, whole.shows.world, whole.memory⟩
    · rw [start]
      exact reaches.trans (.line fetched)
    · rw [whole.shows.registers]
      refine Registers.ext ?_ rfl ?_
      · have esp : after.registers.general .esp + 4 + 4 + 4 = p.esp := by
          have same := whole.base.trans (show p.bare.base = p.esp.toNat from rfl)
          rw [same, whole.shows.esp] at pointer
          change (Function.update after.registers.general .esp _ .esp).toNat + 0 = p.esp.toNat at pointer
          rw [Function.update_self] at pointer
          exact BitVec.eq_of_toNat_eq pointer
        rw [← esp]
      · change Function.update after.registers.selector .cs
          (((p.registers.selector .cs).setWidth 32).setWidth 16) = p.registers.selector
        rw [code, selector]
        change Function.update (Function.update p.registers.selector .cs gate.code) .cs _ = _
        rw [Function.update_idem, Function.update_eq_self]

end Frames

end Foundation
