import OrcaOS.Proof.SystemCallLinkage

/-!
An execute leaves the registers of the parent on its kernel stack, and the halt of the child takes
them back from there.
-/

namespace OrcaOS
open Foundation

section Switch
variable {World : Type} {code : Code World} {labels : Labels} {limit : Nat} {p : Processor World}
  {gate : Processor.Gate} {meaning : SystemCall → World → List Word → Option (Outcome World)}
  {outcome : Outcome World}

/-- The stack pointer of the linkage when it has called a wrapper: below the frame and six words. -/
def linkageEsp (gate : Processor.Gate) : Word := gate.stack - 44

/-- The program runs for the first time, with interrupts as its flags say. -/
structure ProgramStarts (q : Processor World) (entry : Word) (flags : Word) : Prop where
  eip : q.eip = entry
  esp : q.esp = userStack
  flags : q.registers.flags = flags
  cs : q.registers.selector .cs = userCs.setWidth 16
  ss : q.registers.selector .ss = userDs.setWidth 16
  ds : q.registers.selector .ds = userDs.setWidth 16

/-- The code has built a frame for a program that starts at the entry. -/
structure ProgramFrame (last : View World) (frame : Frame) (entry : Word) : Prop where
  ds : last.registers.selector .ds = userDs.setWidth 16
  eip : frame.eip = entry
  code : frame.code = userCs
  esp : frame.esp = userStack
  segment : frame.stackSegment = userDs

/-- The return through such a frame starts the program. -/
theorem ProgramFrame.starts {last : View World} {frame : Frame} {entry : Word} {q : Processor World}
    (built : ProgramFrame last frame entry)
    (returned : q = ⟨last.registers.resumed frame, frame.eip, q.memory, last.world⟩) :
    ProgramStarts q entry frame.flags := by
  have registers : q.registers = last.registers.resumed frame := by rw [returned]
  refine ⟨?_, ?_, ?_, ?_, ?_, ?_⟩
  · rw [returned, ← built.eip]
  · rw [Processor.esp, registers, ← built.esp]
    rfl
  · rw [registers]
    rfl
  · rw [registers, ← built.code]
    rfl
  · rw [registers, ← built.segment]
    rfl
  · rw [registers, ← built.ds]
    rfl

/-- The return leads to less privilege. -/
theorem ProgramFrame.outward {last : View World} {frame : Frame} {entry : Word} (built : ProgramFrame last frame entry)
    (lower : Processor.privilege gate.code < Processor.privilege (p.registers.selector .cs))
    (kept : last.registers.selector .cs = gate.code) :
    Processor.privilege (last.registers.selector .cs) < Processor.privilege (frame.code.setWidth 16) := by
  rw [kept, built.code]
  exact lt_of_lt_of_le lower (Nat.le_of_lt_succ (Nat.mod_lt _ (by decide)))

/-- A function that keeps its argument in its slot, and the interrupt flag. -/
def KeepsArguments (meaning : World → List Word → Option (Outcome World)) : Prop :=
  ∀ world arguments outcome, meaning world arguments = some outcome →
    outcome.slots = arguments ∧ outcome.interrupts = id

variable {save : World → List Word → Option (Outcome World)} {saved : Outcome World}

/-- Behind the label `continue_execute` the wrapper saves the stack pointer and builds a frame for the program. -/
theorem continueExecute_leaves (linked : Linked code labels) (saves : Compiled code limit labels.saveEsp 1 save)
    (keeps : KeepsArguments save) {v : View World}
    (stored : save v.world [v.registers.general .esp - 4] = some saved) (room : limit + 4 * (v.stack.length + 6) ≤ v.base) :
    Runs code limit labels.continueExecute v fun address after => ReturnsAt code address ∧
      ∃ frame : Frame, after.stack = frame.words ++ v.stack ∧ after.world = saved.world ∧
        after.registers.selector .cs = v.registers.selector .cs ∧ ProgramFrame after frame (v.registers.general .eax) ∧
        Flag.interrupt.read frame.flags = Flag.interrupt.read v.registers.flags := by
  obtain ⟨slots, interrupts⟩ := keeps _ _ _ stored
  refine Runs.pointer fun own => ?_
  obtain ⟨finish, placed⟩ := linked.continueExecute
  refine Runs.straight placed rfl rfl (show limit + 4 * (v.stack.length + 2) ≤ v.base by omega) fun _ placed => ?_
  cases placed with | cons fetched placed => ?_
  refine Runs.call fetched (show limit + 4 * (v.stack.length + 2 + 1) ≤ v.base by omega) ?_
  refine Runs.routine saves [v.registers.general .esp - 4] (v.registers.general .eax :: v.stack) rfl rfl (show limit + 4 * (v.stack.length + 3) ≤ v.base by omega) stored fun after base returns _ => ?_
  refine Runs.pointer fun pointer => ?_
  have stack := returns.stack
  rw [slots] at stack
  rw [stack, base] at pointer
  have first : v.registers.general .esp - 4 = after.registers.general .esp + 4 := by
    change _ + 4 * (v.stack.length + 2) = v.base at pointer
    bv_omega
  have length : after.stack.length = v.stack.length + 2 := by
    rw [stack]
    rfl
  refine Runs.popPointer placed (by rw [length, base]; change limit + 4 * (v.stack.length + 2) ≤ v.base; omega)
    stack first fun _ placed => ?_
  refine Runs.straight placed rfl rfl ?_ fun _ placed => ?_
  · change limit + 4 * (v.stack.length + 1 + 5) ≤ after.base
    rw [base]
    change limit + 4 * (v.stack.length + 1 + 5) ≤ v.base
    omega
  cases placed with | cons fetched placed => ?_
  refine .done ⟨⟨_, fetched⟩, ⟨_, _, _, _, _⟩, rfl, returns.world, ?_, ⟨?_, rfl, rfl, rfl, rfl⟩, ?_⟩
  · change after.registers.selector .cs = _
    rw [returns.selector]
    rfl
  · change Function.update after.registers.selector .ds ((replaceLow 16 _ _).setWidth 16) .ds = _
    rw [setWidth_replaceLow (by decide), Function.update_self]
    rfl
  · change Flag.interrupt.read after.registers.flags = _
    rw [returns.interrupts, interrupts]
    rfl

/-- An execute that succeeds enters the wrapper's code behind the label with its result and its rest of the stack. -/
theorem execute_continues (linked : Linked code labels)
    (compiled : Compiled code limit (labels.function .execute) 1 (meaning .execute)) {v : View World} {back : Word}
    {arguments rest : List Word} {goal : Word → View World → Prop} (stack : v.stack = back :: (arguments ++ rest))
    (count : arguments.length = 1) (meant : meaning .execute v.world arguments = some outcome)
    (success : outcome.result ≠ -1) (room : limit + 4 * v.stack.length ≤ v.base)
    (next : ∀ after, Answered v after outcome rest → outcome.slots.length = 1 →
      Flag.interrupt.read after.registers.flags = outcome.interrupts true →
      Runs code limit labels.continueExecute after goal) : Runs code limit (labels.wrapper .execute) v goal := by
  obtain ⟨finish, -, placed⟩ := linked.wrapper .execute
  refine Runs.setFlag placed room fun _ placed => ?_
  refine function_answers placed compiled stack count meant room fun _ after placed answered _ slots interrupts => ?_
  refine Runs.straight placed rfl rfl (answered.room stack (slots.trans count.symm) room) fun _ placed => ?_
  cases placed with | cons fetched placed => ?_
  refine Runs.jumpIf fetched (by simpa [Registers.run, Registers.read, answered.result] using success) ?_
  refine next _ ⟨answered.stack, answered.world, answered.base, answered.result, answered.selector⟩ slots ?_
  simpa [Registers.run, Arithmetic.flags] using interrupts

/-- An execute that succeeds starts the program above the stack of its caller. -/
theorem execute_starts (linked : Linked code labels) (traps : Traps labels limit p gate)
    (compiled : Compiled code limit (labels.function .execute) 1 (meaning .execute))
    (saves : Compiled code limit labels.saveEsp 1 save) (keeps : KeepsArguments save)
    (number : p.registers.general .eax = BitVec.ofNat 32 SystemCall.execute.number)
    (meant : meaning .execute p.world [p.registers.general .ebx] = some outcome) (success : outcome.result ≠ -1)
    (stored : save outcome.world [linkageEsp gate - 4] = some saved) :
    ∃ q flags, Reaches code (p.enter gate) q ∧ ProgramStarts q outcome.result flags ∧
      Flag.interrupt.read flags = outcome.interrupts true ∧ q.world = saved.world ∧
      q.memory.Holds (linkageEsp gate).toNat
        (outcome.slots ++ (savedWords p.registers).drop 1 ++ p.frame.words) ∧
      Set.EqOn q.memory p.memory (Memory.window limit (gate.stack.toNat - limit))ᶜ := by
  have room := traps.room
  let rest := outcome.slots ++ (savedWords p.registers).drop 1 ++ p.frame.words
  have runs : Runs code limit gate.target (p.entered gate) fun address after => ReturnsAt code address ∧
      ∃ (frame : Frame) (words : List Word), after.stack = frame.words ++ words ∧
        Processor.privilege (after.registers.selector .cs) < Processor.privilege (frame.code.setWidth 16) ∧
        words = rest ∧ after.world = saved.world ∧ ProgramFrame after frame outcome.result ∧
        Flag.interrupt.read frame.flags = outcome.interrupts true ∧ rest.length = 11 := by
    rw [traps.target]
    refine linkage_dispatches linked .execute (by simpa using number) (traps.space (by decide))
      fun back after placed dispatched => ?_
    have stack : after.stack = back :: ([p.registers.general .ebx] ++
        ((savedWords p.registers).drop 1 ++ p.frame.words)) := by
      rw [dispatched.stack, savedWords_entered, Processor.entered_stack]
      rfl
    have space := traps.dispatched_space dispatched
    refine execute_continues linked compiled stack rfl (by rw [dispatched.world]; exact meant) success space
      fun middle answered slots interrupts => ?_
    have words : middle.stack = rest := by
      rw [answered.stack, ← List.append_assoc]
    have count : rest.length = 11 := by
      rw [List.length_append, List.length_append, slots]
      rfl
    have base : middle.base = gate.stack.toNat := answered.base.trans dispatched.base
    refine Runs.pointer fun pointer => ?_
    rw [words, count, base] at pointer
    have esp : middle.registers.general .esp = linkageEsp gate := by
      unfold linkageEsp
      bv_omega
    have stored : save middle.world [middle.registers.general .esp - 4] = some saved := by
      rw [answered.world, esp]
      exact stored
    have leaves : Runs code limit labels.continueExecute middle _ :=
      continueExecute_leaves linked saves keeps stored (by rw [words, count, base]; omega)
    refine leaves.mono fun address last reached => ?_
    obtain ⟨returns, frame, left, world, selector, built, flags⟩ := reached
    have cs : last.registers.selector .cs = gate.code := by
      rw [selector, answered.selector, dispatched.selector, Processor.entered_selector, Function.update_self]
    rw [answered.result] at built
    exact ⟨returns, frame, rest, words ▸ left, built.outward traps.lower cs, rfl, world, built, flags.trans interrupts, count⟩
  obtain ⟨shows, entered⟩ := p.enter_outer gate limit traps.lower (by omega)
  obtain ⟨q, frame, _, after, ⟨rfl, world, built, flags, count⟩, reaches, last, holds, memory⟩ :=
    Runs.leaves (p.enter_eip traps.lower) shows runs
  rw [Processor.entered_base] at holds memory
  rw [count] at holds
  have bottom : (linkageEsp gate).toNat = gate.stack.toNat - 4 * 11 := by
    unfold linkageEsp
    bv_omega
  refine ⟨q, frame.flags, reaches, built.starts last, flags, ?_, ?_, memory.trans entered⟩
  · rw [last, ← world]
  · rw [bottom]
    exact holds

variable {restore check : World → List Word → Option (Outcome World)} {first second third : Outcome World}
  {below : Nat}

/-- The halt wrapper asks for the stack pointer of the parent. -/
theorem systemHalt_restores (linked : Linked code labels)
    (restores : Compiled code limit labels.restoreEsp 0 restore) {v : View World} {back : Word} {rest : List Word}
    {goal : Word → View World → Prop} (stack : v.stack = back :: rest) (restored : restore v.world [] = some first)
    (room : limit + 4 * v.stack.length ≤ v.base)
    (next : ∀ middle after, Placed code middle ((Assembly.systemHalt labels).drop 2) labels.validHalt →
      after.registers.general .eax = first.result → after.registers.general .edi = back →
      after.registers.general .ebx = v.registers.general .ebx → after.registers.selector = v.registers.selector →
      after.world = first.world → Runs code limit middle after goal) :
    Runs code limit (labels.wrapper .halt) v goal := by
  obtain ⟨registers, world, base, words⟩ := v
  obtain rfl : words = back :: rest := stack
  obtain ⟨finish, rfl, placed⟩ := linked.wrapper .halt
  refine Runs.straight placed rfl rfl room fun _ placed => ?_
  cases placed with | cons fetched placed => ?_
  refine Runs.call fetched room ?_
  refine Runs.routine restores [] rest rfl rfl room restored fun after _ returns _ => ?_
  exact next _ after placed returns.result (returns.saved .edi (by decide)) (returns.saved .ebx (by decide))
    returns.selector returns.world

/-- On the stack of the parent the wrapper halts the program and goes back behind the call of the parent. -/
theorem validHalt_answers (linked : Linked code labels) (checks : Compiled code below labels.checkProcessNum 0 check)
    (halts : Compiled code below (labels.function .halt) 1 (meaning .halt)) {v : View World} {start : Word}
    {ebx : Word} {rest : List Word} {goal : Word → View World → Prop}
    (placed : Placed code start ((Assembly.systemHalt labels).drop 3) labels.validHalt)
    (stack : v.stack = ebx :: rest) (room : below + 4 * (v.stack.length + 1) ≤ v.base)
    (checked : check v.world [] = some second) (above : (3 : Word).slt second.result = true)
    (halted : meaning .halt second.world [ebx] = some third)
    (next : ∀ after, after.stack = third.slots ++ rest → third.slots.length = 1 → after.base = v.base →
      after.world = third.world → after.registers.selector = v.registers.selector →
      after.registers.general .eax = ((v.registers.general .ebx).setWidth 8).setWidth 32 →
      Runs code below (v.registers.general .edi) after goal) : Runs code below start v goal := by
  obtain ⟨registers, world, base, words⟩ := v
  obtain rfl : words = ebx :: rest := stack
  cases placed with | cons fetched placed => ?_
  refine Runs.call fetched room ?_
  refine Runs.routine checks [] (ebx :: rest) rfl rfl room checked fun middle kept returns none => ?_
  have stack : middle.stack = ebx :: rest := by
    rw [returns.stack, List.eq_nil_of_length_eq_zero none]
    rfl
  have space : below + 4 * (middle.stack.length + 1) ≤ middle.base := by
    rw [stack, kept]
    exact room
  refine Runs.straight placed rfl rfl (show below + 4 * middle.stack.length ≤ middle.base by omega) fun _ placed => ?_
  cases placed with | cons fetched placed => ?_
  refine Runs.jumpIf fetched (by simpa [Registers.run, Registers.read, returns.result] using above) ?_
  obtain ⟨finish, placed⟩ := linked.validHalt
  cases placed with | cons fetched placed => ?_
  refine Runs.call fetched space ?_
  refine Runs.routine halts [ebx] rest (congrArg _ stack) rfl space
    (by rw [← returns.world] at halted; exact halted) fun after base answered slots => ?_
  refine Runs.straight placed rfl rfl ?_ fun _ placed => ?_
  · change below + 4 * after.stack.length ≤ after.base
    rw [stack] at space
    rw [answered.stack, List.length_append, slots, base]
    change below + 4 * (rest.length + 1 + 1) ≤ middle.base at space
    change below + 4 * (1 + rest.length) ≤ middle.base
    omega
  cases placed with | cons fetched placed => ?_
  have edi : after.registers.general .edi = registers.general .edi :=
    (answered.saved .edi (by decide)).trans (returns.saved .edi (by decide))
  have status : after.registers.general .ebx = registers.general .ebx :=
    (answered.saved .ebx (by decide)).trans (returns.saved .ebx (by decide))
  refine Runs.jumpRegister fetched ?_
  change Runs code below (after.registers.general .edi) _ goal
  rw [edi]
  refine next _ answered.stack slots (base.trans kept) answered.world (answered.selector.trans returns.selector) ?_
  change replaceLow 8 (after.registers.general .eax ^^^ after.registers.general .eax) (after.registers.general .ebx) = _
  rw [status, BitVec.xor_self]
  exact replaceLow_zero 8 _

/-- The words of a program that waits for its child: six registers and the frame of its execute. -/
structure Waits (memory : Memory) (address : Nat) (words : List Word) (frame : Frame) : Prop where
  holds : memory.Holds address (words ++ frame.words)
  six : words.length = 6
  fits : address + 44 < 4294967296

/-- The program goes on behind its execute with the status of its child. -/
structure ParentResumes (p q : Processor World) (words : List Word) (frame : Frame) (outcome : Outcome World) : Prop where
  status : q.registers.general .eax = ((p.registers.general .ebx).setWidth 8).setWidth 32
  saved : savedWords q.registers = outcome.slots ++ words.drop 1
  esp : q.esp = frame.esp
  flags : q.registers.flags = frame.flags
  eip : q.eip = frame.eip
  cs : q.registers.selector .cs = frame.code.setWidth 16
  ss : q.registers.selector .ss = frame.stackSegment.setWidth 16
  world : q.world = outcome.world

/-- On the stack of the parent the code runs up to the return into the parent. -/
theorem parent_leaves (linked : Linked code labels) (checks : Compiled code below labels.checkProcessNum 0 check)
    (halts : Compiled code below (labels.function .halt) 1 (meaning .halt)) {v : View World} {start ebx : Word}
    {rest : List Word} {frame : Frame} (placed : Placed code start ((Assembly.systemHalt labels).drop 3) labels.validHalt)
    (behind : Placed code (v.registers.general .edi) (Assembly.behindCall labels) labels.invalidEax)
    (stack : v.stack = ebx :: (rest ++ frame.words)) (five : rest.length = 5)
    (room : below + 4 * (v.stack.length + 1) ≤ v.base) (checked : check v.world [] = some second)
    (above : (3 : Word).slt second.result = true) (halted : meaning .halt second.world [ebx] = some third) :
    Runs code below start v fun address last => ReturnsAt code address ∧ last.stack = frame.words ∧
      last.registers.selector = v.registers.selector ∧ last.world = third.world ∧
      last.registers.general .eax = ((v.registers.general .ebx).setWidth 8).setWidth 32 ∧
      savedWords last.registers = third.slots ++ rest := by
  refine validHalt_answers linked checks halts placed stack room checked above halted
    fun middle words slots base world selector status => ?_
  have six : (third.slots ++ rest).length = 6 := by
    rw [List.length_append, slots, five]
  have space : below + 4 * middle.stack.length ≤ middle.base := by
    rw [stack, List.length_cons] at room
    rw [words, base, List.length_append, slots]
    omega
  have runs : Runs code below _ middle _ :=
    linkage_restores behind (words.trans (List.append_assoc _ _ _).symm) six space
  exact runs.mono fun address last ⟨returns, restored⟩ => ⟨returns, restored.stack, restored.selector.trans selector,
    restored.world.trans world, restored.result.trans status, restored.saved⟩

/-- On the stack of the child the wrapper finds the stack pointer of the parent in `eax`. -/
theorem halt_switches (linked : Linked code labels) (traps : Traps labels limit p gate)
    (restores : Compiled code limit labels.restoreEsp 0 restore)
    (number : p.registers.general .eax = BitVec.ofNat 32 SystemCall.halt.number) (restored : restore p.world [] = some first) :
    Runs code limit gate.target (p.entered gate) fun address after => ∃ back,
      Placed code back (Assembly.behindCall labels) labels.invalidEax ∧
        Placed code address ((Assembly.systemHalt labels).drop 2) labels.validHalt ∧
        after.registers.general .eax = first.result ∧ after.registers.general .edi = back ∧
        after.registers.general .ebx = p.registers.general .ebx ∧
        after.registers.selector = (p.entered gate).registers.selector ∧ after.world = first.world := by
  rw [traps.target]
  refine linkage_dispatches linked .halt (by simpa using number) (traps.space (by decide))
    fun back after placed dispatched => ?_
  refine systemHalt_restores linked restores dispatched.stack (by rw [dispatched.world]; exact restored)
    (traps.dispatched_space dispatched)
    fun middle last halting eax edi ebx selector world => .done ⟨back, placed, halting, eax, edi, ?_, ?_, world⟩
  · rw [ebx, dispatched.general .ebx (by decide) (by decide), p.entered_general gate (by decide)]
  · exact selector.trans dispatched.selector

/-- The halt of a program resumes its parent from the words that wait on the stack of the parent. -/
theorem halt_resumes (linked : Linked code labels) (traps : Traps labels limit p gate)
    (restores : Compiled code limit labels.restoreEsp 0 restore)
    (checks : Compiled code below labels.checkProcessNum 0 check)
    (halts : Compiled code below (labels.function .halt) 1 (meaning .halt))
    (number : p.registers.general .eax = BitVec.ofNat 32 SystemCall.halt.number)
    {words : List Word} {frame : Frame} (restored : restore p.world [] = some first)
    (waits : Waits p.memory first.result.toNat words frame) (room : below + 4 ≤ first.result.toNat)
    (apart : first.result.toNat + 44 ≤ limit ∨ gate.stack.toNat ≤ first.result.toNat)
    (outward : Processor.privilege gate.code < Processor.privilege (frame.code.setWidth 16))
    (checked : check first.world [] = some second) (above : (3 : Word).slt second.result = true)
    (halted : meaning .halt second.world (words.take 1) = some third) :
    ∃ q, Reaches code (p.enter gate) q ∧ ParentResumes p q words frame third ∧
      Set.EqOn q.memory p.memory (Memory.window limit (gate.stack.toNat - limit) ∪
        Memory.window below (first.result.toNat + 44 - below))ᶜ := by
  have space := traps.room
  obtain ⟨shows, entered⟩ := p.enter_outer gate limit traps.lower (by omega)
  obtain ⟨q, after, reaches, advances, back, behind, placed, eax, edi, ebx, selector, world⟩ :=
    halt_switches linked traps restores number restored _ (p.enter_eip traps.lower) shows
  -- The stack pointer moves to the stack of the parent, which the child has not changed.
  cases placed with | cons fetched placed => ?_
  have kept : Set.EqOn q.memory p.memory (Memory.window limit (gate.stack.toNat - limit))ᶜ := by
    have memory := advances.memory
    rw [Processor.entered_base] at memory
    exact memory.trans entered
  have count : (words ++ frame.words).length = 11 := by
    rw [List.length_append, waits.six]
    rfl
  have outside : Memory.window first.result.toNat (4 * (words ++ frame.words).length) ⊆
      (Memory.window limit (gate.stack.toNat - limit))ᶜ := by
    rintro address ⟨low, high⟩ ⟨start, finish⟩
    rw [count] at high
    omega
  have holds : q.memory.Holds first.result.toNat (words ++ frame.words) := waits.holds.congr (kept.mono outside)
  have switched := advances.shows.switch eax holds (by rw [count]; exact waits.fits)
  rw [count] at switched
  obtain ⟨parentEbx, rest, rfl⟩ := List.exists_cons_of_length_eq_add_one waits.six
  let parent : View World := ⟨after.registers.set .esp first.result, after.world, first.result.toNat + 4 * 11,
    (parentEbx :: rest) ++ frame.words⟩
  have outer : Processor.privilege (parent.registers.selector .cs) < Processor.privilege (frame.code.setWidth 16) := by
    change Processor.privilege (after.registers.selector .cs) < _
    rw [selector, Processor.entered_selector, Function.update_self]
    exact outward
  have runs : Runs code below _ parent _ := parent_leaves linked checks halts placed
    (show Placed code (after.registers.general .edi) _ _ by rw [edi]; exact behind) rfl (Nat.succ.inj waits.six)
    (by change below + 4 * ((parentEbx :: rest ++ frame.words).length + 1) ≤ first.result.toNat + 4 * 11; omega)
    (by change check after.world [] = _; rw [world]; exact checked) above halted
  obtain ⟨r, last, ⟨left, status, saved⟩, kept', arrives, final, memory⟩ :=
    Runs.leavesThrough rfl (switched.goto _) outer runs
  have registers : r.registers = last.registers.resumed frame := by rw [final]
  refine ⟨r, reaches.trans (.trans (.line fetched) arrives), ⟨?_, ?_, ?_, ?_, ?_, ?_, ?_, ?_⟩, ?_⟩
  · rw [registers, ← ebx]
    exact status
  · rw [registers, savedWords_resumed, saved]
    rfl
  · rw [Processor.esp, registers]
    rfl
  · rw [registers]
    rfl
  · rw [final]
  · rw [registers]
    rfl
  · rw [registers]
    rfl
  · rw [final, left]
  · exact (memory.mono (Set.compl_subset_compl.mpr Set.subset_union_right)).trans
      (kept.mono (Set.compl_subset_compl.mpr Set.subset_union_left))

end Switch

end OrcaOS
