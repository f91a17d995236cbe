import OrcaOS.Foundation.StackView

/-!
Transfers on the stack list, and the convention that a compiled C function keeps.
-/

namespace Foundation
open Memory

section Transfers
variable {World : Type} {p : Processor World} {v : View World} {limit : Nat}

theorem Shows.goto (shows : Shows p v) (target : Word) : Shows (p.goto target) v :=
  ⟨shows.registers, shows.world, shows.base, shows.fits, shows.stack⟩

theorem Shows.advances_goto (shows : Shows p v) (target : Word) : Advances limit p v (p.goto target) v :=
  .quiet (shows.goto target) rfl rfl

/-- A call pushes the address after it. -/
theorem Shows.advances_call (shows : Shows p v) (following target : Word)
    (room : limit + 4 * (v.stack.length + 1) ≤ v.base) :
    Advances limit p v ((p.push following).goto target) (v.push following) :=
  have pushed := shows.advances_push limit following room
  pushed.trans (pushed.shows.advances_goto target)

/-- A stack pointer that is moved from a register leads to the words that lie there. -/
theorem Shows.switch (shows : Shows p v) {source : Register} {pointer : Word} {words : List Word}
    (value : v.registers.general source = pointer) (holds : p.memory.Holds pointer.toNat words)
    (fits : pointer.toNat + 4 * words.length < 4294967296) :
    Shows (p.run (.move (.register source) .esp))
      ⟨v.registers.set .esp pointer, v.world, pointer.toNat + 4 * words.length, words⟩ := by
  have moved : (p.run (.move (.register source) .esp)).registers = v.registers.set .esp pointer := by
    rw [← value, ← shows.registers]
    rfl
  have esp : (p.run (.move (.register source) .esp)).esp = pointer := by
    rw [Processor.esp, moved, Registers.set_general_self]
  refine ⟨moved, shows.world, by rw [esp], fits, ?_⟩
  rw [esp]
  exact holds

namespace Runs
variable {code : Code World} {start following target displacement : Word} {goal : Word → View World → Prop}

/-- A flag that is set changes nothing else. -/
theorem setFlag {flag : Flag} {value : Bool} {lines : List Line} {finish : Word}
    (placed : Placed code start (.op (.setFlag flag value) :: lines) finish) (room : limit + 4 * v.stack.length ≤ v.base)
    (next : ∀ middle, Placed code middle lines finish → Runs code limit middle
      { v with registers := { v.registers with flags := flag.write value v.registers.flags } } goal) :
    Runs code limit start v goal := by
  cases placed with | cons fetched placed => ?_
  refine line fetched (fun p _ shows => ⟨rfl, ?_⟩) (next _ placed)
  have set : v.run (.setFlag flag value) =
      some { v with registers := { v.registers with flags := flag.write value v.registers.flags } } := rfl
  have ran := shows.run limit set room
  exact ran.trans (ran.shows.advances_goto _)

/-- The stack pointer follows from the length of the list. -/
theorem pointer (next : (v.registers.general .esp).toNat + 4 * v.stack.length = v.base → Runs code limit start v goal) :
    Runs code limit start v goal := by
  intro p own shows
  refine next ?_ p own shows
  rw [← shows.esp]
  exact shows.base

/-- The stack pointer itself is popped, and it is the one that the pop leaves. -/
theorem popPointer {lines : List Line} {finish word : Word} {rest : List Word}
    (placed : Placed code start (.op (.pop .esp) :: lines) finish) (room : limit + 4 * v.stack.length ≤ v.base)
    (stack : v.stack = word :: rest) (consistent : word = v.registers.general .esp + 4)
    (next : ∀ middle, Placed code middle lines finish → Runs code limit middle
      { v with registers := v.registers.set .esp word, stack := rest } goal) : Runs code limit start v goal := by
  cases placed with | cons fetched placed => ?_
  refine line fetched (fun p _ shows => ⟨rfl, ?_⟩) (next _ placed)
  have popped : v.run (.pop .esp) = some { v with registers := v.registers.set .esp word, stack := rest } := by
    rw [View.run, if_neg (by simp [stack, consistent]), View.pop, stack]
    simp [View.set]
  have ran := shows.run limit popped room
  exact ran.trans (ran.shows.advances_goto _)

/-- A register that holds the stack pointer is moved to it. -/
theorem movePointer {source : Register} {lines : List Line} {finish : Word}
    (placed : Placed code start (.op (.move (.register source) .esp) :: lines) finish)
    (same : v.registers.general source = v.registers.general .esp)
    (next : ∀ middle, Placed code middle lines finish → Runs code limit middle v goal) : Runs code limit start v goal := by
  cases placed with | cons fetched placed => ?_
  refine line fetched (fun p _ shows => ⟨rfl, ?_⟩) (next _ placed)
  have moved : (p.run (.move (.register source) .esp)).registers = p.registers := by
    change p.registers.set .esp (p.registers.general source) = p.registers
    rw [shows.registers, same, Registers.set, Function.update_eq_self]
  refine .quiet (Shows.goto ?_ _) rfl rfl
  exact ⟨moved.trans shows.registers, shows.world, by rw [Processor.esp, moved]; exact shows.base, shows.fits,
    by rw [Processor.esp, moved]; exact shows.stack⟩

theorem jump (fetched : code.fetch start = some (.line (.go (.jump target)) following))
    (next : Runs code limit target v goal) : Runs code limit start v goal :=
  line fetched (fun _ _ shows => ⟨rfl, shows.advances_goto target⟩) next

theorem jumpRegister {source : Register} (fetched : code.fetch start = some (.line (.go (.jumpRegister source)) following))
    (next : Runs code limit (v.registers.general source) v goal) : Runs code limit start v goal := by
  refine line fetched (fun p _ shows => ⟨?_, shows.advances_goto _⟩) next
  change p.registers.general source = _
  rw [shows.registers]

theorem jumpIf {condition : Condition} (fetched : code.fetch start = some (.line (.go (.jumpIf condition target)) following))
    (holds : condition.holds v.registers.flags = true) (next : Runs code limit target v goal) :
    Runs code limit start v goal := by
  refine line fetched (fun p _ shows => ⟨?_, shows.advances_goto _⟩) next
  change (if condition.holds p.registers.flags then target else following) = target
  rw [shows.registers, if_pos holds]

theorem fallThrough {condition : Condition}
    (fetched : code.fetch start = some (.line (.go (.jumpIf condition target)) following))
    (fails : condition.holds v.registers.flags = false) (next : Runs code limit following v goal) :
    Runs code limit start v goal := by
  refine line fetched (fun p _ shows => ⟨?_, shows.advances_goto _⟩) next
  change (if condition.holds p.registers.flags then target else following) = following
  rw [shows.registers, if_neg (by rw [fails]; exact Bool.false_ne_true)]

theorem call (fetched : code.fetch start = some (.line (.go (.call target)) following))
    (room : limit + 4 * (v.stack.length + 1) ≤ v.base)
    (next : Runs code limit target (v.push following) goal) : Runs code limit start v goal :=
  line fetched (fun _ _ shows => ⟨rfl, shows.advances_call following target room⟩) next

/-- The entry of the table gives the target. -/
theorem callIndirect {index : Register}
    (fetched : code.fetch start = some (.line (.go (.callIndirect displacement index)) following))
    (room : limit + 4 * (v.stack.length + 1) ≤ v.base)
    (next : Runs code limit (code.constant (displacement + 4 * v.registers.general index)) (v.push following) goal) :
    Runs code limit start v goal := by
  refine line fetched (fun p _ shows => ⟨?_, shows.advances_call following _ room⟩) next
  change code.constant (displacement + 4 * p.registers.general index) = _
  rw [shows.registers]

end Runs

end Transfers

section Convention
variable {World : Type}

/-- What a function leaves: its result, the words in its argument slots, its data, and the interrupt
flag as a function of the flag at its call. -/
structure Outcome (World : Type) where
  result : Word
  slots : List Word
  world : World
  interrupts : Bool → Bool

/-- The registers that a function of the C convention gives back, besides the stack pointer. -/
def calleeSaved : List Register := [.ebx, .esi, .edi, .ebp]

/-- The function has popped its return address above the given rest of the stack. -/
structure Returns (v after : View World) (outcome : Outcome World) (rest : List Word) : Prop where
  stack : after.stack = outcome.slots ++ rest
  world : after.world = outcome.world
  result : after.registers.general .eax = outcome.result
  saved : ∀ name ∈ calleeSaved, after.registers.general name = v.registers.general name
  selector : after.registers.selector = v.registers.selector
  interrupts : Flag.interrupt.read after.registers.flags =
    outcome.interrupts (Flag.interrupt.read v.registers.flags)

/-- A compiled function keeps the C convention: it finds its arguments above the return address,
uses the stack down to the limit and may change the other registers, the flags and its arguments. -/
def Complies (limit : Nat) (call : Processor World → Option (Processor World)) (arity : Nat)
    (meaning : World → List Word → Option (Outcome World)) : Prop :=
  ∀ (p : Processor World) (v : View World) (back : Word) (arguments rest : List Word) (outcome : Outcome World),
    Shows p v → v.stack = back :: (arguments ++ rest) → arguments.length = arity →
    limit + 4 * v.stack.length ≤ v.base → meaning v.world arguments = some outcome →
    outcome.slots.length = arity ∧ ∃ q after, call p = some q ∧ q.eip = back ∧ Advances limit p v q after ∧
      Returns v after outcome rest

/-- A function with the given meaning is compiled at the address. -/
def Compiled (code : Code World) (limit : Nat) (entry : Word) (arity : Nat)
    (meaning : World → List Word → Option (Outcome World)) : Prop :=
  ∃ call, code.fetch entry = some (.routine call) ∧ Complies limit call arity meaning

/-- A compiled function that ends with a call of assembly code: it changes the data and leaves one argument and a
return address above the words of its own frame. -/
def Enters (code : Code World) (limit : Nat) (entry target argument : Word) (depth : Nat) (change : World → World) : Prop :=
  ∃ call, code.fetch entry = some (.routine call) ∧ ∀ (p : Processor World) (v : View World),
    Shows p v → limit + 4 * (v.stack.length + depth + 2) ≤ v.base →
    ∃ q after back own, call p = some q ∧ q.eip = target ∧ Advances limit p v q after ∧ own.length = depth ∧
      after.stack = back :: argument :: (own ++ v.stack) ∧ after.world = change v.world ∧
      after.registers.selector = v.registers.selector

namespace Runs
variable {code : Code World} {limit : Nat} {start : Word} {v : View World} {goal : Word → View World → Prop}

/-- The assembly code goes on with the stack that the function leaves. -/
theorem enters {target argument : Word} {depth : Nat} {change : World → World}
    (entering : Enters code limit start target argument depth change)
    (room : limit + 4 * (v.stack.length + depth + 2) ≤ v.base)
    (next : ∀ after back own, after.base = v.base → own.length = depth →
      after.stack = back :: ([argument] ++ (own ++ v.stack)) → after.world = change v.world →
      after.registers.selector = v.registers.selector → Runs code limit target after goal) :
    Runs code limit start v goal := by
  intro p own shows
  obtain ⟨call, fetched, complies⟩ := entering
  obtain ⟨q, middle, back, words, entered, arrived, advanced, depth, stack, world, selector⟩ := complies p v shows room
  obtain ⟨r, after, reaches, advances, reached⟩ :=
    next middle back words advanced.base depth stack world selector q arrived advanced.shows
  refine ⟨r, after, .trans (.routine ?_ entered) reaches, advanced.trans advances, reached⟩
  rw [own]
  exact fetched

/-- A function that returns goes on behind its call. -/
theorem routine {arity : Nat} {meaning : World → List Word → Option (Outcome World)} {back : Word}
    {outcome : Outcome World} (compiled : Compiled code limit start arity meaning) (arguments rest : List Word)
    (stack : v.stack = back :: (arguments ++ rest))
    (count : arguments.length = arity) (room : limit + 4 * v.stack.length ≤ v.base)
    (meant : meaning v.world arguments = some outcome)
    (next : ∀ after, after.base = v.base → Returns v after outcome rest → outcome.slots.length = arity →
      Runs code limit back after goal) : Runs code limit start v goal := by
  intro p own shows
  obtain ⟨call, fetched, complies⟩ := compiled
  obtain ⟨slots, q, middle, returned, behind, advanced, returns⟩ :=
    complies p v back arguments rest outcome shows stack count room meant
  obtain ⟨r, after, reaches, advances, reached⟩ := next middle advanced.base returns slots q behind advanced.shows
  refine ⟨r, after, .trans (.routine ?_ returned) reaches, advanced.trans advances, reached⟩
  rw [own]
  exact fetched

/-- A call of a compiled function goes on behind it. -/
theorem callRoutine {arity : Nat} {meaning : World → List Word → Option (Outcome World)} {entry finish : Word}
    {outcome : Outcome World} {tail : List Line} (placed : Placed code start (.go (.call entry) :: tail) finish)
    (compiled : Compiled code limit entry arity meaning) (arguments rest : List Word) (stack : v.stack = arguments ++ rest)
    (count : arguments.length = arity) (room : limit + 4 * (v.stack.length + 1) ≤ v.base)
    (meant : meaning v.world arguments = some outcome)
    (next : ∀ middle after, Placed code middle tail finish → after.base = v.base → Returns v after outcome rest →
      outcome.slots.length = arity → Runs code limit middle after goal) : Runs code limit start v goal := by
  cases placed with | cons fetched placed => ?_
  refine Runs.call fetched room ?_
  refine Runs.routine compiled arguments rest (congrArg _ stack) count room meant fun after base returns slots => ?_
  refine next _ after placed base ⟨returns.stack, returns.world, returns.result, fun name member => ?_, returns.selector,
    returns.interrupts⟩ slots
  rw [returns.saved name member]
  refine Function.update_of_ne ?_ _ _
  rintro rfl
  exact absurd member (by decide)

end Runs

end Convention

end Foundation
