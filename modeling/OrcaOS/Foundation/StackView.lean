import OrcaOS.Foundation.Processor

/-!
The stack of a processor as a list of words. Straight code is executed on the list, and the result
holds of the processor whose memory contains the list.
-/

namespace Foundation

namespace Memory

/-- The words lie one after the other from the address on. -/
def Holds (memory : Memory) : Nat → List Word → Prop
  | _, [] => True
  | address, word :: words =>
      memory.load32 address = word.toNat ∧ Holds memory (address + 4) words

theorem Holds.congr {memory other : Memory} {address : Nat} {words : List Word} (holds : memory.Holds address words)
    (same : Set.EqOn other memory (window address (4 * words.length))) : other.Holds address words := by
  induction words generalizing address with
  | nil => trivial
  | cons word words ih =>
      rw [List.length_cons] at same
      obtain ⟨first, rest⟩ := holds
      refine ⟨?_, ih rest (same.mono (window_subset (by omega) (by omega)))⟩
      rw [← first]
      exact load32_eqOn same fun index small => ⟨by omega, by omega⟩

theorem holds_append {memory : Memory} {address : Nat} {first second : List Word} :
    memory.Holds address (first ++ second) ↔
      memory.Holds address first ∧ memory.Holds (address + 4 * first.length) second := by
  induction first generalizing address with
  | nil => exact (iff_of_eq (true_and _)).symm
  | cons word first ih =>
      have next : address + 4 + 4 * first.length = address + 4 * (first.length + 1) := by omega
      rw [List.cons_append, Holds, ih, next, and_assoc.symm]
      rfl

end Memory

open Memory

/-- A processor whose stack is a list of words that ends at the address `base`, the top first. -/
structure View (World : Type) where
  registers : Registers
  world : World
  base : Nat
  stack : List Word

namespace View
variable {World : Type} (v : View World)

def push (word : Word) : View World :=
  { v with
    registers := v.registers.set .esp (v.registers.general .esp - 4)
    stack := word :: v.stack }

/-- This function removes the top word and gives it to the continuation. -/
def pop (resume : Word → View World → View World) : Option (View World) :=
  match v.stack with
  | [] => none
  | word :: rest =>
      some (resume word
        { v with registers := v.registers.set .esp (v.registers.general .esp + 4), stack := rest })

def set (target : Register) (word : Word) : View World :=
  { v with registers := v.registers.set target word }

end View

/-- The register that an instruction without a memory access writes. -/
def Instruction.target : Instruction → Option Register
  | .move _ target | .moveLowByte _ target | .moveLowWord _ target | .readSelector _ target
  | .arithmetic _ _ target | .shiftRight _ target | .loadAddress _ _ _ target => some target
  | _ => none

/-- The number of words that the instruction pushes. -/
def Instruction.demand : Instruction → Nat
  | .push _ | .pushFlags => 1
  | .pushAll => 8
  | _ => 0

namespace View
variable {World : Type} (v : View World)

/-- A stack pointer that is popped must be the one that the pop leaves anyway, and an addition of four
to the stack pointer drops a word. -/
def run (instruction : Instruction) : Option (View World) :=
  match instruction with
  | .push source => some (v.push (v.registers.read source))
  | .pop target =>
      if target = .esp ∧ v.stack.head? ≠ some (v.registers.general .esp + 4) then none
      else v.pop fun word v => v.set target word
  | .pushFlags => some (v.push v.registers.flags)
  | .popFlags => v.pop fun word v => { v with registers := { v.registers with flags := word } }
  | .pushAll =>
      some (Processor.savedRegisters.foldl (fun state name => state.push (v.registers.general name)) v)
  | .popAll =>
      Processor.savedRegisters.reverse.foldlM
        (fun state name => state.pop fun word state => if name = .esp then state else state.set name word) v
  | .loadByte _ _ | .storeByte _ _ => none
  | instruction =>
      if instruction = .arithmetic .add (.immediate 4) .esp then
        v.pop fun _ view =>
          { view with registers := { view.registers with flags := (v.registers.run instruction).flags } }
      else if instruction.target = some .esp then none
      else some { v with registers := v.registers.run instruction }

end View

/-- Registers that are pushed one after the other lie on the stack in the opposite order. -/
theorem View.pushes {World : Type} (v : View World) (names : List Register) (word : Register → Word) :
    names.foldl (fun state name => state.push (word name)) v =
      { v with
        registers := v.registers.set .esp (v.registers.general .esp - BitVec.ofNat 32 (4 * names.length))
        stack := (names.map word).reverse ++ v.stack } := by
  induction names generalizing v with
  | nil => simp [Registers.set]
  | cons name names ih =>
      have less : v.registers.general .esp - 4 - BitVec.ofNat 32 (4 * names.length) =
          v.registers.general .esp - BitVec.ofNat 32 (4 * (names.length + 1)) := by
        bv_omega
      rw [List.foldl_cons, ih, View.push]
      dsimp only
      rw [Registers.set_general_self, Registers.set_set, less]
      simp

/-- Words that are popped one after the other fill the registers, except the stack pointer. -/
theorem View.pops {World : Type} (v : View World) {names : List Register} (different : names.Nodup) (word : Register → Word)
    {rest : List Word} (stack : v.stack = names.map word ++ rest) :
    ∃ general : Register → Word,
      names.foldlM (fun state name => state.pop fun word state => if name = .esp then state else state.set name word) v =
        some { v with registers := { v.registers with general }, stack := rest } ∧
      general .esp = v.registers.general .esp + BitVec.ofNat 32 (4 * names.length) ∧
      ∀ name, name ≠ .esp → general name = if name ∈ names then word name else v.registers.general name := by
  induction names generalizing v with
  | nil =>
      obtain ⟨registers, world, base, words⟩ := v
      obtain rfl : words = rest := stack
      exact ⟨registers.general, rfl, (BitVec.add_zero _).symm, fun name _ => (if_neg List.not_mem_nil).symm⟩
  | cons name names ih =>
      obtain ⟨fresh, others⟩ := List.nodup_cons.mp different
      rw [List.foldlM_cons, View.pop, stack]
      let popped : View World :=
        ⟨v.registers.set .esp (v.registers.general .esp + 4), v.world, v.base, names.map word ++ rest⟩
      have first : (if name = .esp then popped else popped.set name (word name)).stack = names.map word ++ rest := by
        split <;> rfl
      obtain ⟨general, ran, pointer, values⟩ := ih _ others first
      refine ⟨general, Eq.trans ran ?_, pointer.trans ?_, fun other notPointer => (values other notPointer).trans ?_⟩
      · split <;> rfl
      · have next : v.registers.general .esp + 4 + BitVec.ofNat 32 (4 * names.length) =
            v.registers.general .esp + BitVec.ofNat 32 (4 * (names.length + 1)) := by
          bv_omega
        rw [List.length_cons, ← next]
        split
        · rw [Registers.set_general_self]
        · rename_i different
          exact congrArg (· + _) (Function.update_of_ne (Ne.symm different) _ _)
      · have kept : popped.registers.general other = v.registers.general other := Function.update_of_ne notPointer _ _
        obtain rfl | different := eq_or_ne other name
        · rw [if_neg fresh, if_neg notPointer, if_pos List.mem_cons_self]
          exact Registers.set_general_self _ _ _
        · have loaded : (if name = .esp then popped else popped.set name (word name)).registers.general other =
              v.registers.general other := by
            rw [← kept]
            split
            · rfl
            · exact Function.update_of_ne different _ _
          simp only [loaded, List.mem_cons, different, false_or]

/-- The memory of the processor holds the list from the stack pointer up to the base. -/
structure Shows {World : Type} (p : Processor World) (v : View World) : Prop where
  registers : p.registers = v.registers
  world : p.world = v.world
  base : p.esp.toNat + 4 * v.stack.length = v.base
  fits : v.base < 4294967296
  stack : p.memory.Holds p.esp.toNat v.stack

namespace Shows
variable {World : Type} {p : Processor World} {v after : View World} {limit : Nat}

theorem esp (shows : Shows p v) : p.esp = v.registers.general .esp := by
  rw [Processor.esp, shows.registers]

/-- A push below the list extends it and changes nothing else. -/
theorem push (shows : Shows p v) (word : Word) (room : limit + 4 * (v.stack.length + 1) ≤ v.base) :
    Shows (p.push word) (v.push word) ∧
      Set.EqOn (p.push word).memory p.memory (window limit (v.base - limit))ᶜ := by
  have base := shows.base
  have small := p.esp.isLt
  have down : (p.esp - 4).toNat + 4 = p.esp.toNat := by
    rw [BitVec.toNat_sub_of_le]
    · exact Nat.sub_add_cancel (by change 4 ≤ _; omega)
    · change 4 ≤ p.esp.toNat
      omega
  have stored := p.memory.store32_eqOn (p.esp - 4).toNat word.toNat
  refine ⟨⟨?_, shows.world, ?_, shows.fits, ?_⟩, eqOn_widen stored (by omega) (by omega)⟩
  · rw [Processor.push, View.push, shows.esp, shows.registers]
  · change (Function.update p.registers.general .esp (p.esp - 4) .esp).toNat + _ = v.base
    rw [Function.update_self, View.push, List.length_cons]
    omega
  · change Memory.Holds _ (Function.update p.registers.general .esp (p.esp - 4) .esp).toNat (word :: v.stack)
    rw [Function.update_self]
    refine ⟨Memory.load32_store32 _ _ word.isLt, ?_⟩
    rw [down]
    refine shows.stack.congr fun address inside => ?_
    obtain ⟨low, high⟩ := inside
    exact stored fun own => by
      obtain ⟨_, last⟩ := own
      omega

/-- Popping gives the head of the list and leaves its tail. -/
theorem drop {word : Word} {rest : List Word} (shows : Shows p v) (nonempty : v.stack = word :: rest) :
    p.top = word ∧ Shows p.drop
      { v with registers := v.registers.set .esp (v.registers.general .esp + 4), stack := rest } := by
  have base := shows.base
  have fits := shows.fits
  have stack := shows.stack
  rw [nonempty] at base stack
  rw [List.length_cons] at base
  have up : (p.esp + 4).toNat = p.esp.toNat + 4 := by
    rw [BitVec.toNat_add]
    exact Nat.mod_eq_of_lt (by change p.esp.toNat + 4 < 4294967296; omega)
  refine ⟨?_, ?_, shows.world, ?_, shows.fits, ?_⟩
  · rw [Processor.top, stack.1]
    exact BitVec.ofNat_toNat 32 word
  · rw [Processor.drop, shows.esp, shows.registers]
  · change (Function.update p.registers.general .esp (p.esp + 4) .esp).toNat + 4 * rest.length = v.base
    rw [Function.update_self, up]
    omega
  · change Memory.Holds _ (Function.update p.registers.general .esp (p.esp + 4) .esp).toNat rest
    rw [Function.update_self, up]
    exact stack.2

/-- The other registers may change in the same way on both sides. -/
theorem withRegisters (shows : Shows p v) {registers : Registers}
    (kept : registers.general .esp = v.registers.general .esp) :
    Shows { p with registers } { v with registers } where
  registers := rfl
  world := shows.world
  base := by
    change (registers.general .esp).toNat + _ = _
    rw [kept, ← shows.esp]
    exact shows.base
  fits := shows.fits
  stack := by
    change p.memory.Holds (registers.general .esp).toNat v.stack
    rw [kept, ← shows.esp]
    exact shows.stack

theorem set (shows : Shows p v) {target : Register} (word : Word) (other : target ≠ .esp) :
    Shows (p.set target word) (v.set target word) := by
  unfold Processor.set
  rw [shows.registers]
  exact shows.withRegisters (Function.update_of_ne other.symm _ _)

end Shows

/-- Both sides went on, and only the memory between the limit and the base may differ. -/
structure Advances {World : Type} (limit : Nat) (p : Processor World) (v : View World) (q : Processor World)
    (after : View World) : Prop where
  shows : Shows q after
  base : after.base = v.base
  memory : Set.EqOn q.memory p.memory (window limit (v.base - limit))ᶜ

section Running
variable {World : Type} {p q r : Processor World} {v middle after : View World} {limit : Nat}

theorem Advances.trans (first : Advances limit p v q middle) (second : Advances limit q middle r after) :
    Advances limit p v r after where
  shows := second.shows
  base := second.base.trans first.base
  memory := by
    have memory := second.memory
    rw [first.base] at memory
    exact memory.trans first.memory

/-- A step that does not write memory. -/
theorem Advances.quiet (shows : Shows q after) (base : after.base = v.base) (same : q.memory = p.memory) :
    Advances limit p v q after := ⟨shows, base, fun address _ => congrFun same address⟩

theorem Shows.advances_push (shows : Shows p v) (limit : Nat) (word : Word)
    (room : limit + 4 * (v.stack.length + 1) ≤ v.base) :
    Advances limit p v (p.push word) (v.push word) :=
  have pushed := shows.push word room
  ⟨pushed.1, rfl, pushed.2⟩

/-- A pop followed by the same continuation on both sides. -/
theorem Shows.advances_pop (shows : Shows p v) {resume : Word → View World → View World}
    (continuation : Processor World → Processor World) (popped : v.pop resume = some after)
    (resumed : ∀ view : View World, Shows p.drop view → v.stack.head? = some p.top →
      view.registers.general .esp = v.registers.general .esp + 4 →
      Advances limit p.drop view (continuation p.drop) (resume p.top view)) :
    Advances limit p v (continuation p.drop) after := by
  unfold View.pop at popped
  split at popped
  · cases popped
  · rename_i word rest nonempty
    obtain rfl := Option.some.inj popped
    obtain ⟨top, dropped⟩ := shows.drop nonempty
    have next := resumed _ dropped (by rw [nonempty, top]; rfl)
      (Function.update_self Register.esp _ v.registers.general)
    rw [← top]
    exact ⟨next.shows, next.base, next.memory⟩

theorem Shows.advances_pushes (names : List Register) (word : Register → Word) (shows : Shows p v)
    (room : limit + 4 * (v.stack.length + names.length) ≤ v.base) :
    Advances limit p v (names.foldl (fun state name => state.push (word name)) p)
      (names.foldl (fun state name => state.push (word name)) v) := by
  induction names generalizing p v with
  | nil => exact .quiet shows rfl rfl
  | cons name names ih =>
      rw [List.length_cons] at room
      have first := shows.advances_push limit (word name) (by omega)
      exact first.trans (ih first.shows (by change limit + 4 * (v.stack.length + 1 + _) ≤ v.base; omega))

theorem Shows.advances_pops (names : List Register) (shows : Shows p v)
    (popped : names.foldlM (fun state name => state.pop fun word state =>
      if name = .esp then state else state.set name word) v = some after) :
    Advances limit p v (names.foldl (fun state name =>
      if name = .esp then state.drop else state.drop.set name state.top) p) after := by
  induction names generalizing p v with
  | nil =>
      obtain rfl := Option.some.inj popped
      exact .quiet shows rfl rfl
  | cons name names ih =>
      rw [List.foldlM_cons] at popped
      obtain ⟨middle, first, rest⟩ := Option.bind_eq_some_iff.mp popped
      rw [List.foldl_cons]
      have one : Advances limit p v (if name = .esp then p.drop else p.drop.set name p.top) middle := by
        refine shows.advances_pop (fun q => if name = .esp then q else q.set name p.top) first fun view dropped _ _ => ?_
        split
        · exact .quiet dropped rfl rfl
        · rename_i other
          exact .quiet (dropped.set _ other) rfl rfl
      exact one.trans (ih one.shows rest)

/-- An instruction without a memory access writes its target and no other register. -/
theorem Registers.run_esp (registers : Registers) {instruction : Instruction}
    (other : instruction.target ≠ some .esp) :
    (registers.run instruction).general .esp = registers.general .esp := by
  cases instruction <;> first
    | rfl
    | exact Function.update_of_ne (fun same => other (congrArg some same.symm)) _ _

theorem Shows.advances_registers (shows : Shows p v) {instruction : Instruction}
    (ran : (if instruction = .arithmetic .add (.immediate 4) .esp then
        v.pop fun _ view =>
          { view with registers := { view.registers with flags := (v.registers.run instruction).flags } }
      else if instruction.target = some .esp then none
      else some { v with registers := v.registers.run instruction }) = some after) :
    Advances limit p v { p with registers := p.registers.run instruction } after := by
  split at ran
  · rename_i addition
    subst addition
    have same : { p with registers := p.registers.run (.arithmetic .add (.immediate 4) .esp) } =
        p.drop.setFlags (v.registers.run (.arithmetic .add (.immediate 4) .esp)).flags := by
      rw [← shows.registers]
      rfl
    rw [same]
    refine shows.advances_pop (fun q => q.setFlags _) ran fun view dropped _ _ => .quiet ?_ rfl rfl
    unfold Processor.setFlags
    rw [dropped.registers]
    exact dropped.withRegisters rfl
  · split at ran
    · cases ran
    · rename_i other
      obtain rfl := Option.some.inj ran
      rw [shows.registers]
      exact .quiet (shows.withRegisters (v.registers.run_esp other)) rfl rfl

/-- An instruction does on the processor what it does on the list. -/
theorem Shows.run (shows : Shows p v) (limit : Nat) {instruction : Instruction} (ran : v.run instruction = some after)
    (room : limit + 4 * (v.stack.length + instruction.demand) ≤ v.base) :
    Advances limit p v (p.run instruction) after := by
  cases instruction with
  | push source =>
      obtain rfl := Option.some.inj ran
      rw [Processor.run, shows.registers]
      exact shows.advances_push limit _ room
  | pop target =>
      rw [View.run] at ran
      split at ran
      · cases ran
      · rename_i consistent
        refine shows.advances_pop (fun q => q.set target p.top) ran fun view dropped head pointer => ?_
        by_cases own : target = .esp
        · have same : p.top = view.registers.general .esp := by
            rw [pointer]
            exact Option.some.inj (head.symm.trans (not_not.mp fun different => consistent ⟨own, different⟩))
          refine .quiet ?_ rfl rfl
          unfold Processor.set View.set
          rw [own, dropped.registers]
          exact dropped.withRegisters (by rw [same]; exact Function.update_self Register.esp _ view.registers.general)
        · exact .quiet (dropped.set _ own) rfl rfl
  | pushFlags =>
      obtain rfl := Option.some.inj ran
      rw [Processor.run, shows.registers]
      exact shows.advances_push limit _ room
  | popFlags =>
      rw [View.run] at ran
      refine shows.advances_pop (fun q => q.setFlags p.top) ran fun view dropped _ _ => ?_
      refine .quiet ?_ rfl rfl
      unfold Processor.setFlags
      rw [dropped.registers]
      exact dropped.withRegisters rfl
  | pushAll =>
      obtain rfl := Option.some.inj ran
      rw [Processor.run, Processor.pushAll, shows.registers]
      exact shows.advances_pushes _ _ room
  | popAll => exact shows.advances_pops _ ran
  | loadByte => cases ran
  | storeByte => cases ran
  | _ => exact shows.advances_registers ran

theorem View.pop_length {resume : Word → View World → View World} (popped : v.pop resume = some after)
    (kept : ∀ word view, (resume word view).stack = view.stack) : after.stack.length ≤ v.stack.length := by
  unfold View.pop at popped
  split at popped
  · cases popped
  · rename_i word rest nonempty
    obtain rfl := Option.some.inj popped
    rw [kept, nonempty]
    exact Nat.le_succ _

theorem View.pops_length (names : List Register) (popped : names.foldlM (fun state name =>
      state.pop fun word state => if name = .esp then state else state.set name word) v = some after) :
    after.stack.length ≤ v.stack.length := by
  induction names generalizing v with
  | nil =>
      obtain rfl := Option.some.inj popped
      exact Nat.le_refl _
  | cons name names ih =>
      rw [List.foldlM_cons] at popped
      obtain ⟨middle, first, rest⟩ := Option.bind_eq_some_iff.mp popped
      refine (ih rest).trans (v.pop_length first fun word view => ?_)
      split <;> rfl

/-- An instruction pushes at most what it demands. -/
theorem View.run_length {instruction : Instruction} (ran : v.run instruction = some after) :
    after.stack.length ≤ v.stack.length + instruction.demand := by
  have registers (ran : (if instruction = .arithmetic .add (.immediate 4) .esp then
        v.pop fun _ view =>
          { view with registers := { view.registers with flags := (v.registers.run instruction).flags } }
      else if instruction.target = some .esp then none
      else some { v with registers := v.registers.run instruction }) = some after) :
      after.stack.length ≤ v.stack.length + instruction.demand := by
    split at ran
    · exact (v.pop_length ran fun _ _ => rfl).trans (Nat.le_add_right _ _)
    · split at ran
      · cases ran
      · obtain rfl := Option.some.inj ran
        exact Nat.le_add_right _ _
  cases instruction with
  | push | pushFlags | pushAll =>
      obtain rfl := Option.some.inj ran
      exact Nat.le_refl _
  | pop =>
      rw [View.run] at ran
      split at ran
      · cases ran
      · exact v.pop_length ran fun _ _ => rfl
  | popFlags =>
      rw [View.run] at ran
      exact v.pop_length ran fun _ _ => rfl
  | popAll => exact v.pops_length _ ran
  | loadByte => cases ran
  | storeByte => cases ran
  | _ => exact registers ran

/-- A list of instructions does on the processor what it does on the list. -/
theorem Shows.runs (shows : Shows p v) {block : List Instruction} (ran : block.foldlM View.run v = some after)
    (room : limit + 4 * (v.stack.length + (block.map Instruction.demand).sum) ≤ v.base) :
    Advances limit p v (block.foldl Processor.run p) after := by
  induction block generalizing p v with
  | nil =>
      obtain rfl := Option.some.inj ran
      exact .quiet shows rfl rfl
  | cons instruction block ih =>
      rw [List.foldlM_cons] at ran
      obtain ⟨middle, first, rest⟩ := Option.bind_eq_some_iff.mp ran
      rw [List.map_cons, List.sum_cons] at room
      have one := shows.run limit first (by omega)
      have longer := View.run_length first
      exact one.trans (ih one.shows rest (by rw [one.base]; omega))

end Running

section Programs
variable {World : Type}

/-- The instructions before the first transfer. -/
def straight : List Line → List Instruction
  | .op instruction :: rest => instruction :: straight rest
  | _ => []

def afterStraight : List Line → List Line
  | .op _ :: rest => afterStraight rest
  | rest => rest

/-- From the address and the list the code reaches an address and a list that meet the condition. -/
def Runs (code : Code World) (limit : Nat) (start : Word) (v : View World) (goal : Word → View World → Prop) : Prop :=
  ∀ p, p.eip = start → Shows p v →
    ∃ q after, Reaches code p q ∧ Advances limit p v q after ∧ goal q.eip after

namespace Runs
variable {code : Code World} {limit : Nat} {start following finish : Word} {v after : View World}
  {lines : List Line} {goal : Word → View World → Prop}

theorem done (reached : goal start v) : Runs code limit start v goal := by
  rintro p rfl shows
  exact ⟨p, v, .refl, .quiet shows rfl rfl, reached⟩

/-- What is known of the end may be weakened. -/
theorem mono {weaker : Word → View World → Prop} (runs : Runs code limit start v goal)
    (implies : ∀ address last, goal address last → weaker address last) : Runs code limit start v weaker := by
  intro p own shows
  obtain ⟨q, last, reaches, advances, reached⟩ := runs p own shows
  exact ⟨q, last, reaches, advances, implies _ _ reached⟩

/-- One line is executed, and the code goes on from where it leads. -/
theorem line {line : Line} {target : Word} (placed : code.fetch start = some (.line line following))
    (taken : ∀ p, p.eip = start → Shows p v → (p.runLine code line following).eip = target ∧
      Advances limit p v (p.runLine code line following) after)
    (next : Runs code limit target after goal) : Runs code limit start v goal := by
  intro p own shows
  obtain ⟨arrived, advanced⟩ := taken p own shows
  obtain ⟨q, last, reaches, advances, reached⟩ := next _ arrived advanced.shows
  refine ⟨q, last, .trans (.line ?_) reaches, advanced.trans advances, reached⟩
  rw [own]
  exact placed

/-- The lines before the first transfer are executed on the list. -/
theorem straight {count : Nat} (placed : Placed code start lines finish)
    (ran : (Foundation.straight lines).foldlM View.run v = some after)
    (demand : ((Foundation.straight lines).map Instruction.demand).sum = count)
    (room : limit + 4 * (v.stack.length + count) ≤ v.base)
    (next : ∀ middle, Placed code middle (afterStraight lines) finish → Runs code limit middle after goal) :
    Runs code limit start v goal := by
  rw [← demand] at room
  clear demand
  induction placed generalizing v with
  | nil =>
      obtain rfl := Option.some.inj ran
      exact next _ (.nil _)
  | @cons start following _ first rest fetched placed ih =>
      cases first with
      | go instruction =>
          obtain rfl := Option.some.inj ran
          exact next _ (.cons fetched placed)
      | op instruction =>
          change (instruction :: Foundation.straight rest).foldlM View.run v = some after at ran
          change limit + 4 * (v.stack.length + ((instruction :: Foundation.straight rest).map
            Instruction.demand).sum) ≤ v.base at room
          rw [List.foldlM_cons] at ran
          obtain ⟨middle, one, others⟩ := Option.bind_eq_some_iff.mp ran
          rw [List.map_cons, List.sum_cons] at room
          have longer := View.run_length one
          have advanced (p : Processor World) (shows : Shows p v) :
              Advances limit p v ((p.run instruction).goto following) middle := by
            have ran := shows.run limit one (by omega)
            exact ⟨⟨ran.shows.registers, ran.shows.world, ran.shows.base, ran.shows.fits, ran.shows.stack⟩,
              ran.base, ran.memory⟩
          intro p own shows
          have base := (advanced p shows).base
          exact line fetched (fun p _ shows => ⟨rfl, advanced p shows⟩) (ih others (by omega) next) p own shows

end Runs

end Programs

end Foundation
