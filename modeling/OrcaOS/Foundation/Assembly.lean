import OrcaOS.Foundation.Routine

/-!
Code that is given as a list of lines, and compiled functions that are given by what they compute.
-/

namespace Foundation

section Assembly
variable {World : Type}

/-- Each line takes one address, and a compiled function lies at an address of its own. -/
def Code.assembled (lines : List Line) (routines : Word → Option (Processor World → Option (Processor World)))
    (constant : Word → Word) : Code World where
  fetch address :=
    match routines address with
    | some call => some (.routine call)
    | none => lines[address.toNat]?.map fun line => .line line (address + 1)
  constant

variable {lines : List Line} {routines : Word → Option (Processor World → Option (Processor World))}
  {constant : Word → Word}

/-- A block of the list is placed where it starts. -/
theorem placed_assembled (fits : lines.length < 4294967296)
    (clear : ∀ address : Word, address.toNat < lines.length → routines address = none) (start : Nat) (block : List Line)
    (same : (lines.drop start).take block.length = block) :
    Placed (Code.assembled lines routines constant) (BitVec.ofNat 32 start) block
      (BitVec.ofNat 32 (start + block.length)) := by
  induction block generalizing start with
  | nil => exact .nil _
  | cons line block ih =>
      have inside : start < lines.length := by
        by_contra outside
        rw [List.drop_eq_nil_of_le (by omega), List.take_nil] at same
        cases same
      rw [List.drop_eq_getElem_cons inside, List.length_cons, List.take_succ_cons] at same
      obtain ⟨head, tail⟩ := List.cons.inj same
      have address : (BitVec.ofNat 32 start).toNat = start := Nat.mod_eq_of_lt (by omega)
      have next : BitVec.ofNat 32 start + 1 = BitVec.ofNat 32 (start + 1) := (BitVec.ofNat_add start 1).symm
      have finish : start + (line :: block).length = start + 1 + block.length := by
        rw [List.length_cons]
        omega
      rw [finish]
      refine .cons ?_ (ih (start + 1) tail)
      dsimp only [Code.assembled]
      rw [clear _ (by rw [address]; exact inside), address, List.getElem?_eq_getElem inside, head, ← next]
      rfl

/-- The words above the return address. -/
def Processor.arguments (p : Processor World) (arity : Nat) : List Word :=
  (List.range arity).map fun index => BitVec.ofNat 32 (p.memory.load32 (p.esp.toNat + 4 + 4 * index))

/-- A compiled function that computes a result and new data and uses no stack of its own. -/
def plainRoutine (arity : Nat) (meaning : World → List Word → Option (Word × World)) (p : Processor World) :
    Option (Processor World) :=
  (meaning p.world (p.arguments arity)).map fun (result, world) => { (p.drop.set .eax result).goto p.top with world }

/-- Such a function keeps its arguments and the interrupt flag. -/
def plainMeaning (meaning : World → List Word → Option (Word × World)) (world : World) (arguments : List Word) :
    Option (Outcome World) :=
  (meaning world arguments).map fun (result, world) => ⟨result, arguments, world, id⟩

/-- The result and the new data of a function. -/
def computed (meaning : World → List Word → Option (Outcome World)) (world : World) (arguments : List Word) :
    Option (Word × World) :=
  (meaning world arguments).map fun outcome => (outcome.result, outcome.world)

/-- A function that keeps its arguments and the interrupt flag is given by them. -/
theorem plainMeaning_computed {meaning : World → List Word → Option (Outcome World)}
    (keeps : ∀ world arguments outcome, meaning world arguments = some outcome →
      outcome.slots = arguments ∧ outcome.interrupts = id) : plainMeaning (computed meaning) = meaning := by
  funext world arguments
  rw [plainMeaning, computed, Option.map_map]
  cases meant : meaning world arguments with
  | none => rfl
  | some outcome =>
      obtain ⟨slots, interrupts⟩ := keeps world arguments outcome meant
      obtain ⟨result, _, after, _⟩ := outcome
      obtain rfl := slots
      obtain rfl := interrupts
      rfl

/-- A compiled function that changes the data and ends with a call of assembly code. -/
def plainEnter (target argument back : Word) (change : World → World) (p : Processor World) : Option (Processor World) :=
  some { ((p.push argument).push back).goto target with world := change p.world }

theorem Memory.Holds.arguments {memory : Memory} {address : Nat} {words rest : List Word}
    (holds : memory.Holds address (words ++ rest)) :
    (List.range words.length).map (fun index => BitVec.ofNat 32 (memory.load32 (address + 4 * index))) = words := by
  induction words generalizing address with
  | nil => rfl
  | cons word words ih =>
      obtain ⟨first, others⟩ := holds
      rw [List.length_cons, List.range_succ_eq_map, List.map_cons, List.map_map, Nat.mul_zero, Nat.add_zero, first,
        BitVec.ofNat_toNat, BitVec.setWidth_eq]
      congr 1
      refine Eq.trans (List.map_congr_left fun index _ => ?_) (ih others)
      have next : address + 4 * (index + 1) = address + 4 + 4 * index := by omega
      rw [Function.comp_apply, Nat.succ_eq_add_one, next]

theorem plainRoutine_complies (limit arity : Nat) (meaning : World → List Word → Option (Word × World)) :
    Complies limit (plainRoutine arity meaning) arity (plainMeaning meaning) := by
  intro p v back arguments rest outcome shows stack count room meant
  obtain ⟨⟨result, world⟩, computed, rfl⟩ := Option.map_eq_some_iff.mp meant
  obtain ⟨top, dropped⟩ := shows.drop stack
  have held := shows.stack
  rw [stack] at held
  have found : p.arguments arity = arguments := by
    rw [← count]
    exact held.2.arguments
  have returned := (dropped.set result (show Register.eax ≠ .esp by decide)).goto back
  let after : View World := ⟨(v.registers.set .esp (v.registers.general .esp + 4)).set .eax result, world, v.base,
    arguments ++ rest⟩
  refine ⟨count, { (p.drop.set .eax result).goto back with world }, after, ?_, rfl,
    ⟨⟨returned.registers, rfl, returned.base, returned.fits, returned.stack⟩, rfl, fun _ _ => rfl⟩,
    ⟨rfl, rfl, ?_, ?_, rfl, rfl⟩⟩
  · rw [plainRoutine, found, shows.world, computed, top]
    rfl
  · exact Registers.set_general_self _ _ _
  · intro name member
    have notPointer : name ≠ .esp := by
      rintro rfl
      exact absurd member (by decide)
    have notResult : name ≠ .eax := by
      rintro rfl
      exact absurd member (by decide)
    exact (Function.update_of_ne notResult _ _).trans (Function.update_of_ne notPointer _ _)

theorem plainEnter_enters {code : Code World} {entry target argument back : Word} {change : World → World}
    (fetched : code.fetch entry = some (.routine (plainEnter target argument back change))) (limit : Nat) :
    Enters code limit entry target argument 0 change := by
  refine ⟨_, fetched, fun p v shows room => ?_⟩
  have first := shows.advances_push limit argument (by omega)
  have second := first.shows.advances_push limit back
    (show limit + 4 * (v.stack.length + 1 + 1) ≤ v.base by omega)
  have pushed := first.trans (second.trans (second.shows.advances_goto target))
  refine ⟨_, { (v.push argument).push back with world := change v.world }, back, [], rfl, rfl,
    ⟨⟨pushed.shows.registers, by rw [← shows.world], pushed.shows.base, pushed.shows.fits, pushed.shows.stack⟩,
      pushed.base, pushed.memory⟩, rfl, rfl, rfl, rfl⟩

end Assembly

end Foundation
