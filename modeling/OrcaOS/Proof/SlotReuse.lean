import OrcaOS.Proof.Arguments
import OrcaOS.Proof.DescriptorContract
import OrcaOS.Proof.FailedExecute

/-!
What a new program can see of the previous occupant of its slot: the flags of its descriptors from
2 on and the last of its 128 argument bytes.
-/

namespace OrcaOS
open Foundation Kernel

/-- Two new programs have only the standard streams open and read the same arguments. -/
structure Indistinguishable (first second : Kernel) : Prop where
  firstStandard : OnlyStandard first
  secondStandard : OnlyStandard second
  arguments : ∀ calls, first.getargsCalls calls = second.getargsCalls calls

/-- A text that is longer than the argument array overwrites the argument position. -/
def argPositionAfter (text : List UInt8) : Nat :=
  Memory.load32 (fun index => text.getD (128 + index) 0) 0

/-- The next slot has no descriptor from 2 on in use. -/
def SpareDescriptorsFree (k : Kernel) : Prop :=
  ∀ fd < 8, 2 ≤ fd → readField k.memory (pcbAddress k.processNumber) (.fileArray fd .flags) = 0

/-- The last argument byte of the next slot. -/
def lastArgument (k : Kernel) : UInt8 :=
  k.memory (pcbAddress k.processNumber + argumentsOffset + 127)

/-- A text of 127 characters is followed by the last argument byte of the previous occupant. -/
structure SlotsHidden (first second : Kernel) (text : List UInt8) : Prop where
  firstFree : SpareDescriptorsFree first
  secondFree : SpareDescriptorsFree second
  last : text.length = 127 → lastArgument first = lastArgument second

/-- The terminator is not part of the argument text. -/
theorem copiedText_nonzero {bytes text : List UInt8} (copied : copiedText bytes = some text) :
    ∀ byte ∈ text, byte ≠ 0 := by
  unfold copiedText at copied
  dsimp only at copied
  split at copied
  · obtain rfl := Option.some.inj copied
    intro byte member
    have passed := List.mem_takeWhile_imp member
    simpa using passed
  · cases copied

/-- Opening and closing the program file leaves the flags of the slot as they were. -/
theorem settledField_flags (k : Kernel) (valid : k.processNumber < 6) (processName : List UInt8)
    {fd : Nat} (inside : fd < 8) :
    k.claimed.settledField processName fd .flags =
      if fd < 2 then 1 else readField k.memory (pcbAddress k.processNumber) (.fileArray fd .flags) := by
  unfold settledField
  split
  · rename_i claimed
    have spare := ((k.claimed_fileDescriptor valid processName fd).mp claimed.1).2
    obtain ⟨_, low, free, _⟩ := k.spareDescriptor_eq_some_iff.mp spare
    rw [if_neg (by omega), free]
  · rw [k.claimed_descriptor valid inside]
    rfl

/-- The flags and the argument bytes of a program that was just launched. -/
structure Launched (k : Kernel) (text : List UInt8) (after : Kernel) : Prop where
  valid : k.processNumber < 6
  currentPcb : after.currentPcb = pcbAddress k.processNumber
  flags : ∀ fd < 8, after.current (.fileArray fd .flags) =
    if fd < 2 then 1 else readField k.memory (pcbAddress k.processNumber) (.fileArray fd .flags)
  bytes : ∀ index < 132, after.memory (pcbAddress k.processNumber + argumentsOffset + index) =
    k.programByte text index

theorem sysExecute_launched {k after : Kernel} {command : Command} {locals : Locals} {result : Int}
    (returned : k.sysExecute command locals = some (result, after)) (success : result ≠ -1) :
    ∃ text, command.bind argumentText = some text ∧ (∀ byte ∈ text, byte ≠ 0) ∧
      Launched k text after := by
  cases sysExecute_outcome returned with
  | early => exact absurd rfl success
  | rejected => exact absurd rfl success
  | @accepted _ processName tail text reached executable copied _ effect =>
      rw [reached.sysExecute_eq, if_pos executable, copied] at returned
      obtain ⟨_, _, same⟩ := (k.launch_prepared_iff processName text locals _ after).mp returned
      refine ⟨text, reached.argumentText copied, copiedText_nonzero copied, reached.valid,
        effect.currentPcb, ?_, ?_⟩
      · intro fd inside
        rw [← settledField_flags k reached.valid processName inside, ← effect.descriptors fd inside,
          current, effect.currentPcb]
      · intro index inside
        have byte := k.enterProgram_argument reached.valid processName locals.tempBuffer locals text inside
        rw [same] at byte
        exact byte

namespace Launched
variable {k after other : Kernel} {text : List UInt8}

theorem onlyStandard_iff (launched : Launched k text after) :
    OnlyStandard after ↔ SpareDescriptorsFree k := by
  constructor
  · intro standard fd inside low
    have free := (standard fd inside).mpr low
    rw [launched.flags fd inside, if_neg (by omega)] at free
    exact free
  · intro free fd inside
    rw [launched.flags fd inside]
    by_cases low : fd < 2
    · rw [if_pos low]
      omega
    · rw [if_neg low, free fd inside (by omega)]
      omega

theorem fits (launched : Launched k text after) : after.currentPcb + 424 ≤ 4294967296 := by
  have valid := launched.valid
  rw [launched.currentPcb, pcbAddress_eq (by omega)]
  omega

/-- The argument position is what the text left of it. -/
theorem argPosition (launched : Launched k text after) :
    after.current .argPosition = argPositionAfter text := by
  apply Memory.load32_congr
  intro index small
  have address : after.currentPcb + PcbField.argPosition.offset + index =
      pcbAddress k.processNumber + argumentsOffset + (128 + index) := by
    rw [launched.currentPcb]
    simp only [PcbField.offset, argumentsOffset]
    omega
  rw [address, launched.bytes _ (by omega), programByte, Nat.zero_add]
  split
  · rfl
  · rename_i beyond
    rw [clearedByte, if_neg (by omega), List.getD_eq_default _ _ (by omega)]

theorem argumentByte (launched : Launched k text after) {index : Nat} (inside : index < 132) :
    after.argumentByte index = k.programByte text index := by
  rw [argumentByte_eq launched.fits inside, launched.currentPcb]
  exact launched.bytes index inside

end Launched

section Text
variable {text : List UInt8}

/-- A text that fits in the argument array leaves the position at zero. -/
theorem argPositionAfter_eq_zero (short : text.length ≤ 128) : argPositionAfter text = 0 := by
  apply (Memory.load32_eq_zero_iff _ 0).mpr
  intro index _
  exact List.getD_eq_default _ _ (by omega)

/-- The upper byte of a small position is zero. -/
theorem upperByte_eq_zero (contained : argPositionAfter text < 132) : text.getD 131 0 = 0 := by
  have zero : (text.getD 131 0).toNat = 0 := by
    unfold argPositionAfter Memory.load32 at contained
    simp only [Nat.zero_add, Nat.reduceAdd] at contained
    omega
  exact UInt8.toNat_inj.mp zero

end Text

section TwoPrograms
variable {first second firstAfter secondAfter : Kernel} {text : List UInt8}

/-- Up to 126 characters end before the last argument byte. -/
theorem Launched.sameArguments_of_short (one : Launched first text firstAfter)
    (two : Launched second text secondAfter) (short : text.length ≤ 126) :
    SameArguments text.length firstAfter secondAfter where
  firstFits := one.fits
  secondFits := two.fits
  position := by rw [one.argPosition, two.argPosition]
  within := by
    rw [one.argPosition, argPositionAfter_eq_zero (by omega)]
    exact Nat.zero_le _
  limited := .inl (by omega)
  ended := by
    rw [one.argumentByte (by omega), programByte, if_neg (Nat.lt_irrefl _), clearedByte, if_neg (by omega)]
  bytes index inside := by
    rw [one.argumentByte (by omega), two.argumentByte (by omega), programByte, programByte,
      clearedByte, clearedByte, if_neg (show index ≠ 127 by omega), if_neg (show index ≠ 127 by omega)]

/-- A longer text may run through the last argument byte up to the position. -/
theorem Launched.sameArguments_of_long (one : Launched first text firstAfter)
    (two : Launched second text secondAfter) (contained : argPositionAfter text < 132)
    (long : 127 ≤ text.length) (last : text.length = 127 → lastArgument first = lastArgument second) :
    SameArguments 131 firstAfter secondAfter where
  firstFits := one.fits
  secondFits := two.fits
  position := by rw [one.argPosition, two.argPosition]
  within := by
    rw [one.argPosition]
    omega
  limited := .inr rfl
  ended := by
    rw [one.argumentByte (by decide), programByte]
    split
    · exact upperByte_eq_zero contained
    · rfl
  bytes index inside := by
    rw [one.argumentByte (by omega), two.argumentByte (by omega), programByte, programByte]
    split
    · rfl
    · unfold clearedByte
      split
      · rename_i beyond equal
        subst equal
        exact last (by omega)
      · rfl

/-- A text of 127 characters is read together with the byte behind it. -/
theorem Launched.sysGetargs_last (launched : Launched first text firstAfter)
    (nonzero : ∀ byte ∈ text, byte ≠ 0) (length : text.length = 127) (buf : Buffer) :
    (firstAfter.sysGetargs buf 128).2.1 127 = lastArgument first := by
  have position := launched.argPosition
  rw [argPositionAfter_eq_zero (by omega)] at position
  have read := firstAfter.getargsLoop_byte 0 128 0 buf (Nat.zero_le 127) (by decide) (by
    intro earlier small _
    rw [Nat.zero_add, launched.argumentByte (by omega), programByte, if_pos (by omega),
      List.getD_eq_getElem _ _ (by omega)]
    exact nonzero _ (List.getElem_mem _))
  rw [Nat.zero_add, launched.argumentByte (by decide), programByte, if_neg (by omega)] at read
  unfold sysGetargs
  rw [position]
  exact read

end TwoPrograms

/-- Two programs cannot be told apart exactly when their slots show nothing of their past. -/
theorem execute_hides_occupant {first second firstAfter secondAfter : Kernel} {command : Command}
    {firstLocals secondLocals : Locals} {firstEntry secondEntry : Int}
    (firstReturned : first.sysExecute command firstLocals = some (firstEntry, firstAfter))
    (firstSuccess : firstEntry ≠ -1)
    (secondReturned : second.sysExecute command secondLocals = some (secondEntry, secondAfter))
    (secondSuccess : secondEntry ≠ -1) :
    ∃ text, command.bind argumentText = some text ∧ (argPositionAfter text < 132 →
      (Indistinguishable firstAfter secondAfter ↔ SlotsHidden first second text)) := by
  obtain ⟨text, named, nonzero, one⟩ := sysExecute_launched firstReturned firstSuccess
  obtain ⟨otherText, otherNamed, _, two⟩ := sysExecute_launched secondReturned secondSuccess
  obtain rfl : text = otherText := by
    rw [named] at otherNamed
    exact Option.some.inj otherNamed
  refine ⟨text, named, fun contained => ?_⟩
  constructor
  · intro alike
    refine ⟨one.onlyStandard_iff.mp alike.firstStandard, two.onlyStandard_iff.mp alike.secondStandard, ?_⟩
    intro length
    have calls := alike.arguments [(fun _ => 0, 128)]
    have buffers : (firstAfter.sysGetargs (fun _ => 0) 128).2.1 =
        (secondAfter.sysGetargs (fun _ => 0) 128).2.1 :=
      congrArg Prod.snd (List.cons.inj calls).1
    rw [← one.sysGetargs_last nonzero length fun _ => 0, buffers]
    exact two.sysGetargs_last nonzero length fun _ => 0
  · intro hidden
    refine ⟨one.onlyStandard_iff.mpr hidden.firstFree, two.onlyStandard_iff.mpr hidden.secondFree, ?_⟩
    by_cases short : text.length ≤ 126
    · exact (one.sameArguments_of_short two short).getargsCalls
    · exact (one.sameArguments_of_long two contained (by omega) hidden.last).getargsCalls

/-- The sample kernel after another program has left its arguments in the next slot. -/
def reusedKernel : Kernel := { sampleKernel with
  memory := sampleKernel.memory.storeBytes (pcbAddress 3 + argumentsOffset) (List.replicate 128 66) }

/-- The first result and buffer that a program gets for its arguments. -/
def firstGetargs (k : Kernel) (command : Command) : Option (Int × UInt8) :=
  (k.sysExecute command sampleLocals).bind fun (entry, after) =>
    if entry = -1 then none else some (entry, (after.sysGetargs (fun _ => 0) 128).2.1 127)

theorem firstGetargs_eq_some {k : Kernel} {command : Command} {entry : Int} {byte : UInt8}
    (returned : firstGetargs k command = some (entry, byte)) :
    ∃ after, k.sysExecute command sampleLocals = some (entry, after) ∧ entry ≠ -1 ∧
      (after.sysGetargs (fun _ => 0) 128).2.1 127 = byte := by
  obtain ⟨⟨value, after⟩, executed, found⟩ := Option.bind_eq_some_iff.mp returned
  dsimp only at found
  split at found
  · cases found
  · rename_i success
    cases found
    exact ⟨after, executed, success, rfl⟩

/-- Both sample kernels start programs with 3 and with 127 argument characters. -/
theorem firstGetargs_samples :
    firstGetargs sampleKernel (sampleCommand 3) = some (0x080482e8, 0) ∧
    firstGetargs reusedKernel (sampleCommand 3) = some (0x080482e8, 0) ∧
    firstGetargs sampleKernel (sampleCommand 127) = some (0x080482e8, 0) ∧
    firstGetargs reusedKernel (sampleCommand 127) = some (0x080482e8, 66) ∧
    SpareDescriptorsFree sampleKernel ∧ SpareDescriptorsFree reusedKernel ∧
    lastArgument sampleKernel = 0 ∧ lastArgument reusedKernel = 66 := by
  unfold SpareDescriptorsFree
  decide +kernel

/-- Three argument characters hide what the previous program left. -/
theorem execute_hides_occupant_sample : lastArgument sampleKernel ≠ lastArgument reusedKernel ∧
    ∃ entry firstAfter secondAfter,
      sampleKernel.sysExecute (sampleCommand 3) sampleLocals = some (entry, firstAfter) ∧
      reusedKernel.sysExecute (sampleCommand 3) sampleLocals = some (entry, secondAfter) ∧ entry ≠ -1 ∧
      Indistinguishable firstAfter secondAfter := by
  obtain ⟨first, second, _, _, firstFree, secondFree, clear, stale⟩ := firstGetargs_samples
  obtain ⟨firstAfter, firstReturned, firstSuccess, _⟩ := firstGetargs_eq_some first
  obtain ⟨secondAfter, secondReturned, secondSuccess, _⟩ := firstGetargs_eq_some second
  obtain ⟨text, named, exactly⟩ :=
    execute_hides_occupant firstReturned firstSuccess secondReturned secondSuccess
  obtain rfl : text = List.replicate 3 65 := by
    have known : (sampleCommand 3).bind argumentText = some (List.replicate 3 65) := by decide
    rw [known] at named
    exact (Option.some.inj named).symm
  refine ⟨by rw [clear, stale]; decide, _, firstAfter, secondAfter, firstReturned, secondReturned, firstSuccess, ?_⟩
  exact (exactly (by decide)).mpr ⟨firstFree, secondFree, fun long => by cases long⟩

/-- A text of 127 characters shows the last argument byte of the previous program. -/
theorem execute_shows_occupant : ∃ firstEntry firstAfter secondEntry secondAfter,
    sampleKernel.sysExecute (sampleCommand 127) sampleLocals = some (firstEntry, firstAfter) ∧
    firstEntry ≠ -1 ∧
    reusedKernel.sysExecute (sampleCommand 127) sampleLocals = some (secondEntry, secondAfter) ∧
    secondEntry ≠ -1 ∧ ¬Indistinguishable firstAfter secondAfter := by
  obtain ⟨_, _, first, second, _⟩ := firstGetargs_samples
  obtain ⟨firstAfter, firstReturned, firstSuccess, firstByte⟩ := firstGetargs_eq_some first
  obtain ⟨secondAfter, secondReturned, secondSuccess, secondByte⟩ := firstGetargs_eq_some second
  refine ⟨_, firstAfter, _, secondAfter, firstReturned, firstSuccess, secondReturned, secondSuccess, ?_⟩
  intro alike
  have calls := alike.arguments [(fun _ => 0, 128)]
  have buffers : (firstAfter.sysGetargs (fun _ => 0) 128).2.1 =
      (secondAfter.sysGetargs (fun _ => 0) 128).2.1 := congrArg Prod.snd (List.cons.inj calls).1
  rw [buffers, secondByte] at firstByte
  cases firstByte

end OrcaOS
