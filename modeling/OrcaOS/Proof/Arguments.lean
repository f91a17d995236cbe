import OrcaOS.Proof.ExecuteEffect

/-!
The argument bytes of a new program, and what `sys_getargs` reads of them.
-/

namespace OrcaOS
open Foundation

namespace Kernel

/-- The byte at one index from the start of the argument array, before the text is copied. -/
def clearedByte (memory : Memory) (pcb index : Nat) : UInt8 :=
  if index = 127 then memory (pcb + argumentsOffset + index) else 0

/-- The initialization leaves only the last argument byte as it was. -/
theorem initPcb_argument (symbols : Symbols) (memory : Memory) (pcb number : Nat) {index : Nat}
    (inside : index < 132) : initPcb symbols memory pcb number (pcb + argumentsOffset + index) =
      clearedByte memory pcb index := by
  have offset : argumentsOffset = 292 := rfl
  have stream (memory : Memory) (fd : Nat) (readOp writeOp : Operation) (small : fd < 8) :
      openStandardStream symbols memory pcb fd readOp writeOp (pcb + argumentsOffset + index) =
        memory (pcb + argumentsOffset + index) := by
    apply openStandardStream_eqOn
    intro inside
    have high := inside.2
    omega
  dsimp only [initPcb]
  rw [stream _ 1 _ _ (by decide), stream _ 0 _ _ (by decide), clearedByte]
  by_cases cleared : index < 127
  · rw [if_neg (by omega)]
    exact Memory.overlay_inside _ _ _ _ cleared
  · have filled : Memory.fill (writeField (writeField memory pcb .processNum number) pcb .argPosition 0)
        (pcb + argumentsOffset) 127 0 (pcb + argumentsOffset + index) =
        writeField (writeField memory pcb .processNum number) pcb .argPosition 0
          (pcb + argumentsOffset + index) := Memory.overlay_outside _ _ _ _ (by omega)
    rw [filled]
    by_cases last : index = 127
    · rw [if_pos last]
      refine Eq.trans (writeField_eqOn _ _ _ _ ?_) (writeField_eqOn _ _ _ _ ?_)
      · intro position
        have low := position.1
        simp only [PcbField.offset] at low
        omega
      · intro number
        have high := number.2
        simp only [PcbField.offset] at high
        omega
    · rw [if_neg last]
      have address : pcb + argumentsOffset + index = pcb + PcbField.argPosition.offset + (index - 128) := by
        simp only [PcbField.offset]
        omega
      rw [address, writeField, Memory.store32, Memory.overlay_inside _ _ _ _ (by omega), Nat.zero_div]
      rfl

/-- Registering a new block does not reach its argument bytes. -/
theorem created_argument (k : Kernel) (valid : k.processNumber < 6) {index : Nat} (inside : index < 132) :
    k.created (pcbAddress k.processNumber + argumentsOffset + index) =
      clearedByte k.memory (pcbAddress k.processNumber) index := by
  have offset : argumentsOffset = 292 := rfl
  rw [k.created_eq valid, ← initPcb_argument k.symbols k.memory _ k.processNumber inside]
  dsimp only
  refine Eq.trans (writeField_eqOn _ _ _ _ ?_) ?_
  · intro parent
    have high := parent.2
    simp only [PcbField.offset] at high
    omega
  · split
    · rename_i nested
      have terminal := k.console.terminalOnDisplay.isLt
      have apart := @pcbAddress_apart k.processNumber k.console.terminalOnDisplay (by omega) (by omega)
        (by omega)
      apply registerProcess_eqOn _ _ _ firstFree_inside
      intro table
      obtain ⟨low, high⟩ := table
      omega
    · rfl

/-- The byte at one index from the start of the argument array of a new program. -/
def programByte (k : Kernel) (text : List UInt8) (index : Nat) : UInt8 :=
  if index < text.length then text.getD index 0
  else clearedByte k.memory (pcbAddress k.processNumber) index

/-- A launched program finds its text, and then what the initialization left. -/
theorem enterProgram_argument (k : Kernel) (valid : k.processNumber < 6) (processName : List UInt8)
    (tempBuffer : Buffer) (locals : Locals) (text : List UInt8) {index : Nat} (inside : index < 132) :
    (enterProgram (copyArguments (k.prepare processName tempBuffer) locals text)).2.memory
        (pcbAddress k.processNumber + argumentsOffset + index) = k.programByte text index := by
  have offset : argumentsOffset = 292 := rfl
  have prepared := k.prepare_changesOnly processName tempBuffer
  have small := k.prepare_fd_lt processName tempBuffer
  generalize k.prepare processName tempBuffer = candidate at prepared small
  have position : candidate.kernel.currentPcb = pcbAddress k.processNumber :=
    prepared.currentPcb.trans k.claimed_currentPcb
  have outside : pcbAddress k.processNumber + argumentsOffset + index ∉
      descriptorTable (pcbAddress k.processNumber) := by
    intro table
    have high := table.2
    omega
  have loaded := (mapped candidate text).loadProgram_changesOnly small (loadedHeader candidate locals text)
  have same : (mapped candidate text).currentPcb = pcbAddress k.processNumber := position
  rw [same] at loaded
  rw [enterProgram_eq]
  refine (loaded.memory outside).trans ?_
  change candidate.kernel.memory.storeBytes (candidate.kernel.currentPcb + argumentsOffset) text _ = _
  rw [position, programByte]
  split
  · rename_i copied
    exact Memory.overlay_inside _ _ _ _ copied
  · rename_i beyond
    refine (Memory.overlay_outside _ _ _ _ (by omega)).trans ?_
    refine (prepared.memory outside).trans ?_
    rw [claimed_memory]
    exact k.created_argument valid inside

end Kernel

namespace Kernel
variable {k : Kernel}

/-- The argument bytes are addressed without wrapping. -/
theorem argumentByte_eq (fits : k.currentPcb + 424 ≤ 4294967296) {index : Nat} (inside : index < 132) :
    k.argumentByte index = k.memory (k.currentPcb + argumentsOffset + index) := by
  have offset : argumentsOffset = 292 := rfl
  rw [argumentByte, wrap32_natCast (by omega), ← Nat.cast_add, ← Nat.cast_add,
    wrap32_natCast (by omega)]

/-- Storing a position keeps the argument bytes before it. -/
theorem argumentByte_setPosition (fits : k.currentPcb + 424 ≤ 4294967296) (next : Nat) {index : Nat}
    (inside : index < 132) : (k.setCurrent .argPosition next).argumentByte index =
      if index < 128 then k.argumentByte index else UInt8.ofNat (next / 256 ^ (index - 128)) := by
  have offset : argumentsOffset = 292 := rfl
  have stored : (k.setCurrent .argPosition next).currentPcb + 424 ≤ 4294967296 := fits
  rw [argumentByte_eq stored inside]
  change writeField k.memory k.currentPcb .argPosition next (k.currentPcb + argumentsOffset + index) = _
  split
  · rw [argumentByte_eq fits inside]
    apply writeField_eqOn
    intro position
    have low := position.1
    simp only [PcbField.offset] at low
    omega
  · have address : k.currentPcb + argumentsOffset + index =
        k.currentPcb + PcbField.argPosition.offset + (index - 128) := by
      simp only [PcbField.offset]
      omega
    rw [address, writeField, Memory.store32, Memory.overlay_inside _ _ _ _ (by omega)]

end Kernel

namespace Kernel
variable (k : Kernel)

/-- The loop keeps the bytes that it has already copied. -/
theorem getargsLoop_keeps (argPosition remaining bytesRead : Nat) (buf : Buffer) :
    bytesRead ≤ (k.getargsLoop argPosition remaining bytesRead buf).1 ∧
      ∀ index < bytesRead, (k.getargsLoop argPosition remaining bytesRead buf).2 index = buf index := by
  induction remaining generalizing bytesRead buf with
  | zero => exact ⟨Nat.le_refl _, fun _ _ => rfl⟩
  | succ remaining ih =>
      rw [getargsLoop]
      split
      · exact ⟨Nat.le_refl _, fun _ _ => rfl⟩
      · obtain ⟨further, kept⟩ := ih (bytesRead + 1)
          (Function.update buf bytesRead (k.argumentByte (argPosition + bytesRead)))
        refine ⟨by omega, fun index small => ?_⟩
        rw [kept index (by omega), Function.update_of_ne (by omega)]

/-- The terminated buffer holds the text up to and including its end. -/
theorem getargsLoop_byte (argPosition remaining bytesRead : Nat) (buf : Buffer) {index : Nat}
    (low : bytesRead ≤ index) (high : index < bytesRead + remaining)
    (text : ∀ earlier < index, bytesRead ≤ earlier → k.argumentByte (argPosition + earlier) ≠ 0) :
    Function.update (k.getargsLoop argPosition remaining bytesRead buf).2
        (k.getargsLoop argPosition remaining bytesRead buf).1 0 index =
      k.argumentByte (argPosition + index) := by
  induction remaining generalizing bytesRead buf with
  | zero => omega
  | succ remaining ih =>
      rw [getargsLoop]
      split
      · rename_i ended
        obtain rfl | later := Nat.eq_or_lt_of_le low
        · rw [Function.update_self, ended]
        · exact absurd ended (text bytesRead later (Nat.le_refl _))
      · obtain rfl | later := Nat.eq_or_lt_of_le low
        · obtain ⟨further, kept⟩ := k.getargsLoop_keeps argPosition remaining (bytesRead + 1)
            (Function.update buf bytesRead (k.argumentByte (argPosition + bytesRead)))
          rw [Function.update_of_ne (by omega), kept bytesRead (by omega), Function.update_self]
        · exact ih (bytesRead + 1) _ later (by omega) fun earlier small notRead =>
            text earlier small (by omega)

end Kernel

/-- Two processes read the same bytes up to a limit that neither passes. The limit is the end of the
text or the upper byte of the position. -/
structure SameArguments (limit : Nat) (first second : Kernel) : Prop where
  firstFits : first.currentPcb + 424 ≤ 4294967296
  secondFits : second.currentPcb + 424 ≤ 4294967296
  position : first.current .argPosition = second.current .argPosition
  within : first.current .argPosition ≤ limit
  limited : limit < 128 ∨ limit = 131
  ended : first.argumentByte limit = 0
  bytes : ∀ index ≤ limit, first.argumentByte index = second.argumentByte index

namespace SameArguments
variable {limit : Nat} {first second : Kernel}

/-- Both loops copy the same text and end at the limit. -/
theorem getargsLoop (same : SameArguments limit first second) (argPosition remaining bytesRead : Nat)
    (buf : Buffer) (inside : argPosition + bytesRead ≤ limit) :
    first.getargsLoop argPosition remaining bytesRead buf =
        second.getargsLoop argPosition remaining bytesRead buf ∧
      argPosition + (first.getargsLoop argPosition remaining bytesRead buf).1 ≤ limit := by
  induction remaining generalizing bytesRead buf with
  | zero => exact ⟨rfl, inside⟩
  | succ remaining ih =>
      have byte := same.bytes _ inside
      rw [Kernel.getargsLoop, Kernel.getargsLoop, ← byte]
      split
      · exact ⟨rfl, inside⟩
      · rename_i nonzero
        have room : argPosition + bytesRead ≠ limit := by
          intro equal
          rw [equal] at nonzero
          exact nonzero same.ended
        exact ih (bytesRead + 1) _ (by omega)

/-- One call returns the same in both processes and keeps them alike. -/
theorem sysGetargs (same : SameArguments limit first second) (buf : Buffer) (nbytes : Int) :
    (first.sysGetargs buf nbytes).1 = (second.sysGetargs buf nbytes).1 ∧
      (first.sysGetargs buf nbytes).2.1 = (second.sysGetargs buf nbytes).2.1 ∧
      SameArguments limit (first.sysGetargs buf nbytes).2.2 (second.sysGetargs buf nbytes).2.2 := by
  obtain ⟨loop, small⟩ := same.getargsLoop (first.current .argPosition) nbytes.toNat 0 buf same.within
  have limited := same.limited
  have next : wrap32 (first.current .argPosition +
      (first.getargsLoop (first.current .argPosition) nbytes.toNat 0 buf).1) ≤ limit := by
    rw [← Nat.cast_add, wrap32_natCast (by omega)]
    exact small
  unfold Kernel.sysGetargs
  dsimp only
  rw [← same.position, ← loop]
  generalize wrap32 (first.current .argPosition +
    (first.getargsLoop (first.current .argPosition) nbytes.toNat 0 buf).1) = position at next
  refine ⟨rfl, rfl, same.firstFits, same.secondFits, ?_, ?_, limited, ?_, ?_⟩
  · rw [Kernel.current_setCurrent _ _ (by omega), Kernel.current_setCurrent _ _ (by omega)]
  · rw [Kernel.current_setCurrent _ _ (by omega)]
    exact next
  · rw [Kernel.argumentByte_setPosition same.firstFits position (by omega)]
    split
    · exact same.ended
    · obtain rfl : limit = 131 := by omega
      rw [Nat.div_eq_of_lt (by omega)]
      rfl
  · intro index inside
    rw [Kernel.argumentByte_setPosition same.firstFits position (by omega),
      Kernel.argumentByte_setPosition same.secondFits position (by omega)]
    split
    · exact same.bytes index inside
    · rfl

end SameArguments

namespace Kernel

/-- The return values and the buffers of consecutive calls of `sys_getargs`. -/
def getargsCalls : Kernel → List (Buffer × Int) → List (Int × Buffer)
  | _, [] => []
  | k, (buf, nbytes) :: rest =>
      let (result, buf, k) := k.sysGetargs buf nbytes
      (result, buf) :: getargsCalls k rest

end Kernel

/-- Processes with the same arguments cannot be told apart by reading them. -/
theorem SameArguments.getargsCalls {limit : Nat} {first second : Kernel}
    (same : SameArguments limit first second)
    (calls : List (Buffer × Int)) : first.getargsCalls calls = second.getargsCalls calls := by
  induction calls generalizing first second with
  | nil => rfl
  | cons call rest ih =>
      obtain ⟨buf, nbytes⟩ := call
      obtain ⟨results, buffers, alike⟩ := same.sysGetargs buf nbytes
      have returned : ((first.sysGetargs buf nbytes).1, (first.sysGetargs buf nbytes).2.1) =
          ((second.sysGetargs buf nbytes).1, (second.sysGetargs buf nbytes).2.1) :=
        Prod.ext results buffers
      exact congrArg₂ List.cons returned (ih alike)

end OrcaOS
