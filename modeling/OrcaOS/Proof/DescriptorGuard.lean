import OrcaOS.Proof.BootSequence

/-!
Through which descriptors `sys_read`, `sys_write` and `sys_close` call a function.
-/

namespace OrcaOS
open Foundation

namespace Kernel
variable (k : Kernel)

/-- The word through which a read or a write calls its function; `none` if it returns before. -/
def transferPointer (k : Kernel) (operation : FdField) (fd : Int) (buf : Option Buffer) : Option PcbField :=
  if buf = none ∨ fd < 0 ∨ fileArrayLen ≤ fd ∨ k.current (.fileArray fd.toNat .flags) = 0 then none
  else some (.fileArray fd.toNat operation)

/-- The word through which `sys_close` calls its function; `none` if it returns before. -/
def closePointer (k : Kernel) (fd : Int) : Option PcbField :=
  if fd < 2 ∨ fileArrayLen < fd ∨ k.current (.fileArray fd.toNat .flags) = 0 then none
  else some (.fileArray fd.toNat .closeOp)

/-- A read through a word calls the function at the address that the word holds. -/
def readThrough (k : Kernel) (pointer : Option PcbField) (fd : Int) (buf : Option Buffer) (nbytes : Int)
    (waited : Waited) : Option (Int × Option Buffer × Kernel) :=
  match pointer with
  | none => some (-1, buf, k)
  | some field => (k.callRead (k.current field) fd (buf.getD fun _ => 0) nbytes waited).map
      fun (result, buf, k) => (result, some buf, k)

def writeThrough (k : Kernel) (pointer : Option PcbField) (buf : Option Buffer) (nbytes : Int) :
    Option (Int × Kernel) :=
  match pointer with
  | none => some (-1, k)
  | some field => k.callWrite (k.current field) (buf.getD fun _ => 0) nbytes

def closeThrough (k : Kernel) (pointer : Option PcbField) (fd : Int) : Option (Int × Kernel) :=
  match pointer with
  | none => some (-1, k)
  | some field => k.callClose (k.current field) fd

theorem sysRead_eq (fd : Int) (buf : Option Buffer) (nbytes : Int) (waited : Waited) :
    k.sysRead fd buf nbytes waited = k.readThrough (k.transferPointer .readOp fd buf) fd buf nbytes waited := by
  cases buf with
  | none => rfl
  | some buf =>
      unfold sysRead transferPointer readThrough
      simp only [reduceCtorEq, false_or]
      split <;> rfl

theorem sysWrite_eq (fd : Int) (buf : Option Buffer) (nbytes : Int) :
    k.sysWrite fd buf nbytes = k.writeThrough (k.transferPointer .writeOp fd buf) buf nbytes := by
  cases buf with
  | none => rfl
  | some buf =>
      unfold sysWrite transferPointer writeThrough
      simp only [reduceCtorEq, false_or]
      split <;> rfl

theorem sysClose_eq (fd : Int) : k.sysClose fd = k.closeThrough (k.closePointer fd) fd := by
  unfold sysClose closePointer closeThrough
  split <;> rfl

/-- The descriptor is an entry of the table that is in use. -/
def InUse (k : Kernel) (first fd : Int) : Prop :=
  first ≤ fd ∧ fd < 8 ∧ k.current (.fileArray fd.toNat .flags) ≠ 0

/-- A call goes through the given operation of a descriptor in use. -/
def CallsInUse (k : Kernel) (first : Int) (operation : FdField) (fd : Int) (pointer : Option PcbField) : Prop :=
  ∀ field ∈ pointer, k.InUse first fd ∧ field = .fileArray fd.toNat operation

/-- The three calls go only through descriptors in use, and every other call fails and changes nothing. -/
structure DescriptorsGuarded (k : Kernel) (fd : Int) : Prop where
  read : ∀ buf nbytes waited,
    k.sysRead fd buf nbytes waited = k.readThrough (k.transferPointer .readOp fd buf) fd buf nbytes waited ∧
      k.CallsInUse 0 .readOp fd (k.transferPointer .readOp fd buf)
  write : ∀ buf nbytes,
    k.sysWrite fd buf nbytes = k.writeThrough (k.transferPointer .writeOp fd buf) buf nbytes ∧
      k.CallsInUse 0 .writeOp fd (k.transferPointer .writeOp fd buf)
  close : k.sysClose fd = k.closeThrough (k.closePointer fd) fd ∧ k.CallsInUse 2 .closeOp fd (k.closePointer fd)
  readRefused : ∀ buf nbytes waited, buf = none ∨ ¬k.InUse 0 fd →
    k.sysRead fd buf nbytes waited = some (-1, buf, k)
  writeRefused : ∀ buf nbytes, buf = none ∨ ¬k.InUse 0 fd → k.sysWrite fd buf nbytes = some (-1, k)
  closeRefused : ¬k.InUse 2 fd → k.sysClose fd = some (-1, k)

theorem transferPointer_eq_none_iff {operation : FdField} {fd : Int} {buf : Option Buffer} :
    k.transferPointer operation fd buf = none ↔ buf = none ∨ ¬k.InUse 0 fd := by
  have length : (fileArrayLen : Int) = 8 := rfl
  unfold transferPointer InUse
  rw [length, ite_eq_left_iff]
  simp only [reduceCtorEq, imp_false, not_not]
  constructor
  · intro refused
    obtain missing | low | high | free := refused
    · exact .inl missing
    · exact .inr fun used => by omega
    · exact .inr fun used => by omega
    · exact .inr fun used => used.2.2 free
  · intro refused
    by_contra passes
    simp only [not_or] at passes
    obtain ⟨given, low, high, used⟩ := passes
    exact refused.elim given fun unused => unused ⟨by omega, by omega, used⟩

/-- The range check of reads and writes is that of the table. -/
theorem transferPointer_callsInUse (operation : FdField) (fd : Int) (buf : Option Buffer) :
    k.CallsInUse 0 operation fd (k.transferPointer operation fd buf) := by
  intro field called
  have passes : ¬(buf = none ∨ ¬k.InUse 0 fd) := by
    intro refused
    have missing : k.transferPointer operation fd buf = none := k.transferPointer_eq_none_iff.mpr refused
    rw [Option.mem_def.mp called] at missing
    cases missing
  rw [not_or, not_not] at passes
  refine ⟨passes.2, ?_⟩
  rw [transferPointer] at called
  split at called
  · cases called
  · exact (Option.some.inj called).symm

/-- The upper bound of `sys_close` is one too large. -/
theorem closePointer_eq_none_iff {fd : Int} :
    k.closePointer fd = none ↔ ¬(k.InUse 2 fd ∨ (fd = 8 ∧ k.current (.fileArray 8 .flags) ≠ 0)) := by
  have length : (fileArrayLen : Int) = 8 := rfl
  unfold closePointer InUse
  rw [length, ite_eq_left_iff]
  simp only [reduceCtorEq, imp_false, not_not]
  constructor
  · intro refused used
    obtain ⟨low, high, flags⟩ | ⟨rfl, flags⟩ := used
    · obtain below | above | free := refused
      · omega
      · omega
      · exact flags free
    · obtain below | above | free := refused
      · omega
      · omega
      · exact flags free
  · intro unused
    by_contra passes
    simp only [not_or] at passes
    obtain ⟨low, high, flags⟩ := passes
    by_cases last : fd = 8
    · subst last
      exact unused (.inr ⟨rfl, flags⟩)
    · exact unused (.inl ⟨by omega, by omega, flags⟩)

/-- The three calls are guarded exactly if the word behind the table keeps 8 from being closed. -/
theorem descriptors_guarded_iff (fd : Int) :
    k.DescriptorsGuarded fd ↔ (fd = 8 → k.current (.fileArray 8 .flags) = 0) := by
  constructor
  · rintro guarded rfl
    by_contra used
    have called : k.closePointer 8 ≠ none := fun refused =>
      k.closePointer_eq_none_iff.mp refused (.inr ⟨rfl, used⟩)
    obtain ⟨field, called⟩ := Option.ne_none_iff_exists'.mp called
    have inside := (guarded.close.2 field called).1.2.1
    omega
  · intro unused
    have refused (outside : ¬k.InUse 2 fd) : k.closePointer fd = none :=
      k.closePointer_eq_none_iff.mpr fun used => used.elim outside fun last => last.2 (unused last.1)
    constructor
    · intro buf nbytes waited
      exact ⟨k.sysRead_eq fd buf nbytes waited, k.transferPointer_callsInUse .readOp fd buf⟩
    · intro buf nbytes
      exact ⟨k.sysWrite_eq fd buf nbytes, k.transferPointer_callsInUse .writeOp fd buf⟩
    · refine ⟨k.sysClose_eq fd, fun field called => ?_⟩
      have inUse : k.InUse 2 fd := by
        by_contra outside
        rw [refused outside] at called
        cases called
      refine ⟨inUse, ?_⟩
      rw [closePointer] at called
      split at called
      · cases called
      · exact (Option.some.inj called).symm
    · intro buf nbytes waited outside
      rw [sysRead_eq, k.transferPointer_eq_none_iff.mpr outside, readThrough]
    · intro buf nbytes outside
      rw [sysWrite_eq, k.transferPointer_eq_none_iff.mpr outside, writeThrough]
    · intro outside
      rw [sysClose_eq, refused outside, closeThrough]

end Kernel

section Sample

/-- The command starts the shell with 24 characters of arguments. -/
def longArguments : Command := some ([115, 104, 101, 108, 108, 32] ++ List.replicate 24 97 ++ [0])

/-- After this command `sys_close(8)` calls the address that its argument text spells. -/
theorem close_escapes : ∃ result after, sampleKernel.sysExecute longArguments sampleLocals = some (result, after) ∧
    after.closePointer 8 = some (.fileArray 8 .closeOp) ∧
    after.current (.fileArray 8 .closeOp) = 0x61616161 ∧ ¬after.DescriptorsGuarded 8 := by
  have escapes : ((sampleKernel.sysExecute longArguments sampleLocals).any fun outcome =>
      decide (outcome.2.closePointer 8 = some (.fileArray 8 .closeOp) ∧
        outcome.2.current (.fileArray 8 .closeOp) = 0x61616161)) = true := by decide +kernel
  obtain ⟨outcome, returned, escaped⟩ := (Option.any_eq_true _ _).mp escapes
  obtain ⟨called, address⟩ := of_decide_eq_true escaped
  refine ⟨outcome.1, outcome.2, returned, called, address, fun guarded => ?_⟩
  have inside := (guarded.close.2 _ called).1.2.1
  omega

end Sample

end OrcaOS
