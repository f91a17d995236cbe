import OrcaOS.Foundation.Stream
import OrcaOS.Proof.Arguments
import OrcaOS.Proof.BootSequence
import OrcaOS.Specification.ArgumentText

/-!
A program reads its argument text within its buffers exactly when the first one has room for all of it.
-/

namespace OrcaOS
open Foundation

namespace HoldsText
variable {k : Kernel} {text : List UInt8} {position : Nat}

theorem argumentByte (holds : HoldsText k text position) {index : Nat} (inside : index ≤ text.length) :
    k.argumentByte index = text.getD index 0 := by
  have short := holds.short
  rw [Kernel.argumentByte_eq holds.fits (by omega)]
  exact holds.held index inside

/-- The loop copies the text up to its end or to the end of the buffer. -/
theorem getargsLoop_eq (holds : HoldsText k text position) (remaining bytesRead : Nat) (buf : Buffer)
    (inside : position + bytesRead ≤ text.length) :
    k.getargsLoop position remaining bytesRead buf =
      (bytesRead + min remaining (text.length - (position + bytesRead)),
        Memory.overlay buf bytesRead (min remaining (text.length - (position + bytesRead)))
          fun index => text.getD (position + bytesRead + index) 0) := by
  induction remaining generalizing bytesRead buf with
  | zero => rw [Kernel.getargsLoop, Nat.zero_min, Memory.overlay_zero, Nat.add_zero]
  | succ remaining ih =>
      rw [Kernel.getargsLoop, holds.argumentByte inside]
      by_cases ended : position + bytesRead = text.length
      · rw [if_pos (by rw [ended, List.getD_eq_default _ _ (Nat.le_refl _)]), ended, Nat.sub_self, Nat.min_zero,
          Memory.overlay_zero, Nat.add_zero]
      · have character : text.getD (position + bytesRead) 0 ≠ 0 := by
          rw [List.getD_eq_getElem _ _ (by omega)]
          intro zero
          exact holds.characters (by rw [← zero]; exact List.getElem_mem _)
        have count : min (remaining + 1) (text.length - (position + bytesRead)) =
            min remaining (text.length - (position + (bytesRead + 1))) + 1 := by omega
        have total : bytesRead + 1 + min remaining (text.length - (position + (bytesRead + 1))) =
            bytesRead + (min remaining (text.length - (position + (bytesRead + 1))) + 1) := by omega
        have bytes : (fun index => text.getD (position + (bytesRead + 1) + index) 0) =
            fun index => text.getD (position + bytesRead + (index + 1)) 0 := by
          funext index
          congr 1
          omega
        rw [if_neg character, ih (bytesRead + 1) _ (by omega), count, Memory.overlay_succ, total, bytes]
        rfl

/-- One call delivers the next characters and a zero after them. -/
theorem sysGetargs_eq (holds : HoldsText k text position) (buf : Buffer) (request : Nat) :
    k.sysGetargs buf request =
      (if (Stream.deliver text position request).length = 0 then -1 else 0,
        Function.update (Memory.storeBytes buf 0 (Stream.deliver text position request))
          (Stream.deliver text position request).length 0,
        k.setCurrent .argPosition (position + (Stream.deliver text position request).length)) := by
  have short := holds.short
  have within := holds.within
  have length := Stream.length_deliver text position request
  have loop := holds.getargsLoop_eq request 0 buf (by omega)
  rw [Nat.zero_add, Nat.add_zero, ← length] at loop
  have copied (index : Nat) (inside : index < (Stream.deliver text position request).length) :
      text.getD (position + index) 0 = (Stream.deliver text position request).getD index 0 := by
    rw [List.getD_eq_getElem _ _ inside, List.getD_eq_getElem _ _ (by omega)]
    simp only [Stream.deliver, List.getElem_take, List.getElem_drop]
  rw [Memory.overlay_congr _ _ _ copied] at loop
  rw [Kernel.sysGetargs, holds.argPosition, Int.toNat_natCast]
  dsimp only
  rw [loop]
  dsimp only
  rw [← Nat.cast_add, wrap32_natCast (by omega)]
  rfl

/-- After a call the rest of the text is left to be read. -/
theorem advance (holds : HoldsText k text position) {next : Nat} (within : next ≤ text.length) :
    HoldsText (k.setCurrent .argPosition next) text next where
  fits := holds.fits
  short := holds.short
  characters := holds.characters
  held index inside := by
    have short := holds.short
    have offset : argumentsOffset = 292 := rfl
    change writeField k.memory k.currentPcb .argPosition next (k.currentPcb + argumentsOffset + index) = _
    refine Eq.trans (writeField_eqOn k.memory k.currentPcb .argPosition next ?_) (holds.held index inside)
    intro stored
    have low := stored.1
    simp only [PcbField.offset] at low
    omega
  argPosition := by
    have short := holds.short
    exact k.current_setCurrent .argPosition (by omega)
  within := within

/-- Once the text is exhausted every call returns -1 and stores one zero. -/
theorem exhausted (holds : HoldsText k text text.length) {calls : List (Nat × Buffer)}
    (positive : ∀ call ∈ calls, 0 < call.1) : ∀ outcome ∈ k.getargsReads calls,
      outcome.result = -1 ∧ ∀ index, outcome.request ≤ index → outcome.after index = outcome.before index := by
  induction calls generalizing k with
  | nil =>
      intro outcome member
      cases member
  | cons call rest ih =>
      obtain ⟨request, before⟩ := call
      have room : 0 < request := positive _ List.mem_cons_self
      have nothing : Stream.deliver text text.length request = [] := Stream.deliver_of_end (Nat.le_refl _) _
      rw [Kernel.getargsReads, holds.sysGetargs_eq, nothing]
      intro outcome member
      obtain rfl | later := List.mem_cons.mp member
      · refine ⟨rfl, fun index outside => ?_⟩
        have outside : request ≤ index := outside
        dsimp only
        rw [List.length_nil, Function.update_of_ne (by omega), Memory.storeBytes, List.length_nil, Memory.overlay_zero]
      · exact ih (holds.advance (Nat.le_refl _)) (fun call member => positive call (List.mem_cons_of_mem _ member))
          outcome later

end HoldsText

/-- The stored piece and its terminator are found in the buffer. -/
theorem held_update_storeBytes (buf : Buffer) (bytes : List UInt8) :
    Text.Held (Function.update (Memory.storeBytes buf 0 bytes) bytes.length 0) bytes := by
  intro index inside
  obtain small | rfl := Nat.lt_or_eq_of_le inside
  · have stored := Memory.storeBytes_inside buf 0 bytes small
    rw [Nat.zero_add] at stored
    rw [Function.update_of_ne (Nat.ne_of_lt small), stored, List.getD_eq_getElem _ _ small]
  · rw [Function.update_self, List.getD_eq_default _ _ (Nat.le_refl _)]

section Outcomes
variable {text : List UInt8} {first : ReadOutcome} {later : List ReadOutcome}

/-- Calls that find nothing return no pieces. -/
theorem pieces_eq_nil (exhausted : ∀ outcome ∈ later, outcome.result = -1) : pieces later = [] := by
  refine List.flatMap_eq_nil_iff.mpr fun outcome member => ?_
  rw [exhausted outcome member]
  rfl

/-- The piece of the first call is the whole text, also when there is none. -/
theorem pieces_first (piece : first.piece = text) (result : first.result = if text.length = 0 then -1 else 0)
    (exhausted : ∀ outcome ∈ later, outcome.result = -1) : pieces (first :: later) = text := by
  have nothing := pieces_eq_nil exhausted
  unfold pieces at nothing ⊢
  rw [List.flatMap_cons, nothing, List.append_nil, result]
  by_cases empty : text.length = 0
  · rw [if_pos empty, List.length_eq_zero_iff.mp empty]
    rfl
  · rw [if_neg empty, if_pos rfl, piece]

/-- The pieces are delivered when the first call gives the whole text and the others find nothing. -/
theorem DeliversPieces.of_first (piece : first.piece = text)
    (result : first.result = if text.length = 0 then -1 else 0)
    (inside : ∀ index, first.request ≤ index → first.after index = first.before index)
    (terminated : ∃ index < first.request, first.after index = 0)
    (exhausted : ∀ outcome ∈ later, outcome.result = -1 ∧
      ∀ index, outcome.request ≤ index → outcome.after index = outcome.before index) :
    DeliversPieces text (first :: later) := by
  constructor
  · intro outcome member
    obtain rfl | member := List.mem_cons.mp member
    · exact inside
    · exact (exhausted outcome member).2
  · intro outcome member success
    obtain rfl | member := List.mem_cons.mp member
    · exact terminated
    · rw [(exhausted outcome member).1] at success
      cases success
  · intro earlier outcome remaining split
    obtain _ | ⟨start, earlier⟩ := earlier
    · -- The first call delivers the whole text.
      obtain ⟨rfl, rfl⟩ := List.cons.inj split
      have single : pieces [first] = text := pieces_first piece result fun _ member => by cases member
      by_cases empty : text.length = 0
      · right
        rw [result, if_pos empty, List.length_eq_zero_iff.mp empty]
        exact ⟨rfl, rfl⟩
      · left
        have nonempty : text ≠ [] := fun nil => empty (by rw [nil, List.length_nil])
        rw [result, if_neg empty, List.nil_append, single, piece]
        exact ⟨rfl, Ne.symm nonempty, List.prefix_refl text, .inr nonempty⟩
    · -- Every other call finds nothing left.
      obtain ⟨rfl, rfl⟩ := List.cons.inj split
      right
      refine ⟨(exhausted outcome (by simp)).1, ?_⟩
      exact pieces_first piece result fun other member => (exhausted other (List.mem_append_left _ member)).1

end Outcomes

/-- A first buffer with room for the whole text and its terminator makes all calls deliver their pieces. -/
theorem HoldsText.delivers {k : Kernel} {text : List UInt8} (holds : HoldsText k text 0) {request : Nat}
    {before : Buffer} {rest : List (Nat × Buffer)} (room : text.length < request)
    (positive : ∀ call ∈ rest, 0 < call.1) :
    DeliversPieces text (k.getargsReads ((request, before) :: rest)) := by
  have whole : Stream.deliver text 0 request = text := by
    rw [Stream.deliver, List.drop_zero, List.take_of_length_le (by omega)]
  have held := held_update_storeBytes before text
  rw [Kernel.getargsReads, holds.sysGetargs_eq, whole, Nat.zero_add]
  refine .of_first (Text.upTo_of_held held holds.characters room) rfl ?_ ?_
    ((holds.advance (Nat.le_refl _)).exhausted positive)
  · intro index outside
    have outside : request ≤ index := outside
    dsimp only
    rw [Function.update_of_ne (by omega)]
    exact Memory.overlay_outside _ _ _ _ (by omega)
  · exact ⟨text.length, room, Function.update_self _ _ _⟩

/-- Whatever the buffers hold, the pieces are delivered within them exactly when the first buffer has
room for the whole text and its terminator. -/
theorem getargs_pieces_iff {k : Kernel} {text : List UInt8} (holds : HoldsText k text 0) {requests : List Nat}
    (positive : ∀ request ∈ requests, 0 < request) :
    (∀ calls : List (Nat × Buffer), calls.map Prod.fst = requests →
      DeliversPieces text (k.getargsReads calls)) ↔
      ∀ first ∈ requests.head?, text.length < first := by
  constructor
  · intro delivers first leads
    obtain ⟨rest, rfl⟩ := List.head?_eq_some_iff.mp leads
    by_contra full
    have pieces := delivers ((first, fun _ => 7) :: rest.map fun request => (request, fun _ => 7))
      (by simp [Function.comp_def])
    rw [Kernel.getargsReads, holds.sysGetargs_eq] at pieces
    have length := Stream.length_deliver text 0 first
    have filled : (Stream.deliver text 0 first).length = first := by omega
    have stored := pieces.inside _ List.mem_cons_self first (Nat.le_refl _)
    rw [filled] at stored
    exact absurd stored (by simp)
  · intro room calls same
    cases calls with
    | nil =>
        rw [Kernel.getargsReads]
        refine ⟨fun _ member => ?_, fun _ member => ?_, fun _ _ _ split => ?_⟩
        · cases member
        · cases member
        · simp at split
    | cons call rest =>
        obtain ⟨request, before⟩ := call
        rw [← same] at positive room
        exact holds.delivers (room request rfl) fun call member =>
          positive call.1 (by simp only [List.map_cons, List.mem_cons, List.mem_map]; exact .inr ⟨call, member, rfl⟩)

section Sample

/-- A program was started with the argument text "ab". -/
def sampleProgram : Kernel :=
  ((sampleKernel.sysExecute (some [115, 104, 101, 108, 108, 32, 97, 98, 0]) sampleLocals).getD (0, sampleKernel)).2

theorem sampleProgram_holdsText : HoldsText sampleProgram [97, 98] 0 := by
  have block : sampleProgram.currentPcb + 424 ≤ 4294967296 ∧ sampleProgram.current .argPosition = 0 ∧
      ∀ index ≤ 2, sampleProgram.arguments index = [97, 98].getD index 0 := by decide +kernel
  obtain ⟨fits, position, held⟩ := block
  exact ⟨fits, by decide, by decide, held, position, by decide⟩

/-- A first buffer of three bytes takes the text, and the next call returns -1. -/
theorem getargs_pieces_iff_sample :
    DeliversPieces [97, 98] (sampleProgram.getargsReads [(3, fun _ => 7), (1, fun _ => 7)]) := by
  have positive : ∀ request ∈ [3, 1], 0 < request := by decide
  exact (getargs_pieces_iff sampleProgram_holdsText positive).mpr (by simp) _ rfl

/-- A buffer of two bytes is filled with the text, and the zero is stored behind it. -/
theorem getargs_overruns : HoldsText sampleProgram [97, 98] 0 ∧
    (sampleProgram.sysGetargs (fun _ => 7) 2).2.1 2 = 0 ∧
    ¬DeliversPieces [97, 98] (sampleProgram.getargsReads [(2, fun _ => 7)]) := by
  have stored : (sampleProgram.sysGetargs (fun _ => 7) 2).2.1 2 = 0 := by decide +kernel
  have single (k : Kernel) (before : Buffer) : k.getargsReads [(2, before)] =
      [⟨2, (k.sysGetargs before 2).1, before, (k.sysGetargs before 2).2.1⟩] := rfl
  refine ⟨sampleProgram_holdsText, stored, fun delivers => ?_⟩
  rw [single] at delivers
  have kept := delivers.inside _ (List.mem_singleton.mpr rfl) 2 (Nat.le_refl 2)
  dsimp only at kept
  rw [stored] at kept
  exact absurd kept (by decide)

end Sample

end OrcaOS
