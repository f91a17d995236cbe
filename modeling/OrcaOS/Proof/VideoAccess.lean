import OrcaOS.Proof.AddressSpace
import OrcaOS.Proof.BootSequence

/-!
The video page stays mapped for whichever process runs next.
-/

namespace OrcaOS
open Foundation Kernel

/-- User mode reaches the video memory at the address that `sys_vidmap` returns. -/
def VideoMapped (tables : PageTables) : Prop := tables.translate 0x8400000 = some ⟨0xB8000, true⟩

instance (tables : PageTables) : Decidable (VideoMapped tables) := inferInstanceAs (Decidable (_ = _))

/-- A kernel with the blocks of the processes that asked for the video page since they were executed. -/
structure Viewing where
  kernel : Kernel
  granted : List Nat

namespace Viewing

/-- An execute counts when it succeeds; a new process has asked for nothing. -/
def step (state : Viewing) : Event → Option Viewing
  | .execute command locals registerEsp =>
      (state.kernel.systemExecute command locals registerEsp).bind fun (result, after) =>
        if result = -1 then none
        else some ⟨after, state.granted.filter fun pcb => pcb ≠ after.currentPcb⟩
  | .halt literalTail locals registerEsp =>
      (state.kernel.systemHalt literalTail locals registerEsp).map fun after =>
        let others := state.granted.filter fun pcb => pcb ≠ state.kernel.currentPcb
        ⟨after, if state.kernel.haltsDirectly then others
          else others.filter fun pcb => pcb ≠ after.currentPcb⟩
  | .switchTerminal terminal => some ⟨state.kernel.switchTerminal terminal, state.granted⟩
  | .vidmap screenStart =>
      some ⟨(state.kernel.sysVidmap screenStart).2,
        if (state.kernel.sysVidmap screenStart).1 = -1 then state.granted
        else state.kernel.currentPcb :: state.granted⟩

end Viewing

/-- The video page is mapped only for a process that asked for it. -/
def VideoJustified (state : Viewing) : Prop :=
  VideoMapped state.kernel.pageTables → state.kernel.currentPcb ∈ state.granted

/-- No process executes or halts while the video page is mapped. -/
def Discreet (state : Viewing) : Event → Prop
  | .execute _ _ _ => ¬VideoMapped state.kernel.pageTables
  | .halt _ _ _ => ¬VideoMapped state.kernel.pageTables
  | _ => True

instance (state : Viewing) : (event : Event) → Decidable (Discreet state event)
  | .execute _ _ _ => inferInstanceAs (Decidable (¬_))
  | .halt _ _ _ => inferInstanceAs (Decidable (¬_))
  | .switchTerminal _ => .isTrue trivial
  | .vidmap _ => .isTrue trivial

/-- Mapping a program does not change addresses outside its page. -/
theorem translate_mapProgram (tables : PageTables) (processNum : Nat) {virtual : BitVec 32}
    (outside : virtual.toNat / 0x400000 ≠ 32) :
    (mapProgram tables processNum).translate virtual = tables.translate virtual := by
  unfold PageTables.translate
  rw [mapProgram_pageDirectory_of_ne tables processNum outside]
  rfl

theorem videoMapped_mapProgram (tables : PageTables) (processNum : Nat) :
    VideoMapped (mapProgram tables processNum) ↔ VideoMapped tables := by
  unfold VideoMapped
  rw [translate_mapProgram tables processNum (by decide)]

/-- The booted kernel maps no video page. -/
theorem Booted.video_unmapped {k : Kernel} (booted : Booted k) : ¬VideoMapped k.pageTables := by
  have absent : k.pageTables.translate 0x8400000 = none := by
    unfold PageTables.translate
    exact if_neg (by
      change ¬flagOf (k.pageTables.pageDirectory 33) .present = true
      rw [booted.video]
      decide)
  intro mapped
  rw [VideoMapped, absent] at mapped
  cases mapped

/-- A halt maps a program or nothing. -/
theorem sysHalt_videoMapped {k after : Kernel} {result : Int} (halted : k.sysHalt = some (result, after)) :
    VideoMapped after.pageTables ↔ VideoMapped k.pageTables := by
  unfold sysHalt at halted
  split at halted
  · obtain ⟨_, rfl⟩ := Prod.mk.inj (Option.some.inj halted)
    exact Iff.rfl
  · obtain ⟨closed, closing, same⟩ := Option.map_eq_some_iff.mp halted
    obtain ⟨_, rfl⟩ := Prod.mk.inj same
    have changes := closeDescriptors_changesOnly closing
    rw [← changes.pageTables]
    have kept : (closed.leaveTerminal (pcbAddress (closed.current .parentTerminal))).pageTables =
        closed.pageTables := by
      unfold leaveTerminal
      split <;> rfl
    rw [← kept]
    exact videoMapped_mapProgram _ _

/-- `sys_vidmap` refuses the address or keeps the running process. -/
theorem sysVidmap_effect (k : Kernel) (screenStart : Nat) :
    k.sysVidmap screenStart = (-1, k) ∨
      (k.sysVidmap screenStart).1 ≠ -1 ∧ (k.sysVidmap screenStart).2.currentPcb = k.currentPcb := by
  unfold sysVidmap
  split
  · exact .inl rfl
  · refine .inr ⟨?_, rfl⟩
    change (vidmapAddress : Int) ≠ -1
    decide

namespace Viewing
variable {state after : Viewing}

/-- Only `sys_vidmap` maps the video page, and it does so for the process that calls it. -/
theorem step_justified (justified : VideoJustified state) {event : Event} (discreet : Discreet state event)
    (taken : state.step event = some after) : VideoJustified after := by
  cases event with
  | execute command locals registerEsp =>
      obtain ⟨⟨result, k⟩, returned, taken⟩ := Option.bind_eq_some_iff.mp taken
      dsimp only at taken
      split at taken
      · cases taken
      · rename_i success
        obtain rfl := Option.some.inj taken
        obtain ⟨_, _, _, _, _, effect⟩ := systemExecute_started returned success
        intro mapped
        rw [effect.pageTables] at mapped
        exact absurd ((videoMapped_mapProgram _ _).mp mapped) discreet
  | halt literalTail locals registerEsp =>
      obtain ⟨k, returned, rfl⟩ := Option.map_eq_some_iff.mp taken
      intro mapped
      refine absurd ?_ discreet
      cases systemHalt_outcome returned with
      | halted _ halts => exact (sysHalt_videoMapped halts).mp mapped
      | restarted _ _ _ effect =>
          change VideoMapped k.pageTables at mapped
          rw [effect.pageTables] at mapped
          exact (videoMapped_mapProgram _ _).mp mapped
  | switchTerminal terminal =>
      obtain rfl := Option.some.inj taken
      exact justified
  | vidmap screenStart =>
      obtain rfl := Option.some.inj taken
      rcases sysVidmap_effect state.kernel screenStart with refused | ⟨success, same⟩
      · rw [refused, if_pos rfl]
        exact justified
      · rw [if_neg success]
        intro _
        rw [same]
        exact List.mem_cons_self

end Viewing

/-- The video page is justified in every run in which nobody executes or halts while it is mapped. -/
theorem video_access_justified {start : Kernel} (booted : Booted start) {events : List Event}
    {state : Viewing} (run : Run Viewing.step Discreet ⟨start, []⟩ events state) : VideoJustified state := by
  refine run.invariant VideoJustified (fun mapped => absurd mapped booted.video_unmapped) ?_
  exact fun before event after justified discreet taken => before.step_justified justified discreet taken

/-- A program that halts, and a shell that asks for the video page afterwards. -/
theorem video_access_justified_sample : ∃ state, VideoJustified state ∧
    VideoMapped state.kernel.pageTables := by
  let events : List Event := [.execute (shellLiteral [0]) sampleLocals 0x7fff00,
    .halt [0] sampleLocals 0x7fff00, .vidmap 0x8048000]
  have executes : ((execute Viewing.step (fun state event => decide (Discreet state event))
      ⟨sampleKernel, []⟩ events).any fun state => decide (VideoMapped state.kernel.pageTables)) = true := by
    decide +kernel
  obtain ⟨state, executed, mapped⟩ := (Option.any_eq_true _ _).mp executes
  have run := run_of_execute (fun _ _ => of_decide_eq_true) executed
  exact ⟨state, video_access_justified sampleKernel_booted run, of_decide_eq_true mapped⟩

/-- The shell finds the video page that a halted program asked for. -/
theorem video_access_outlives : Booted sampleKernel ∧ ∃ events state,
    Run Viewing.step (fun _ _ => True) ⟨sampleKernel, []⟩ events state ∧ ¬VideoJustified state := by
  let events : List Event := [.execute (shellLiteral [0]) sampleLocals 0x7fff00, .vidmap 0x8048000,
    .halt [0] sampleLocals 0x7fff00]
  have outlives : ((execute Viewing.step (fun _ _ => true) ⟨sampleKernel, []⟩ events).any fun state =>
      decide (VideoMapped state.kernel.pageTables ∧ state.kernel.currentPcb ∉ state.granted)) = true := by
    decide +kernel
  obtain ⟨state, executed, outlives⟩ := (Option.any_eq_true _ _).mp outlives
  obtain ⟨mapped, foreign⟩ := of_decide_eq_true outlives
  exact ⟨sampleKernel_booted, events, state, run_of_execute (fun _ _ _ => trivial) executed,
    fun justified => foreign (justified mapped)⟩

end OrcaOS
