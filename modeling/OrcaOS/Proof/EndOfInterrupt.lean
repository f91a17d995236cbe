import OrcaOS.Construction.InterruptController
import OrcaOS.Foundation.Run

/-!
Which in-service bits the end of an interrupt clears.
-/

namespace OrcaOS
open Foundation

/-- The documented response of the controllers: the end-of-interrupt byte with a level clears the bit of the level. -/
def ClearsLevel (respond : UInt8 → InService → InService) : Prop :=
  ∀ (level : Fin 8) (inService : InService),
    respond (UInt8.ofNat (eoi ||| level)) inService = Function.update inService level false

namespace Controllers

/-- Only the line of the interrupt is cleared, and for the slave also the cascade level of the master. -/
def acknowledge (c : Controllers) (irqNum : Fin 16) : Controllers :=
  if irqNum.val < 8 then { c with master := Function.update c.master (levelOf irqNum) false }
  else { master := Function.update c.master cascade false, slave := Function.update c.slave (levelOf (irqNum - 8)) false }

section
variable (respond : UInt8 → InService → InService)

/-- A handler acknowledges its own line and no other one. -/
def AcknowledgesOwn (c : Controllers) : ControllerEvent → Prop
  | .deliver _ => True
  | .sendEoi irqNum => c.sendEoi respond irqNum = c.acknowledge irqNum

/-- An interrupt of the slave is acknowledged while the line of the master with its level is in service. -/
def ClearsOther (c : Controllers) : ControllerEvent → Prop
  | .deliver _ => False
  | .sendEoi irqNum => 8 ≤ irqNum.val ∧ irqNum ≠ 10 ∧ c.master (levelOf (irqNum - 8)) = true

end

instance (c : Controllers) (event : ControllerEvent) : Decidable (c.ClearsOther event) :=
  match event with
  | .deliver _ => isFalse id
  | .sendEoi _ => inferInstanceAs (Decidable (_ ∧ _))

variable {respond : UInt8 → InService → InService} (clears : ClearsLevel respond)
include clears

theorem outb_master (c : Controllers) (level : Fin 8) :
    outb respond c (eoi ||| level) master8259Port = { c with master := Function.update c.master level false } := by
  rw [outb, if_pos rfl, clears]

theorem outb_slave (c : Controllers) (level : Fin 8) :
    outb respond c (eoi ||| level) slave8259Port = { c with slave := Function.update c.slave level false } := by
  rw [outb, if_neg (by decide), if_pos rfl, clears]

/-- An interrupt of the slave clears two lines of the master. -/
theorem sendEoi_slave (c : Controllers) (level : Fin 8) : c.sendEoi respond (8 + level) = {
    master := Function.update (Function.update c.master cascade false) level false
    slave := Function.update c.slave level false } := by
  have own : 8 + level.val - 8 = level := by omega
  rw [sendEoi, if_pos (by omega)]
  dsimp only
  rw [own, outb_slave clears]
  exact (congrArg (fun c => outb respond c (eoi ||| level) master8259Port) (outb_master clears _ cascade)).trans
    (outb_master clears _ level)

theorem sendEoi_master (c : Controllers) (level : Fin 8) : c.sendEoi respond level =
    { c with master := Function.update c.master level false } := by
  rw [sendEoi, if_neg (by omega)]
  exact outb_master clears c level

/-- A handler goes wrong exactly when it clears another line that is in service. -/
theorem acknowledgesOwn_iff (c : Controllers) (event : ControllerEvent) :
    c.AcknowledgesOwn respond event ↔ ¬c.ClearsOther event := by
  cases event with
  | deliver irqNum => exact iff_of_true trivial id
  | sendEoi irqNum =>
      unfold AcknowledgesOwn ClearsOther acknowledge
      dsimp only
      by_cases own : irqNum.val < 8
      · have level : irqNum.val = levelOf irqNum := (Nat.mod_eq_of_lt own).symm
        rw [if_pos own]
        refine iff_of_true ?_ fun other => absurd other.1 (Nat.not_le.mpr own)
        conv_lhs => rw [level]
        exact sendEoi_master clears c _
      · obtain ⟨level, same⟩ : ∃ level : Fin 8, irqNum.val = 8 + level :=
          ⟨⟨irqNum - 8, by omega⟩, by dsimp only; omega⟩
        have found : levelOf (irqNum.val - 8) = level := by
          rw [same, Nat.add_sub_cancel_left]
          exact Fin.ofNat_val_eq_self level
        have cascadeLine : irqNum ≠ 10 ↔ level ≠ cascade := by
          rw [Ne, Ne, Fin.ext_iff, Fin.ext_iff, same]
          change ¬8 + level.val = 10 ↔ ¬level.val = 2
          omega
        rw [if_neg own, found, cascadeLine, same, sendEoi_slave clears]
        have masters : (Function.update (Function.update c.master cascade false) level false = Function.update c.master cascade false) ↔
            ¬(level ≠ cascade ∧ c.master level = true) := by
          rw [Function.update_eq_self_iff, Function.update_apply]
          split_ifs with two
          · exact iff_of_true rfl fun other => other.1 two
          · rw [eq_comm, and_iff_right two, Bool.not_eq_true]
        constructor
        · intro equal other
          exact masters.mp (congrArg Controllers.master equal) other.2
        · intro apart
          have kept := masters.mpr fun other => apart ⟨by omega, other⟩
          rw [kept]

end Controllers

/-- In every run each handler acknowledges its own line only, unless a slave interrupt meets the master line with its
level in service. -/
theorem end_of_interrupt_own_iff {respond : UInt8 → InService → InService} (clears : ClearsLevel respond)
    (start : Controllers) (events : List ControllerEvent) :
    Throughout (Controllers.step respond) (Controllers.AcknowledgesOwn respond) start events ↔
      Throughout (Controllers.step respond) (fun c event => ¬c.ClearsOther event) start events :=
  throughout_congr (fun _ => True) (fun c event _ _ => c.acknowledgesOwn_iff clears event) (fun _ _ _ _ _ => trivial)
    trivial throughout_true

section Sample

/-- This controller has no other command than the end of an interrupt with a level. -/
def specificEoi (command : UInt8) (inService : InService) : InService :=
  if command &&& 0xF8 = 0x60 then Function.update inService (levelOf command.toNat) false else inService

theorem specificEoi_clears : ClearsLevel specificEoi := by
  have decoded : ∀ level : Fin 8, UInt8.ofNat (eoi ||| level) &&& 0xF8 = 0x60 ∧
      levelOf (UInt8.ofNat (eoi ||| level)).toNat = level := by decide
  intro level inService
  rw [specificEoi, if_pos (decoded level).1, (decoded level).2]

def idleControllers : Controllers := ⟨fun _ => false, fun _ => false⟩

/-- The timer interrupts the handler of the clock and is acknowledged first. -/
theorem end_of_interrupt_own_nested : Throughout (Controllers.step specificEoi) (Controllers.AcknowledgesOwn specificEoi)
    idleControllers [.deliver 8, .deliver 0, .sendEoi 0, .sendEoi 8] :=
  (end_of_interrupt_own_iff specificEoi_clears idleControllers _).mpr (by decide)

/-- Line 4 of the master is in service when line 12 is acknowledged, and so is the timer when the clock is. Both are
cleared. -/
theorem end_of_interrupt_clears_other :
    (([.deliver 4, .deliver 12, .sendEoi 12] : List ControllerEvent).foldl (Controllers.step specificEoi)
      idleControllers).master 4 = false ∧
      ¬Throughout (Controllers.step specificEoi) (Controllers.AcknowledgesOwn specificEoi) idleControllers
        [.deliver 4, .deliver 12, .sendEoi 12] ∧
      ¬Throughout (Controllers.step specificEoi) (Controllers.AcknowledgesOwn specificEoi) idleControllers
        [.deliver 0, .deliver 8, .sendEoi 8] := by
  refine ⟨by decide, fun always => ?_, fun always => ?_⟩
  · have own := always [.deliver 4, .deliver 12] (.sendEoi 12) [] rfl
    exact absurd (congrFun (congrArg Controllers.master own) 4) (by decide)
  · have own := always [.deliver 0, .deliver 8] (.sendEoi 8) [] rfl
    exact absurd (congrFun (congrArg Controllers.master own) 0) (by decide)

end Sample

end OrcaOS
