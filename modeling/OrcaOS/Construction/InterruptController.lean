import Mathlib

/-!
The two interrupt controllers and the end of an interrupt in `i8259.c`.
-/

namespace OrcaOS

/-- The in-service bits of a controller. -/
abbrev InService := Fin 8 → Bool

/-- The two controllers. -/
structure Controllers where
  master : InService
  slave : InService

def master8259Port : Nat := 0x20
def slave8259Port : Nat := 0xA0

/-- The end-of-interrupt byte. -/
def eoi : Nat := 0x60

/-- The level of an interrupt at its controller. -/
def levelOf (irqNum : Nat) : Fin 8 := Fin.ofNat 8 irqNum

/-- The slave is connected to this level of the master. -/
def cascade : Fin 8 := 2

namespace Controllers

/-- A delivered interrupt is in service, and one of the slave also has the cascade level of the master in service. -/
def deliver (c : Controllers) (irqNum : Fin 16) : Controllers :=
  if irqNum.val < 8 then { c with master := Function.update c.master (levelOf irqNum) true }
  else { master := Function.update c.master cascade true, slave := Function.update c.slave (levelOf (irqNum - 8)) true }

section
variable (respond : UInt8 → InService → InService)

/-- The controller behind the port responds to the low byte of the data. -/
def outb (c : Controllers) (data port : Nat) : Controllers :=
  if port = master8259Port then { c with master := respond (UInt8.ofNat data) c.master }
  else if port = slave8259Port then { c with slave := respond (UInt8.ofNat data) c.slave }
  else c

def sendEoi (c : Controllers) (irqNum : Nat) : Controllers :=
  let (irqNum, c) :=
    if 8 ≤ irqNum then
      let irqNum := irqNum - 8
      (irqNum, outb respond (outb respond c (eoi ||| irqNum) slave8259Port) (eoi ||| 0x2) master8259Port)
    else (irqNum, c)
  outb respond c (eoi ||| irqNum) master8259Port

end

end Controllers

/-- An interrupt is delivered, or a handler acknowledges one. -/
inductive ControllerEvent where
  | deliver (irqNum : Fin 16)
  | sendEoi (irqNum : Fin 16)
  deriving DecidableEq, Repr

def Controllers.step (respond : UInt8 → InService → InService) (c : Controllers) : ControllerEvent → Controllers
  | .deliver irqNum => c.deliver irqNum
  | .sendEoi irqNum => c.sendEoi respond irqNum

end OrcaOS
