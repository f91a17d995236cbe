import OrcaOS.Construction.Screen

/-!
The virtualized real-time clock of `rtc.c`.
-/

namespace OrcaOS
open Foundation

/-- The two programmed registers of the clock and the variables of its driver. -/
structure Rtc where
  registerA : UInt8
  registerB : UInt8
  interruptFlag : Bool
  virtualizationCounter : Nat
  frequencyDivisionRate : Fin 3 → Int

namespace Rtc

def rtcInit (rtc : Rtc) : Rtc where
  registerA := rtc.registerA &&& 0xF0 ||| 0x0F
  registerB := rtc.registerB ||| 0x40
  interruptFlag := false
  virtualizationCounter := 0
  frequencyDivisionRate := fun _ => 512

/-- The interrupt counter runs from 0 to 1023. -/
def tickedCounter (rtc : Rtc) : Nat := (rtc.virtualizationCounter + 1) % 1024

/-- The condition under which the handler ends the wait of `rtc_read`. -/
def wakesUp (rtc : Rtc) (terminalOnDisplay : Fin 3) : Bool :=
  (rtc.tickedCounter : Int).tmod (rtc.frequencyDivisionRate terminalOnDisplay) = 0

/-- The handler divides by the rate of the terminal on display; the result is `none` if it is zero. -/
def rtcHandler (rtc : Rtc) (terminalOnDisplay : Fin 3) : Option Rtc :=
  if rtc.frequencyDivisionRate terminalOnDisplay = 0 then none
  else some { rtc with
    virtualizationCounter := rtc.tickedCounter
    interruptFlag := rtc.interruptFlag || rtc.wakesUp terminalOnDisplay }

/-- The loop counts the shifts that clear the word. -/
def countShifts : Nat → Nat → Int
  | 0, _ => 0
  | fuel + 1, temp => if temp = 0 then 0 else countShifts fuel (temp / 2) + 1

def rtcSetFreq (rtc : Rtc) (freq : BitVec 32) : Int × Rtc :=
  let temp := (freq.sshiftRight 1).toNat
  let powerOfTwo := decide (freq ≠ 0 ∧ freq &&& (freq - 1) = 0)
  if (!powerOfTwo) || decide (1024 < freq.toInt) then (-1, rtc)
  else
    let i := countShifts 32 temp
    let rate := 0x0F - (i - 1)
    (0, { rtc with registerA := rtc.registerA &&& 0xF0 ||| UInt8.ofNat (wrap32 rate) })

def rtcOpen (rtc : Rtc) : Int × Rtc := (0, (rtc.rtcInit.rtcSetFreq 1024).2)

def rtcClose (rtc : Rtc) : Int × Rtc := (0, (rtc.rtcSetFreq 1024).2)

def rtcSetVirtualizedFreq (rtc : Rtc) (terminalOnDisplay : Fin 3) (freq : Int) : Int × Rtc :=
  if freq ∈ [512, 256, 128, 64, 32, 16, 8, 4, 2] then
    (0, { rtc with
      frequencyDivisionRate :=
        Function.update rtc.frequencyDivisionRate terminalOnDisplay ((1024 : Int).tdiv freq) })
  else (-1, rtc)

/-- The frequency is the first word of the buffer. -/
def rtcWrite (rtc : Rtc) (terminalOnDisplay : Fin 3) (buf : Option Buffer) : Int × Rtc :=
  match buf with
  | none => (-1, rtc)
  | some buf => rtc.rtcSetVirtualizedFreq terminalOnDisplay (signed32 (Memory.load32 buf 0))

/-- The wait ends when an interrupt sets the flag; `waited` is the clock at that point. -/
def rtcRead (waited : Rtc) : Int × Rtc := (0, waited)

end Rtc

/-- The clock, and the console that says which terminal it serves. -/
structure Clock where
  console : Console
  rtc : Rtc

inductive ClockEvent where
  | rtcInit
  | rtcOpen
  | rtcClose
  | rtcWrite (buf : Option Buffer)
  | rtcHandler
  | switchTerminal (terminal : Int)

/-- The step fails only where the handler divides by zero. -/
def Clock.step (clock : Clock) : ClockEvent → Option Clock
  | .rtcInit => some { clock with rtc := clock.rtc.rtcInit }
  | .rtcOpen => some { clock with rtc := clock.rtc.rtcOpen.2 }
  | .rtcClose => some { clock with rtc := clock.rtc.rtcClose.2 }
  | .rtcWrite buf =>
      some { clock with rtc := (clock.rtc.rtcWrite clock.console.terminalOnDisplay buf).2 }
  | .rtcHandler =>
      (clock.rtc.rtcHandler clock.console.terminalOnDisplay).map fun rtc => { clock with rtc }
  | .switchTerminal terminal =>
      some { clock with console := clock.console.switchTerminal terminal }

end OrcaOS
