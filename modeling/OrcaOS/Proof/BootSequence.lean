import OrcaOS.Proof.SessionRefinement

/-!
The boot sequence leaves three base shells, the third of which is the current process.
-/

namespace OrcaOS
open Foundation Kernel

/-- The state in which the system starts to serve its users. -/
structure Booted (k : Kernel) : Prop where
  processNumber : k.processNumber = 3
  currentPcb : k.currentPcb = pcbAddress 2
  recoverNum : k.recoverNum = 0
  numbers : ∀ number < 3, readField k.memory (pcbAddress number) .processNum = number
  parents : ∀ number < 3, readField k.memory (pcbAddress number) .parentTerminal = number
  tables : ∀ terminal < 3, ∀ index < 4, activeProcesses k.memory (pcbAddress terminal) index = 0
  program : upperAddress (k.pageTables.pageDirectory 32) = BitVec.ofNat 10 4
  esp0 : k.esp0 = stackTop 2
  video : flagOf (k.pageTables.pageDirectory 33) .present = false

/-- A booted kernel represents the session without programs. -/
theorem Booted.represents {k : Kernel} (booted : Booted k) : Represents k .initial where
  room := by decide
  processNumber := booted.processNumber
  currentPcb := booted.currentPcb
  numbers := booted.numbers
  parents index inside := absurd inside (Nat.not_lt_zero index)
  tables terminal := {
    room := by simp [Session.initial]
    used := fun index inside => absurd inside (Nat.not_lt_zero index)
    rest := fun index _ small => booted.tables terminal terminal.isLt index small
    proper := fun value member => absurd member List.not_mem_nil }
  recoverNum := by
    rw [booted.recoverNum]
    decide
  program := booted.program
  esp0 := booted.esp0

/-- The first base shells have been started, each on its own terminal. -/
structure Shells (count : Nat) (k : Kernel) : Prop where
  numbers : ∀ number < count, readField k.memory (pcbAddress number) .processNum = number
  parents : ∀ number < count, readField k.memory (pcbAddress number) .parentTerminal = number
  tables : ∀ terminal < 3, ∀ index < 4, activeProcesses k.memory (pcbAddress terminal) index = 0
  currentPcb : ∀ last, count = last + 1 → k.currentPcb = pcbAddress last
  program : ∀ last, count = last + 1 →
    upperAddress (k.pageTables.pageDirectory 32) = BitVec.ofNat 10 (2 + last)
  esp0 : ∀ last, count = last + 1 → k.esp0 = stackTop last

/-- The scheduler has seen some ticks, and at most one shell was started at each. -/
structure Ticked (count : Nat) (k : Kernel) : Prop where
  executeCounter : k.executeCounter = count
  terminalInitFlag : k.terminalInitFlag = 0
  terminalOnDisplay : count = 0 → k.console.terminalOnDisplay = 0
  processNumber : k.processNumber ≤ count
  recoverNum : k.recoverNum = 0
  video : flagOf (k.pageTables.pageDirectory 33) .present = false
  shells : k.processNumber = count → Shells count k

theorem entry_ticked (machine : Machine) (zero : ∀ terminal < 3, ∀ index < 4,
    activeProcesses machine.memory (pcbAddress terminal) index = 0) : Ticked 0 (entry machine) where
  executeCounter := rfl
  terminalInitFlag := rfl
  terminalOnDisplay _ := rfl
  processNumber := Nat.le_refl 0
  recoverNum := rfl
  video := by
    change flagOf (setFlag 0 .rw true) .present = false
    decide
  shells _ := {
    numbers := fun number small => absurd small (Nat.not_lt_zero number)
    parents := fun number small => absurd small (Nat.not_lt_zero number)
    tables := zero
    currentPcb := fun _ impossible => by cases impossible
    program := fun _ impossible => by cases impossible
    esp0 := fun _ impossible => by cases impossible }

/-- The blocks of the first shells have their own number and terminal. -/
structure BaseShells (count : Nat) (memory : Memory) : Prop where
  numbers : ∀ number < count, readField memory (pcbAddress number) .processNum = number
  parents : ∀ number < count, readField memory (pcbAddress number) .parentTerminal = number

namespace BaseShells
variable {count : Nat} {k : Kernel} {memory : Memory}

/-- A claimed slot above the shells keeps their blocks. -/
theorem kept (shells : BaseShells count k.memory) (claimed : SlotClaimed k memory)
    (above : count ≤ k.processNumber) (few : count ≤ 1024) : BaseShells count memory where
  numbers number small := by
    rw [claimed.others number (by omega) (by omega) .processNum trivial (by simp)]
    exact shells.numbers number small
  parents number small := by
    rw [claimed.others number (by omega) (by omega) .parentTerminal trivial (by simp)]
    exact shells.parents number small

/-- The slot of the next shell is claimed on the terminal of the same number. -/
theorem claimed (shells : BaseShells count k.memory) (claimed : SlotClaimed k memory)
    (number : k.processNumber = count) (shown : k.console.terminalOnDisplay.val = count) (few : count < 1024) :
    BaseShells (count + 1) memory := by
  have earlier := shells.kept claimed (by omega) (by omega)
  constructor
  · intro other less
    obtain small | rfl := Nat.lt_succ_iff_lt_or_eq.mp less
    · exact earlier.numbers other small
    · rw [← number]
      exact claimed.processNum
  · intro other less
    obtain small | rfl := Nat.lt_succ_iff_lt_or_eq.mp less
    · exact earlier.parents other small
    · rw [← number, claimed.parentTerminal, shown, number]

end BaseShells

/-- A shell that starts below three does not enter a table. -/
theorem Shells.entered {count : Nat} {k after : Kernel} (shells : Shells count k)
    (small : count < 3) (number : k.processNumber = count)
    (shown : k.console.terminalOnDisplay.val = count) {processName text : List UInt8}
    (effect : Entered processName text k after) (fits : text.length ≤ 7900) :
    Shells (count + 1) after := by
  have claimed := effect.slots fits
  have blocks : BaseShells count k.memory := ⟨shells.numbers, shells.parents⟩
  have next := blocks.claimed claimed number shown (by omega)
  constructor
  · exact next.numbers
  · exact next.parents
  · intro terminal inside index bound
    rw [claimed.tables terminal inside index bound, tableAfter, if_neg (by omega)]
    exact shells.tables terminal inside index bound
  · intro last equal
    rw [effect.currentPcb, number, Nat.succ.inj equal]
  · intro last equal
    rw [effect.pageTables, number, Nat.succ.inj equal]
    exact upperAddress_mapProgram _ _
  · intro last equal
    rw [effect.esp0, number, Nat.succ.inj equal]

/-- The tick prepares the terminal whose shell is started. -/
def tickPrepared (k : Kernel) : Kernel :=
  let k :=
    if 0 < k.executeCounter then
      { k.switchTerminal k.executeCounter with terminalCounter := k.terminalCounter + 1 }
    else k
  let k := { k with executeCounter := k.executeCounter + 1 }
  { k with console := k.console.clear.setPos 0 0 }

theorem scheduler_eq {k : Kernel} (flag : k.terminalInitFlag = 0) (few : k.executeCounter < 3)
    (literalTail : List UInt8) (locals : Locals) (registerEsp : Nat) :
    k.scheduler literalTail locals registerEsp =
      ((tickPrepared k).systemExecute (shellLiteral literalTail) locals registerEsp).map Prod.snd := by
  rw [scheduler, if_pos ⟨flag, few⟩]
  rfl

theorem tickPrepared_setting (k : Kernel) :
    (tickPrepared k).executeCounter = k.executeCounter + 1 ∧
      (tickPrepared k).terminalInitFlag = k.terminalInitFlag ∧
      (tickPrepared k).processNumber = k.processNumber ∧
      (tickPrepared k).recoverNum = k.recoverNum ∧
      (tickPrepared k).pageTables = k.pageTables ∧
      (tickPrepared k).memory = k.memory ∧ (tickPrepared k).currentPcb = k.currentPcb ∧
      (tickPrepared k).esp0 = k.esp0 := by
  unfold tickPrepared
  dsimp only
  split <;> exact ⟨rfl, rfl, rfl, rfl, rfl, rfl, rfl, rfl⟩

/-- The shell of a tick starts on the terminal of its number; the first tick takes what is displayed. -/
theorem tickPrepared_terminal {k : Kernel} (few : k.executeCounter < 3)
    (first : k.executeCounter = 0 → k.console.terminalOnDisplay = 0) :
    (tickPrepared k).console.terminalOnDisplay.val = k.executeCounter := by
  unfold tickPrepared
  dsimp only
  split
  · have inside : (0 : Int) ≤ k.executeCounter ∧ (k.executeCounter : Int) ≤ 2 := by omega
    change ((k.console.switchTerminal k.executeCounter).terminalOnDisplay).val = k.executeCounter
    rw [Console.switchTerminal, dif_pos inside]
    exact Int.toNat_natCast _
  · have zero : k.executeCounter = 0 := by omega
    change k.console.terminalOnDisplay.val = k.executeCounter
    rw [first zero, zero]
    rfl

/-- The preparation of a tick keeps the shells. -/
theorem Shells.tickPrepared {k : Kernel} {count : Nat} (shells : Shells count k) : Shells count (tickPrepared k) := by
  obtain ⟨_, _, _, _, tables, memory, position, esp0⟩ := tickPrepared_setting k
  constructor
  · rw [memory]
    exact shells.numbers
  · rw [memory]
    exact shells.parents
  · rw [memory]
    exact shells.tables
  · rw [position]
    exact shells.currentPcb
  · rw [tables]
    exact shells.program
  · rw [esp0]
    exact shells.esp0

/-- A tick counts itself, whatever becomes of its shell. -/
theorem Ticked.next {k after : Kernel} {count : Nat} (ticked : Ticked count k)
    (setting : SameSetting (tickPrepared k) after) (bound : after.processNumber ≤ count + 1)
    (video : flagOf (after.pageTables.pageDirectory 33) .present = false)
    (shells : after.processNumber = count + 1 → Shells (count + 1) after) : Ticked (count + 1) after where
  executeCounter := by
    rw [setting.executeCounter, (tickPrepared_setting k).1, ticked.executeCounter]
  terminalInitFlag := by
    rw [setting.terminalInitFlag, (tickPrepared_setting k).2.1, ticked.terminalInitFlag]
  terminalOnDisplay impossible := by cases impossible
  processNumber := bound
  recoverNum := by
    rw [setting.recoverNum, (tickPrepared_setting k).2.2.2.1, ticked.recoverNum]
  video := video
  shells := shells

/-- A shell that starts in a tick owns the next slot and the terminal of its number. -/
theorem Ticked.entered {k after : Kernel} {count : Nat} (ticked : Ticked count k) (small : count < 3)
    {processName text : List UInt8} (effect : Entered processName text (tickPrepared k) after)
    (fits : text.length ≤ 7900) : Ticked (count + 1) after := by
  obtain ⟨_, _, number, recover, tables, _⟩ := tickPrepared_setting k
  have bound := ticked.processNumber
  have few : k.executeCounter < 3 := by
    rw [ticked.executeCounter]
    exact small
  have shown := tickPrepared_terminal few fun zero =>
    ticked.terminalOnDisplay (ticked.executeCounter.symm.trans zero)
  rw [ticked.executeCounter] at shown
  have next : after.processNumber = k.processNumber + 1 := by
    rw [effect.processNumber, number, recover, ticked.recoverNum]
    exact Nat.max_eq_left (Nat.zero_le _)
  refine ticked.next effect.toSameSetting (by omega) ?_ fun all => ?_
  · rw [effect.pageTables, tables]
    exact (congrArg (flagOf · .present) (mapProgram_pageDirectory_of_ne _ _ (by decide))).trans ticked.video
  · have earlier := ticked.shells (by omega)
    exact earlier.tickPrepared.entered small (by omega) shown effect fits

/-- One of the first three ticks starts at most one shell. -/
theorem scheduler_ticked {k after : Kernel} {count : Nat} (ticked : Ticked count k) (small : count < 3)
    {literalTail : List UInt8} {locals : Locals} {registerEsp : Nat}
    (fit : ArgumentsFit (shellLiteral literalTail))
    (tick : k.scheduler literalTail locals registerEsp = some after) : Ticked (count + 1) after := by
  have few : k.executeCounter < 3 := by
    rw [ticked.executeCounter]
    exact small
  rw [scheduler_eq ticked.terminalInitFlag few] at tick
  obtain ⟨⟨result, final⟩, returned, rfl⟩ := Option.map_eq_some_iff.mp tick
  change Ticked (count + 1) final
  have setting := systemExecute_setting returned
  obtain ⟨_, _, number, _, tables, _⟩ := tickPrepared_setting k
  have bound := ticked.processNumber
  cases systemExecute_outcome returned with
  | early => exact ticked.next setting (by omega) (by rw [tables]; exact ticked.video) fun all => by omega
  | rejected _ _ effect =>
      have same : final.processNumber = k.processNumber := effect.processNumber.trans number
      refine ticked.next setting (by omega) ?_ fun all => by omega
      rw [effect.pageTables, tables]
      exact ticked.video
  | unsaved reached copied effect => exact ticked.entered small effect (reached.fits copied fit)
  | started reached copied _ effect => exact ticked.entered small effect.toEntered (reached.fits copied fit)

/-- If all three shells start, the boot sequence ends in a booted kernel. -/
theorem boot_booted {machine : Machine} {k : Kernel} {literalTail : List UInt8} {locals : Locals}
    {registerEsp : Nat}
    (zero : ∀ terminal < 3, ∀ index < 4, activeProcesses machine.memory (pcbAddress terminal) index = 0)
    (fit : ArgumentsFit (shellLiteral literalTail))
    (boots : boot machine literalTail locals registerEsp = some k)
    (launched : k.processNumber = 3) : Booted k := by
  change List.foldlM _ (entry machine) [0, 1, 2, 3] = some k at boots
  obtain ⟨first, one, boots⟩ := Option.bind_eq_some_iff.mp boots
  obtain ⟨second, two, boots⟩ := Option.bind_eq_some_iff.mp boots
  obtain ⟨third, three, boots⟩ := Option.bind_eq_some_iff.mp boots
  obtain ⟨fourth, four, final⟩ := Option.bind_eq_some_iff.mp boots
  obtain rfl := Option.some.inj final
  have ticked := scheduler_ticked (scheduler_ticked (scheduler_ticked (entry_ticked machine zero)
    (by decide) fit one) (by decide) fit two) (by decide) fit three
  -- The fourth tick only changes the terminal on display.
  have last : fourth = { third.switchTerminal 0 with executeCounter := 4 } := by
    change third.scheduler literalTail locals registerEsp = some fourth at four
    rw [scheduler, ticked.executeCounter, if_neg (by simp), if_pos (by decide)] at four
    exact (Option.some.inj four).symm
  subst last
  have shells := ticked.shells launched
  exact {
    processNumber := launched
    currentPcb := shells.currentPcb 2 rfl
    recoverNum := ticked.recoverNum
    numbers := shells.numbers
    parents := shells.parents
    tables := shells.tables
    program := shells.program 2 rfl
    esp0 := shells.esp0 2 rfl
    video := ticked.video }

/-- A boot sequence that starts the first shell gives a booted kernel. -/
theorem booted_getD {machine : Machine} {literalTail : List UInt8} {locals : Locals} {registerEsp : Nat}
    (zero : ∀ terminal < 3, ∀ index < 4, activeProcesses machine.memory (pcbAddress terminal) index = 0)
    (fit : ArgumentsFit (shellLiteral literalTail))
    (launched : ((boot machine literalTail locals registerEsp).any fun k => k.processNumber = 3) = true) :
    Booted ((boot machine literalTail locals registerEsp).getD (entry machine)) := by
  obtain ⟨k, boots, number⟩ := (Option.any_eq_true _ _).mp launched
  rw [boots, Option.getD_some]
  exact boot_booted zero fit boots (of_decide_eq_true number)

section Sample

/-- The functions of the sample kernel lie sixteen bytes apart. -/
def sampleSymbols : Symbols where
  address operation := 0x400000 + 16 * operation.ctorIdx
  injective first second equal := by
    have index : first.ctorIdx = second.ctorIdx := by
      simp only at equal
      omega
    cases first <;> cases second <;> first
      | rfl
      | exact absurd index (by decide)
  positive _ := by omega
  fits operation := by cases operation <;> decide

/-- The bytes of one word of the sample image. -/
def sampleWord (word : Nat) : List UInt8 :=
  [UInt8.ofNat word, UInt8.ofNat (word / 256), UInt8.ofNat (word / 65536), UInt8.ofNat (word / 16777216)]

/-- The sample image holds an executable of 40 bytes with the name "shell" and the device "rtc". -/
def sampleImage : Memory :=
  let boot := Memory.storeBytes (fun _ => 0) 0x420000 (sampleWord 2 ++ sampleWord 1 ++ sampleWord 1)
  let shell := boot.storeBytes 0x420040
    ([115, 104, 101, 108, 108] ++ List.replicate 27 0 ++ sampleWord 2 ++ sampleWord 0)
  let rtc := shell.storeBytes 0x420080
    ([114, 116, 99] ++ List.replicate 29 0 ++ sampleWord 0 ++ sampleWord 0)
  let inode := rtc.storeBytes 0x421000 (sampleWord 40 ++ sampleWord 0)
  inode.storeBytes 0x422000
    ([0x7f, 0x45, 0x4c, 0x46] ++ List.replicate 20 0 ++ sampleWord 0x080482e8 ++ List.replicate 12 0)

def sampleMachine : Machine where
  symbols := sampleSymbols
  frames := ⟨0x500, 0x501, by decide⟩
  memory := fun _ => 0
  image := sampleImage
  fsStart := 0x420000
  video := fun _ => 0
  registerA := 0x26
  registerB := 0x02

/-- The third base shell calls `sys_execute` with its stack in the third slot. -/
def sampleLocals : Locals where
  low := 0x7fbf68
  high := 0x7fc000
  bufferAddress := 0x7fbf68
  tempBuffer := fun _ => 0
  aboveBlock := by decide
  insideSlot := by decide
  bufferInside := by decide

/-- The sample machine after its boot sequence. -/
def sampleKernel : Kernel := (boot sampleMachine [0] sampleLocals 0x7fff00).getD (entry sampleMachine)

theorem sampleKernel_booted : Booted sampleKernel :=
  booted_getD (fun _ _ _ _ => rfl) (by decide) (by decide +kernel)

/-- The sample shell with the given number of argument characters. -/
def sampleCommand (count : Nat) : Command :=
  some ([115, 104, 101, 108, 108, 32] ++ List.replicate count 65 ++ [0])

theorem firstWord_sampleCommand (count : Nat) :
    firstWord ([115, 104, 101, 108, 108, 32] ++ List.replicate count 65 ++ [0]) (maxCommandLen - 1) =
      some ([115, 104, 101, 108, 108], 32 :: (List.replicate count 65 ++ [0])) := by
  simp [firstWord, maxCommandLen]

theorem copiedText_sampleCommand (count : Nat) :
    copiedText (List.replicate count 65 ++ [0]) = some (List.replicate count 65) := by
  have skipped : (List.replicate count (65 : UInt8) ++ [0]).dropWhile (· = 32) = List.replicate count 65 ++ [0] := by
    cases count <;> rfl
  unfold copiedText
  dsimp only
  rw [skipped, if_pos (by simp), List.takeWhile_append_of_pos (by simp)]
  simp

theorem reached_sampleCommand {k : Kernel} (valid : k.processNumber < 6) (count : Nat) :
    Reached k (sampleCommand count) [115, 104, 101, 108, 108] (32 :: (List.replicate count 65 ++ [0])) :=
  ⟨valid, _, _, rfl, by decide, firstWord_sampleCommand count⟩

/-- The sample command passes its argument characters. -/
theorem sysExecute_sampleCommand (k : Kernel) (valid : k.processNumber < 6) (count : Nat) (locals : Locals) :
    k.sysExecute (sampleCommand count) locals =
      if (k.prepare [115, 104, 101, 108, 108] locals.tempBuffer).isExecutable then
        launch (k.prepare [115, 104, 101, 108, 108] locals.tempBuffer) locals (List.replicate count 65)
      else some (-1, abandon (k.prepare [115, 104, 101, 108, 108] locals.tempBuffer)) := by
  rw [(reached_sampleCommand valid count).sysExecute_eq, List.tail_cons, copiedText_sampleCommand, Option.bind_some]

/-- The name of a file that the sample image does not hold. -/
def missingCommand : Command := some [120, 0, 0]

end Sample

end OrcaOS
