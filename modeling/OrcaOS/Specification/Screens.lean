import OrcaOS.Construction.Screen
import OrcaOS.Foundation.Bank

/-!
Three independent screens: each terminal has a text page and a cursor of its own, and only the ones
on display change.
-/

namespace OrcaOS
open Foundation

/-- A 4 KB text page with its cursor. -/
structure Screen where
  page : Fin 4096 → UInt8
  x : Int
  y : Int

/-- The three screens and the terminal on display. -/
abbrev Screens := Members (Fin 3) Screen

/-- This function reads a page of the video memory. -/
def pageAt (video : Memory) (start : Nat) : Fin 4096 → UInt8 := fun index => video (start + index)

/-- The page behind a terminal. -/
def backingPage (terminal : Fin 3) : Nat := videoMemory + (terminal.val + 1) * 0x1000

namespace Console

def liveScreen (c : Console) : Screen := ⟨pageAt c.video videoMemory, c.screenX, c.screenY⟩

def savedScreen (c : Console) (terminal : Fin 3) : Screen :=
  ⟨pageAt c.video (backingPage terminal), c.savedX terminal, c.savedY terminal⟩

/-- The live page and the cursor are a bank of the three screens. -/
def bank (c : Console) : Bank (Fin 3) Screen := ⟨c.terminalOnDisplay, c.liveScreen, c.savedScreen⟩

def screens (c : Console) : Screens := c.bank.members

end Console

theorem terminal_lt {terminal : Int} (inside : 0 ≤ terminal ∧ terminal ≤ 2) : terminal.toNat < 3 := by
  omega

/-- The terminals are numbered from 0 to 2. -/
def terminalOf (terminal : Int) : Option (Fin 3) :=
  if inside : 0 ≤ terminal ∧ terminal ≤ 2 then some ⟨terminal.toNat, terminal_lt inside⟩ else none

theorem firstTerminal_lt : 0 < 3 := Nat.zero_lt_succ 2

def firstTerminal : Fin 3 := ⟨0, firstTerminal_lt⟩

/-- An event switches the terminal or changes the live page and the cursor. -/
inductive ScreenEvent where
  | switchTerminal (terminal : Int)
  | draw (screen : Screen)

/-- A switch to a terminal that does not exist is no event of the screens. -/
def ScreenEvent.bankEvent : ScreenEvent → Option (Bank.Event (Fin 3) Screen)
  | .switchTerminal terminal => (terminalOf terminal).map .select
  | .draw screen => some (.write screen)

/-- This function stores a live page and a cursor. -/
def Console.draw (c : Console) (screen : Screen) : Console :=
  { c with
    video := c.video.overlay videoMemory 4096 fun index => screen.page (Fin.ofNat 4096 index)
    screenX := screen.x, screenY := screen.y }

def Console.screenStep (c : Console) : ScreenEvent → Console
  | .switchTerminal terminal => c.switchTerminal terminal
  | .draw screen => c.draw screen

/-- The events start from initialized cursors with the first terminal on display. -/
def Console.screensAfter (c : Console) (events : List ScreenEvent) : Console :=
  events.foldl Console.screenStep { c.cursorInit with terminalOnDisplay := firstTerminal }

/-- A terminal that was never on display has its backing page and a zero cursor. -/
def Console.initialScreens (c : Console) : Screens where
  shown := firstTerminal
  value terminal :=
    if terminal = firstTerminal then c.liveScreen else ⟨pageAt c.video (backingPage terminal), 0, 0⟩

/-- A switch loads the screen of the new terminal, saves the one of the old terminal and keeps the
saved screens of the others. -/
structure SwitchesTo (terminal : Fin 3) (before after : Console) : Prop where
  shown : after.terminalOnDisplay = terminal
  live : after.liveScreen = before.screens.value terminal
  left : after.savedScreen before.terminalOnDisplay = before.liveScreen
  others : ∀ other ≠ before.terminalOnDisplay, after.savedScreen other = before.savedScreen other

end OrcaOS
