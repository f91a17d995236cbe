import OrcaOS.Specification.Screens

/-!
Switching terminals refines three independent screens.
-/

namespace OrcaOS
open Foundation

section Pages
variable (video : Memory) (start : Nat)

/-- A stored page is read back. -/
theorem pageAt_overlay (content : Nat → UInt8) :
    pageAt (video.overlay start 4096 content) start =
      fun index : Fin 4096 => content index := by
  funext index
  exact Memory.overlay_inside video start 4096 content index.isLt

theorem pageAt_overlay_of_ne {other : Nat} (apart : other + 4096 ≤ start ∨ start + 4096 ≤ other)
    (content : Nat → UInt8) : pageAt (video.overlay start 4096 content) other = pageAt video other := by
  funext index
  have small := index.isLt
  exact Memory.overlay_outside video start 4096 content (by omega)

/-- The backing pages lie above the live page and do not overlap. -/
theorem backingPage_apart (terminal : Fin 3) : videoMemory + 4096 ≤ backingPage terminal := by
  unfold backingPage
  omega

theorem backingPage_disjoint {first second : Fin 3} (different : first ≠ second) :
    backingPage first + 4096 ≤ backingPage second ∨ backingPage second + 4096 ≤ backingPage first := by
  have unequal := Fin.val_ne_of_ne different
  unfold backingPage
  omega

end Pages

theorem terminalOf_val (terminal : Fin 3) : terminalOf terminal.val = some terminal := by
  have small := terminal.isLt
  rw [terminalOf, dif_pos ⟨by omega, by omega⟩]
  simp

namespace Console
variable (c : Console)

/-- A switch to a terminal that does not exist does nothing. -/
theorem switchTerminal_of_none {terminal : Int} (missing : terminalOf terminal = none) :
    c.switchTerminal terminal = c := by
  unfold terminalOf at missing
  split at missing
  · cases missing
  · rename_i outside
    rw [switchTerminal, dif_neg outside]

/-- The copy loops save the live page and then load the page of the next terminal. -/
theorem switchTerminal_eq {terminal : Int} {next : Fin 3} (inside : terminalOf terminal = some next) :
    ∃ saved : Memory,
      saved = c.video.overlay (backingPage c.terminalOnDisplay) 4096
        (fun index => c.video (videoMemory + index)) ∧
      (c.switchTerminal terminal).video = saved.overlay videoMemory 4096
        (fun index => saved (backingPage next + index)) ∧
      (c.switchTerminal terminal).savedX = Function.update c.savedX c.terminalOnDisplay c.screenX ∧
      (c.switchTerminal terminal).savedY = Function.update c.savedY c.terminalOnDisplay c.screenY ∧
      (c.switchTerminal terminal).screenX = (c.switchTerminal terminal).savedX next ∧
      (c.switchTerminal terminal).screenY = (c.switchTerminal terminal).savedY next ∧
      (c.switchTerminal terminal).terminalOnDisplay = next := by
  unfold terminalOf at inside
  split at inside
  · rename_i bounds
    obtain rfl := Option.some.inj inside
    rw [switchTerminal, dif_pos bounds]
    exact ⟨_, rfl, rfl, rfl, rfl, rfl, rfl, rfl⟩
  · cases inside

/-- After a switch the old terminal has saved the live screen, and the others have kept theirs. -/
theorem switchTerminal_savedScreen {terminal : Int} {next : Fin 3}
    (inside : terminalOf terminal = some next) : (c.switchTerminal terminal).savedScreen =
      Function.update c.savedScreen c.terminalOnDisplay c.liveScreen := by
  obtain ⟨saved, stored, video, savedX, savedY, -, -, -⟩ := c.switchTerminal_eq inside
  funext other
  have kept : pageAt (c.switchTerminal terminal).video (backingPage other) =
      pageAt saved (backingPage other) := by
    rw [video]
    exact pageAt_overlay_of_ne saved videoMemory (.inr (backingPage_apart other)) _
  rw [savedScreen, kept, savedX, savedY, stored]
  obtain rfl | different := eq_or_ne other c.terminalOnDisplay
  · rw [Function.update_self, Function.update_self, Function.update_self, pageAt_overlay]
    rfl
  · rw [Function.update_of_ne different, Function.update_of_ne different,
      Function.update_of_ne different, pageAt_overlay_of_ne _ _ (backingPage_disjoint different)]
    rfl

/-- The screen that a switch loads is the saved one, also if it was saved by the same switch. -/
theorem switchTerminal_liveScreen {terminal : Int} {next : Fin 3}
    (inside : terminalOf terminal = some next) :
    (c.switchTerminal terminal).liveScreen = (c.switchTerminal terminal).savedScreen next := by
  obtain ⟨saved, -, video, -, -, screenX, screenY, -⟩ := c.switchTerminal_eq inside
  rw [liveScreen, savedScreen, screenX, screenY, video, pageAt_overlay,
    pageAt_overlay_of_ne saved videoMemory (.inr (backingPage_apart next))]
  rfl

/-- A switch of the terminal selects a member of the bank. -/
theorem switchTerminal_bank {terminal : Int} {next : Fin 3} (inside : terminalOf terminal = some next) :
    (c.switchTerminal terminal).bank = c.bank.select next := by
  have shown : (c.switchTerminal terminal).terminalOnDisplay = next := by
    obtain ⟨_, -, -, -, -, -, -, shown⟩ := c.switchTerminal_eq inside
    exact shown
  rw [bank, c.switchTerminal_liveScreen inside, c.switchTerminal_savedScreen inside, shown]
  rfl

/-- Whatever is drawn on the live page leaves the saved screens alone. -/
theorem draw_bank (screen : Screen) : (c.draw screen).bank = c.bank.step (.write screen) := by
  have live : (c.draw screen).liveScreen = screen := by
    have page : pageAt (c.draw screen).video videoMemory = screen.page := by
      rw [draw, pageAt_overlay]
      funext index
      have same : Fin.ofNat 4096 index.val = index := by
        apply Fin.ext
        rw [Fin.val_ofNat, Nat.mod_eq_of_lt index.isLt]
      rw [same]
    rw [liveScreen, page]
    rfl
  have saved : (c.draw screen).savedScreen = c.savedScreen := by
    funext terminal
    have page : pageAt (c.draw screen).video (backingPage terminal) =
        pageAt c.video (backingPage terminal) := by
      rw [draw, pageAt_overlay_of_ne _ _ (.inr (backingPage_apart terminal))]
    rw [savedScreen, page]
    rfl
  rw [bank, live, saved]
  rfl

/-- A run of the console is a run of its bank. -/
theorem run_bank (events : List ScreenEvent) : (events.foldl screenStep c).bank =
    (events.filterMap ScreenEvent.bankEvent).foldl Bank.step c.bank := by
  induction events generalizing c with
  | nil => rfl
  | cons event rest ih =>
      rw [List.foldl_cons, ih]
      cases event with
      | switchTerminal terminal =>
          cases inside : terminalOf terminal with
          | none =>
              rw [screenStep, c.switchTerminal_of_none inside, List.filterMap_cons_none]
              rw [ScreenEvent.bankEvent, inside, Option.map_none]
          | some next =>
              have event : (ScreenEvent.switchTerminal terminal).bankEvent = some (.select next) := by
                rw [ScreenEvent.bankEvent, inside, Option.map_some]
              rw [screenStep, c.switchTerminal_bank inside, List.filterMap_cons_some event,
                List.foldl_cons]
              rfl
      | draw screen =>
          have event : (ScreenEvent.draw screen).bankEvent = some (.write screen) := rfl
          rw [screenStep, c.draw_bank, List.filterMap_cons_some event, List.foldl_cons]

theorem run_screens (events : List ScreenEvent) : (events.foldl screenStep c).screens =
    (events.filterMap ScreenEvent.bankEvent).foldl Members.step c.screens := by
  rw [screens, run_bank, Bank.run_members]
  rfl

theorem switchTerminal_switchesTo {terminal : Int} {next : Fin 3}
    (inside : terminalOf terminal = some next) : SwitchesTo next c (c.switchTerminal terminal) := by
  have selected := c.switchTerminal_bank inside
  constructor
  · exact congrArg Bank.shown selected
  · exact congrArg Bank.live selected
  · rw [c.switchTerminal_savedScreen inside, Function.update_self]
  · intro other different
    rw [c.switchTerminal_savedScreen inside, Function.update_of_ne different]

/-- The screen of a terminal waits for the next switch to it. -/
theorem switchTerminal_returns {later : List ScreenEvent} {terminal : Fin 3}
    (unwritten : Members.Unwritten terminal c.screens (later.filterMap ScreenEvent.bankEvent)) :
    ((later.foldl screenStep c).switchTerminal terminal.val).liveScreen = c.screens.value terminal := by
  have switches := (later.foldl screenStep c).switchTerminal_switchesTo (terminalOf_val terminal)
  rw [switches.live, c.run_screens, Members.run_unwritten unwritten]

theorem cursorInit_screens : ({ c.cursorInit with terminalOnDisplay := firstTerminal } : Console).screens =
    c.initialScreens := by
  refine congrArg (Members.mk firstTerminal) (funext fun terminal => ?_)
  rw [Function.update_apply]
  rfl

end Console

/-- The live page, the backing pages and the cursors behave as three independent screens. -/
theorem terminals_refine_screens (c : Console) (events : List ScreenEvent) :
    (c.screensAfter events).screens =
        (events.filterMap ScreenEvent.bankEvent).foldl Members.step c.initialScreens ∧
      (∀ terminal : Fin 3, SwitchesTo terminal (c.screensAfter events)
        ((c.screensAfter events).switchTerminal terminal.val)) ∧
      (∀ earlier later, events = earlier ++ later → ∀ terminal,
        Members.Unwritten terminal (c.screensAfter earlier).screens
          (later.filterMap ScreenEvent.bankEvent) →
        ((c.screensAfter events).switchTerminal terminal.val).liveScreen =
          if (c.screensAfter earlier).terminalOnDisplay = terminal then
            (c.screensAfter earlier).liveScreen
          else (c.screensAfter earlier).savedScreen terminal) ∧
      ((c.screensAfter events).switchTerminal (c.screensAfter events).terminalOnDisplay.val).liveScreen =
        (c.screensAfter events).liveScreen ∧
      ∀ terminal : Int, ¬(0 ≤ terminal ∧ terminal ≤ 2) →
        (c.screensAfter events).switchTerminal terminal = c.screensAfter events := by
  refine ⟨?_, ?_, ?_, ?_, ?_⟩
  · rw [Console.screensAfter, Console.run_screens, c.cursorInit_screens]
  · intro terminal
    exact Console.switchTerminal_switchesTo _ (terminalOf_val terminal)
  · intro earlier later split terminal unwritten
    rw [split, Console.screensAfter, List.foldl_append]
    refine (Console.switchTerminal_returns _ unwritten).trans ?_
    split_ifs with shown
    · rw [← shown]
      exact Bank.members_value_shown _
    · exact Bank.members_value_of_ne _ fun same => shown same.symm
  · have switches := (c.screensAfter events).switchTerminal_switchesTo
      (terminalOf_val (c.screensAfter events).terminalOnDisplay)
    exact switches.live.trans (Bank.members_value_shown _)
  · intro terminal outside
    exact Console.switchTerminal_of_none _ (dif_neg outside)

end OrcaOS
