import Mathlib

namespace Foundation

section
variable {State Event : Type} (step : State → Event → Option State) (allowed : State → Event → Prop)

/-- A run takes one allowed step for each event and never gets stuck. -/
inductive Run (start : State) : List Event → State → Prop where
  | nil : Run start [] start
  | snoc {events : List Event} {before after : State} {event : Event}
      (earlier : Run start events before) (permitted : allowed before event)
      (taken : step before event = some after) : Run start (events ++ [event]) after

variable {step allowed} {start final : State} {events : List Event}

/-- A property that each allowed step preserves holds after every run. -/
theorem Run.invariant (holds : State → Prop) (initial : holds start)
    (preserved : ∀ before event after, holds before → allowed before event →
      step before event = some after → holds after)
    (run : Run step allowed start events final) : holds final := by
  induction run with
  | nil => exact initial
  | snoc earlier permitted taken ih => exact preserved _ _ _ ih permitted taken

theorem Run.append {middle : State} {later : List Event}
    (first : Run step allowed start events middle) (second : Run step allowed middle later final) :
    Run step allowed start (events ++ later) final := by
  induction second with
  | nil => simpa using first
  | snoc _ permitted taken ih =>
      rw [← List.append_assoc]
      exact .snoc ih permitted taken

/-- A first step followed by a run is a run. -/
theorem Run.cons {event : Event} {middle : State} (permitted : allowed start event)
    (taken : step start event = some middle) (rest : Run step allowed middle events final) :
    Run step allowed start (event :: events) final :=
  have first : Run step allowed start [event] middle := .snoc .nil permitted taken
  first.append rest

variable (step) in
/-- This function executes a list of events and checks each step. -/
def execute (check : State → Event → Bool) : State → List Event → Option State
  | state, [] => some state
  | state, event :: events =>
      if check state event then (step state event).bind fun next => execute check next events
      else none

/-- A checked execution is a run. -/
theorem run_of_execute {check : State → Event → Bool}
    (sound : ∀ state event, check state event = true → allowed state event)
    (executed : execute step check start events = some final) : Run step allowed start events final := by
  induction events generalizing start with
  | nil =>
      obtain rfl := Option.some.inj executed
      exact .nil
  | cons event events ih =>
      rw [execute] at executed
      split at executed
      · rename_i passed
        obtain ⟨middle, taken, rest⟩ := Option.bind_eq_some_iff.mp executed
        exact .cons (sound _ _ passed) taken (ih rest)
      · cases executed

end

section
variable {State Event : Type*} {step : State → Event → State} {start : State}

/-- Every event of the list finds a state in which the property holds. -/
def Throughout (step : State → Event → State) (holds : State → Event → Prop) (start : State) (events : List Event) :
    Prop :=
  ∀ earlier event later, events = earlier ++ event :: later → holds (earlier.foldl step start) event

variable {holds other permitted : State → Event → Prop}

theorem throughout_nil : Throughout step holds start [] := by
  intro earlier event later split
  cases earlier <;> cases split

theorem throughout_true {events : List Event} : Throughout step (fun _ _ => True) start events := fun _ _ _ _ => trivial

/-- The first event is followed by the others. -/
theorem throughout_cons {event : Event} {events : List Event} : Throughout step holds start (event :: events) ↔
    holds start event ∧ Throughout step holds (step start event) events := by
  constructor
  · intro always
    refine ⟨always [] event events rfl, fun earlier next later split => ?_⟩
    exact always (event :: earlier) next later (by rw [split, List.cons_append])
  · rintro ⟨first, rest⟩ earlier next later split
    cases earlier with
    | nil =>
        obtain ⟨rfl, -⟩ := List.cons.inj split
        exact first
    | cons head earlier =>
        obtain ⟨rfl, same⟩ := List.cons.inj split
        exact rest earlier next later same

instance decidableThroughout [∀ state event, Decidable (holds state event)] :
    (start : State) → (events : List Event) → Decidable (Throughout step holds start events)
  | _, [] => isTrue throughout_nil
  | start, event :: events =>
      have := decidableThroughout (step start event) events
      decidable_of_iff (holds start event ∧ Throughout step holds (step start event) events) throughout_cons.symm

/-- Two properties agree on every event if they agree where an invariant holds, and the second one preserves it. -/
theorem throughout_congr (invariant : State → Prop)
    (agrees : ∀ state event, invariant state → permitted state event → (holds state event ↔ other state event))
    (preserved : ∀ state event, invariant state → permitted state event → other state event →
      invariant (step state event))
    {events : List Event} (initial : invariant start) (permits : Throughout step permitted start events) :
    Throughout step holds start events ↔ Throughout step other start events := by
  induction events generalizing start with
  | nil => exact iff_of_true throughout_nil throughout_nil
  | cons event events ih =>
      obtain ⟨first, rest⟩ := throughout_cons.mp permits
      rw [throughout_cons, throughout_cons, agrees start event initial first]
      refine and_congr_right fun own => ?_
      exact ih (preserved start event initial first own) rest

end

end Foundation
