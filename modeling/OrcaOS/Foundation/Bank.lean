import Mathlib

/-!
Several members share one live value. The member on show has its value there, and the values of the
others are saved.
-/

namespace Foundation

section
variable (Member Value : Type*)

/-- The live value belongs to the member on show. -/
structure Bank where
  shown : Member
  live : Value
  saved : Member → Value

/-- Each member has a value of its own. -/
structure Members where
  shown : Member
  value : Member → Value

inductive Bank.Event where
  | select (next : Member)
  | write (value : Value)

end

variable {Member Value : Type*} [DecidableEq Member]

namespace Members

/-- Only the member on show is written. -/
def step (members : Members Member Value) : Bank.Event Member Value → Members Member Value
  | .select next => { members with shown := next }
  | .write value => { members with value := Function.update members.value members.shown value }

/-- No event writes while the given member is on show. -/
def Unwritten (member : Member) : Members Member Value → List (Bank.Event Member Value) → Prop
  | _, [] => True
  | members, .select next :: rest => Unwritten member (members.step (.select next)) rest
  | members, .write value :: rest =>
      members.shown ≠ member ∧ Unwritten member (members.step (.write value)) rest

/-- A member that is not written keeps its value. -/
theorem run_unwritten {member : Member} {members : Members Member Value}
    {events : List (Bank.Event Member Value)} (unwritten : Unwritten member members events) :
    (events.foldl step members).value member = members.value member := by
  induction events generalizing members with
  | nil => rfl
  | cons event rest ih =>
      cases event with
      | select next => exact ih unwritten
      | write value =>
          obtain ⟨other, unwritten⟩ := unwritten
          rw [List.foldl_cons, ih unwritten]
          exact Function.update_of_ne other.symm value members.value

end Members

namespace Bank

/-- This function saves the live value and loads the value of the next member. -/
def select (bank : Bank Member Value) (next : Member) : Bank Member Value where
  shown := next
  live := Function.update bank.saved bank.shown bank.live next
  saved := Function.update bank.saved bank.shown bank.live

def step (bank : Bank Member Value) : Event Member Value → Bank Member Value
  | .select next => bank.select next
  | .write value => { bank with live := value }

/-- The saved value of the member on show is out of date. -/
def members (bank : Bank Member Value) : Members Member Value where
  shown := bank.shown
  value := Function.update bank.saved bank.shown bank.live

variable (bank : Bank Member Value)

@[simp] theorem members_value_shown : bank.members.value bank.shown = bank.live :=
  Function.update_self _ _ _

theorem members_value_of_ne {other : Member} (different : other ≠ bank.shown) :
    bank.members.value other = bank.saved other := Function.update_of_ne different _ _

/-- A step of the bank is a step of its members. -/
theorem step_members (event : Event Member Value) :
    (bank.step event).members = bank.members.step event := by
  cases event with
  | select next =>
      have same : Function.update (Function.update bank.saved bank.shown bank.live) next
          (Function.update bank.saved bank.shown bank.live next) =
          Function.update bank.saved bank.shown bank.live := Function.update_eq_self _ _
      exact congrArg (Members.mk next) same
  | write value =>
      have same : Function.update bank.saved bank.shown value =
          Function.update (Function.update bank.saved bank.shown bank.live) bank.shown value :=
        (Function.update_idem _ _ _).symm
      exact congrArg (Members.mk bank.shown) same

/-- A bank refines its members over every run. -/
theorem run_members (events : List (Event Member Value)) :
    (events.foldl step bank).members = events.foldl Members.step bank.members := by
  induction events generalizing bank with
  | nil => rfl
  | cons event rest ih =>
      rw [List.foldl_cons, List.foldl_cons, ih, step_members]

end Bank

end Foundation
