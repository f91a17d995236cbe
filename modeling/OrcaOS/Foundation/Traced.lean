import Mathlib

/-!
Computations that record their accesses.
-/

namespace Foundation

/-- The value of a computation, and its accesses in their order. -/
structure Traced (Access α : Type) where
  value : α
  accesses : List Access

namespace Traced
variable {Access α β : Type}

instance : Monad (Traced Access) where
  pure value := ⟨value, []⟩
  bind first next := ⟨(next first.value).value, first.accesses ++ (next first.value).accesses⟩

/-- This function records one access and gives its value. -/
def access (place : Access) (value : α) : Traced Access α := ⟨value, [place]⟩

@[simp] theorem value_bind (first : Traced Access α) (next : α → Traced Access β) :
    (first >>= next).value = (next first.value).value := rfl

@[simp] theorem value_access (place : Access) (value : α) : (access place value).value = value := rfl

/-- Every access is an allowed one. -/
def Stays (allowed : Access → Prop) (run : Traced Access α) : Prop := ∀ place ∈ run.accesses, allowed place

variable {allowed : Access → Prop}

@[simp] theorem stays_pure (value : α) : Stays allowed (pure value : Traced Access α) := by
  intro place member
  cases member

@[simp] theorem stays_access (place : Access) (value : α) : Stays allowed (access place value) ↔ allowed place :=
  List.forall_mem_singleton

/-- A sequence stays within the allowed accesses exactly when both parts do. -/
@[simp] theorem stays_bind (first : Traced Access α) (next : α → Traced Access β) :
    Stays allowed (first >>= next) ↔ Stays allowed first ∧ Stays allowed (next first.value) :=
  List.forall_mem_append

end Traced

end Foundation
