import Mathlib

/-!
A counter that wraps at a period, and a signal that is raised whenever a divisor of the period
divides the counter.
-/

namespace Foundation.Cycle

variable {period rate counter count : Nat}

/-- The signal at each of the next ticks of the counter. -/
def signals (period rate counter count : Nat) : List Bool :=
  (List.range count).map fun tick => decide ((counter + tick + 1) % period % rate = 0)

/-- The raised signals are the ones at multiples of the gap from any raised one. -/
def EvenlySpaced (gap : Nat) (flags : List Bool) : Prop :=
  ∀ first later, first ≤ later → later < flags.length → flags[first]? = some true →
    (flags[later]? = some true ↔ gap ∣ later - first)

/-- The first tick leaves the wrapped counter for the remaining ones. -/
theorem signals_succ (period rate counter count : Nat) : signals period rate counter (count + 1) =
    decide ((counter + 1) % period % rate = 0) ::
      signals period rate ((counter + 1) % period) count := by
  rw [signals, List.range_succ_eq_map, List.map_cons, List.map_map, signals]
  congr 1
  apply List.map_congr_left
  intro tick _
  have wrapped : (counter + Nat.succ tick + 1) % period =
      ((counter + 1) % period + tick + 1) % period := by
    rw [Nat.add_assoc ((counter + 1) % period), Nat.mod_add_mod]
    congr 1
    omega
  rw [Function.comp_apply, wrapped]

@[simp] theorem length_signals (period rate counter count : Nat) :
    (signals period rate counter count).length = count := by
  rw [signals, List.length_map, List.length_range]

/-- The wrap does not show in the signal. -/
theorem getElem?_signals (divides : rate ∣ period) {tick : Nat} (inside : tick < count) :
    (signals period rate counter count)[tick]? = some (decide (rate ∣ counter + tick + 1)) := by
  rw [signals, List.getElem?_map, List.getElem?_range inside, Option.map_some]
  simp only [Nat.mod_mod_of_dvd _ divides, Nat.dvd_iff_mod_eq_zero]

theorem signals_evenlySpaced (divides : rate ∣ period) :
    EvenlySpaced rate (signals period rate counter count) := by
  intro first later order inside raised
  rw [length_signals] at inside
  rw [getElem?_signals divides (by omega), Option.some.injEq, decide_eq_true_eq] at raised
  rw [getElem?_signals divides inside, Option.some.injEq, decide_eq_true_eq]
  have sum : counter + later + 1 = counter + first + 1 + (later - first) := by omega
  rw [sum, Nat.dvd_add_right raised]

/-- The multiples of the rate below a bound. -/
theorem count_dvd (positive : 0 < rate) (bound : Nat) :
    bound.count (rate ∣ ·) = bound / rate + if 0 < bound % rate then 1 else 0 := by
  have counted := Nat.count_modEq_card bound positive 0
  rw [Nat.zero_mod] at counted
  rw [← counted]
  congr 1
  funext number
  rw [Nat.ModEq, Nat.zero_mod, Nat.dvd_iff_mod_eq_zero]

/-- During one period the signal is raised once for each multiple of the rate. -/
theorem count_signals (positive : 0 < rate) (divides : rate ∣ period) :
    (signals period rate counter period).count true = period / rate := by
  have shifted : (signals period rate counter period).count true =
      period.count fun tick => rate ∣ counter + 1 + tick := by
    rw [signals, List.count_eq_countP, List.countP_map, Nat.count]
    apply List.countP_congr
    intro tick _
    have sum : counter + tick + 1 = counter + 1 + tick := by omega
    simp only [Function.comp_apply, Nat.mod_mod_of_dvd _ divides, sum, Nat.dvd_iff_mod_eq_zero,
      beq_true, decide_eq_true_eq]
  have total := Nat.count_add (rate ∣ ·) (counter + 1) period
  rw [count_dvd positive, count_dvd positive, Nat.add_div_of_dvd_left divides] at total
  rw [shifted]
  have same : (counter + 1 + period) % rate = (counter + 1) % rate := by
    obtain ⟨factor, rfl⟩ := divides
    exact Nat.add_mul_mod_self_left _ _ _
  rw [same] at total
  omega

end Foundation.Cycle
