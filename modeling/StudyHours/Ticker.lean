/-
**Counters that a periodic timer advances.**

A program that shows how many whole periods have passed since some moment may compute the number
whenever it is asked for, and let a timer add one in every period between.  The timer has a phase of
its own, and goes on with it when the number is computed anew: the counter changes a little before
the next period is full, or a little after.  The errors do not add up, because a number that has
been computed is, like the one that the timer has advanced, the number of the periods at the next
tick or one less.

Periods are counted by any monotone function that grows by one in a period, such as the quotient
rounded down.

Main definitions:

* `Ticker.Counts` — a function that counts whole periods;
* `Ticker.Tracks` — a counter whose timer is due in at most a period, at a time when there are as
  many periods as it says, or one more.

Main results:

* `Ticker.Tracks.abs_sub_le` — **a counter that tracks the periods is wrong by one at most**;
* `Ticker.Counts.tracks`, `Ticker.Tracks.wait`, `Ticker.Tracks.tick` — a counter tracks the periods
  when it is computed, while time passes, and when the timer fires.
-/

import Mathlib.Algebra.Order.Group.Int
import Mathlib.Algebra.Order.Group.Abs
import Mathlib.Algebra.Order.Ring.Int

set_option relaxedAutoImplicit false
set_option autoImplicit false

namespace Ticker

universe u

variable {T : Type u} [AddCommGroup T] [LinearOrder T] {period : T} {count : T → ℤ}
  {now moment due : T} {c : ℤ}

/-! ### Counting periods -/

/-- The function counts whole periods. -/
structure Counts (period : T) (count : T → ℤ) : Prop where
  mono : ∀ {x y : T}, x ≤ y → count x ≤ count y
  add_period : ∀ x, count (x + period) = count x + 1

theorem Counts.period_pos (h : Counts period count) : 0 < period := by
  by_contra hneg
  have hle : count (0 + period) ≤ count 0 := h.mono (by rw [zero_add]; exact not_lt.1 hneg)
  rw [h.add_period] at hle
  omega

/-- The quotient rounded down counts the periods since `start`. -/
theorem counts_ediv {period : ℤ} (hpos : 0 < period) (start : ℤ) :
    Counts period fun now => (now - start) / period where
  mono hle := Int.ediv_le_ediv hpos (by omega)
  add_period now := by
    have hsum : now + period - start = now - start + 1 * period := by omega
    rw [hsum, Int.add_mul_ediv_right _ _ hpos.ne']

/-! ### Counters -/

/-- The timer of the counter is due in at most a period, and by then there will be as many periods
as the counter says, or one more. -/
structure Tracks (period : T) (count : T → ℤ) (now due : T) (c : ℤ) : Prop where
  le_due : now ≤ due
  due_le : due ≤ now + period
  low : count due ≤ c + 1
  high : c ≤ count due

/-- The periods up to now are those up to the next tick, or one less. -/
theorem Counts.near (h : Counts period count) (hle : now ≤ due) (hdue : due ≤ now + period) :
    count now ≤ count due ∧ count due ≤ count now + 1 := by
  refine ⟨h.mono hle, ?_⟩
  rw [← h.add_period]
  exact h.mono hdue

/-- **The counter is computed**, whatever it was before. -/
theorem Counts.tracks (h : Counts period count) (hle : now ≤ due) (hdue : due ≤ now + period) :
    Tracks period count now due (count now) := by
  obtain ⟨hhigh, hlow⟩ := h.near hle hdue
  exact ⟨hle, hdue, hlow, hhigh⟩

namespace Tracks

/-- **A counter that tracks the periods is wrong by one at most.** -/
theorem abs_sub_le (h : Tracks period count now due c) (hc : Counts period count) :
    |c - count now| ≤ 1 := by
  obtain ⟨hle, hlt⟩ := hc.near h.le_due h.due_le
  have hlow := h.low
  have hhigh := h.high
  rw [abs_le]
  constructor
  · omega
  · omega

variable [IsOrderedAddMonoid T]

/-- **Time passes**, but not beyond the next tick. -/
theorem wait (h : Tracks period count now due c) (hle : now ≤ moment) (hdue : moment ≤ due) :
    Tracks period count moment due c :=
  ⟨hdue, h.due_le.trans (by gcongr), h.low, h.high⟩

/-- **The timer fires** when it is due, and is set for one period later. -/
theorem tick (h : Tracks period count due due c) (hc : Counts period count) :
    Tracks period count due (due + period) (c + 1) := by
  have hlow := h.low
  have hhigh := h.high
  refine ⟨?_, le_rfl, ?_, ?_⟩
  · have hpos := hc.period_pos
    exact le_add_of_nonneg_right hpos.le
  · rw [hc.add_period]
    omega
  · rw [hc.add_period]
    omega

end Tracks

end Ticker
