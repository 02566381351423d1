/-
**Rounding a quotient to an integer.**

Formatting a number with a fixed number of decimals rounds a quotient of integers to an integer,
and the formatters differ in what they do with a quotient that lies halfway between two integers.
This module has the two usual rules, computed in exact integer arithmetic, the one fact that holds
of any of them — the result is a nearest integer — and the quotients on which they differ.

Main definitions:

* `Rounding.Nearest` — an integer nearest to a quotient;
* `Rounding.halfEven` — ties go to the even neighbour;
* `Rounding.halfUp` — ties go away from zero.

Main results:

* `Rounding.nearest_halfEven`, `Rounding.nearest_halfUp` — both rules round to a nearest integer;
* `Rounding.Nearest.pos` — a quotient above one half is rounded to a positive integer;
* `Rounding.Nearest.abs_sub_le` — the error is one half at most;
* `Rounding.abs_sum_sub_sum_le` — the errors of a sum add up;
* `Rounding.halfEven_eq_halfUp_iff` — **the two rules part on the ties above an even neighbour**.
-/

import Mathlib.Algebra.Order.BigOperators.Group.List
import Mathlib.Algebra.Order.Ring.Int
import Mathlib.Algebra.Order.Ring.Rat
import Mathlib.Tactic.FieldSimp
import Mathlib.Tactic.LinearCombination
import Mathlib.Tactic.Linarith
import Mathlib.Tactic.Ring

set_option relaxedAutoImplicit false
set_option autoImplicit false

namespace Rounding

/-- `r` is an integer nearest to `n / d`. -/
def Nearest (n d r : ℤ) : Prop := 2 * (d * r - n) ≤ d ∧ 2 * (n - d * r) ≤ d

/-- The quotient `n / d` rounded to an integer, **ties to the even neighbour**. -/
def halfEven (n d : ℤ) : ℤ :=
  let q := n / d
  let r := n % d
  if 2 * r < d then q
  else if d < 2 * r then q + 1
  else if q % 2 = 0 then q
  else q + 1

/-- The quotient `n / d` rounded to an integer, **ties away from zero**. -/
def halfUp (n d : ℤ) : ℤ :=
  if 0 ≤ n then (2 * n + d) / (2 * d) else -((2 * -n + d) / (2 * d))

variable {n d r : ℤ}

/-- A nearest integer to a quotient above one half is positive. -/
theorem Nearest.pos (h : Nearest n d r) (hd : 0 < d) (hn : d < 2 * n) : 0 < r := by
  by_contra hr
  have hle : d * r ≤ 0 := mul_nonpos_of_nonneg_of_nonpos hd.le (not_lt.1 hr)
  have := h.2
  omega

/-- An integer below a quotient is not above a nearest integer to it. -/
theorem Nearest.le {k : ℤ} (h : Nearest n d r) (hd : 0 < d) (hk : d * k ≤ n) : k ≤ r := by
  by_contra hr
  have hle : d * (r + 1) ≤ d * k := mul_le_mul_of_nonneg_left (not_le.1 hr) hd.le
  have hsucc : d * (r + 1) = d * r + d := by ring
  have := h.2
  omega

/-- A nearest integer is at most one half away. -/
theorem Nearest.abs_sub_le (h : Nearest n d r) (hd : 0 < d) : |(r : ℚ) - n / d| ≤ 1 / 2 := by
  have hpos : (0 : ℚ) < d := by exact_mod_cast hd
  have hup : 2 * ((d : ℚ) * r - n) ≤ d := by exact_mod_cast h.1
  have hdown : 2 * ((n : ℚ) - d * r) ≤ d := by exact_mod_cast h.2
  have hsub : (r : ℚ) - n / d = (d * r - n) / d := by field_simp
  rw [hsub, abs_le, le_div_iff₀ hpos, div_le_iff₀ hpos]
  exact ⟨by linarith, by linarith⟩

/-- The errors of the summands add up. -/
theorem abs_sum_sub_sum_le {α : Type*} {f g : α → ℚ} {ε : ℚ} :
    ∀ {l : List α}, (∀ x ∈ l, |f x - g x| ≤ ε) →
      |(l.map f).sum - (l.map g).sum| ≤ l.length * ε := by
  intro l h
  induction l with
  | nil => simp
  | cons x l ih =>
      have hx : |f x - g x| ≤ ε := h x List.mem_cons_self
      have hl := ih fun y hy => h y (List.mem_cons_of_mem _ hy)
      calc |((x :: l).map f).sum - ((x :: l).map g).sum|
          = |(f x - g x) + ((l.map f).sum - (l.map g).sum)| := by
            rw [List.map_cons, List.map_cons, List.sum_cons, List.sum_cons, add_sub_add_comm]
        _ ≤ ε + l.length * ε := (abs_add_le _ _).trans (add_le_add hx hl)
        _ = (x :: l).length * ε := by
            rw [List.length_cons, Nat.cast_succ]
            ring

theorem nearest_halfEven (n : ℤ) (hd : 0 < d) : Nearest n d (halfEven n d) := by
  have hdiv : d * (n / d) + n % d = n := Int.mul_ediv_add_emod n d
  have h0 : 0 ≤ n % d := Int.emod_nonneg n hd.ne'
  have h1 : n % d < d := Int.emod_lt_of_pos n hd
  have hsucc : d * (n / d + 1) = d * (n / d) + d := by ring
  unfold halfEven
  simp only
  split_ifs
  · exact ⟨by omega, by omega⟩
  · exact ⟨by omega, by omega⟩
  · exact ⟨by omega, by omega⟩
  · exact ⟨by omega, by omega⟩

/-- The quotient of a nonnegative number, shifted by one half and rounded down, is a nearest
integer. -/
theorem nearest_shift (n : ℤ) (hd : 0 < d) : Nearest n d ((2 * n + d) / (2 * d)) := by
  have hdiv : 2 * d * ((2 * n + d) / (2 * d)) + (2 * n + d) % (2 * d) = 2 * n + d :=
    Int.mul_ediv_add_emod _ _
  have h0 : 0 ≤ (2 * n + d) % (2 * d) := Int.emod_nonneg _ (by omega)
  have h1 : (2 * n + d) % (2 * d) < 2 * d := Int.emod_lt_of_pos _ (by omega)
  have hassoc : 2 * d * ((2 * n + d) / (2 * d)) = 2 * (d * ((2 * n + d) / (2 * d))) := by ring
  exact ⟨by omega, by omega⟩

theorem nearest_halfUp (n : ℤ) (hd : 0 < d) : Nearest n d (halfUp n d) := by
  unfold halfUp
  split_ifs
  · exact nearest_shift n hd
  · obtain ⟨h₁, h₂⟩ := nearest_shift (-n) hd
    rw [Nearest, mul_neg]
    exact ⟨by omega, by omega⟩

/-! ### Where the two rules differ -/

/-- A tie of a nonnegative quotient goes to the upper neighbour. -/
theorem halfUp_eq (hd : 0 < d) (hn : 0 ≤ n) :
    halfUp n d = if 2 * (n % d) < d then n / d else n / d + 1 := by
  have hdiv : d * (n / d) + n % d = n := Int.mul_ediv_add_emod n d
  have h0 : 0 ≤ n % d := Int.emod_nonneg n hd.ne'
  have h1 : n % d < d := Int.emod_lt_of_pos n hd
  have hsum : 2 * n + d = 2 * (n % d) + d + 2 * d * (n / d) := by
    calc 2 * n + d = 2 * (d * (n / d) + n % d) + d := by rw [hdiv]
      _ = 2 * (n % d) + d + 2 * d * (n / d) := by ring
  rw [halfUp, if_pos hn, hsum, Int.add_mul_ediv_left _ _ (by omega)]
  split_ifs with htie
  · rw [Int.ediv_eq_zero_of_lt (by omega) (by omega), zero_add]
  · have hquot : (2 * (n % d) + d) / (2 * d) = 1 :=
      ((Int.ediv_emod_unique (r := 2 * (n % d) - d) (by omega)).2
        ⟨by ring, by omega, by omega⟩).1
    rw [hquot, add_comm]

/-- The remainder by `2 d` tells the remainder by `d` and whether the quotient is even. -/
theorem emod_two_mul (n : ℤ) (hd : 0 < d) : n % (2 * d) = n % d + d * (n / d % 2) := by
  have hdiv : d * (n / d) + n % d = n := Int.mul_ediv_add_emod n d
  have h0 : 0 ≤ n % d := Int.emod_nonneg n hd.ne'
  have h1 : n % d < d := Int.emod_lt_of_pos n hd
  have hhalf : 2 * (n / d / 2) + n / d % 2 = n / d := Int.mul_ediv_add_emod _ _
  have hsum : n % d + d * (n / d % 2) + 2 * d * (n / d / 2) = n := by
    linear_combination hdiv + d * hhalf
  refine ((Int.ediv_emod_unique (by omega)).2 ⟨hsum, ?_, ?_⟩).2
  · rcases Int.emod_two_eq_zero_or_one (n / d) with hpar | hpar <;> rw [hpar] <;> omega
  · rcases Int.emod_two_eq_zero_or_one (n / d) with hpar | hpar <;> rw [hpar] <;> omega

/-- **The two rules part on the ties above an even neighbour**, and nowhere else. -/
theorem halfEven_eq_halfUp_iff (hd : 0 < d) (hn : 0 ≤ n) :
    halfEven n d = halfUp n d ↔ 2 * (n % (2 * d)) ≠ d := by
  have h0 : 0 ≤ n % d := Int.emod_nonneg n hd.ne'
  have h1 : n % d < d := Int.emod_lt_of_pos n hd
  rw [halfUp_eq hd hn, emod_two_mul n hd]
  unfold halfEven
  rcases Int.emod_two_eq_zero_or_one (n / d) with hpar | hpar
  · simp only [hpar]
    split_ifs <;> omega
  · simp only [hpar]
    split_ifs <;> omega

example : halfEven 5 2 = 2 ∧ halfUp 5 2 = 3 ∧ halfEven 7 2 = 4 ∧ halfUp 7 2 = 4 := by decide

end Rounding
