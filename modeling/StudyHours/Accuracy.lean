/-
**How accurate the hours are.**

Both clients credit a session with its length in hours, rounded to a tenth, and the total is the sum
of what has been credited: the errors of the sessions add up.  While the clients are used one after
another the total stays within a twentieth of an hour for each session of the time that has been
studied, and exceeds the time that has passed by no more than that.

Main definitions:

* `StudyHours.lengths` — the time that has been studied.

Main results:

* `StudyHours.Recording.abs_credit_sub_le` — the error of one session;
* `StudyHours.Ledger.lengths_le` — the sessions of a ledger fit into the time that they span;
* `StudyHours.totalHours_accurate` — **the total is the time studied, up to the rounding**.
-/

import Mathlib
import StudyHours.LedgerScreens

set_option relaxedAutoImplicit false
set_option autoImplicit false

namespace StudyHours

open Account

/-! ### One session -/

/-- Half an hour is half an hour, whichever way the hours are rounded. -/
theorem half_le_of_nearest {interval k : ℤ} (hk : Rounding.Nearest interval tenthOfHour k)
    (h : 1800000 ≤ interval) : 1 / 2 ≤ (k : ℚ) / 10 := by
  have hle : (5 : ℤ) ≤ k := hk.le (by decide) h
  have hcast : (5 : ℚ) ≤ k := by exact_mod_cast hle
  linarith

namespace Recording

variable {r : Recording}

/-- The credit is a nearest number of tenths. -/
theorem exists_credit (r : Recording) :
    ∃ k, Rounding.Nearest r.length tenthOfHour k ∧ r.credit = (k : ℚ) / 10 := by
  unfold credit
  cases r.client with
  | ios => exact ⟨_, Rounding.nearest_halfEven _ (by decide), rfl⟩
  | android => exact ⟨_, Rounding.nearest_halfUp _ (by decide), rfl⟩

/-- **The error of one session** is three minutes at most. -/
theorem abs_credit_sub_le (r : Recording) : |r.credit - r.length / 3600000| ≤ 1 / 20 := by
  obtain ⟨k, hk, hcredit⟩ := r.exists_credit
  have herror := hk.abs_sub_le (by decide)
  have htenth : r.credit - r.length / 3600000 = (k - r.length / (tenthOfHour : ℤ)) / 10 := by
    rw [hcredit, tenthOfHour]
    push_cast
    ring
  rw [htenth, abs_div, abs_of_pos (by norm_num : (0 : ℚ) < 10)]
  linarith

/-- A session of half an hour is credited with half an hour at least. -/
theorem half_le_credit (h : 1800000 ≤ r.length) : 1 / 2 ≤ r.credit := by
  obtain ⟨k, hk, hcredit⟩ := r.exists_credit
  rw [hcredit]
  exact half_le_of_nearest hk h

end Recording

/-! ### The sessions of a ledger -/

/-- The time that has been studied, in milliseconds. -/
def lengths (recordings : List Recording) : ℤ := (recordings.map Recording.length).sum

/-- Sessions one after another fit into the time that they span. -/
theorem lengths_le_of_pairwise {recordings : List Recording}
    (hpair : recordings.Pairwise fun r r' => r.session.outTime ≤ r'.session.inTime) :
    ∀ {τ τ' : ℤ}, τ ≤ τ' → (∀ r ∈ recordings, τ ≤ r.session.inTime ∧ r.session.outTime ≤ τ') →
      lengths recordings ≤ τ' - τ := by
  induction recordings with
  | nil =>
      intro τ τ' hle _
      exact Int.sub_nonneg_of_le hle
  | cons r rs ih =>
      intro τ τ' _ hspan
      obtain ⟨hfirst, hrest⟩ := List.pairwise_cons.1 hpair
      obtain ⟨hin, hout⟩ := hspan r List.mem_cons_self
      -- the others lie between the end of the first one and the end of the span
      have hrs : lengths rs ≤ τ' - r.session.outTime :=
        ih hrest hout fun x hx => ⟨hfirst x hx, (hspan x (List.mem_cons_of_mem _ hx)).2⟩
      have hsum : lengths (r :: rs) = r.length + lengths rs := by
        rw [lengths, List.map_cons, List.sum_cons, lengths]
      rw [hsum, Recording.length]
      linarith

namespace Ledger

variable (L : Ledger)

theorem lengths_le {τ τ' : ℤ} (hle : τ ≤ τ')
    (hspan : ∀ r ∈ L.recordings, τ ≤ r.session.inTime ∧ r.session.outTime ≤ τ') :
    lengths L.recordings ≤ τ' - τ :=
  lengths_le_of_pairwise L.chronological hle hspan

/-- The hours of a ledger are the time that has been studied, up to three minutes for each
session. -/
theorem abs_hours_sub_le :
    |L.hours - lengths L.recordings / 3600000| ≤ L.recordings.length / 20 := by
  have hsum : (lengths L.recordings : ℚ) / 3600000 =
      (L.recordings.map fun r => (r.length : ℚ) / 3600000).sum := by
    rw [lengths, Int.cast_list_sum, List.map_map, div_eq_mul_inv, ← List.sum_map_mul_right]
    rfl
  have herrors := Rounding.abs_sum_sub_sum_le (l := L.recordings) fun r _ => r.abs_credit_sub_le
  rw [hsum, hours]
  linarith

theorem half_le_hours : (L.recordings.length : ℚ) / 2 ≤ L.hours := by
  have hle := List.card_nsmul_le_sum (L.recordings.map Recording.credit) (1 / 2) fun x hx => by
    obtain ⟨r, hr, rfl⟩ := List.mem_map.1 hx
    exact Recording.half_le_credit (L.long r hr)
  rw [List.length_map, nsmul_eq_mul] at hle
  rw [hours]
  linarith

end Ledger

/-! ### Runs -/

section Runs

variable {s u : Account} {acts : List Action}

/-- **The total is the time studied, up to the rounding**: in every run of a new account in which
the clients are used one after another and the clock never goes back, the total between two sessions
differs from the time that has been studied by at most three minutes for each of them, is half an
hour for each of them at least, and exceeds the time in which they all lie by at most these three
minutes. -/
theorem totalHours_accurate (hs : Represents s.db .empty none) (hu : Untouched s)
    (hout : s.outbox = []) (hidle : ∀ d, (s.device d).Idle) (hclock : Chronological acts)
    (hturns : Execution.Along step InTurn s acts)
    (hcount : (Execution.collect step recorded s acts).length < 2 ^ 31 - 1)
    (hrun : Execution.run step s acts = some u) (hbetween : Between u) :
    ∃ q, u.db.totalHours = some q ∧
      |q - lengths (Execution.collect step recorded s acts) / 3600000| ≤
        (Execution.collect step recorded s acts).length / 20 ∧
      ((Execution.collect step recorded s acts).length : ℚ) / 2 ≤ q ∧
      ∀ τ τ' : ℤ, τ ≤ τ' →
        (∀ r ∈ Execution.collect step recorded s acts,
          τ ≤ r.session.inTime ∧ r.session.outTime ≤ τ') →
        q ≤ (τ' - τ) / 3600000 + (Execution.collect step recorded s acts).length / 20 := by
  obtain ⟨L, next, hL, hr⟩ :=
    exists_ledger_of_inTurn hs hu hout hidle hclock hturns hcount hrun hbetween
  rw [← hL]
  have herror := L.abs_hours_sub_le
  refine ⟨L.hours, hr.totalHours, herror, L.half_le_hours, fun τ τ' hle hspan => ?_⟩
  have hfit : (lengths L.recordings : ℚ) ≤ τ' - τ := by exact_mod_cast L.lengths_le hle hspan
  have hup := (abs_le.1 herror).2
  have hdiv : (lengths L.recordings : ℚ) / 3600000 ≤ (τ' - τ) / 3600000 :=
    div_le_div_of_nonneg_right hfit (by norm_num)
  linarith

/-- After a session of an hour and one of half an hour, all within two hours and a half. -/
theorem totalHours_accurate_oneSessionEach : ∃ u,
    Execution.run step (atRest (Hours.created "A") .closed) oneSessionEach = some u ∧
      ∃ q, u.db.totalHours = some q ∧ |q - 3 / 2| ≤ 1 / 10 ∧ 1 ≤ q ∧ q ≤ 5 / 2 + 1 / 10 := by
  obtain ⟨u, hu, hturns, hbetween⟩ := inTurn_oneSessionEach
  obtain ⟨q, hq, herror, hhalf, hspan⟩ := totalHours_accurate (.created "A") (untouched_atRest _ _)
    rfl (fun _ => RecordViewController.idle_initial _) (by decide) hturns
    (by rw [collect_oneSessionEach]; decide) hu hbetween
  have hle := hspan 0 9000000 (by decide) (by rw [collect_oneSessionEach]; decide)
  rw [collect_oneSessionEach] at herror hhalf hle
  norm_num [lengths, Recording.length] at herror hhalf hle
  exact ⟨u, hu, q, hq, by norm_num; exact herror, hhalf, by linarith⟩

end Runs

end StudyHours
