/-
**The record screen of the Android client.**

`HomeFragment` has a toggle.  Turning it on starts a `StudySession`; turning it off ends the
session and, if it lasted half an hour, shows a popup that asks whether to submit it.  A submission
reads the record of the account and starts one transaction for each of the two counters it finds.
The handler of a transaction is run on the value the client holds, which need not be the one on the
server; the new value is then sent to the server, which takes it only if it still holds the value
the handler was run on.  Otherwise the handler is run again.

The handler of `numSessions` does one thing more: it writes the session under the new number, and it
takes the session from the field `studySession` of the fragment, as it is at that time.

Main definitions:

* `StudyHours.HomeFragment`, `StudyHours.HomeFragment.onCheckedChanged` — the fragment and the
  listener of its toggle;
* `StudyHours.totalHoursTransaction`, `StudyHours.numSessionsTransaction` — the two handlers;
* `StudyHours.Transaction`, `StudyHours.Submission` — a submission under way.

Main results:

* `StudyHours.androidCredit_pos` — a submitted session is credited with some hours;
* `StudyHours.integerSucc_of_lt`, `StudyHours.integerSucc_le` — the `int` increment of the handler.
-/

import Mathlib
import StudyHours.Hours
import StudyHours.Rounding

set_option relaxedAutoImplicit false
set_option autoImplicit false

namespace StudyHours

/-! ### The fragment -/

/-- A popup that asks whether to submit a session.  The listener of its button captures `diff`; the
other two fields are not the program's: they tell which recording the popup was shown for. -/
structure Popup where
  diff : ℤ
  session : StudySession
  recording : ℕ
deriving DecidableEq

/-- The fragment, with its toggle, its chronometer and the popups that are open. -/
structure HomeFragment where
  inherited : Bool
  wasRunning : Bool
  stopOffset : ℤ
  checkIn : ℤ
  studySession : Option StudySession
  /-- The base of the chronometer. -/
  base : ℤ
  /-- The state of the toggle. -/
  isChecked : Bool
  popups : List Popup
  /-- The number of sessions started so far; not a field of the program. -/
  recordings : ℕ

namespace HomeFragment

/-- A fragment that has just been created. -/
def initial : HomeFragment := ⟨false, false, 0, 0, none, 0, false, [], 0⟩

/-- The listener of the toggle.  `none` is the exception of a stop without a session. -/
def onCheckedChanged (f : HomeFragment) (isChecked : Bool)
    (elapsedRealtime currentTimeMillis : ℤ) : Option HomeFragment :=
  if isChecked then
    if !f.inherited || !f.wasRunning then
      some { f with
        base := elapsedRealtime
        studySession := some ⟨currentTimeMillis, 0⟩
        checkIn := currentTimeMillis
        inherited := false
        recordings := f.recordings + 1 }
    else
      some { f with inherited := false }
  else
    f.studySession.map fun s =>
      let session : StudySession := ⟨s.inTime, currentTimeMillis⟩
      let diff := session.outTime - session.inTime
      { f with
        stopOffset := elapsedRealtime - f.base
        studySession := some session
        inherited := false
        popups := if diff ≥ 1800000 then f.popups ++ [⟨diff, session, f.recordings⟩] else f.popups }

/-- The user taps the toggle. -/
def toggle (f : HomeFragment) (elapsedRealtime currentTimeMillis : ℤ) : Option HomeFragment :=
  onCheckedChanged { f with isChecked := !f.isChecked } (!f.isChecked) elapsedRealtime
    currentTimeMillis

end HomeFragment

/-! ### The handlers of the transactions -/

/-- The hours of a session in milliseconds, formatted with `#.#` rounding half up and read back, in
exact decimal arithmetic.  The locale is one that writes a dot and ASCII digits: what another one
writes `Double.valueOf` cannot read. -/
def androidCredit (diff : ℤ) : ℚ := (Rounding.halfUp diff tenthOfHour : ℚ) / 10

theorem androidCredit_pos {diff : ℤ} (h : tenthOfHour < 2 * diff) : 0 < androidCredit diff := by
  have hpos : 0 < Rounding.halfUp diff tenthOfHour :=
    (Rounding.nearest_halfUp diff (by decide)).pos (by decide) h
  have hq : (0 : ℚ) < Rounding.halfUp diff tenthOfHour := by exact_mod_cast hpos
  exact div_pos hq (by norm_num)

/-- The handler of `totalHours`: a missing value is left as it is.  The sum is exact. -/
def totalHoursTransaction (diff : ℤ) (totalHours : Option ℚ) : Option ℚ :=
  totalHours.map fun totalHours => totalHours + androidCredit diff

/-- The values of an `int`. -/
def InInteger (n : ℤ) : Prop := -2 ^ 31 ≤ n ∧ n < 2 ^ 31

instance (n : ℤ) : Decidable (InInteger n) := by unfold InInteger; infer_instance

/-- `n + 1` computed in an `int`. -/
def integerSucc (n : ℤ) : ℤ := Int.bmod (n + 1) (2 ^ 32)

theorem integerSucc_of_lt {n : ℤ} (hn : InInteger n) (hlt : n < 2 ^ 31 - 1) :
    integerSucc n = n + 1 := by
  obtain ⟨h₁, h₂⟩ := hn
  rw [integerSucc, Int.bmod_eq_of_le] <;> omega

/-- The increment wraps around at the largest `int`. -/
theorem integerSucc_max : integerSucc (2 ^ 31 - 1) = -2 ^ 31 := by decide

/-- The increment never yields more than the next number. -/
theorem integerSucc_le {n : ℤ} (hn : InInteger n) : integerSucc n ≤ n + 1 := by
  rcases lt_or_ge n (2 ^ 31 - 1) with hlt | hge
  · exact (integerSucc_of_lt hn hlt).le
  · obtain rfl : n = 2 ^ 31 - 1 := le_antisymm (by have := hn.2; omega) hge
    rw [integerSucc_max]
    norm_num

/-- The handler of `numSessions`: a missing value is left as it is, and a value that is no `int`
makes it throw, which aborts the transaction. -/
def numSessionsTransaction (numSessions : Option ℤ) : Option (Option ℤ) :=
  match numSessions with
  | none => some none
  | some n => if InInteger n then some (some (integerSucc n)) else none

/-- The write that the handler of `numSessions` issues when it has computed the number
`numSessions`: `setValue(studySession)`. -/
def sessionWrite (studySession : Option StudySession) (numSessions : ℤ) : Write :=
  match studySession with
  | some s => .session numSessions s
  | none => .remove numSessions

/-! ### Submissions -/

/-- A transaction: its handler is to be run, the result of a run is on its way, together with the
value the handler was run on, or it is over. -/
inductive Transaction (α : Type)
  | queued
  | sent (base new : Option α)
  | committed (base : Option α)
  | aborted
deriving DecidableEq

namespace Transaction

variable {α : Type}

/-- The transaction is over. -/
def Over : Transaction α → Prop
  | queued | sent _ _ => False
  | committed _ | aborted => True

instance (t : Transaction α) : Decidable t.Over := by
  cases t <;> unfold Over <;> infer_instance

/-- The value that the result on its way was computed from. -/
def base? : Transaction α → Option (Option α)
  | sent base _ => some base
  | queued | committed _ | aborted => none

end Transaction

/-- A submission, from the tap on `submit_hour` on.  A transaction is `none` until `onDataChange`
has started it. -/
structure Submission where
  /-- The client that submits. -/
  client : ℕ
  /-- The popup that was answered. -/
  popup : Popup
  /-- `onDataChange` has been run. -/
  delivered : Bool
  totalHours : Option (Transaction ℚ)
  numSessions : Option (Transaction ℤ)
deriving DecidableEq

namespace Submission

/-- The submission as the tap on `submit_hour` leaves it. -/
def start (client : ℕ) (popup : Popup) : Submission := ⟨client, popup, false, none, none⟩

/-- `onDataChange`: one transaction for each of the two counters that the snapshot has. -/
def onDataChange (sub : Submission) (snapshot : Hours) : Submission :=
  { sub with
    delivered := true
    totalHours := if snapshot.totalHours.isSome then some .queued else none
    numSessions := if snapshot.numSessions.isSome then some .queued else none }

/-- Nothing of the submission is outstanding. -/
def Over (sub : Submission) : Prop :=
  sub.delivered = true ∧ (∀ t ∈ sub.totalHours, t.Over) ∧ ∀ t ∈ sub.numSessions, t.Over

instance (sub : Submission) : Decidable sub.Over := by
  unfold Over
  infer_instance

end Submission

end StudyHours
