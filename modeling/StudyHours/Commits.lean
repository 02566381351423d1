/-
**The counters under transactions alone.**

A transaction reads nothing before its handler is run.  The handler is given a value that the client
holds, which may be old or missing, and the server takes the result only if the counter still is
what the handler was given; if it is not, the handler is run again.  So a value that has been taken
was computed from the one it replaces, and as long as the counters are changed by transactions only,
each of them is its first value and what the committed transactions have added.

Main definitions:

* `StudyHours.NoRecording` — an action that is no confirmed recording of an iOS device;
* `StudyHours.Submission.Committed` — both transactions of a submission have committed;
* `StudyHours.CommitsInv` — the counters are what the committed transactions make of them.

Main results:

* `StudyHours.CommitsInv.trans` — the counters stay so under every action;
* `StudyHours.counters_of_committed` — **no update is lost**: when all transactions have committed,
  the counters have grown by what was submitted.
-/

import Mathlib
import StudyHours.Confirmations

set_option relaxedAutoImplicit false
set_option autoImplicit false

namespace StudyHours

open Account
open RecordViewController (Event Transition)

/-! ### Transactions that have committed -/

/-- The action is no answer `Yes` on an iOS device: of the iOS writes only those of `recordSession`
are to the counters. -/
def NoRecording : Action → Prop
  | .ios _ (.yes _) => False
  | _ => True

instance (a : Action) : Decidable (NoRecording a) := by
  induction a using Action.casesOn with
  | ios d e =>
      induction e using RecordViewController.Event.casesOn <;> dsimp only [NoRecording] <;>
        infer_instance
  | _ => dsimp only [NoRecording]; infer_instance

/-- What a transaction has added to its counter, if a completed one adds `amount`. -/
def Transaction.added {α β : Type} [Zero β] (amount : β) : Transaction α → β
  | committed _ => amount
  | queued | sent _ _ | aborted => 0

namespace Submission

/-- Both transactions have been started and have committed. -/
def Committed (sub : Submission) : Prop :=
  (∃ base, sub.totalHours = some (.committed base)) ∧
    ∃ base, sub.numSessions = some (.committed base)

/-- What the submission has added to `totalHours`. -/
def hoursAdded (sub : Submission) : ℚ :=
  sub.totalHours.elim 0 (Transaction.added (androidCredit sub.popup.diff))

/-- What the submission has added to `numSessions`. -/
def sessionsAdded (sub : Submission) : ℤ := sub.numSessions.elim 0 (Transaction.added 1)

variable {sub : Submission}

theorem Committed.hoursAdded (h : sub.Committed) :
    sub.hoursAdded = androidCredit sub.popup.diff := by
  obtain ⟨⟨base, hbase⟩, -⟩ := h
  rw [Submission.hoursAdded, hbase]
  rfl

theorem Committed.sessionsAdded (h : sub.Committed) : sub.sessionsAdded = 1 := by
  obtain ⟨-, base, hbase⟩ := h
  rw [Submission.sessionsAdded, hbase]
  rfl

theorem sessionsAdded_le (sub : Submission) : sub.sessionsAdded ≤ 1 := by
  rw [Submission.sessionsAdded]
  cases sub.numSessions with
  | none => exact zero_le_one
  | some tr => cases tr <;> simp [Transaction.added]

end Submission

/-! ### The counters in the middle of a run -/

/-- Each counter is its first value and what the committed transactions have added; `credits` are
the hours of the submissions so far. -/
structure CommitsInv (q : ℚ) (n : ℤ) (s : Account) (credits : List ℚ) : Prop where
  submissions : SubmissionsInv s
  /-- What is in flight goes to the session children. -/
  outbox : ∀ e ∈ s.outbox, e.write.key?.isSome
  submitted : s.submissions.map (fun sub => androidCredit sub.popup.diff) = credits
  totalHours : s.db.totalHours = some (q + (s.submissions.map Submission.hoursAdded).sum)
  numSessions : n + credits.length ≤ 2 ^ 31 - 1 →
    s.db.numSessions = some (n + (s.submissions.map Submission.sessionsAdded).sum)

/-- A write to a session child leaves the counters alone. -/
theorem counters_apply {w : Write} (h : Hours) (hw : w.key?.isSome) :
    (h.apply w).totalHours = h.totalHours ∧ (h.apply w).numSessions = h.numSessions := by
  cases w with
  | numSessions m | totalHours t credit => cases hw
  | _ => exact ⟨rfl, rfl⟩

/-- Without an answer `Yes` a device writes to session children only. -/
theorem writes_of_noRecording {view : Hours} {vc vc' : RecordViewController} {e : Event}
    {ws : List Write} {d : ℕ} (ha : NoRecording (.ios d e)) (h : Transition view vc e vc' ws) :
    ∀ w ∈ ws, w.key?.isSome := by
  rcases RecordViewController.writes_of_transition h with
    rfl | ⟨n, now, rfl⟩ | ⟨n, rfl⟩ | ⟨i, dlg, t, rfl, -⟩
  · simp
  · simp [Write.key?]
  · simp [dismissSession, Write.key?]
  · exact ha.elim

theorem accepted_of_noRecording {s : Account} {d : ℕ} {e : Event} (ha : NoRecording (.ios d e)) :
    accepted s (.ios d e) = [] := by
  cases e with
  | yes i => exact ha.elim
  | _ => rfl

namespace CommitsInv

variable {q : ℚ} {n : ℤ} {s t : Account} {credits : List ℚ}

/-- The submissions and the counters stay as they are. -/
theorem of_eq (h : CommitsInv q n s credits) (hinv : SubmissionsInv t)
    (hout : ∀ e ∈ t.outbox, e.write.key?.isSome) (hsub : t.submissions = s.submissions)
    (hhours : t.db.totalHours = s.db.totalHours) (hnumber : t.db.numSessions = s.db.numSessions) :
    CommitsInv q n t credits where
  submissions := hinv
  outbox := hout
  submitted := by rw [hsub, h.submitted]
  totalHours := by rw [hhours, hsub, h.totalHours]
  numSessions hbound := by rw [hnumber, hsub, h.numSessions hbound]

/-- One submission goes on, and what its transactions add is added to the counters. -/
theorem set (h : CommitsInv q n s credits) {i : ℕ} {sub sub' : Submission}
    (hsub : s.submissions[i]? = some sub) (ht : t.submissions = s.submissions.set i sub')
    (hp : sub'.popup = sub.popup) (hinv : SubmissionsInv t)
    (hout : ∀ e ∈ t.outbox, e.write.key?.isSome)
    (hhours : ∀ x, s.db.totalHours = some x →
      t.db.totalHours = some (x + (sub'.hoursAdded - sub.hoursAdded)))
    (hnumber : n + credits.length ≤ 2 ^ 31 - 1 → ∀ x, s.db.numSessions = some x →
      t.db.numSessions = some (x + (sub'.sessionsAdded - sub.sessionsAdded))) :
    CommitsInv q n t credits where
  submissions := hinv
  outbox := hout
  submitted := by
    obtain ⟨hi, rfl⟩ := List.getElem?_eq_some_iff.1 hsub
    have hlen : i < (s.submissions.map fun sub => androidCredit sub.popup.diff).length := by
      simpa using hi
    rw [ht, List.map_set, hp, ← h.submitted]
    conv_rhs => rw [← List.set_getElem_self hlen, List.getElem_map]
  totalHours := by
    rw [hhours _ h.totalHours, ht, sum_map_set Submission.hoursAdded hsub, add_assoc]
  numSessions hbound := by
    rw [hnumber hbound _ (h.numSessions hbound), ht, sum_map_set Submission.sessionsAdded hsub,
      add_assoc]

/-- One submission goes on without adding anything. -/
theorem set_quiet (h : CommitsInv q n s credits) {i : ℕ} {sub sub' : Submission}
    (hsub : s.submissions[i]? = some sub) (ht : t.submissions = s.submissions.set i sub')
    (hp : sub'.popup = sub.popup) (hinv : SubmissionsInv t)
    (hout : ∀ e ∈ t.outbox, e.write.key?.isSome)
    (hdb : t.db = s.db) (hhours : sub'.hoursAdded = sub.hoursAdded)
    (hnumber : sub'.sessionsAdded = sub.sessionsAdded) : CommitsInv q n t credits := by
  refine h.set hsub ht hp hinv hout (fun x hx => ?_) fun _ x hx => ?_
  · rw [hdb, hx, hhours, sub_self, add_zero]
  · rw [hdb, hx, hnumber, sub_self, add_zero]

/-- As long as a submission has not been counted, the number of sessions is below the largest. -/
theorem lt_of_not_added (h : CommitsInv q n s credits) {i : ℕ} {sub : Submission}
    (hsub : s.submissions[i]? = some sub) (hadded : sub.sessionsAdded = 0)
    (hbound : n + credits.length ≤ 2 ^ 31 - 1) {m : ℤ} (hm : s.db.numSessions = some m) :
    m < 2 ^ 31 - 1 := by
  have hvalue : m = n + (s.submissions.map Submission.sessionsAdded).sum :=
    Option.some.inj (hm.symm.trans (h.numSessions hbound))
  -- if it had been counted as well, the sum would still be at most the number of submissions
  obtain ⟨sub', hadded'⟩ : ∃ sub' : Submission, sub'.sessionsAdded = 1 :=
    ⟨{ sub with numSessions := some (.committed none) }, rfl⟩
  have hsum := sum_map_set Submission.sessionsAdded hsub sub'
  have hle : ((s.submissions.set i sub').map Submission.sessionsAdded).sum ≤
      (s.submissions.set i sub').length • (1 : ℤ) := by
    rw [← List.length_map (f := Submission.sessionsAdded)]
    refine List.sum_le_card_nsmul _ _ fun x hx => ?_
    obtain ⟨sub'', -, rfl⟩ := List.mem_map.1 hx
    exact Submission.sessionsAdded_le sub''
  have hlen : credits.length = s.submissions.length := by rw [← h.submitted, List.length_map]
  rw [List.length_set, nsmul_one] at hle
  omega

/-- **The counters stay what the committed transactions make of them** under every action that is
no recording of an iOS device. -/
theorem trans (h : CommitsInv q n s credits) {a : Action} (hst : Trans s a t)
    (ha : NoRecording a) : CommitsInv q n t (credits ++ accepted s a) := by
  have hinv : SubmissionsInv t := h.submissions.trans hst
  have hsound : ∀ {i : ℕ} {sub : Submission}, s.submissions[i]? = some sub → sub.Sound :=
    fun hsub => h.submissions.sound _ (List.mem_of_getElem? hsub)
  have hquiet : ∀ {t' : Account}, CommitsInv q n t' credits →
      CommitsInv q n t' (credits ++ []) := by
    simp
  cases hst with
  | @ios d e vc ws htr =>
      rw [accepted_of_noRecording ha]
      refine hquiet ?_
      refine h.of_eq hinv (fun f hf => ?_) rfl rfl rfl
      rcases List.mem_append.1 hf with hf | hf
      · exact h.outbox f hf
      · obtain ⟨w, hw, rfl⟩ := List.mem_map.1 hf
        exact writes_of_noRecording ha htr w hw
  | toggle _ | decline _ =>
      refine hquiet ?_
      exact h.of_eq hinv h.outbox rfl rfl rfl
  | @submit c i popup hi =>
      have hacc : accepted s (.submit c i) = [androidCredit popup.diff] := by simp [accepted, hi]
      rw [hacc]
      refine ⟨hinv, h.outbox, ?_, ?_, fun hbound => ?_⟩
      · rw [List.map_append, h.submitted]
        rfl
      · rw [h.totalHours, List.map_append, List.sum_append]
        simp [Submission.start, Submission.hoursAdded]
      · rw [List.length_append, List.length_singleton] at hbound
        rw [h.numSessions (by omega), List.map_append, List.sum_append]
        simp [Submission.start, Submission.sessionsAdded]
  | @deliver i sub hsub hd =>
      obtain ⟨hnone, hnone'⟩ := (hsound hsub).undelivered hd
      refine hquiet ?_
      refine h.set_quiet hsub rfl rfl hinv h.outbox rfl ?_ ?_
      · simp [Submission.hoursAdded, Submission.onDataChange, hnone, h.submissions.totalHours,
          Transaction.added]
      · simp [Submission.sessionsAdded, Submission.onDataChange, hnone', h.submissions.numSessions,
          Transaction.added]
  | @runHours i v sub hsub hq =>
      refine hquiet ?_
      refine h.set_quiet hsub rfl rfl hinv h.outbox rfl ?_ rfl
      simp [Submission.hoursAdded, hq, Transaction.added]
  | @hoursCommit i sub base new hsub htr hb =>
      -- the server takes the result because the counter is what the handler was run on
      obtain ⟨x, hx, rfl⟩ := hours_commit h.submissions (hsound hsub) htr hb
      refine hquiet ?_
      refine h.set hsub rfl rfl hinv h.outbox (fun y hy => ?_) fun _ y hy => ?_
      · obtain rfl : x = y := Option.some.inj (hx.symm.trans hy)
        simp [Submission.hoursAdded, htr, Transaction.added]
      · simpa [Submission.sessionsAdded] using hy
  | @hoursRetry i sub base new hsub htr hb =>
      refine hquiet ?_
      refine h.set_quiet hsub rfl rfl hinv h.outbox rfl ?_ rfl
      simp [Submission.hoursAdded, htr, Transaction.added]
  | @runSessions i v new sub hsub hq hv =>
      refine hquiet ?_
      refine h.set_quiet hsub rfl rfl hinv (fun f hf => ?_) rfl rfl ?_
      · rcases List.mem_append.1 hf with hf | hf
        · exact h.outbox f hf
        · obtain ⟨w, hw, rfl⟩ := List.mem_map.1 hf
          obtain ⟨m, -, rfl⟩ := List.mem_map.1 hw
          cases (s.fragment sub.client).studySession <;> rfl
      · simp [Submission.sessionsAdded, hq, Transaction.added]
  | @sessionsAbort i v sub hsub hq hv =>
      refine hquiet ?_
      refine h.set_quiet hsub rfl rfl hinv h.outbox rfl rfl ?_
      simp [Submission.sessionsAdded, hq, Transaction.added]
  | @sessionsCommit i sub base new hsub htr hb =>
      have hadded : sub.sessionsAdded = 0 := by
        rw [Submission.sessionsAdded, htr]
        rfl
      obtain ⟨x, hx, hint, -, rfl⟩ := sessions_commit h.submissions (hsound hsub) htr hb
      refine hquiet ?_
      refine h.set hsub rfl rfl hinv h.outbox (fun y hy => ?_) fun hbound y hy => ?_
      · simpa [Submission.hoursAdded] using hy
      · obtain rfl : x = y := Option.some.inj (hx.symm.trans hy)
        have hlt := h.lt_of_not_added hsub hadded hbound hx
        rw [hadded, sub_zero]
        exact congrArg some (integerSucc_of_lt hint hlt)
  | @sessionsRetry i sub base new hsub htr hb =>
      refine hquiet ?_
      refine h.set_quiet hsub rfl rfl hinv h.outbox rfl rfl ?_
      simp [Submission.sessionsAdded, htr, Transaction.added]
  | @land j l₁ l₂ e hout hj hfirst =>
      refine hquiet ?_
      obtain ⟨hhours, hnumber⟩ := counters_apply s.db (h.outbox e (by simp [hout]))
      refine h.of_eq hinv (fun f hf => ?_) rfl hhours hnumber
      refine h.outbox f ?_
      rw [hout]
      rcases List.mem_append.1 hf with hf | hf
      · exact List.mem_append_left _ hf
      · exact List.mem_append_right _ (List.mem_cons_of_mem _ hf)

/-- The counters after a run. -/
theorem run (h : CommitsInv q n s []) {acts : List Action} (hacts : ∀ a ∈ acts, NoRecording a)
    {u : Account} (hrun : Execution.run step s acts = some u) :
    CommitsInv q n u (Execution.collect step accepted s acts) := by
  revert hacts
  refine Execution.run_induction (P := fun acts u => (∀ a ∈ acts, NoRecording a) →
    CommitsInv q n u (Execution.collect step accepted s acts)) (fun _ => h) ?_ acts u hrun
  intro acts t a u ht ih hu hacts
  have hinv := ih fun b hb => hacts b (List.mem_append_left _ hb)
  rw [Execution.collect_snoc ht]
  exact hinv.trans (trans_of_step hu) (hacts a (by simp))

end CommitsInv

/-! ### All transactions have committed -/

/-- **The transactions lose no update.**  From an account with both counters, as long as no iOS
device records a session, neither counter is ever missing, whatever values the handlers are run on;
and when all transactions have committed, the counters have grown by what was submitted. -/
theorem counters_of_committed {s u : Account} {acts : List Action} {q : ℚ} {n : ℤ}
    (hs : SubmissionsInv s) (hhours : s.db.totalHours = some q)
    (hnumber : s.db.numSessions = some n) (hsub : s.submissions = [])
    (hout : ∀ e ∈ s.outbox, e.write.key?.isSome)
    (hacts : ∀ a ∈ acts, NoRecording a) (hrun : Execution.run step s acts = some u) :
    (u.db.totalHours.isSome ∧ u.db.numSessions.isSome) ∧
      ((∀ sub ∈ u.submissions, sub.Committed) →
        u.db.totalHours = some (q + (Execution.collect step accepted s acts).sum) ∧
        (n + (Execution.collect step accepted s acts).length ≤ 2 ^ 31 - 1 →
          u.db.numSessions = some (n + (Execution.collect step accepted s acts).length))) := by
  have hfirst : CommitsInv q n s [] :=
    ⟨hs, hout, by simp [hsub], by simp [hsub, hhours], fun _ => by simp [hsub, hnumber]⟩
  have hinv := hfirst.run hacts hrun
  refine ⟨⟨hinv.submissions.totalHours, hinv.submissions.numSessions⟩, fun hall => ?_⟩
  have hhoursAdded : u.submissions.map Submission.hoursAdded =
      Execution.collect step accepted s acts := by
    rw [← hinv.submitted]
    exact List.map_congr_left fun sub hmem => (hall sub hmem).hoursAdded
  have hsessionsAdded : (u.submissions.map Submission.sessionsAdded).sum =
      (Execution.collect step accepted s acts).length := by
    rw [← hinv.submitted, List.map_congr_left fun sub hmem => (hall sub hmem).sessionsAdded]
    simp
  refine ⟨by rw [hinv.totalHours, hhoursAdded], fun hbound => ?_⟩
  rw [hinv.numSessions hbound, hsessionsAdded]

/-- Two clients run and submit a session each; both handlers of `totalHours` are run on the first
value, then one of them again on nothing and again on the new value. -/
def twoSubmissions : List Action :=
  [.toggle 0 0 0, .toggle 1 0 0, .toggle 0 3600000 3600000, .toggle 1 1980000 1980000,
    .submit 0 0, .submit 1 0, .deliver 0, .deliver 1, .runHours 0 (some 0), .runHours 1 (some 0),
    .commitHours 1, .commitHours 0, .runHours 0 none, .commitHours 0, .runHours 0 (some (3 / 5)),
    .runSessions 0 (some 0), .runSessions 1 none, .commitSessions 1, .commitSessions 0,
    .runSessions 1 (some 1), .commitSessions 1, .commitHours 0]

theorem counters_twoSubmissions : ∃ u,
    Execution.run step (atRest (Hours.created "A") .closed) twoSubmissions = some u ∧
      u.db.totalHours = some (8 / 5) ∧ u.db.numSessions = some 2 := by
  obtain ⟨u, hu, hsubs⟩ : ∃ u,
      Execution.run step (atRest (Hours.created "A") .closed) twoSubmissions = some u ∧
        u.submissions.map (fun sub => (sub.totalHours, sub.numSessions)) =
          [(some (.committed (some (3 / 5))), some (.committed (some 0))),
            (some (.committed (some 0)), some (.committed (some 1)))] :=
    Execution.exists_run (by decide +kernel)
  have hcredits : Execution.collect step accepted (atRest (Hours.created "A") .closed)
      twoSubmissions = [1, 3 / 5] := by decide +kernel
  have hinv : SubmissionsInv (atRest (Hours.created "A") .closed) :=
    { numSessions := rfl
      totalHours := rfl
      popups := fun _ _ hp => absurd hp List.not_mem_nil
      sound := fun _ hsub => absurd hsub List.not_mem_nil }
  obtain ⟨-, hall⟩ := counters_of_committed hinv rfl rfl rfl (by simp [atRest]) (by decide) hu
  have hcommitted : ∀ sub ∈ u.submissions, sub.Committed := by
    intro sub hsub
    have hmem := List.mem_map_of_mem (f := fun sub => (sub.totalHours, sub.numSessions)) hsub
    rw [hsubs] at hmem
    simp only [List.mem_cons, Prod.mk.injEq, List.not_mem_nil, or_false] at hmem
    rcases hmem with ⟨hh, hn⟩ | ⟨hh, hn⟩
    · exact ⟨⟨_, hh⟩, _, hn⟩
    · exact ⟨⟨_, hh⟩, _, hn⟩
  obtain ⟨hhours, hnumber⟩ := hall hcommitted
  rw [hcredits] at hhours hnumber
  refine ⟨u, hu, hhours.trans (congrArg some ?_), hnumber (by decide)⟩
  norm_num

end StudyHours
