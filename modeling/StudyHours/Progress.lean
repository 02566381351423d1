/-
**Whatever is under way can be brought to an end.**

A submission waits for its read, for runs of its two handlers, and for the answers of the server,
which may turn a result down any number of times; writes wait in their rows until they land.  All of
this is done by the network and by callbacks.  It never comes to a standstill: from every state
that a run can reach, some further deliveries, runs, commits and landings lead to a state in which
nothing is under way, without anything being done by a user.  If the writes in flight land first,
then each of the submissions adds its hours in full.

Main definitions:

* `StudyHours.ByNetwork` — the actions that no user takes;
* `StudyHours.Goes` — what the end of some submissions leaves of the state before.

Main results:

* `StudyHours.lands` — the writes in flight can land;
* `StudyHours.finishes` — a submission can be completed, and adds its hours;
* `StudyHours.settles` — **every run can be continued by the network until nothing is under
  way**.
-/

import Mathlib
import StudyHours.Credits
import StudyHours.Execution

set_option relaxedAutoImplicit false
set_option autoImplicit false

namespace StudyHours

open Account
open Execution (Leads)

/-! ### The actions of the network -/

/-- The action is a callback, or reaches the server; no user takes it. -/
def ByNetwork : Action → Prop
  | .deliver _ | .runHours _ _ | .commitHours _ | .runSessions _ _ | .commitSessions _ | .land _ =>
      True
  | .ios _ _ | .toggle _ _ _ | .submit _ _ | .decline _ _ => False

/-- The inversion of such an action can be reversed. -/
theorem step_of_trans {s t : Account} {a : Action} (ha : ByNetwork a) (h : Trans s a t) :
    step s a = some t := by
  cases h with
  | ios _ | toggle _ | submit _ | decline _ => exact ha.elim
  | deliver hsub hd => simp [step, hsub, hd]
  | runHours hsub hq => simp [step, hsub, hq]
  | hoursCommit hsub ht hb => simp [step, hsub, ht, hb]
  | hoursRetry hsub ht hb => simp [step, hsub, ht, hb]
  | runSessions hsub hq hv => simp [step, hsub, hq, hv]
  | sessionsAbort hsub hq hv => simp [step, hsub, hq, hv]
  | sessionsCommit hsub ht hb => simp [step, hsub, ht, hb]
  | sessionsRetry hsub ht hb => simp [step, hsub, ht, hb]
  | land hout hj hfirst =>
      subst hj
      simpa [step, hout] using hfirst

/-- One action of the network leads on. -/
theorem leads_of_trans {s t : Account} {a : Action} {Q : Account → Prop} (h : Trans s a t)
    (ha : ByNetwork a) (hQ : Leads step ByNetwork t Q) : Leads step ByNetwork s Q :=
  .cons ha (step_of_trans ha h) hQ

/-! ### Landings -/

/-- **The writes in flight can land**, in the order in which they were issued. -/
theorem lands (s : Account) : Leads step ByNetwork s fun u => u.outbox = [] ∧
    u.submissions = s.submissions ∧ u.fragment = s.fragment ∧
      u.db = s.db.applyAll (s.outbox.map Entry.write) := by
  generalize hout : s.outbox = out
  induction out generalizing s with
  | nil => exact .refl ⟨hout, rfl, rfl, rfl⟩
  | cons e l ih =>
      have hland : Trans s (.land 0) (s.landed [] e l) := .land hout rfl nofun
      refine leads_of_trans hland trivial ((ih (s.landed [] e l) rfl).mono ?_)
      rintro u ⟨hempty, hsubs, hfragment, hdb⟩
      exact ⟨hempty, hsubs, hfragment, hdb⟩

/-! ### One submission -/

/-- The submissions have gone on from `s` to `t`, and `hours` have been added to the total: no write
but sessions has been issued, and nothing else has changed. -/
structure Goes (s t : Account) (hours : ℚ) : Prop where
  fragment : t.fragment = s.fragment
  totalHours : t.db.totalHours = s.db.totalHours.map (· + hours)
  outbox : ∃ l, t.outbox = s.outbox ++ l ∧
    ∀ e ∈ l, ∃ c i studySession n, e = ⟨.android c i, sessionWrite studySession n⟩

namespace Goes

variable {s t u : Account} {x y : ℚ}

theorem refl (s : Account) : Goes s s 0 where
  fragment := rfl
  totalHours := by simp
  outbox := ⟨[], (List.append_nil _).symm, nofun⟩

theorem trans (h : Goes s t x) (h' : Goes t u y) : Goes s u (x + y) where
  fragment := h'.fragment.trans h.fragment
  totalHours := by
    rw [h'.totalHours, h.totalHours, Option.map_map]
    refine congrArg (Option.map · s.db.totalHours) (funext fun q => ?_)
    exact add_assoc q x y
  outbox := by
    obtain ⟨l, hl, hsessions⟩ := h.outbox
    obtain ⟨l', hl', hsessions'⟩ := h'.outbox
    refine ⟨l ++ l', by rw [hl', hl, List.append_assoc], fun e he => ?_⟩
    rcases List.mem_append.1 he with he | he
    · exact hsessions e he
    · exact hsessions' e he

end Goes

section Steps

variable {s : Account} {i : ℕ} {sub : Submission}

/-- The submission of a number after it has gone on. -/
theorem get_set (hsub : s.submissions[i]? = some sub) (sub' : Submission) :
    (s.submissions.set i sub')[i]? = some sub' := by
  obtain ⟨hi, -⟩ := List.getElem?_eq_some_iff.1 hsub
  rw [List.getElem?_set_self hi]

/-- The number of a submission stays the one of what it becomes. -/
theorem set_get (hsub : s.submissions[i]? = some sub) :
    s.submissions.set i sub = s.submissions := by
  obtain ⟨hi, rfl⟩ := List.getElem?_eq_some_iff.1 hsub
  exact List.set_getElem_self hi

/-- **The transaction of the hours can be completed**: its handler is run on the value that the
server holds, and the server takes the result. -/
theorem finishes_hours_queued (hsub : s.submissions[i]? = some sub)
    (hq : sub.totalHours = some .queued) : Leads step ByNetwork s fun t => ∃ tr : Transaction ℚ,
      tr.Over ∧ t.submissions = s.submissions.set i { sub with totalHours := some tr } ∧
        Goes s t (androidCredit sub.popup.diff) := by
  refine leads_of_trans (.runHours (v := s.db.totalHours) hsub hq) trivial
    (leads_of_trans (.hoursCommit (get_set hsub _) rfl rfl) trivial (.refl ?_))
  refine ⟨.committed s.db.totalHours, trivial, ?_, rfl, rfl, [], (List.append_nil _).symm, nofun⟩
  exact List.set_set ..

theorem finishes_hours (hsub : s.submissions[i]? = some sub) (hsound : sub.Sound)
    {tr : Transaction ℚ} (htr : sub.totalHours = some tr) :
    Leads step ByNetwork s fun t => ∃ tr' : Transaction ℚ, tr'.Over ∧
      t.submissions = s.submissions.set i { sub with totalHours := some tr' } ∧
      Goes s t (tr.due (androidCredit sub.popup.diff)) := by
  have hsame : s.submissions = s.submissions.set i { sub with totalHours := some tr } := by
    rw [← htr, set_get hsub]
  cases tr with
  | committed base => exact .refl ⟨.committed base, trivial, hsame, .refl s⟩
  | aborted => exact .refl ⟨.aborted, trivial, hsame, .refl s⟩
  | queued => exact finishes_hours_queued hsub htr
  | sent base new =>
      by_cases hbase : s.db.totalHours = base
      · refine leads_of_trans (.hoursCommit hsub htr hbase) trivial (.refl ?_)
        refine ⟨.committed base, trivial, rfl, rfl, ?_, [], (List.append_nil _).symm, nofun⟩
        rw [hsound.hours base new htr, ← hbase]
        rfl
      · -- the result is turned down, and the handler is run again
        refine leads_of_trans (.hoursRetry hsub htr hbase) trivial
          ((finishes_hours_queued (get_set hsub _) rfl).mono ?_)
        rintro t ⟨tr', hover, hsubs, hgoes⟩
        refine ⟨tr', hover, ?_, hgoes.fragment, hgoes.totalHours, hgoes.outbox⟩
        rw [hsubs]
        exact List.set_set ..

/-- **The transaction of the number of sessions can be completed**, or the handler throws. -/
theorem finishes_sessions_queued (hsub : s.submissions[i]? = some sub)
    (hq : sub.numSessions = some .queued) : Leads step ByNetwork s fun t => ∃ tr : Transaction ℤ,
      tr.Over ∧ t.submissions = s.submissions.set i { sub with numSessions := some tr } ∧
        Goes s t 0 := by
  have hhours : ∀ q : Option ℚ, q = q.map (· + 0) := by simp
  cases hv : numSessionsTransaction s.db.numSessions with
  | none =>
      refine leads_of_trans (.sessionsAbort hsub hq hv) trivial (.refl ?_)
      exact ⟨.aborted, trivial, rfl, rfl, hhours _, [], (List.append_nil _).symm, nofun⟩
  | some new =>
      refine leads_of_trans (.runSessions hsub hq hv) trivial
        (leads_of_trans (.sessionsCommit (get_set hsub _) rfl rfl) trivial (.refl ?_))
      refine ⟨.committed s.db.numSessions, trivial, List.set_set .., rfl, hhours _,
        s.handlerWrites i sub new, rfl, fun e he => ?_⟩
      obtain ⟨w, hw, rfl⟩ := List.mem_map.1 he
      obtain ⟨n, -, rfl⟩ := List.mem_map.1 hw
      exact ⟨_, _, _, n, rfl⟩

theorem finishes_sessions (hsub : s.submissions[i]? = some sub) {tr : Transaction ℤ}
    (htr : sub.numSessions = some tr) :
    Leads step ByNetwork s fun t => ∃ tr' : Transaction ℤ, tr'.Over ∧
      t.submissions = s.submissions.set i { sub with numSessions := some tr' } ∧ Goes s t 0 := by
  have hsame : s.submissions = s.submissions.set i { sub with numSessions := some tr } := by
    rw [← htr, set_get hsub]
  cases tr with
  | committed base => exact .refl ⟨.committed base, trivial, hsame, .refl s⟩
  | aborted => exact .refl ⟨.aborted, trivial, hsame, .refl s⟩
  | queued => exact finishes_sessions_queued hsub htr
  | sent base new =>
      by_cases hbase : s.db.numSessions = base
      · refine leads_of_trans (.sessionsCommit hsub htr hbase) trivial (.refl ?_)
        refine ⟨.committed base, trivial, rfl, rfl, ?_, [], (List.append_nil _).symm, nofun⟩
        change s.db.totalHours = _
        simp
      · refine leads_of_trans (.sessionsRetry hsub htr hbase) trivial
          ((finishes_sessions_queued (get_set hsub _) rfl).mono ?_)
        rintro t ⟨tr', hover, hsubs, hgoes⟩
        refine ⟨tr', hover, ?_, hgoes.fragment, hgoes.totalHours, hgoes.outbox⟩
        rw [hsubs]
        exact List.set_set ..

/-- Both transactions of a submission, once they have been started. -/
theorem finishes_started (hsub : s.submissions[i]? = some sub) (hsound : sub.Sound)
    (hd : sub.delivered = true) : Leads step ByNetwork s fun t => ∃ sub' : Submission,
      sub'.Over ∧ t.submissions = s.submissions.set i sub' ∧ Goes s t (hoursCredits sub).sum := by
  obtain ⟨hhours, hsessions⟩ := hsound.started hd
  obtain ⟨tr, htr⟩ := Option.isSome_iff_exists.1 hhours
  obtain ⟨tr', htr'⟩ := Option.isSome_iff_exists.1 hsessions
  have hdue : (hoursCredits sub).sum = tr.due (androidCredit sub.popup.diff) := by
    rw [hoursCredits, Submission.due, if_pos hd, htr]
    cases tr <;> simp [Transaction.due]
  refine (finishes_hours hsub hsound htr).trans fun t ht => ?_
  obtain ⟨tr₁, hover, hsubs, hgoes⟩ := ht
  have hget : t.submissions[i]? = some { sub with totalHours := some tr₁ } := by
    rw [hsubs]
    exact get_set hsub _
  refine (finishes_sessions hget htr').mono fun u hu => ?_
  obtain ⟨tr₂, hover', hsubs', hgoes'⟩ := hu
  refine ⟨{ sub with totalHours := some tr₁, numSessions := some tr₂ }, ⟨hd, ?_, ?_⟩, ?_, ?_⟩
  · rintro x ⟨⟩
    exact hover
  · rintro x ⟨⟩
    exact hover'
  · rw [hsubs', hsubs]
    exact List.set_set ..
  · rw [hdue, ← add_zero (tr.due _)]
    exact hgoes.trans hgoes'

/-- **A submission can be completed**, and adds what it has still to add. -/
theorem finishes (hsub : s.submissions[i]? = some sub) (h : SubmissionsInv s) :
    Leads step ByNetwork s fun t => ∃ sub' : Submission,
      sub'.Over ∧ t.submissions = s.submissions.set i sub' ∧ Goes s t (hoursCredits sub).sum := by
  have hsound := h.sound sub (List.mem_of_getElem? hsub)
  cases hd : sub.delivered with
  | true => exact finishes_started hsub hsound hd
  | false =>
      have hsound' := hsound.onDataChange h.numSessions h.totalHours
      have hcredits : hoursCredits (sub.onDataChange s.db) = hoursCredits sub := by
        simp [hoursCredits, Submission.due, Submission.onDataChange, hd, h.totalHours,
          Transaction.due]
      refine leads_of_trans (.deliver hsub hd) trivial
        ((finishes_started (get_set hsub _) hsound' rfl).mono ?_)
      rintro t ⟨sub', hover, hsubs, hgoes⟩
      rw [hcredits] at hgoes
      refine ⟨sub', hover, ?_, hgoes.fragment, hgoes.totalHours, hgoes.outbox⟩
      rw [hsubs]
      exact List.set_set ..

end Steps

/-! ### All submissions -/

/-- All submissions can be completed, one after the other. -/
theorem finishes_all {s : Account} (h : SubmissionsInv s) {done rest : List Submission}
    (hsubs : s.submissions = done ++ rest) (hdone : ∀ sub ∈ done, sub.Over) :
    Leads step ByNetwork s fun t => (∀ sub ∈ t.submissions, sub.Over) ∧
      Goes s t (rest.map hoursCredits).sum.sum := by
  induction rest generalizing s done with
  | nil =>
      refine .refl ⟨?_, .refl s⟩
      rw [hsubs, List.append_nil]
      exact hdone
  | cons sub rest ih =>
      have hget : s.submissions[done.length]? = some sub := by simp [hsubs]
      have hkeep : ∀ s a t, SubmissionsInv s → step s a = some t → SubmissionsInv t :=
        fun s a t hs hst => hs.trans (trans_of_step hst)
      refine ((finishes hget h).invariant hkeep h).trans fun t ht => ?_
      obtain ⟨ht, sub', hover, hset, hgoes⟩ := ht
      have hsubs' : t.submissions = (done ++ [sub']) ++ rest := by
        rw [hset, hsubs]
        simp
      refine (ih ht hsubs' fun x hx => ?_).mono fun u hu => ⟨hu.1, ?_⟩
      · rcases List.mem_append.1 hx with hx | hx
        · exact hdone x hx
        · rwa [List.mem_singleton.1 hx]
      · rw [List.map_cons, List.sum_cons, Multiset.sum_add]
        exact hgoes.trans hu.2

/-- Sessions that land leave the total alone. -/
theorem totalHours_applyAll_sessions {l : List Entry}
    (hl : ∀ e ∈ l, ∃ c i studySession n, e = ⟨.android c i, sessionWrite studySession n⟩)
    (h : Hours) : (h.applyAll (l.map Entry.write)).totalHours = h.totalHours := by
  induction l generalizing h with
  | nil => rfl
  | cons e l ih =>
      obtain ⟨c, i, studySession, n, rfl⟩ := hl e List.mem_cons_self
      rw [List.map_cons, Hours.applyAll_cons, ih fun e he => hl e (List.mem_cons_of_mem _ he)]
      cases studySession <;> rfl

/-- **Every run can be continued by the network until nothing is under way.**  If what is in flight
lands first, then each submission under way adds its hours in full. -/
theorem settles {s t : Account} {acts : List Action} (h : Quiescent s)
    (hn : s.db.numSessions.isSome) (hh : s.db.totalHours.isSome)
    (hrun : Execution.run step s acts = some t) :
    ∃ q, (t.db.applyAll (t.outbox.map Entry.write)).totalHours = some q ∧
      Leads step ByNetwork t fun u => Settled u ∧ u.fragment = t.fragment ∧
        u.db.totalHours = some (q + (openCredits hoursCredits t).sum) := by
  have hkeep : ∀ s a t, SubmissionsInv s → step s a = some t → SubmissionsInv t :=
    fun s a t hs hst => hs.trans (trans_of_step hst)
  have hinv : SubmissionsInv t :=
    Execution.run_invariant hkeep (h.screensInv hn hh).submissions hrun
  have hlanded := (Hours.isSome_applyAll hinv.numSessions hinv.totalHours
    (t.outbox.map Entry.write)).2
  obtain ⟨q, hq⟩ := Option.isSome_iff_exists.1 hlanded
  refine ⟨q, hq, ((lands t).invariant hkeep hinv).trans fun t₁ ht₁ => ?_⟩
  obtain ⟨hinv₁, hout₁, hsubs₁, hfragment₁, hdb₁⟩ := ht₁
  have hfinish : Leads step ByNetwork t₁ fun t => (∀ sub ∈ t.submissions, sub.Over) ∧
      Goes t₁ t (t₁.submissions.map hoursCredits).sum.sum :=
    finishes_all hinv₁ (List.nil_append t₁.submissions).symm (List.forall_mem_nil _)
  refine hfinish.trans fun t₂ ht₂ => ?_
  obtain ⟨hover, hgoes⟩ := ht₂
  refine (lands t₂).mono fun u hu => ?_
  obtain ⟨hout, hsubs, hfragment, hdb⟩ := hu
  refine ⟨⟨hout, by rwa [hsubs]⟩, hfragment.trans (hgoes.fragment.trans hfragment₁), ?_⟩
  obtain ⟨l, hl, hsessions⟩ := hgoes.outbox
  rw [hout₁, List.nil_append] at hl
  rw [hdb, hl, totalHours_applyAll_sessions hsessions, hgoes.totalHours, hdb₁, hq, hsubs₁,
    Option.map_some, openCredits]

/-- A submission whose result has been turned down, while an iOS device has a total in flight. -/
theorem settles_overtaken : ∃ t, Execution.run step (atRest (Hours.created "A") .closed)
      (startAndStop ++ androidSession.take 5 ++ [.ios 0 (.yes 0)]) = some t ∧
    ∃ q, (t.db.applyAll (t.outbox.map Entry.write)).totalHours = some q ∧
      Leads step ByNetwork t fun u => Settled u ∧ u.fragment = t.fragment ∧
        u.db.totalHours = some (q + (openCredits hoursCredits t).sum) := by
  have ht := Option.eq_some_of_isSome (show (Execution.run step (atRest (Hours.created "A") .closed)
    (startAndStop ++ androidSession.take 5 ++ [.ios 0 (.yes 0)])).isSome by decide)
  exact ⟨_, ht, settles (quiescent_atRest _ _) rfl rfl ht⟩

end StudyHours
