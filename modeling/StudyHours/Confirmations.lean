/-
**Confirmed sessions and the two counters.**

The dialog of the iOS client captures the values of `numSessions` and `totalHours` that were read
when the record button was tapped, and an answer writes these values, increased, whatever the
counters hold by then.  The Android client updates the same counters by transactions.  Here the two
counters are shown to be counters in the sense of `StudyHours.Counter`, and with it in which runs
they count every session: those in which each write of an iOS device finds the counter at the value
it was computed from.

Main definitions:

* `StudyHours.sessionsCounter`, `StudyHours.hoursCounter` — the two counters;
* `StudyHours.Current` — an action loses no update;
* `StudyHours.Settled` — everything has landed.

Main results:

* `StudyHours.counters_grow_iff_current` — **at the end of a run both counters have grown by what
  was accepted if and only if no action of the run lost an update**;
* `StudyHours.not_counters_grow` — a run that loses one.
-/

import Mathlib
import StudyHours.Counter

set_option relaxedAutoImplicit false
set_option autoImplicit false

namespace StudyHours

open Account
open RecordViewController (Event)

/-! ### The two counters -/

/-- What a transaction has still to add, if a completed one adds `amount`. -/
def Transaction.due {α β : Type} [Zero β] (amount : β) : Transaction α → β
  | queued | sent _ _ => amount
  | committed _ | aborted => 0

/-- What a submission has still to add to a counter. -/
def Submission.due {α β : Type} [Zero β] (sub : Submission) (tr : Option (Transaction α))
    (amount : β) : β :=
  if sub.delivered then (tr.map (Transaction.due amount)).getD 0 else amount

theorem Submission.due_over {α β : Type} [Zero β] {sub : Submission} {tr : Option (Transaction α)}
    (hd : sub.delivered = true) (htr : ∀ t ∈ tr, t.Over) (amount : β) : sub.due tr amount = 0 := by
  rw [due, if_pos hd]
  cases tr with
  | none => rfl
  | some t => cases t with
    | queued | sent _ _ => exact (htr _ rfl).elim
    | committed _ | aborted => rfl

/-- The number of sessions. -/
def sessionsCounter : Counter ℤ where
  held x := x.1
  put?
    | .numSessions n => some (n, 1)
    | _ => none
  amount _ := 1
  due sub := sub.due sub.numSessions 1
  Keeps s
    | .runSessions _ v => ∀ n ∈ v, InInteger n
    | .commitSessions i => ∀ sub ∈ s.submissions[i]?, ∀ tr ∈ sub.numSessions,
        tr.base? = some s.db.numSessions → s.db.numSessions ≠ some (2 ^ 31 - 1)
    | _ => True

/-- The number of hours. -/
def hoursCounter : Counter ℚ where
  held x := x.2
  put?
    | .totalHours t credit => some (t, credit)
    | _ => none
  amount credit := credit
  due sub := sub.due sub.totalHours (androidCredit sub.popup.diff)
  Keeps _ _ := True

/-! ### Submissions -/

/-- A sum over the submissions after one of them has gone on. -/
theorem sum_map_set {α : Type} [AddCommGroup α] (f : Submission → α) {subs : List Submission}
    {i : ℕ} {sub : Submission} (hsub : subs[i]? = some sub) (sub' : Submission) :
    ((subs.set i sub').map f).sum = (subs.map f).sum + (f sub' - f sub) := by
  obtain ⟨hi, rfl⟩ := List.getElem?_eq_some_iff.1 hsub
  have hi' : i < (subs.map f).length := by simpa using hi
  rw [List.map_set, List.sum_set', dif_pos hi', List.getElem_map, neg_add_eq_sub]

section Outstanding

variable {α : Type} [AddCommGroup α] (K : Counter α)

/-- One submission goes on. -/
theorem outstanding_setSubmission {s : Account} {i : ℕ} {sub : Submission}
    (hsub : s.submissions[i]? = some sub) (sub' : Submission) :
    K.outstanding (s.setSubmission i sub') = K.outstanding s + (K.due sub' - K.due sub) :=
  sum_map_set K.due hsub sub'

/-- A new submission. -/
theorem outstanding_submit (s : Account) (c : ℕ) (popup : Popup) (f : ℕ → HomeFragment) :
    K.outstanding { s with
      fragment := f
      submissions := s.submissions ++ [Submission.start c popup] } =
      K.outstanding s + K.due (Submission.start c popup) := by
  simp [Counter.outstanding]

end Outstanding

/-- A handler run that leaves the submission with as much to do is not noticed. -/
theorem outstanding_setSubmission_same {α : Type} [AddCommGroup α] (K : Counter α) {s : Account}
    {i : ℕ} {sub sub' : Submission} (hsub : s.submissions[i]? = some sub)
    (hdue : K.due sub' = K.due sub) : K.outstanding (s.setSubmission i sub') = K.outstanding s := by
  rw [outstanding_setSubmission K hsub, hdue, sub_self, add_zero]

/-- A transaction is over: what the submission had to add to the counter is no longer due. -/
theorem outstanding_setSubmission_over {α : Type} [AddCommGroup α] (K : Counter α) {s : Account}
    {i : ℕ} {sub sub' : Submission} (hsub : s.submissions[i]? = some sub) {amount : α}
    (hdue : K.due sub = amount) (hover : K.due sub' = 0) :
    K.outstanding (s.setSubmission i sub') + amount = K.outstanding s := by
  rw [outstanding_setSubmission K hsub, hdue, hover]
  abel

theorem delivered_of_sessions {sub : Submission} (h : sub.Sound) {tr : Transaction ℤ}
    (htr : sub.numSessions = some tr) : sub.delivered = true := by
  by_contra hd
  rw [(h.undelivered (by simpa using hd)).2] at htr
  cases htr

theorem delivered_of_hours {sub : Submission} (h : sub.Sound) {tr : Transaction ℚ}
    (htr : sub.totalHours = some tr) : sub.delivered = true := by
  by_contra hd
  rw [(h.undelivered (by simpa using hd)).1] at htr
  cases htr

/-- What the handler of `numSessions` has computed from the value on the server. -/
theorem sessions_commit {s : Account} (h : SubmissionsInv s) {sub : Submission} (hs : sub.Sound)
    {base new : Option ℤ} (ht : sub.numSessions = some (.sent base new))
    (hb : s.db.numSessions = base) :
    ∃ n, s.db.numSessions = some n ∧ InInteger n ∧ base = some n ∧ new = some (integerSucc n) := by
  obtain ⟨n, hn⟩ := Option.isSome_iff_exists.1 h.numSessions
  have hnew := hs.sessions base new ht
  rw [← hb, hn, numSessionsTransaction] at hnew
  split_ifs at hnew with hint
  exact ⟨n, hn, hint, hb ▸ hn, (Option.some.inj hnew).symm⟩

/-- What the handler of `totalHours` has computed from the value on the server. -/
theorem hours_commit {s : Account} (h : SubmissionsInv s) {sub : Submission} (hs : sub.Sound)
    {base new : Option ℚ} (ht : sub.totalHours = some (.sent base new))
    (hb : s.db.totalHours = base) :
    ∃ q, s.db.totalHours = some q ∧ new = some (q + androidCredit sub.popup.diff) := by
  obtain ⟨q, hq⟩ := Option.isSome_iff_exists.1 h.totalHours
  have hnew := hs.hours base new ht
  rw [← hb, hq] at hnew
  exact ⟨q, hq, hnew⟩

/-- The increment of the handler falls short of the next number at the largest `int` only. -/
theorem integerSucc_eq_iff {n : ℤ} (hn : InInteger n) : integerSucc n = n + 1 ↔ n ≠ 2 ^ 31 - 1 := by
  constructor
  · rintro h rfl
    rw [integerSucc_max] at h
    omega
  · intro hne
    exact integerSucc_of_lt hn (by have := hn.2; omega)

/-! ### The two counters are lawful -/

/-- What an action of an Android client does to the number of sessions. -/
theorem sessionsCounter_android {s t : Account} {a : Action} (h : SubmissionsInv s)
    (hst : Trans s a t) (hios : ∀ d e, a ≠ .ios d e) (hland : ∀ j, a ≠ .land j) :
    sessionsCounter.AndroidEffect s t a := by
  have hsound : ∀ {i : ℕ} {sub : Submission}, s.submissions[i]? = some sub → sub.Sound :=
    fun hsub => h.sound _ (List.mem_of_getElem? hsub)
  have hdue : ∀ sub : Submission, sessionsCounter.due sub = sub.due sub.numSessions 1 :=
    fun _ => rfl
  cases hst with
  | ios _ => exact absurd rfl (hios _ _)
  | land _ _ _ => exact absurd rfl (hland _)
  | toggle _ | decline _ => exact .quiet rfl rfl rfl trivial
  | @submit c i popup hi =>
      refine .accept (androidCredit popup.diff) rfl
        (outstanding_submit sessionsCounter s c popup _) ?_ trivial
      simp [accepted, hi]
  | @deliver i sub hsub hd =>
      refine .quiet rfl (outstanding_setSubmission_same _ hsub ?_) rfl trivial
      simp [hdue, Submission.due, Submission.onDataChange, hd, h.numSessions, Transaction.due]
  | @runHours i v sub hsub _ =>
      exact .quiet rfl (outstanding_setSubmission_same _ hsub rfl) rfl trivial
  | @hoursCommit i sub base new hsub _ _ =>
      exact .quiet rfl (outstanding_setSubmission_same sessionsCounter hsub rfl) rfl trivial
  | @hoursRetry i sub base new hsub _ _ =>
      exact .quiet rfl (outstanding_setSubmission_same _ hsub rfl) rfl trivial
  | @runSessions i v new sub hsub hq hv =>
      refine .quiet rfl (outstanding_setSubmission_same sessionsCounter hsub ?_) rfl ?_
      · simp [hdue, Submission.due, hq, Transaction.due]
      · rintro n rfl
        by_contra hint
        simp [numSessionsTransaction, hint] at hv
  | @sessionsAbort i v sub hsub hq hv =>
      -- the handler has thrown: the counter stays behind by one
      have hd := delivered_of_sessions (hsound hsub) hq
      obtain ⟨n, hn⟩ := Option.isSome_iff_exists.1 h.numSessions
      refine .update n n 1 hn hn (by omega) one_pos ?_ rfl ?_
      · refine outstanding_setSubmission_over sessionsCounter hsub ?_ ?_
        · simp [hdue, Submission.due, hd, hq, Transaction.due]
        · simp [hdue, Submission.due, hd, Transaction.due]
      · refine iff_of_false ?_ (by omega)
        intro hkeeps
        cases v with
        | none => simp [numSessionsTransaction] at hv
        | some m => simp [numSessionsTransaction, hkeeps m rfl] at hv
  | @sessionsCommit i sub base new hsub htr hb =>
      have hd := delivered_of_sessions (hsound hsub) htr
      obtain ⟨n, hn, hint, rfl, rfl⟩ := sessions_commit h (hsound hsub) htr hb
      refine .update n (integerSucc n) 1 hn rfl (integerSucc_le hint) one_pos ?_ rfl ?_
      · refine outstanding_setSubmission_over sessionsCounter hsub ?_ ?_
        · simp [hdue, Submission.due, hd, htr, Transaction.due]
        · simp [hdue, Submission.due, hd, Transaction.due]
      · rw [integerSucc_eq_iff hint]
        constructor
        · rintro hkeeps rfl
          exact hkeeps sub hsub _ htr (congrArg some hn.symm) hn
        · intro hne sub' hsub' tr htr' hbase hmax
          exact hne (Option.some.inj (hn.symm.trans hmax))
  | @sessionsRetry i sub base new hsub htr hb =>
      refine .quiet rfl (outstanding_setSubmission_same _ hsub ?_) rfl ?_
      · simp [hdue, Submission.due, htr, Transaction.due]
      · intro sub' hsub' tr htr' hbase
        rw [hsub, Option.mem_def, Option.some.injEq] at hsub'
        subst hsub'
        rw [htr, Option.mem_def, Option.some.injEq] at htr'
        subst htr'
        exact absurd (Option.some.inj hbase).symm hb

/-- What an action of an Android client does to the number of hours. -/
theorem hoursCounter_android {s t : Account} {a : Action} (h : SubmissionsInv s)
    (hst : Trans s a t) (hios : ∀ d e, a ≠ .ios d e) (hland : ∀ j, a ≠ .land j) :
    hoursCounter.AndroidEffect s t a := by
  have hsound : ∀ {i : ℕ} {sub : Submission}, s.submissions[i]? = some sub → sub.Sound :=
    fun hsub => h.sound _ (List.mem_of_getElem? hsub)
  have hdue : ∀ sub : Submission, hoursCounter.due sub =
      sub.due sub.totalHours (androidCredit sub.popup.diff) := fun _ => rfl
  cases hst with
  | ios _ => exact absurd rfl (hios _ _)
  | land _ _ _ => exact absurd rfl (hland _)
  | toggle _ | decline _ => exact .quiet rfl rfl rfl trivial
  | @submit c i popup hi =>
      refine .accept (androidCredit popup.diff) rfl (outstanding_submit hoursCounter s c popup _) ?_
        trivial
      simp [accepted, hi]
  | @deliver i sub hsub hd =>
      refine .quiet rfl (outstanding_setSubmission_same _ hsub ?_) rfl trivial
      simp [hdue, Submission.due, Submission.onDataChange, hd, h.totalHours, Transaction.due]
  | @runHours i v sub hsub hq =>
      refine .quiet rfl (outstanding_setSubmission_same _ hsub ?_) rfl trivial
      simp [hdue, Submission.due, hq, Transaction.due]
  | @hoursCommit i sub base new hsub htr hb =>
      have hd := delivered_of_hours (hsound hsub) htr
      obtain ⟨q, hq, rfl⟩ := hours_commit h (hsound hsub) htr hb
      have hlong : tenthOfHour < 2 * sub.popup.diff := by
        have := (hsound hsub).diff
        rw [tenthOfHour]
        omega
      refine .update q _ (androidCredit sub.popup.diff) hq rfl le_rfl (androidCredit_pos hlong) ?_
        rfl (iff_of_true trivial rfl)
      refine outstanding_setSubmission_over hoursCounter hsub ?_ ?_
      · simp [hdue, Submission.due, hd, htr, Transaction.due]
      · simp [hdue, Submission.due, hd, Transaction.due]
  | @hoursRetry i sub base new hsub htr _ =>
      refine .quiet rfl (outstanding_setSubmission_same _ hsub ?_) rfl trivial
      simp [hdue, Submission.due, htr, Transaction.due]
  | @runSessions i v new sub hsub _ _ =>
      exact .quiet rfl (outstanding_setSubmission_same hoursCounter hsub rfl) rfl trivial
  | @sessionsAbort i v sub hsub _ _ =>
      exact .quiet rfl (outstanding_setSubmission_same hoursCounter hsub rfl) rfl trivial
  | @sessionsCommit i sub base new hsub _ _ =>
      exact .quiet rfl (outstanding_setSubmission_same hoursCounter hsub rfl) rfl trivial
  | @sessionsRetry i sub base new hsub _ _ =>
      exact .quiet rfl (outstanding_setSubmission_same hoursCounter hsub rfl) rfl trivial

theorem sessionsCounter_lawful : sessionsCounter.Lawful where
  value_apply h w := by cases w <;> rfl
  put?_child w hn _ := by
    cases w with
    | numSessions n => exact absurd rfl (hn n)
    | _ => rfl
  recordSession interval n out t := ⟨n, rfl, rfl⟩
  amount_pos _ _ := one_pos
  keeps s a h := by
    rcases h with ⟨d, e, rfl⟩ | ⟨j, rfl⟩ <;> trivial
  due_over sub h := Submission.due_over h.1 h.2.2 1
  android s t a := sessionsCounter_android

theorem hoursCounter_lawful : hoursCounter.Lawful where
  value_apply h w := by cases w <;> rfl
  put?_child w _ ht := by
    cases w with
    | totalHours t c => exact absurd rfl (ht t c)
    | _ => rfl
  recordSession interval n out t := ⟨t, rfl, rfl⟩
  amount_pos _ h := h
  keeps _ _ _ := trivial
  due_over sub h := Submission.due_over h.1 h.2.1 _
  android s t a := hoursCounter_android

/-! ### Runs -/

/-- Nothing is under way: no write, no submission, no read of an iOS device and no dialog. -/
structure Quiescent (s : Account) : Prop where
  outbox : s.outbox = []
  submissions : s.submissions = []
  idle : ∀ d, (s.device d).Idle
  popups : ∀ c, (s.fragment c).popups = []

/-- Everything that has been accepted has landed. -/
def Settled (s : Account) : Prop := s.outbox = [] ∧ ∀ sub ∈ s.submissions, sub.Over

/-- A write of a counter finds in the record `h` the value it was computed from. -/
def FindsBase (h : Hours) : Write → Prop
  | .numSessions n => h.numSessions = some n
  | .totalHours t _ => h.totalHours = some t
  | _ => True

instance (h : Hours) (w : Write) : Decidable (FindsBase h w) := by
  induction w using Write.casesOn <;> dsimp only [FindsBase] <;> infer_instance

/-- **No update is lost by the action**: a write of `recordSession` lands on the value that was read
for it; and the handler of `numSessions` is given an `int`, and commits another one than the
largest. -/
def Current (s : Account) : Action → Prop
  | .land j => ∀ e ∈ s.outbox[j]?, FindsBase s.db e.write
  | .runSessions _ v => ∀ n ∈ v, InInteger n
  | .commitSessions i => ∀ sub ∈ s.submissions[i]?, ∀ tr ∈ sub.numSessions,
      tr.base? = some s.db.numSessions → s.db.numSessions ≠ some (2 ^ 31 - 1)
  | _ => True

instance (s : Account) (a : Action) : Decidable (Current s a) := by
  induction a using Action.casesOn <;> dsimp only [Current] <;> infer_instance

theorem findsBase_iff (h : Hours) (w : Write) : FindsBase h w ↔
    (∀ p ∈ sessionsCounter.put? w, sessionsCounter.value h = some p.1) ∧
      ∀ p ∈ hoursCounter.put? w, hoursCounter.value h = some p.1 := by
  cases w <;> simp [FindsBase, sessionsCounter, hoursCounter, Counter.value]

/-- The action loses nothing of either counter. -/
theorem current_iff (s : Account) (a : Action) :
    Current s a ↔ sessionsCounter.Current s a ∧ hoursCounter.Current s a := by
  cases a with
  | land j =>
      simp only [Current, Counter.Current, findsBase_iff]
      constructor
      · intro h
        refine ⟨⟨trivial, fun j' hj e he => ?_⟩, ⟨trivial, fun j' hj e he => ?_⟩⟩
        · cases hj
          exact (h e he).1
        · cases hj
          exact (h e he).2
      · rintro ⟨⟨-, h⟩, -, h'⟩ e he
        exact ⟨h j rfl e he, h' j rfl e he⟩
  | _ => simp [Current, Counter.Current, sessionsCounter, hoursCounter]

/-- The two counters have grown by the number of the credits and by their sum. -/
def Grown (s t : Account) (credits : List ℚ) : Prop :=
  t.db.numSessions = s.db.numSessions.map (· + (credits.length : ℤ)) ∧
    t.db.totalHours = s.db.totalHours.map (· + credits.sum)

theorem Quiescent.screensInv {s : Account} (h : Quiescent s) (hn : s.db.numSessions.isSome)
    (ht : s.db.totalHours.isSome) : ScreensInv s where
  submissions :=
    { numSessions := hn
      totalHours := ht
      popups := fun c p hp => by rw [h.popups c] at hp; cases hp
      sound := fun sub hsub => by rw [h.submissions] at hsub; cases hsub }
  captured d x hx := by rw [RecordViewController.captured_of_idle (h.idle d)] at hx; cases hx
  dialogs d dlg hdlg := by rw [(h.idle d).2.2] at hdlg; cases hdlg

/-- At first a counter holds what it owes. -/
theorem Quiescent.counterInv {α : Type} [AddCommGroup α] [LinearOrder α] {K : Counter α}
    {s : Account} (h : Quiescent s) (hscreens : ScreensInv s) {v : α}
    (hv : K.value s.db = some v) : CounterInv K v s ⟨v, v⟩ 0 where
  screens := hscreens
  value := hv
  le := le_rfl
  captured d x hx := by rw [RecordViewController.captured_of_idle (h.idle d)] at hx; cases hx
  sender e he := by rw [h.outbox] at he; cases he
  queue d ws₁ w ws₂ hsplit := by
    rw [h.outbox, own_nil] at hsplit
    exact absurd hsplit (by simp)
  owed := by simp [Counter.inFlight, Counter.outstanding, h.outbox, h.submissions]

/-- One of the counters at the end of a run. -/
theorem value_iff_current {α : Type} [AddCommGroup α] [LinearOrder α] [IsOrderedAddMonoid α]
    {K : Counter α} (hK : K.Lawful) {s t : Account} {acts : List Action} (h : Quiescent s)
    (hscreens : ScreensInv s) {v : α} (hv : K.value s.db = some v)
    (hrun : Execution.run step s acts = some t) (ht : Settled t) :
    K.value t.db = some (v + ((Execution.collect step accepted s acts).map K.amount).sum) ↔
      Execution.Along step K.Current s acts := by
  obtain ⟨T, hT, hex⟩ := (h.counterInv hscreens hv).run hK rfl acts t hrun
  have hflight : K.inFlight t.outbox = 0 := by simp [Counter.inFlight, ht.1]
  have hout : K.outstanding t = 0 := by
    refine List.sum_eq_zero fun a ha => ?_
    obtain ⟨sub, hsub, rfl⟩ := List.mem_map.1 ha
    exact hK.due_over sub (ht.2 sub hsub)
  rw [← hT.exact_iff hflight hout, hex]

/-- **Confirmed sessions are counted exactly as long as no update is lost**: once everything has
landed, both counters have grown by what was accepted if and only if every write of
`recordSession` has landed on the value read for it, and no transaction has failed. -/
theorem counters_grow_iff_current {s t : Account} {acts : List Action} (h : Quiescent s)
    (hn : s.db.numSessions.isSome) (hh : s.db.totalHours.isSome)
    (hrun : Execution.run step s acts = some t) (ht : Settled t) :
    Grown s t (Execution.collect step accepted s acts) ↔
      Execution.Along step Current s acts := by
  have hscreens := h.screensInv hn hh
  obtain ⟨n, hn⟩ := Option.isSome_iff_exists.1 hn
  obtain ⟨q, hh⟩ := Option.isSome_iff_exists.1 hh
  have hsessions := value_iff_current sessionsCounter_lawful h hscreens hn hrun ht
  have hhours := value_iff_current hoursCounter_lawful h hscreens hh hrun ht
  have hcurrent : Execution.Along step Current s acts ↔
      Execution.Along step (fun s a => sessionsCounter.Current s a ∧ hoursCounter.Current s a)
        s acts := by
    simp only [← current_iff]
  rw [hcurrent, Execution.along_and, ← hsessions, ← hhours, Grown, hn, hh]
  simp [sessionsCounter, hoursCounter, Counter.value]

/-! ### A run that loses an update -/

/-- Device `0` checks in and stops an hour later: the dialog is open. -/
def startAndStop : List Action :=
  [.ios 0 .launch, .ios 0 .tap, .ios 0 (.arriveOuter 0), .ios 0 (.outer 0 0), .land 0,
    .ios 0 .tap, .ios 0 (.arriveOuter 0), .ios 0 (.outer 0 3600000),
    .ios 0 (.arriveInner 0), .ios 0 (.inner 0 3600000)]

/-- The user answers `Yes` and the three writes land. -/
def confirm : List Action := [.ios 0 (.yes 0), .land 0, .land 0, .land 0]

/-- Android client `0` runs and submits a session of an hour. -/
def androidSession : List Action :=
  [.toggle 0 0 0, .toggle 0 3600000 3600000, .submit 0 0, .deliver 0,
    .runHours 0 (some 0), .commitHours 0, .runSessions 0 (some 0), .commitSessions 0, .land 0]

theorem quiescent_atRest (h : Hours) (status : Status) : Quiescent (atRest h status) :=
  ⟨rfl, rfl, fun _ => RecordViewController.idle_initial status, fun _ => rfl⟩

/-- A session that nobody overtakes is counted. -/
theorem grown_confirm : ∃ t, Execution.run step (atRest (Hours.created "A") .closed)
      (startAndStop ++ confirm) = some t ∧
    Grown (atRest (Hours.created "A") .closed) t
      (Execution.collect step accepted (atRest (Hours.created "A") .closed)
        (startAndStop ++ confirm)) := by
  obtain ⟨t, ht, hout, hsub⟩ : ∃ t, Execution.run step (atRest (Hours.created "A") .closed)
      (startAndStop ++ confirm) = some t ∧ t.outbox = [] ∧ t.submissions = [] :=
    Execution.exists_run (by decide)
  exact ⟨t, ht, (counters_grow_iff_current (quiescent_atRest _ _) rfl rfl ht
    ⟨hout, by simp [hsub]⟩).2 (by decide)⟩

/-- **An Android session that is submitted while the dialog is open is lost.** -/
theorem not_counters_grow :
    ¬ ∀ (s t : Account) (acts : List Action), Quiescent s → s.db.numSessions.isSome →
      s.db.totalHours.isSome → Execution.run step s acts = some t → Settled t →
      Grown s t (Execution.collect step accepted s acts) := by
  intro h
  obtain ⟨t, ht, hout, hsub, hn⟩ : ∃ t, Execution.run step (atRest (Hours.created "A") .closed)
      (startAndStop ++ androidSession ++ confirm) = some t ∧
        t.outbox = [] ∧ (∀ sub ∈ t.submissions, sub.Over) ∧ t.db.numSessions = some 1 :=
    Execution.exists_run (by decide)
  have hlen : (Execution.collect step accepted (atRest (Hours.created "A") .closed)
      (startAndStop ++ androidSession ++ confirm)).length = 2 := by decide
  have hgrown := (h _ t _ (quiescent_atRest _ _) rfl rfl ht ⟨hout, hsub⟩).1
  rw [hn, hlen] at hgrown
  exact absurd hgrown (by decide)

end StudyHours
