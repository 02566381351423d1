/-
**A session in progress on iOS and Android submissions.**

A check-in on iOS is stored at once, under the number after `numSessions`, and the stop looks for it
under the number after the `numSessions` it finds then.  A submission on Android stores its session
under the number after the one it increases.  Both clients take the same slot: the first submission
that completes has stored its session over the check-in, and the stop looks one slot further.

Main definitions:

* `StudyHours.CheckedIn` — a consistent account with a check-in stored, and the screen showing it;
* `StudyHours.stopAndConfirm` — the user stops the session and confirms it, undisturbed;
* `StudyHours.LeavesCheckIn` — the check-in is found, and the stop records its interval;
* `StudyHours.Taken` — the slot of the check-in is taken, or a write that takes it is in flight.

Main results:

* `StudyHours.run_stopAndConfirm` — an undisturbed stop records the session in progress;
* `StudyHours.OverlapInv.trans` — what is known of the slot survives every action;
* `StudyHours.leavesCheckIn_iff` — **the check-in survives if and only if nothing is submitted**;
* `StudyHours.not_leavesCheckIn` — a submission that takes its slot.
-/

import Mathlib
import StudyHours.Confirmations
import StudyHours.Slots

set_option relaxedAutoImplicit false
set_option autoImplicit false

namespace StudyHours

open Account
open RecordViewController (Event)

/-! ### An undisturbed stop -/

/-- The user of device `d` stops the session and answers `Yes`; the callbacks and the writes follow
at once. -/
def stopAndConfirm (d : ℕ) (now out : ℤ) : List Action :=
  [.ios d .tap, .ios d (.arriveOuter 0), .ios d (.outer 0 now), .ios d (.arriveInner 0),
    .ios d (.inner 0 out), .ios d (.yes 0), .land 0, .land 0, .land 0]

/-- An event of a device that sees the record as it is, and that issues nothing. -/
theorem run_ios_quiet {s : Account} (d : ℕ) (e : Event) (vc : RecordViewController)
    (hout : s.outbox = []) (h : RecordViewController.step s.db (s.device d) e = some (vc, []))
    (acts : List Action) :
    ∃ t, Execution.run step s (.ios d e :: acts) = Execution.run step t acts ∧ t.db = s.db ∧
      t.outbox = [] ∧ t.device d = vc := by
  have hview : s.view d = s.db := view_eq_db (by rw [hout]; rfl)
  refine ⟨s.issue d vc [], ?_, rfl, by simp [hout, sendAll], ?_⟩
  · rw [Execution.run_cons, step, hview, h]
    rfl
  · rw [device_issue_self]
    exact RecordViewController.notify_nil vc

/-- The writes of one device land in the order in which they were issued. -/
theorem run_lands {s : Account} {d : ℕ} {ws : List Write} (hout : s.outbox = sendAll (.ios d) ws) :
    ∃ t, Execution.run step s (List.replicate ws.length (.land 0)) = some t ∧
      t.db = s.db.applyAll ws ∧ t.outbox = [] := by
  induction ws generalizing s with
  | nil => exact ⟨s, rfl, rfl, hout⟩
  | cons w ws ih =>
      have hstep : step s (.land 0) = some (s.landed [] ⟨.ios d, w⟩ (sendAll (.ios d) ws)) := by
        rw [step, hout]
        rfl
      obtain ⟨t, hrun, hdb, hempty⟩ := ih (s := s.landed [] ⟨.ios d, w⟩ (sendAll (.ios d) ws)) rfl
      refine ⟨t, ?_, hdb, hempty⟩
      rw [List.length_cons, List.replicate_succ, Execution.run_cons, hstep]
      exact hrun

/-- **An undisturbed stop records the session in progress**, from its check-in to the stop. -/
theorem run_stopAndConfirm {s : Account} {d : ℕ} {n inTime : ℤ} {q : ℚ}
    (hshown : (s.device d).status.shown = true) (hrec : (s.device d).recording = true)
    (hidle : (s.device d).Idle) (hout : s.outbox = []) (hn : s.db.numSessions = some n)
    (hq : s.db.totalHours = some q) (hin : s.db.inProgress? = some (.inOnly inTime)) (now : ℤ)
    {out : ℤ} (hlong : 1800000 < out - inTime) :
    ∃ t, Execution.run step s (stopAndConfirm d now out) = some t ∧
      t.db = s.db.applyAll (recordSession (out - inTime) n out q) := by
  obtain ⟨houter, hinner, hdialogs⟩ := hidle
  rw [Hours.inProgress?_eq hn] at hin
  rcases hvc : s.device d with ⟨status, recording, screen, events, outer, inner, dialogs⟩
  simp only [hvc] at hshown hrec houter hinner hdialogs
  subst hrec houter hinner hdialogs
  -- the tap turns the flag off, so its callback takes it for a stop
  obtain ⟨s₁, hrun₁, hdb₁, hout₁, hvc₁⟩ := run_ios_quiet d .tap
    ⟨status, false, screen, events, [none], [], []⟩ hout (by rw [hvc]; exact if_pos hshown)
    (stopAndConfirm d now out).tail
  obtain ⟨s₂, hrun₂, hdb₂, hout₂, hvc₂⟩ := run_ios_quiet d (.arriveOuter 0)
    ⟨status, false, screen, events, [some s.db], [], []⟩ hout₁ (by rw [hvc₁, hdb₁]; rfl)
    ((stopAndConfirm d now out).drop 2)
  obtain ⟨s₃, hrun₃, hdb₃, hout₃, hvc₃⟩ := run_ios_quiet d (.outer 0 now)
    ⟨status, false, ⟨none, false⟩, events, [], [⟨n, some q, none⟩], []⟩ hout₂
    (by rw [hvc₂]; simp [RecordViewController.step, RecordViewController.startRecordingRead, hn, hq,
      RecordViewController.orCrash, updateScreen]) ((stopAndConfirm d now out).drop 3)
  -- the callback of the read finds the check-in, long enough ago
  obtain ⟨s₄, hrun₄, hdb₄, hout₄, hvc₄⟩ := run_ios_quiet d (.arriveInner 0)
    ⟨status, false, ⟨none, false⟩, events, [], [⟨n, some q, some (some (.inOnly inTime))⟩], []⟩
    hout₃ (by rw [hvc₃, hdb₃, hdb₂, hdb₁]; simp [RecordViewController.step, hin])
    ((stopAndConfirm d now out).drop 4)
  obtain ⟨s₅, hrun₅, hdb₅, hout₅, hvc₅⟩ := run_ios_quiet d (.inner 0 out)
    ⟨status, false, ⟨none, false⟩, events, [], [], [⟨out - inTime, n, out, some q⟩]⟩ hout₄
    (by rw [hvc₄]; simp [RecordViewController.step, RecordViewController.inProgressRead,
      SessionNode.inTime?, hlong, RecordViewController.orCrash])
    ((stopAndConfirm d now out).drop 5)
  -- the answer issues the three writes, which land
  have hyes : RecordViewController.step (s₅.view d) (s₅.device d) (.yes 0) =
      some (⟨status, false, ⟨none, false⟩, events, [], [], []⟩,
        recordSession (out - inTime) n out q) := by
    rw [hvc₅]
    rfl
  have hissued : (s₅.issue d ⟨status, false, ⟨none, false⟩, events, [], [], []⟩
      (recordSession (out - inTime) n out q)).outbox =
        sendAll (.ios d) (recordSession (out - inTime) n out q) := by
    rw [outbox_issue, hout₅]
    rfl
  obtain ⟨t, hrun, hdb, -⟩ := run_lands hissued
  refine ⟨t, ?_, by rw [hdb, db_issue, hdb₅, hdb₄, hdb₃, hdb₂, hdb₁]⟩
  calc Execution.run step s (stopAndConfirm d now out)
      = Execution.run step s₅ ((stopAndConfirm d now out).drop 5) :=
        hrun₁.trans (hrun₂.trans (hrun₃.trans (hrun₄.trans hrun₅)))
    _ = some t := by
        rw [← hrun]
        change (step s₅ (.ios d (.yes 0))).bind _ = _
        rw [step, hyes]
        rfl

/-! ### A check-in that is left alone -/

/-- The account is consistent, with a check-in at the time `τ` under the next free number, and
everything that has been accepted has landed.  Device `d` shows that the session is in progress. -/
structure CheckedIn (s : Account) (d : ℕ) (n τ : ℤ) : Prop where
  record : Consistent s.db n (some (.inOnly τ))
  bound : n < 2 ^ 31 - 1
  submissionsInv : SubmissionsInv s
  outbox : s.outbox = []
  submissions : s.submissions = []
  shown : (s.device d).status.shown = true
  recording : (s.device d).recording = true
  idle : (s.device d).Idle
  snapshots : ∀ h ∈ (s.device d).events, h.numSessions.isSome

/-- The check-in is where the stop looks for it, every submission has stored its session under a
key of its own, and a stop that is confirmed records the interval from the check-in. -/
structure LeavesCheckIn (u : Account) (d : ℕ) (τ : ℤ) : Prop where
  checkIn : u.db.inProgress? = some (.inOnly τ)
  sessions : ∃ key : ℕ → ℤ, Set.InjOn key {i | i < u.submissions.length} ∧
    ∀ i sub, u.submissions[i]? = some sub →
      u.db.child (key i) = some (.full sub.popup.session.inTime sub.popup.session.outTime)
  stop : ∀ now out, 1800000 < out - τ → ∃ w N q,
    Execution.run step u (stopAndConfirm d now out) = some w ∧
      u.db.numSessions = some N ∧ u.db.totalHours = some q ∧
      w.db.numSessions = some (N + 1) ∧ w.db.child (N + 1) = some (.full τ out) ∧
      w.db.totalHours = some (q + iosCredit (out - τ))

/-! ### The slot of the check-in -/

/-- The slot of the check-in has been taken, or a write is in flight that takes it. -/
def Taken (n : ℤ) (s : Account) : Prop :=
  (∀ τ, s.db.child (n + 1) ≠ some (.inOnly τ)) ∨ ∃ e ∈ s.outbox, e.write.key? = some (n + 1)

/-- What is known of the slot as long as no iOS user acts. -/
structure OverlapInv (n : ℤ) (s : Account) : Prop where
  submissions : SubmissionsInv s
  slot : integerSucc n = n + 1
  sessions : ∀ e ∈ s.outbox, ∃ studySession k, e.write = sessionWrite studySession k
  inInteger : ∀ N, s.db.numSessions = some N → InInteger N
  inOnly : ∀ k τ, s.db.child k = some (.inOnly τ) → k = n + 1
  number : s.db.numSessions = some n ∨ Taken n s
  sent : ∀ i new, s.phase i = some (.sent (some n) new) → Taken n s
  committed : ∀ i base, s.phase i = some (.committed base) → Taken n s
  aborted : ∀ i, s.phase i ≠ some .aborted

/-- What a write of a session leaves of a child. -/
theorem child_apply_sessionWrite (h : Hours) (studySession : Option StudySession) (k j : ℤ) :
    (h.apply (sessionWrite studySession k)).child j = if k = j then
      studySession.map fun σ => .full σ.inTime σ.outTime else h.child j := by
  rw [Hours.child_apply]
  cases studySession <;> rfl

theorem numSessions_apply_sessionWrite (h : Hours) (studySession : Option StudySession) (k : ℤ) :
    (h.apply (sessionWrite studySession k)).numSessions = h.numSessions := by
  cases studySession <;> rfl

/-- A write of a session leaves no child with an `in` alone. -/
theorem inOnly_of_apply_sessionWrite {h : Hours} {studySession : Option StudySession} {k j τ : ℤ}
    (hj : (h.apply (sessionWrite studySession k)).child j = some (.inOnly τ)) :
    k ≠ j ∧ h.child j = some (.inOnly τ) := by
  rw [child_apply_sessionWrite] at hj
  split_ifs at hj with hk
  · simp at hj
  · exact ⟨hk, hj⟩

namespace Taken

variable {n : ℤ} {s t : Account}

/-- More writes in flight, and the same children. -/
theorem mono (h : Taken n s) (hchildren : t.db.children = s.db.children)
    (hout : ∀ e ∈ s.outbox, e ∈ t.outbox) : Taken n t := by
  have hchild : t.db.child (n + 1) = s.db.child (n + 1) := by
    rw [Hours.child, hchildren, Hours.child]
  rcases h with h | ⟨e, he, hkey⟩
  · exact .inl fun τ => hchild ▸ h τ
  · exact .inr ⟨e, hout e he, hkey⟩

/-- A session lands. -/
theorem land (h : Taken n s) {l₁ l₂ : List Entry} {e : Entry} (hout : s.outbox = l₁ ++ e :: l₂)
    {studySession : Option StudySession} {k : ℤ} (he : e.write = sessionWrite studySession k)
    (hdb : t.db = s.db.apply e.write) (hout' : t.outbox = l₁ ++ l₂) : Taken n t := by
  rw [he] at hdb
  by_cases hk : k = n + 1
  · left
    intro τ hτ
    rw [hdb] at hτ
    exact (inOnly_of_apply_sessionWrite hτ).1 hk
  · rcases h with h | ⟨f, hf, hkey⟩
    · left
      intro τ hτ
      rw [hdb] at hτ
      exact h τ (inOnly_of_apply_sessionWrite hτ).2
    · -- the write that takes the slot is another one
      right
      rw [hout, List.mem_append, List.mem_cons] at hf
      rcases hf with hf | rfl | hf
      · exact ⟨f, by simp [hout', hf], hkey⟩
      · rw [he, key?_sessionWrite] at hkey
        exact absurd (Option.some.inj hkey) hk
      · exact ⟨f, by simp [hout', hf], hkey⟩

end Taken

namespace OverlapInv

variable {n : ℤ} {s t : Account} {a : Action}

theorem of_checkedIn {d : ℕ} {τ : ℤ} (h : CheckedIn s d n τ) : OverlapInv n s where
  submissions := h.submissionsInv
  slot := by
    have hnonneg := h.record.nonneg
    have hbound := h.bound
    exact integerSucc_of_lt ⟨by omega, by omega⟩ hbound
  sessions e he := by rw [h.outbox] at he; cases he
  inInteger N hN := by
    obtain rfl : n = N := Option.some.inj (h.record.numSessions.symm.trans hN)
    have hnonneg := h.record.nonneg
    have hbound := h.bound
    exact ⟨by omega, by omega⟩
  inOnly k σ hk := h.record.eq_next hk id
  number := .inl h.record.numSessions
  sent i new hi := by rw [phase_of_submissions_nil h.submissions] at hi; cases hi
  committed i base hi := by rw [phase_of_submissions_nil h.submissions] at hi; cases hi
  aborted i hi := by rw [phase_of_submissions_nil h.submissions] at hi; cases hi

/-- The result of a run of the handler is taken by the server only if the slot is taken. -/
theorem taken_of_sent (h : OverlapInv n s) {i : ℕ} {base new : Option ℤ}
    (hi : s.phase i = some (.sent base new)) (hbase : s.db.numSessions = base) : Taken n s := by
  rcases h.number with hn | hn
  · rw [← hbase, hn] at hi
    exact h.sent i new hi
  · exact hn

/-- The values a client may hold are values of an `int`. -/
theorem inInteger_of_localValue (h : OverlapInv n s) {i : ℕ} {v : Option ℤ}
    (hv : LocalValue s (.runSessions i v)) : ∀ m ∈ v, InInteger m := by
  intro m hm
  obtain ⟨hnonneg, hle⟩ := hv m hm
  obtain ⟨N, hN⟩ := Option.isSome_iff_exists.1 h.submissions.numSessions
  have hNint := h.inInteger N hN
  have hmN := hle N hN
  exact ⟨by omega, lt_of_le_of_lt hmN hNint.2⟩

/-- **What is known of the slot survives every action** of an Android client. -/
theorem trans (h : OverlapInv n s) (hst : Trans s a t) (ha : NoIosUse a) (hv : LocalValue s a) :
    OverlapInv n t := by
  have hsub : SubmissionsInv t := h.submissions.trans hst
  cases slotTrans_of_trans h.submissions hst ha with
  | quiet hchildren hnumber hout htickets hkept hnew =>
      have hmono : Taken n s → Taken n t := fun htaken =>
        htaken.mono hchildren fun e he => hout ▸ he
      refine ⟨hsub, h.slot, hout ▸ h.sessions, hnumber ▸ h.inInteger, fun k τ hk => ?_, ?_, ?_, ?_,
        ?_⟩
      · rw [Hours.child, hchildren] at hk
        exact h.inOnly k τ hk
      · rw [hnumber]
        exact h.number.imp_right hmono
      · intro i new hi
        rcases hnew i _ hi with hi | hi
        · exact hmono (h.sent i new hi)
        · cases hi
      · intro i base hi
        rcases hnew i _ hi with hi | hi
        · exact hmono (h.committed i base hi)
        · cases hi
      · intro i hi
        rcases hnew i _ hi with hi | hi
        · exact h.aborted i hi
        · cases hi
  | @run i v new sub _ hsub' hq hv' hdb hout htickets hphase =>
      have hmono : Taken n s → Taken n t := fun htaken =>
        htaken.mono (by rw [hdb]) fun e he => hout ▸ List.mem_append_left _ he
      refine ⟨hsub, h.slot, ?_, hdb ▸ h.inInteger, hdb ▸ h.inOnly, hdb ▸ h.number.imp_right hmono,
        ?_, ?_, ?_⟩
      · intro e he
        rw [hout, List.mem_append] at he
        rcases he with he | he
        · exact h.sessions e he
        · obtain ⟨w, hw, rfl⟩ := List.mem_map.1 he
          obtain ⟨k, -, rfl⟩ := List.mem_map.1 hw
          exact ⟨_, k, rfl⟩
      · intro j new' hj
        rw [hphase] at hj
        rcases update_eq_some hj with ⟨rfl, heq⟩ | ⟨-, hj⟩
        · -- the run has just issued a write to the slot
          cases heq
          obtain ⟨-, rfl⟩ := numSessionsTransaction_some hv'
          right
          refine ⟨⟨.android sub.client j, sessionWrite (s.fragment sub.client).studySession
            (integerSucc n)⟩, ?_, by rw [key?_sessionWrite, h.slot]⟩
          rw [hout]
          exact List.mem_append_right _ (List.mem_singleton.2 rfl)
        · exact hmono (h.sent j new' hj)
      · intro j base hj
        rw [hphase] at hj
        rcases update_eq_some hj with ⟨-, heq⟩ | ⟨-, hj⟩
        · cases heq
        · exact hmono (h.committed j base hj)
      · intro j hj
        rw [hphase] at hj
        rcases update_eq_some hj with ⟨-, heq⟩ | ⟨-, hj⟩
        · cases heq
        · exact h.aborted j hj
  | @abort i v _ hq hv' =>
      have hsome := isSome_numSessionsTransaction (h.inInteger_of_localValue hv)
      rw [hv'] at hsome
      cases hsome
  | @commit i base new _ hsent hbase hchildren hnumber hout htickets hphase =>
      have htaken : Taken n t := (h.taken_of_sent hsent hbase).mono hchildren fun e he => hout ▸ he
      refine ⟨hsub, h.slot, hout ▸ h.sessions, ?_, fun k τ hk => ?_, .inr htaken,
        fun _ _ _ => htaken, fun _ _ _ => htaken, ?_⟩
      · intro N hN
        obtain ⟨m, hm⟩ := Option.isSome_iff_exists.1 h.submissions.numSessions
        rw [← hbase, hm] at hsent
        obtain ⟨-, rfl⟩ := numSessionsTransaction_some (h.submissions.sent hsent)
        rw [← Option.some.inj (hnumber.symm.trans hN)]
        exact inInteger_integerSucc m
      · rw [Hours.child, hchildren] at hk
        exact h.inOnly k τ hk
      · intro j hj
        rw [hphase] at hj
        rcases update_eq_some hj with ⟨-, heq⟩ | ⟨-, hj⟩
        · cases heq
        · exact h.aborted j hj
  | @land l₁ l₂ e _ hout hdb hout' htickets hphase =>
      obtain ⟨studySession, k, he⟩ := h.sessions e (by simp [hout])
      have hland : Taken n s → Taken n t := fun htaken => htaken.land hout he hdb hout'
      have hnumber : t.db.numSessions = s.db.numSessions := by
        rw [hdb, he, numSessions_apply_sessionWrite]
      refine ⟨hsub, h.slot, ?_, hnumber ▸ h.inInteger, ?_, hnumber ▸ h.number.imp_right hland, ?_,
        ?_, ?_⟩
      · intro f hf
        refine h.sessions f ?_
        rw [hout]
        rw [hout'] at hf
        simp only [List.mem_append, List.mem_cons] at hf ⊢
        tauto
      · intro j τ hj
        rw [hdb, he] at hj
        exact h.inOnly j τ (inOnly_of_apply_sessionWrite hj).2
      · exact hphase ▸ fun i new hi => hland (h.sent i new hi)
      · exact hphase ▸ fun i base hi => hland (h.committed i base hi)
      · exact hphase ▸ h.aborted

end OverlapInv

/-! ### Without a submission -/

/-- The action is the tap on `submit_hour`. -/
def Action.isSubmit : Action → Bool
  | .submit _ _ => true
  | _ => false

theorem length_submissions {s t : Account} {a : Action} (hst : Trans s a t) :
    t.submissions.length = s.submissions.length + if a.isSubmit then 1 else 0 := by
  cases hst with
  | submit _ => simp [Action.isSubmit]
  | _ => simp [Action.isSubmit]

/-- Every submission of a run has been submitted in it. -/
theorem length_submissions_run {s u : Account} {acts : List Action}
    (hrun : Execution.run step s acts = some u) :
    u.submissions.length = s.submissions.length + acts.countP Action.isSubmit := by
  induction acts generalizing s with
  | nil =>
      obtain rfl : s = u := Option.some.inj hrun
      rfl
  | cons a acts ih =>
      rw [Execution.run_cons, Option.bind_eq_some_iff] at hrun
      obtain ⟨t, ht, hrun⟩ := hrun
      rw [ih hrun, length_submissions (trans_of_step ht), List.countP_cons, add_assoc,
        add_comm (acts.countP _)]

namespace CheckedIn

variable {s t : Account} {a : Action} {d : ℕ} {n τ : ℤ}

/-- Without submissions and iOS users the check-in and the screen stay as they are. -/
theorem trans (h : CheckedIn s d n τ) (hst : Trans s a t) (ha : NoIosUse a)
    (hsubmit : a.isSubmit = false) : CheckedIn t d n τ := by
  have hsub : SubmissionsInv t := h.submissionsInv.trans hst
  cases hst with
  | @ios d' e vc ws htr =>
      obtain rfl := writes_of_noIosUse ha htr
      have hout : (s.issue d' vc []).outbox = [] := by simp [sendAll, h.outbox]
      rcases eq_or_ne d d' with rfl | hne
      · have hdevice : (s.issue d vc []).device d = vc := by
          rw [device_issue_self]
          exact RecordViewController.notify_nil vc
        have hview : s.view d = s.db := view_eq_db (by rw [h.outbox]; rfl)
        cases htr with
        | attach hstatus =>
            refine ⟨h.record, h.bound, hsub, hout, h.submissions, ?_, ?_, ?_, ?_⟩
            · rw [hdevice]; rfl
            · rw [hdevice]; exact h.recording
            · rw [hdevice]; exact h.idle
            · rw [hdevice]
              intro x hx
              obtain rfl := List.mem_singleton.1 hx
              rw [hview]
              exact h.submissionsInv.numSessions
        | @observe snapshot rest _ hevents hvc =>
            obtain ⟨screen, -, rfl⟩ := RecordViewController.observe_eq hvc
            refine ⟨h.record, h.bound, hsub, hout, h.submissions, ?_, ?_, ?_, ?_⟩
            · rw [hdevice]; rfl
            · rw [hdevice]; simp [h.recording]
            · rw [hdevice]; exact h.idle
            · rw [hdevice]
              exact fun x hx => h.snapshots x (hevents ▸ List.mem_cons_of_mem _ hx)
        | @observeTrap snapshot rest hevents hn =>
            have hsome := h.snapshots snapshot (by simp [hevents])
            rw [hn] at hsome
            cases hsome
        | _ => exact ha.elim
      · have hdevice : (s.issue d' vc []).device d = s.device d := device_issue_of_ne _ _ _ hne
        exact ⟨h.record, h.bound, hsub, hout, h.submissions, hdevice ▸ h.shown,
          hdevice ▸ h.recording, hdevice ▸ h.idle, hdevice ▸ h.snapshots⟩
  | toggle _ | decline _ =>
      exact ⟨h.record, h.bound, hsub, h.outbox, h.submissions, h.shown, h.recording, h.idle,
        h.snapshots⟩
  | submit _ => cases hsubmit
  | land hout _ _ =>
      rw [h.outbox] at hout
      exact absurd hout (by simp)
  | deliver hi _ | runHours hi _ | hoursCommit hi _ _ | hoursRetry hi _ _ | runSessions hi _ _
  | sessionsAbort hi _ _ | sessionsCommit hi _ _ | sessionsRetry hi _ _ =>
      rw [h.submissions] at hi
      cases hi

/-- The check-in is found, and the stop records its interval. -/
theorem leavesCheckIn (h : CheckedIn s d n τ) : LeavesCheckIn s d τ where
  checkIn := by rw [Hours.inProgress?_eq h.record.numSessions, h.record.next]
  sessions := by
    refine ⟨Nat.cast, Nat.cast_injective.injOn, fun i sub hi => ?_⟩
    rw [h.submissions] at hi
    cases hi
  stop := by
    intro now out hlong
    obtain ⟨q, hq⟩ := Option.isSome_iff_exists.1 h.submissionsInv.totalHours
    have hn := h.record.numSessions
    have hin : s.db.inProgress? = some (.inOnly τ) := by
      rw [Hours.inProgress?_eq hn, h.record.next]
    obtain ⟨w, hrun, hdb⟩ := run_stopAndConfirm h.shown h.recording h.idle h.outbox hn hq hin now
      hlong
    refine ⟨w, n, q, hrun, hn, hq, by rw [hdb]; rfl, ?_, by rw [hdb]; rfl⟩
    rw [hdb, recordSession]
    simp only [Hours.applyAll_cons, Hours.applyAll_nil, Hours.child_apply, Write.onChild, if_true,
      h.record.next, SessionNode.setOut]

end CheckedIn

/-! ### With a submission -/

/-- **A check-in survives Android submissions if and only if there are none**: as long as no iOS
user acts, and once everything has landed, the check-in is where the stop looks for it, and the stop
records its interval, exactly if no session has been submitted since. -/
theorem leavesCheckIn_iff {s u : Account} {acts : List Action} {d : ℕ} {n τ : ℤ}
    (h : CheckedIn s d n τ)
    (hacts : Execution.Along step (fun s a => NoIosUse a ∧ LocalValue s a) s acts)
    (hrun : Execution.run step s acts = some u) (hu : Settled u) :
    LeavesCheckIn u d τ ↔ ∀ c i, Action.submit c i ∉ acts := by
  have hlength := length_submissions_run hrun
  rw [h.submissions, List.length_nil, zero_add] at hlength
  constructor
  · intro hleaves c i hmem
    have hinv : OverlapInv n u := Execution.run_invariant_along
      (fun s a t hI ha hst => hI.trans (trans_of_step hst) ha.1 ha.2) (.of_checkedIn h) hacts hrun
    have hpos : 0 < u.submissions.length := by
      rw [hlength]
      exact List.countP_pos_iff.2 ⟨_, hmem, rfl⟩
    -- the first submission has committed, so the slot has been taken
    have hget : u.submissions[0]? = some u.submissions[0] := List.getElem?_eq_getElem hpos
    rcases hinv.submissions.over hget (hu.2 _ (List.getElem_mem hpos)) with habort | ⟨base, hcommit⟩
    · exact hinv.aborted 0 habort
    · have htaken : ∀ σ, u.db.child (n + 1) ≠ some (.inOnly σ) := by
        refine (hinv.committed 0 base hcommit).resolve_right ?_
        rintro ⟨e, he, -⟩
        rw [hu.1] at he
        cases he
      obtain ⟨N, hN⟩ := Option.isSome_iff_exists.1 hinv.submissions.numSessions
      have hfound := hleaves.checkIn
      rw [Hours.inProgress?_eq hN] at hfound
      rw [hinv.inOnly _ τ hfound] at hfound
      exact htaken τ hfound
  · intro hnone
    have hsubmit : ∀ a ∈ acts, a.isSubmit = false := by
      intro a ha
      cases a with
      | submit c i => exact absurd ha (hnone c i)
      | _ => rfl
    have hend : CheckedIn u d n τ := Execution.run_invariant_along (I := (CheckedIn · d n τ))
      (fun s a t hI ha hst => hI.trans (trans_of_step hst) ha.1.1 ha.2) h
      (Execution.along_and.2 ⟨hacts, Execution.along_of_forall s hsubmit⟩) hrun
    exact hend.leavesCheckIn

/-! ### A check-in that is overwritten -/

/-- The first session of the account is in progress on every device. -/
def afterCheckIn : Account :=
  { atRest ((Hours.created "A").apply (.checkIn 1 0)) .observing with
    device := fun _ => ⟨.observing, true, ⟨some 0, true⟩, [], [], [], []⟩ }

theorem consistent_afterCheckIn : Consistent afterCheckIn.db 0 (some (.inOnly 0)) where
  numSessions := rfl
  nonneg := le_rfl
  complete k hlow hhigh := by omega
  next := by
    rw [afterCheckIn, atRest, Hours.child_apply, child_created]
    rfl
  others k hk := by
    have hne : (Write.checkIn 1 0).key? ≠ some k := by
      rw [Write.key?, ne_eq, Option.some.injEq]
      omega
    rw [afterCheckIn, atRest, Hours.child_apply_of_ne _ hne, child_created]

theorem checkedIn_afterCheckIn : CheckedIn afterCheckIn 0 0 0 where
  record := consistent_afterCheckIn
  bound := by norm_num
  submissionsInv :=
    { numSessions := rfl
      totalHours := rfl
      popups := fun _ _ hp => absurd hp List.not_mem_nil
      sound := fun _ hsub => absurd hsub List.not_mem_nil }
  outbox := rfl
  submissions := rfl
  shown := rfl
  recording := rfl
  idle := ⟨rfl, rfl, rfl⟩
  snapshots := nofun

/-- Android client `0` runs a session of an hour and does not submit it. -/
def declinedSession : List Action :=
  [.toggle 0 0 0, .toggle 0 3600000 3600000, .decline 0 0]

/-- A session that is not submitted leaves the check-in alone. -/
theorem leavesCheckIn_declinedSession : ∃ u,
    Execution.run step afterCheckIn declinedSession = some u ∧ LeavesCheckIn u 0 0 := by
  obtain ⟨u, hu, hout, hsub⟩ : ∃ u, Execution.run step afterCheckIn declinedSession = some u ∧
      u.outbox = [] ∧ u.submissions = [] := Execution.exists_run (by decide)
  refine ⟨u, hu, (leavesCheckIn_iff checkedIn_afterCheckIn (by decide) hu
    ⟨hout, by simp [hsub]⟩).2 fun c i => ?_⟩
  simp [declinedSession]

/-- **The first session that is submitted is stored over the check-in.** -/
theorem not_leavesCheckIn :
    ¬ ∀ (s u : Account) (acts : List Action) (d : ℕ) (n τ : ℤ), CheckedIn s d n τ →
      Execution.Along step (fun s a => NoIosUse a ∧ LocalValue s a) s acts →
      Execution.run step s acts = some u → Settled u → LeavesCheckIn u d τ := by
  intro h
  obtain ⟨u, hu, hout, hover, hnone⟩ : ∃ u,
      Execution.run step afterCheckIn androidSession = some u ∧
        u.outbox = [] ∧ (∀ sub ∈ u.submissions, sub.Over) ∧ u.db.inProgress? = none :=
    Execution.exists_run (by decide)
  have hleaves := h _ u androidSession 0 0 0 checkedIn_afterCheckIn (by decide) hu ⟨hout, hover⟩
  rw [hleaves.checkIn] at hnone
  cases hnone

end StudyHours
