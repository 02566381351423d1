/-
**The slots of an account while no iOS user acts.**

What the Android clients do to the session children of an account, as long as they are the only ones
to act: the handlers of `numSessions` issue session children, which land in their own time, and the
transactions increase the number.  A screen of an iOS device may be given snapshots meanwhile.  The
handlers are run on values that a client may hold: nothing, or a number the account has had.

Of the thirteen things an action can do, five concern the slots; the others leave the record and the
writes in flight alone, and for the transactions of `numSessions` they start one or send one back to
be run again.

Main definitions:

* `StudyHours.NoIosUse`, `StudyHours.LocalValue` — the actions, and the values handlers are run on;
* `StudyHours.Account.phase` — how far the transaction of `numSessions` of a submission has come;
* `StudyHours.SlotTrans` — what an action does to the slots, case by case;
* `StudyHours.Consistent` — a record whose children are the sessions it counts.

Main results:

* `StudyHours.slotTrans_of_trans` — **everything an action can do to the slots**.
-/

import Mathlib
import StudyHours.Submissions

set_option relaxedAutoImplicit false
set_option autoImplicit false

namespace StudyHours

open Account

/-! ### Actions and values -/

/-- No iOS user acts: of the iOS devices there is nothing but the snapshots they are given. -/
def NoIosUse : Action → Prop
  | .ios _ .attach | .ios _ .observe => True
  | .ios _ _ => False
  | _ => True

instance (a : Action) : Decidable (NoIosUse a) := by
  induction a using Action.casesOn with
  | ios d e =>
      induction e using RecordViewController.Event.casesOn <;> dsimp only [NoIosUse] <;>
        infer_instance
  | _ => dsimp only [NoIosUse]; infer_instance

/-- The handler of `numSessions` is run on nothing or on a number that the account has had. -/
def LocalValue (s : Account) : Action → Prop
  | .runSessions _ v => ∀ m ∈ v, 0 ≤ m ∧ ∀ N ∈ s.db.numSessions, m ≤ N
  | _ => True

instance (s : Account) (a : Action) : Decidable (LocalValue s a) := by
  induction a using Action.casesOn <;> dsimp only [LocalValue] <;> infer_instance

/-- The result of the increment is an `int`. -/
theorem inInteger_integerSucc (n : ℤ) : InInteger (integerSucc n) := by
  have hlo := Int.le_bmod (x := n + 1) (m := 2 ^ 32) (by norm_num)
  have hhi := Int.bmod_lt (x := n + 1) (m := 2 ^ 32) (by norm_num)
  rw [InInteger, integerSucc]
  omega

/-- What a run of the handler on a number has computed. -/
theorem numSessionsTransaction_some {m : ℤ} {new : Option ℤ}
    (h : numSessionsTransaction (some m) = some new) :
    InInteger m ∧ new = some (integerSucc m) := by
  rw [numSessionsTransaction] at h
  split_ifs at h with hint
  exact ⟨hint, (Option.some.inj h).symm⟩

/-- The handler does not throw on a value that a client may hold. -/
theorem isSome_numSessionsTransaction {v : Option ℤ} (hv : ∀ m ∈ v, InInteger m) :
    (numSessionsTransaction v).isSome := by
  cases v with
  | none => rfl
  | some m =>
      rw [numSessionsTransaction, if_pos (hv m rfl)]
      rfl

@[simp] theorem key?_sessionWrite (studySession : Option StudySession) (k : ℤ) :
    (sessionWrite studySession k).key? = some k := by
  cases studySession <;> rfl

/-! ### Consistent records -/

/-- The children of the record are the `n` sessions it counts, each of them complete, and possibly
the one under the next free number. -/
structure Consistent (h : Hours) (n : ℤ) (next : Option SessionNode) : Prop where
  numSessions : h.numSessions = some n
  nonneg : 0 ≤ n
  complete : ∀ k, 1 ≤ k → k ≤ n → ∃ c, h.child k = some c ∧ c.Complete
  next : h.child (n + 1) = next
  others : ∀ k, k < 1 ∨ n + 1 < k → h.child k = none

/-- A child that is not complete stands under the next free number. -/
theorem Consistent.eq_next {h : Hours} {n k : ℤ} {next : Option SessionNode}
    (hc : Consistent h n next) {c : SessionNode} (hk : h.child k = some c) (hcomp : ¬ c.Complete) :
    k = n + 1 := by
  by_contra hne
  rcases lt_or_ge k 1 with hlow | hlow
  · rw [hc.others k (.inl hlow)] at hk
    cases hk
  · rcases lt_or_ge n k with hhigh | hhigh
    · rw [hc.others k (.inr (by omega))] at hk
      cases hk
    · obtain ⟨c', hc', hcomplete⟩ := hc.complete k hlow hhigh
      obtain rfl : c' = c := Option.some.inj (hc'.symm.trans hk)
      exact hcomp hcomplete

theorem child_created (sisterName : String) (k : ℤ) : (Hours.created sisterName).child k = none :=
  AList.lookup_empty _

/-- A record that has just been created has no sessions. -/
theorem consistent_created (sisterName : String) :
    Consistent (Hours.created sisterName) 0 none where
  numSessions := rfl
  nonneg := le_rfl
  complete k hlow hhigh := by omega
  next := child_created sisterName _
  others k _ := child_created sisterName k

/-! ### The transactions of `numSessions` -/

/-- How far the transaction of `numSessions` of submission `i` has come, if it has been started. -/
def Account.phase (s : Account) (i : ℕ) : Option (Transaction ℤ) :=
  s.submissions[i]?.bind Submission.numSessions

theorem phase_eq {s : Account} {i : ℕ} {sub : Submission} (h : s.submissions[i]? = some sub) :
    s.phase i = sub.numSessions := by
  rw [phase, h, Option.bind_some]

theorem phase_eq_some {s : Account} {i : ℕ} {tr : Transaction ℤ} (h : s.phase i = some tr) :
    ∃ sub, s.submissions[i]? = some sub ∧ sub.numSessions = some tr :=
  Option.bind_eq_some_iff.1 h

theorem phase_of_submissions_nil {s : Account} (h : s.submissions = []) (i : ℕ) :
    s.phase i = none := by
  rw [phase, h]
  rfl

/-- A submission goes on. -/
theorem phase_setSubmission {s : Account} {i : ℕ} {sub : Submission}
    (hsub : s.submissions[i]? = some sub) (sub' : Submission) :
    (s.setSubmission i sub').phase = Function.update s.phase i sub'.numSessions := by
  funext j
  rcases eq_or_ne j i with rfl | hne
  · rw [Function.update_self, phase, submissions_setSubmission, List.getElem?_set_self', hsub]
    rfl
  · rw [Function.update_of_ne hne, phase, submissions_setSubmission, List.getElem?_set_ne hne.symm,
      phase]

/-- The transaction of submission `j` after that of submission `i` has gone on. -/
theorem update_eq_some {β : Type*} {f : ℕ → Option β} {i j : ℕ} {x y : β}
    (h : Function.update f i (some x) j = some y) : (j = i ∧ x = y) ∨ (j ≠ i ∧ f j = some y) := by
  rcases eq_or_ne j i with rfl | hne
  · rw [Function.update_self] at h
    exact .inl ⟨rfl, Option.some.inj h⟩
  · rw [Function.update_of_ne hne] at h
    exact .inr ⟨hne, h⟩

theorem tickets_prefix_setSubmission {s : Account} {i : ℕ} {sub sub' : Submission}
    (hsub : s.submissions[i]? = some sub) (hc : sub'.client = sub.client)
    (hp : sub'.popup = sub.popup) : s.tickets <+: (s.setSubmission i sub').tickets := by
  rw [tickets_setSubmission hsub hc hp]

/-- What has been sent is what the handler computes. -/
theorem SubmissionsInv.sent {s : Account} (h : SubmissionsInv s) {i : ℕ} {base new : Option ℤ}
    (hi : s.phase i = some (.sent base new)) : numSessionsTransaction base = some new := by
  obtain ⟨sub, hsub, htr⟩ := phase_eq_some hi
  exact (h.sound sub (List.mem_of_getElem? hsub)).sessions base new htr

/-- A submission of which nothing is outstanding has committed or been aborted. -/
theorem SubmissionsInv.over {s : Account} (h : SubmissionsInv s) {i : ℕ} {sub : Submission}
    (hsub : s.submissions[i]? = some sub) (hover : sub.Over) :
    s.phase i = some .aborted ∨ ∃ base, s.phase i = some (.committed base) := by
  obtain ⟨hd, -, htr⟩ := hover
  have hstarted := ((h.sound sub (List.mem_of_getElem? hsub)).started hd).2
  rw [phase_eq hsub]
  obtain ⟨tr, hsome⟩ := Option.isSome_iff_exists.1 hstarted
  rw [hsome]
  cases tr with
  | queued | sent _ _ => exact (htr _ hsome).elim
  | committed base => exact .inr ⟨base, rfl⟩
  | aborted => exact .inl rfl

/-! ### Everything an action can do to the slots -/

/-- What an action does to the session children, the number of sessions and the transactions that
increase it. -/
inductive SlotTrans (s : Account) : Action → Account → Prop
  /-- Nothing but to start a transaction, or to send one back that was run on another value. -/
  | quiet {a : Action} {t : Account} (hchildren : t.db.children = s.db.children)
      (hnumber : t.db.numSessions = s.db.numSessions) (hout : t.outbox = s.outbox)
      (htickets : s.tickets <+: t.tickets)
      (hkept : ∀ i tr, s.phase i = some tr → t.phase i = some tr ∨
        ∃ base new, tr = .sent base new ∧ s.db.numSessions ≠ base)
      (hnew : ∀ i tr, t.phase i = some tr → s.phase i = some tr ∨ tr = .queued) : SlotTrans s a t
  | run {i : ℕ} {v new : Option ℤ} {sub : Submission} {t : Account}
      (hsub : s.submissions[i]? = some sub) (hq : s.phase i = some .queued)
      (hv : numSessionsTransaction v = some new) (hdb : t.db = s.db)
      (hout : t.outbox = s.outbox ++ s.handlerWrites i sub new) (htickets : t.tickets = s.tickets)
      (hphase : t.phase = Function.update s.phase i (some (.sent v new))) :
      SlotTrans s (.runSessions i v) t
  | abort {i : ℕ} {v : Option ℤ} {t : Account} (hq : s.phase i = some .queued)
      (hv : numSessionsTransaction v = none) (hdb : t.db = s.db) (hout : t.outbox = s.outbox)
      (htickets : t.tickets = s.tickets)
      (hphase : t.phase = Function.update s.phase i (some .aborted)) :
      SlotTrans s (.runSessions i v) t
  | commit {i : ℕ} {base new : Option ℤ} {t : Account} (hsent : s.phase i = some (.sent base new))
      (hbase : s.db.numSessions = base) (hchildren : t.db.children = s.db.children)
      (hnumber : t.db.numSessions = new) (hout : t.outbox = s.outbox)
      (htickets : t.tickets = s.tickets)
      (hphase : t.phase = Function.update s.phase i (some (.committed base))) :
      SlotTrans s (.commitSessions i) t
  | land {l₁ l₂ : List Entry} {e : Entry} {t : Account} (hout : s.outbox = l₁ ++ e :: l₂)
      (hdb : t.db = s.db.apply e.write) (hout' : t.outbox = l₁ ++ l₂)
      (htickets : t.tickets = s.tickets) (hphase : t.phase = s.phase) :
      SlotTrans s (.land l₁.length) t

namespace SlotTrans

variable {s t : Account} {a : Action}

/-- Neither the record nor the transactions are touched. -/
theorem of_eq (hchildren : t.db.children = s.db.children)
    (hnumber : t.db.numSessions = s.db.numSessions) (hout : t.outbox = s.outbox)
    (htickets : s.tickets <+: t.tickets) (hphase : t.phase = s.phase) : SlotTrans s a t :=
  .quiet hchildren hnumber hout htickets (fun _ _ h => .inl (hphase ▸ h))
    fun _ _ h => .inl (hphase ▸ h)

/-- The transaction of a submission is started, or sent back that was run on another value. -/
theorem quiet_setSubmission {i : ℕ} {sub sub' : Submission} (hsub : s.submissions[i]? = some sub)
    (hc : sub'.client = sub.client) (hp : sub'.popup = sub.popup)
    (hkept : ∀ tr, s.phase i = some tr →
      ∃ base new, tr = .sent base new ∧ s.db.numSessions ≠ base)
    (hnew : ∀ tr, sub'.numSessions = some tr → tr = .queued) :
    SlotTrans s a (s.setSubmission i sub') := by
  refine .quiet rfl rfl rfl (tickets_prefix_setSubmission hsub hc hp) ?_ ?_
  · intro j tr hj
    rw [phase_setSubmission hsub]
    rcases eq_or_ne j i with rfl | hne
    · exact .inr (hkept tr hj)
    · rw [Function.update_of_ne hne]
      exact .inl hj
  · intro j tr hj
    rw [phase_setSubmission hsub] at hj
    rcases eq_or_ne j i with rfl | hne
    · rw [Function.update_self] at hj
      exact .inr (hnew tr hj)
    · rw [Function.update_of_ne hne] at hj
      exact .inl hj

/-- A submission goes on, but for its transaction of `numSessions`. -/
theorem of_setSubmission {i : ℕ} {sub sub' : Submission} (hsub : s.submissions[i]? = some sub)
    (hchildren : t.db.children = s.db.children) (hnumber : t.db.numSessions = s.db.numSessions)
    (hout : t.outbox = s.outbox) (ht : t.submissions = s.submissions.set i sub')
    (hc : sub'.client = sub.client) (hp : sub'.popup = sub.popup)
    (htr : sub'.numSessions = sub.numSessions) : SlotTrans s a t := by
  have htickets : t.tickets = s.tickets := by
    rw [← tickets_setSubmission hsub hc hp, tickets, ht]
    rfl
  have hphase : t.phase = s.phase := by
    have hset : t.phase = (s.setSubmission i sub').phase := by
      funext j
      rw [phase, ht]
      rfl
    rw [hset, phase_setSubmission hsub, htr, ← phase_eq hsub, Function.update_eq_self]
  exact .of_eq hchildren hnumber hout (htickets ▸ List.prefix_rfl) hphase

end SlotTrans

/-- An action on a screen that is only given snapshots issues nothing. -/
theorem writes_of_noIosUse {view : Hours} {vc vc' : RecordViewController}
    {e : RecordViewController.Event} {ws : List Write} {d : ℕ} (ha : NoIosUse (.ios d e))
    (h : RecordViewController.Transition view vc e vc' ws) : ws = [] := by
  cases h with
  | attach _ | observe _ _ | observeTrap _ _ => rfl
  | _ => exact ha.elim

/-- **Everything an action can do to the slots** while no iOS user acts. -/
theorem slotTrans_of_trans {s t : Account} {a : Action} (hs : SubmissionsInv s) (h : Trans s a t)
    (ha : NoIosUse a) : SlotTrans s a t := by
  cases h with
  | ios htr =>
      obtain rfl := writes_of_noIosUse ha htr
      exact .of_eq rfl rfl (by simp [sendAll]) List.prefix_rfl rfl
  | toggle _ | decline _ => exact .of_eq rfl rfl rfl List.prefix_rfl rfl
  | @submit c i popup hi =>
      refine .quiet rfl rfl rfl ?_ (fun j tr hj => .inl ?_) fun j tr hj => .inl ?_
      · rw [tickets, tickets, List.map_append]
        exact List.prefix_append _ _
      · obtain ⟨sub, hsub, htr⟩ := phase_eq_some hj
        have hlt : j < s.submissions.length := (List.getElem?_eq_some_iff.1 hsub).1
        rw [phase, List.getElem?_append_left hlt, hsub]
        exact htr
      · obtain ⟨sub, hsub, htr⟩ := phase_eq_some hj
        rw [List.getElem?_append] at hsub
        split_ifs at hsub with hlt
        · rw [phase_eq hsub, htr]
        · -- the new submission has not started a transaction
          rcases List.mem_singleton.1 (List.mem_of_getElem? hsub) with rfl
          cases htr
  | @deliver i sub hsub hd =>
      have hnone : s.phase i = none := by
        rw [phase_eq hsub]
        exact ((hs.sound sub (List.mem_of_getElem? hsub)).undelivered hd).2
      refine .quiet_setSubmission hsub rfl rfl (fun tr htr => ?_) fun tr htr => ?_
      · rw [hnone] at htr
        cases htr
      · simp only [Submission.onDataChange, Option.ite_none_right_eq_some,
          Option.some.injEq] at htr
        exact htr.2.symm
  | runHours hsub _ => exact .of_setSubmission hsub rfl rfl rfl rfl rfl rfl rfl
  | hoursCommit hsub _ _ => exact .of_setSubmission hsub rfl rfl rfl rfl rfl rfl rfl
  | hoursRetry hsub _ _ => exact .of_setSubmission hsub rfl rfl rfl rfl rfl rfl rfl
  | runSessions hsub hq hv =>
      exact .run hsub ((phase_eq hsub).trans hq) hv rfl rfl (tickets_setSubmission hsub rfl rfl)
        (phase_setSubmission hsub _)
  | sessionsAbort hsub hq hv =>
      exact .abort ((phase_eq hsub).trans hq) hv rfl rfl (tickets_setSubmission hsub rfl rfl)
        (phase_setSubmission hsub _)
  | sessionsCommit hsub hs hb =>
      exact .commit ((phase_eq hsub).trans hs) hb rfl rfl rfl (tickets_setSubmission hsub rfl rfl)
        (phase_setSubmission hsub _)
  | @sessionsRetry i sub base new hsub hs hb =>
      refine .quiet_setSubmission hsub rfl rfl (fun tr htr => ?_) fun tr htr => ?_
      · rw [phase_eq hsub, hs] at htr
        exact ⟨base, new, (Option.some.inj htr).symm, hb⟩
      · exact (Option.some.inj htr).symm
  | land hout hj _ => exact hj ▸ .land hout rfl rfl rfl rfl

end StudyHours
