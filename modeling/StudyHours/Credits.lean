/-
**What the two counters are made of.**

Updates of the counters get lost when a dialog of an iOS device is answered late.  But nothing is
ever made up: each value that a counter takes, and each value that a callback has captured or that a
write in flight carries, is the initial value together with the amounts of some of the sessions
accepted so far, each of them taken at most once.  So no order of the steps credits a session twice,
and none takes away what the account had at first.

Main definitions:

* `StudyHours.MadeOf` — a value is the initial one and the amounts of some of the credits;
* `StudyHours.Submission.Computed` — what a submission sends is what its handlers compute;
* `StudyHours.CreditEffect` — what an action of an Android client does to a counter;
* `StudyHours.CreditInv` — every value under way is made of the credits spent so far.

Main results:

* `StudyHours.CreditInv.trans` — every action preserves this;
* `StudyHours.totalHours_madeOf` — **the hours are those of some of the accepted sessions**, in
  every state of every run;
* `StudyHours.numSessions_le_accepted` — **no more sessions are counted than have been accepted**.
-/

import Mathlib
import StudyHours.Confirmations

set_option relaxedAutoImplicit false
set_option autoImplicit false

namespace StudyHours

open Account
open RecordViewController (Event Transition)

/-! ### Values made of credits -/

section MadeOf

variable {α : Type} [AddCommGroup α] (K : Counter α) (v₀ : α)

/-- The value is the initial one and what some of the credits add, each of them once. -/
def MadeOf (credits : Multiset ℚ) (c : α) : Prop := ∃ m ≤ credits, c = v₀ + (m.map K.amount).sum

variable {K v₀} {credits credits' : Multiset ℚ} {c : α}

theorem madeOf_initial (credits : Multiset ℚ) : MadeOf K v₀ credits v₀ :=
  ⟨0, zero_le, by simp⟩

theorem MadeOf.mono (h : MadeOf K v₀ credits c) (hle : credits ≤ credits') :
    MadeOf K v₀ credits' c := by
  obtain ⟨m, hm, rfl⟩ := h
  exact ⟨m, hm.trans hle, rfl⟩

/-- One more credit is added. -/
theorem MadeOf.add (h : MadeOf K v₀ credits c) (credit : ℚ) :
    MadeOf K v₀ (credits + {credit}) (c + K.amount credit) := by
  obtain ⟨m, hm, rfl⟩ := h
  refine ⟨m + {credit}, add_le_add_left hm {credit}, ?_⟩
  rw [Multiset.map_add, Multiset.sum_add, Multiset.map_singleton, Multiset.sum_singleton, add_assoc]

/-- What a device sees of a counter: the value of the record, or that of a write of its own. -/
theorem madeOf_applyAll [LinearOrder α] (hK : K.Lawful) {ws : List Write} {h : Hours}
    (hvalue : ∀ c ∈ K.value h, MadeOf K v₀ credits c)
    (hws : ∀ w ∈ ws, ∀ p ∈ K.put? w, MadeOf K v₀ credits (p.1 + p.2)) :
    ∀ c ∈ K.value (h.applyAll ws), MadeOf K v₀ credits c := by
  induction ws generalizing h with
  | nil => exact hvalue
  | cons w ws ih =>
      refine ih (fun c hc => ?_) fun w' hw' => hws w' (List.mem_cons_of_mem w hw')
      rw [hK.value_apply] at hc
      cases hp : K.put? w with
      | none =>
          rw [hp] at hc
          exact hvalue c hc
      | some p =>
          rw [hp] at hc
          obtain rfl := Option.some.inj hc
          exact hws w List.mem_cons_self p hp

end MadeOf

/-! ### The credits of the submissions under way -/

/-- What holds of a submission even where its record is not complete: nothing is started before the
snapshot, and what a transaction has sent is what its handler computes. -/
structure Submission.Computed (sub : Submission) : Prop where
  undelivered : sub.delivered = false → sub.totalHours = none ∧ sub.numSessions = none
  hours : ∀ base new, sub.totalHours = some (.sent base new) →
    new = totalHoursTransaction sub.popup.diff base
  sessions : ∀ base new, sub.numSessions = some (.sent base new) →
    numSessionsTransaction base = some new

namespace Submission.Computed

variable {sub : Submission}

theorem delivered (h : sub.Computed) (hstarted : sub.totalHours.isSome ∨ sub.numSessions.isSome) :
    sub.delivered = true := by
  by_contra hd
  obtain ⟨ht, hn⟩ := h.undelivered (by simpa using hd)
  rw [ht, hn] at hstarted
  rcases hstarted with hstarted | hstarted <;> cases hstarted

/-- A transaction of `totalHours` that was started goes on. -/
theorem setHours (h : sub.Computed) (hstarted : sub.totalHours.isSome) (tr : Transaction ℚ)
    (htr : ∀ base new, tr = .sent base new → new = totalHoursTransaction sub.popup.diff base) :
    ({ sub with totalHours := some tr } : Submission).Computed where
  undelivered hd := by rw [h.delivered (.inl hstarted)] at hd; cases hd
  hours base new heq := htr base new (Option.some.inj heq)
  sessions := h.sessions

/-- A transaction of `numSessions` that was started goes on. -/
theorem setSessions (h : sub.Computed) (hstarted : sub.numSessions.isSome) (tr : Transaction ℤ)
    (htr : ∀ base new, tr = .sent base new → numSessionsTransaction base = some new) :
    ({ sub with numSessions := some tr } : Submission).Computed where
  undelivered hd := by rw [h.delivered (.inr hstarted)] at hd; cases hd
  hours := h.hours
  sessions base new heq := htr base new (Option.some.inj heq)

end Submission.Computed

/-- Every submission is so. -/
def Account.Computed (s : Account) : Prop := ∀ sub ∈ s.submissions, sub.Computed

/-- **It stays so** through every action. -/
theorem Account.Computed.trans {s t : Account} (h : s.Computed) {a : Action} (hst : Trans s a t) :
    t.Computed := by
  have hget : ∀ {i : ℕ} {sub : Submission}, s.submissions[i]? = some sub → sub.Computed :=
    fun hsub => h _ (List.mem_of_getElem? hsub)
  have hset : ∀ {i : ℕ} {sub : Submission}, sub.Computed →
      ∀ sub' ∈ s.submissions.set i sub, sub'.Computed := by
    intro i sub hsub sub' hmem
    rcases List.mem_or_eq_of_mem_set hmem with hmem | rfl
    · exact h sub' hmem
    · exact hsub
  cases hst with
  | ios _ | toggle _ | decline _ | land _ _ _ => exact h
  | submit _ =>
      intro sub hmem
      rcases List.mem_append.1 hmem with hmem | hmem
      · exact h sub hmem
      · obtain rfl := List.mem_singleton.1 hmem
        exact ⟨fun _ => ⟨rfl, rfl⟩, fun _ _ heq => (by cases heq), fun _ _ heq => (by cases heq)⟩
  | @deliver i sub hsub _ =>
      refine hset ⟨fun hd => (by cases hd), fun base new heq => ?_, fun base new heq => ?_⟩
      · simp only [Submission.onDataChange] at heq
        split_ifs at heq
        cases heq
      · simp only [Submission.onDataChange] at heq
        split_ifs at heq
        cases heq
  | @runHours i v sub hsub hq =>
      refine hset ((hget hsub).setHours (by rw [hq]; rfl) _ fun base new heq => ?_)
      cases heq
      rfl
  | hoursCommit hsub htr _ | hoursRetry hsub htr _ =>
      exact hset ((hget hsub).setHours (by rw [htr]; rfl) _ fun _ _ heq => by cases heq)
  | @runSessions i v new sub hsub hq hv =>
      refine hset ((hget hsub).setSessions (by rw [hq]; rfl) _ fun base new heq => ?_)
      cases heq
      exact hv
  | sessionsAbort hsub htr _ | sessionsCommit hsub htr _ | sessionsRetry hsub htr _ =>
      exact hset ((hget hsub).setSessions (by rw [htr]; rfl) _ fun _ _ heq => by cases heq)

/-- One of the terms of a sum has become smaller by `a` at least. -/
theorem sum_map_set_le (f : Submission → Multiset ℚ) {subs : List Submission} {i : ℕ}
    {sub sub' : Submission} {a : Multiset ℚ} (hsub : subs[i]? = some sub)
    (hf : f sub' + a ≤ f sub) : ((subs.set i sub').map f).sum + a ≤ (subs.map f).sum := by
  induction subs generalizing i with
  | nil => cases hsub
  | cons x subs ih =>
      cases i with
      | zero =>
          obtain rfl := Option.some.inj hsub
          simp only [List.set_cons_zero, List.map_cons, List.sum_cons]
          rw [add_right_comm]
          exact add_le_add_left hf _
      | succ i =>
          simp only [List.set_cons_succ, List.map_cons, List.sum_cons, add_assoc]
          exact add_le_add_right (ih hsub) (f x)

/-- The credits that the submissions have still to add. -/
def openCredits (credits : Submission → Multiset ℚ) (s : Account) : Multiset ℚ :=
  (s.submissions.map credits).sum

/-- A submission goes on and has less to add than before. -/
theorem openCredits_set_le (credits : Submission → Multiset ℚ) {s t : Account} {i : ℕ}
    {sub sub' : Submission} {a : Multiset ℚ} (hsub : s.submissions[i]? = some sub)
    (ht : t.submissions = s.submissions.set i sub') (hf : credits sub' + a ≤ credits sub) :
    openCredits credits t + a ≤ openCredits credits s := by
  rw [openCredits, openCredits, ht]
  exact sum_map_set_le credits hsub hf

/-- What an action of an Android client does to a counter: it leaves it alone, or ends the
transaction of a session, which adds its amount. -/
inductive CreditEffect {α : Type} [AddCommGroup α] (K : Counter α)
    (credits : Submission → Multiset ℚ) (s t : Account) (a : Action) : Prop
  | keep (hvalue : K.value t.db = K.value s.db)
      (hopen : openCredits credits t ≤ openCredits credits s + ↑(accepted s a))
  | spend (credit : ℚ) (hvalue : K.value t.db = (K.value s.db).map (· + K.amount credit))
      (hopen : openCredits credits t + {credit} ≤ openCredits credits s)

/-- A submission goes on and leaves the counter alone. -/
theorem CreditEffect.of_set {α : Type} [AddCommGroup α] {K : Counter α}
    {credits : Submission → Multiset ℚ} {s t : Account} {a : Action} {i : ℕ} {sub sub' : Submission}
    (hvalue : K.value t.db = K.value s.db) (hsub : s.submissions[i]? = some sub)
    (ht : t.submissions = s.submissions.set i sub') (hf : credits sub' ≤ credits sub) :
    CreditEffect K credits s t a := by
  refine .keep hvalue ?_
  have hopen := openCredits_set_le credits (a := 0) hsub ht (by rwa [add_zero])
  rw [add_zero] at hopen
  exact hopen.trans (Multiset.le_add_right _ _)

/-! ### The invariant -/

section Invariant

variable {α : Type} [AddCommGroup α] [LinearOrder α] {K : Counter α} {v₀ : α}
  {credits : Submission → Multiset ℚ} {s t : Account} {spent : Multiset ℚ}

/-- The writes of a counter that an event issues carry a captured value and the amount of the
session that the event accepts. -/
theorem put?_of_event (hK : K.Lawful) {view : Hours} {d : ℕ} {e : Event}
    {vc : RecordViewController} {ws : List Write} (h : Transition view (s.device d) e vc ws) :
    ∀ w ∈ ws, ∀ p ∈ K.put? w, ∃ x ∈ (s.device d).captured, ∃ credit, p.1 ∈ K.held x ∧
      p.2 = K.amount credit ∧ accepted s (.ios d e) = [credit] := by
  intro w hw p hp
  have hmem : p ∈ ws.filterMap K.put? := List.mem_filterMap.2 ⟨w, hw, hp⟩
  cases h with
  | @yes i dlg t hi ht =>
      obtain ⟨b, hb, hput⟩ := hK.recordSession dlg.interval dlg.numSessions dlg.out t
      rw [hput] at hmem
      obtain rfl := List.mem_singleton.1 hmem
      refine ⟨_, RecordViewController.mem_captured.2 (.inr (.inr ⟨dlg, List.mem_of_getElem? hi,
        rfl⟩)), iosCredit dlg.interval, ht ▸ hb, rfl, ?_⟩
      simp [accepted, hi]
  | start | tooShort | no =>
      simp [dismissSession, hK.put?_child] at hmem
  | _ => cases hmem

/-- Every value under way is made of the credits that have been spent so far. -/
structure CreditInv (K : Counter α) (v₀ : α) (s : Account) (spent : Multiset ℚ) : Prop where
  computed : s.Computed
  value : ∀ c ∈ K.value s.db, MadeOf K v₀ spent c
  captured : ∀ d, ∀ x ∈ (s.device d).captured, ∀ c ∈ K.held x, MadeOf K v₀ spent c
  outbox : ∀ e ∈ s.outbox, ∀ p ∈ K.put? e.write, MadeOf K v₀ spent (p.1 + p.2)

namespace CreditInv

omit [LinearOrder α] in
theorem mono (h : CreditInv K v₀ s spent) {spent' : Multiset ℚ} (hle : spent ≤ spent') :
    CreditInv K v₀ s spent' where
  computed := h.computed
  value c hc := (h.value c hc).mono hle
  captured d x hx c hc := (h.captured d x hx c hc).mono hle
  outbox e he p hp := (h.outbox e he p hp).mono hle

theorem view (hK : K.Lawful) (h : CreditInv K v₀ s spent) (d : ℕ) :
    ∀ c ∈ K.value (s.view d), MadeOf K v₀ spent c := by
  refine madeOf_applyAll hK h.value fun w hw p hp => ?_
  obtain ⟨e, he, rfl⟩ := List.mem_map.1 hw
  exact h.outbox e (List.mem_of_mem_filter he) p hp

/-- An event of a screen spends the credit of the session it accepts, if any. -/
theorem issue (hK : K.Lawful) (h : CreditInv K v₀ s spent) {d : ℕ} {e : Event}
    {vc : RecordViewController} {ws : List Write}
    (htr : Transition (s.view d) (s.device d) e vc ws) :
    CreditInv K v₀ (s.issue d vc ws) (spent + ↑(accepted s (.ios d e))) := by
  have hle : spent ≤ spent + ↑(accepted s (.ios d e)) := Multiset.le_add_right _ _
  refine ⟨h.computed, (h.mono hle).value, ?_, ?_⟩
  · intro d' x hx c hc
    rcases eq_or_ne d' d with rfl | hne
    · rw [device_issue_self, RecordViewController.captured_notify] at hx
      rcases RecordViewController.captured_of_transition htr x hx with hx | ⟨-, rfl⟩
      · exact (h.captured d' x hx c hc).mono hle
      · exact (h.view hK d' c hc).mono hle
    · rw [device_issue_of_ne _ _ _ hne] at hx
      exact (h.captured d' x hx c hc).mono hle
  · intro e' he' p hp
    rw [outbox_issue] at he'
    rcases List.mem_append.1 he' with he' | he'
    · exact (h.outbox e' he' p hp).mono hle
    · obtain ⟨w, hw, rfl⟩ := List.mem_map.1 he'
      obtain ⟨x, hx, credit, hheld, hamount, hacc⟩ := put?_of_event hK htr w hw p hp
      rw [hamount, hacc]
      exact (h.captured d x hx p.1 hheld).add credit

/-- A landing spends nothing. -/
theorem landed (hK : K.Lawful) (h : CreditInv K v₀ s spent) {l₁ l₂ : List Entry} {e : Entry}
    (hout : s.outbox = l₁ ++ e :: l₂) : CreditInv K v₀ (s.landed l₁ e l₂) spent := by
  refine ⟨h.computed, fun c hc => ?_, fun d x hx c hc => ?_, ?_⟩
  · rw [db_landed, hK.value_apply] at hc
    cases hp : K.put? e.write with
    | none =>
        rw [hp] at hc
        exact h.value c hc
    | some p =>
        rw [hp] at hc
        obtain rfl := Option.some.inj hc
        exact h.outbox e (by simp [hout]) p hp
  · rw [captured_landed] at hx
    exact h.captured d x hx c hc
  · intro e' he' p hp
    refine h.outbox e' ?_ p hp
    rw [hout]
    rw [outbox_landed] at he'
    exact ((List.Sublist.refl l₁).append (List.sublist_cons_self e l₂)).subset he'

/-- What an Android client leaves alone. -/
theorem android_frame (hK : K.Lawful) (h : CreditInv K v₀ s spent) {a : Action}
    (hst : Trans s a t) (hframe : AndroidFrame s t)
    (hvalue : ∀ c ∈ K.value t.db, MadeOf K v₀ spent c) : CreditInv K v₀ t spent := by
  refine ⟨h.computed.trans hst, hvalue, fun d x hx c hc => ?_, fun e he p hp => ?_⟩
  · obtain ⟨hs, heq⟩ := hframe.device d
    rw [heq, RecordViewController.captured_notify] at hx
    exact h.captured d x hx c hc
  · obtain ⟨l, hl, hsessions⟩ := hframe.outbox
    rw [hl] at he
    rcases List.mem_append.1 he with he | he
    · exact h.outbox e he p hp
    · obtain ⟨c, i, studySession, n, rfl⟩ := hsessions e he
      have hnone : K.put? (sessionWrite studySession n) = none := by
        refine hK.put?_child _ (fun k heq => ?_) fun q r heq => ?_
        · cases studySession <;> cases heq
        · cases studySession <;> cases heq
      rw [hnone] at hp
      cases hp

/-- **Every action preserves the invariant**: the credits spent and those still to be spent are,
together, some of the ones that have been accepted. -/
theorem trans (hK : K.Lawful) (h : CreditInv K v₀ s spent) {a : Action} (hst : Trans s a t)
    (heffect : (∀ d e, a ≠ .ios d e) → (∀ j, a ≠ .land j) → CreditEffect K credits s t a) :
    ∃ spent', spent ≤ spent' ∧ CreditInv K v₀ t spent' ∧
      spent' + openCredits credits t ≤ spent + openCredits credits s + ↑(accepted s a) := by
  rcases hst.kinds with ⟨d, e, vc, ws, rfl, htr, rfl⟩ | ⟨l₁, e, l₂, rfl, hout, -, rfl⟩ |
    ⟨hios, hland, hframe⟩
  · exact ⟨_, Multiset.le_add_right _ _, h.issue hK htr, (add_right_comm _ _ _).le⟩
  · exact ⟨spent, le_rfl, h.landed hK hout, (add_zero _).symm.le⟩
  · cases heffect hios hland with
    | keep hvalue hopen =>
        refine ⟨spent, le_rfl,
          h.android_frame hK hst hframe fun c hc => h.value c (hvalue ▸ hc), ?_⟩
        rw [add_assoc]
        exact add_le_add_right hopen spent
    | spend credit hvalue hopen =>
        have hle : spent ≤ spent + {credit} := Multiset.le_add_right _ _
        refine ⟨spent + {credit}, hle, (h.mono hle).android_frame hK hst hframe fun c hc => ?_, ?_⟩
        · rw [hvalue] at hc
          obtain ⟨v, hv, rfl⟩ := Option.map_eq_some_iff.1 hc
          exact (h.value v hv).add credit
        · rw [add_assoc, add_comm _ (openCredits credits t)]
          exact (add_le_add_right hopen spent).trans (Multiset.le_add_right _ _)

end CreditInv

end Invariant

/-! ### The two counters -/

/-- The credit of a submission whose transaction of the hours is not over. -/
def hoursCredits (sub : Submission) : Multiset ℚ :=
  sub.due sub.totalHours {androidCredit sub.popup.diff}

/-- The credit of a submission whose transaction of the number of sessions is not over. -/
def sessionsCredits (sub : Submission) : Multiset ℚ :=
  sub.due sub.numSessions {androidCredit sub.popup.diff}

/-- Every session counts for one. -/
theorem sum_sessionsAmount (credits : Multiset ℚ) :
    (credits.map sessionsCounter.amount).sum = Multiset.card credits := by
  have hone : credits.map sessionsCounter.amount = credits.map fun _ => (1 : ℤ) := rfl
  rw [hone, Multiset.map_const', Multiset.sum_replicate, nsmul_eq_mul, mul_one]

section Effects

variable {s t : Account} {a : Action}

theorem openCredits_submit (credits : Submission → Multiset ℚ) (s : Account) (c : ℕ) (popup : Popup)
    (f : ℕ → HomeFragment) :
    openCredits credits { s with
      fragment := f
      submissions := s.submissions ++ [Submission.start c popup] } =
      openCredits credits s + credits (Submission.start c popup) := by
  simp [openCredits]

/-- No more is open of a submission than its credit. -/
theorem due_le {α : Type} (sub : Submission) (tr : Option (Transaction α)) (credits : Multiset ℚ) :
    sub.due tr credits ≤ credits := by
  rw [Submission.due]
  split_ifs
  · cases tr with
    | none => exact zero_le
    | some tr => cases tr with
      | queued | sent _ _ => exact le_rfl
      | committed _ | aborted => exact zero_le
  · exact le_rfl

/-- The hours: a transaction that is taken adds the credit of its session. -/
theorem creditEffect_hours (h : s.Computed) (hst : Trans s a t) (hios : ∀ d e, a ≠ .ios d e)
    (hland : ∀ j, a ≠ .land j) : CreditEffect hoursCounter hoursCredits s t a := by
  have hget : ∀ {i : ℕ} {sub : Submission}, s.submissions[i]? = some sub → sub.Computed :=
    fun hsub => h _ (List.mem_of_getElem? hsub)
  cases hst with
  | ios _ => exact absurd rfl (hios _ _)
  | land _ _ _ => exact absurd rfl (hland _)
  | toggle _ | decline _ => exact .keep rfl (add_zero _).symm.le
  | @submit c i popup hi =>
      refine .keep rfl ((openCredits_submit hoursCredits s c popup _).le.trans ?_)
      have haccepted : accepted s (.submit c i) = [androidCredit popup.diff] := by
        simp [accepted, hi]
      rw [haccepted]
      rfl
  | @deliver i sub hsub hd =>
      refine .of_set rfl hsub rfl ?_
      have hdue : hoursCredits sub = {androidCredit sub.popup.diff} := by
        rw [hoursCredits, Submission.due, hd]
        rfl
      rw [hdue]
      exact due_le _ _ _
  | @runHours i v sub hsub hq =>
      refine .of_set rfl hsub rfl (le_of_eq ?_)
      simp [hoursCredits, Submission.due, hq, Transaction.due]
  | @hoursCommit i sub base new hsub htr hb =>
      have hd := (hget hsub).delivered (.inl (by rw [htr]; rfl))
      refine .spend (androidCredit sub.popup.diff) ?_ (openCredits_set_le hoursCredits hsub rfl ?_)
      · change new = s.db.totalHours.map _
        rw [(hget hsub).hours base new htr, hb]
        rfl
      · simp [hoursCredits, Submission.due, hd, htr, Transaction.due]
  | @hoursRetry i sub base new hsub htr _ =>
      refine .of_set rfl hsub rfl (le_of_eq ?_)
      simp [hoursCredits, Submission.due, htr, Transaction.due]
  | runSessions hsub _ _ | sessionsAbort hsub _ _ | sessionsCommit hsub _ _
  | sessionsRetry hsub _ _ => exact .of_set rfl hsub rfl le_rfl

/-- The number of sessions: a transaction that is taken adds one, as long as the number is not the
largest `int`; one that is aborted adds nothing. -/
theorem creditEffect_sessions (h : s.Computed) (hst : Trans s a t) (hios : ∀ d e, a ≠ .ios d e)
    (hland : ∀ j, a ≠ .land j) (hmax : s.db.numSessions ≠ some (2 ^ 31 - 1)) :
    CreditEffect sessionsCounter sessionsCredits s t a := by
  have hget : ∀ {i : ℕ} {sub : Submission}, s.submissions[i]? = some sub → sub.Computed :=
    fun hsub => h _ (List.mem_of_getElem? hsub)
  cases hst with
  | ios _ => exact absurd rfl (hios _ _)
  | land _ _ _ => exact absurd rfl (hland _)
  | toggle _ | decline _ => exact .keep rfl (add_zero _).symm.le
  | @submit c i popup hi =>
      refine .keep rfl ((openCredits_submit sessionsCredits s c popup _).le.trans ?_)
      have haccepted : accepted s (.submit c i) = [androidCredit popup.diff] := by
        simp [accepted, hi]
      rw [haccepted]
      rfl
  | @deliver i sub hsub hd =>
      refine .of_set rfl hsub rfl ?_
      have hdue : sessionsCredits sub = {androidCredit sub.popup.diff} := by
        rw [sessionsCredits, Submission.due, hd]
        rfl
      rw [hdue]
      exact due_le _ _ _
  | runHours hsub _ | hoursCommit hsub _ _ | hoursRetry hsub _ _ =>
      exact .of_set rfl hsub rfl le_rfl
  | @runSessions i v new sub hsub hq hv =>
      refine .of_set rfl hsub rfl (le_of_eq ?_)
      simp [sessionsCredits, Submission.due, hq, Transaction.due]
  | @sessionsAbort i v sub hsub hq hv =>
      have hd := (hget hsub).delivered (.inr (by rw [hq]; rfl))
      refine .of_set rfl hsub rfl ?_
      simp [sessionsCredits, Submission.due, hd, Transaction.due]
  | @sessionsCommit i sub base new hsub htr hb =>
      have hd := (hget hsub).delivered (.inr (by rw [htr]; rfl))
      have hnew := (hget hsub).sessions base new htr
      refine .spend (androidCredit sub.popup.diff) ?_
        (openCredits_set_le sessionsCredits hsub rfl ?_)
      · change new = s.db.numSessions.map (· + 1)
        subst hb
        cases hn : s.db.numSessions with
        | none =>
            rw [hn] at hnew
            exact (Option.some.inj hnew).symm
        | some n =>
            rw [hn, numSessionsTransaction] at hnew
            split_ifs at hnew with hint
            have hne : n ≠ 2 ^ 31 - 1 := fun heq => hmax (heq ▸ hn)
            rw [← Option.some.inj hnew, (integerSucc_eq_iff hint).2 hne]
            rfl
      · simp [sessionsCredits, Submission.due, hd, htr, Transaction.due]
  | @sessionsRetry i sub base new hsub htr _ =>
      refine .of_set rfl hsub rfl (le_of_eq ?_)
      simp [sessionsCredits, Submission.due, htr, Transaction.due]

end Effects

/-! ### Runs -/

section Runs

variable {s : Account}

theorem Quiescent.creditInv {α : Type} [AddCommGroup α] {K : Counter α} (h : Quiescent s)
    {v : α} (hv : K.value s.db = some v) : CreditInv K v s 0 where
  computed sub hsub := by rw [h.submissions] at hsub; cases hsub
  value c hc := by
    rw [hv] at hc
    obtain rfl := Option.some.inj hc
    exact madeOf_initial 0
  captured d x hx := by rw [RecordViewController.captured_of_idle (h.idle d)] at hx; cases hx
  outbox e he := by rw [h.outbox] at he; cases he

/-- The invariant in every state of a run, as long as no transaction fails at `N` credits or
less. -/
theorem CreditInv.run {α : Type} [AddCommGroup α] [LinearOrder α] {K : Counter α} {v₀ : α}
    {credits : Submission → Multiset ℚ} (hK : K.Lawful) (h : CreditInv K v₀ s 0)
    (hopen : openCredits credits s = 0) {N : ℕ}
    (heffect : ∀ s t a spent, CreditInv K v₀ s spent → Multiset.card spent ≤ N → Trans s a t →
      (∀ d e, a ≠ .ios d e) → (∀ j, a ≠ .land j) → CreditEffect K credits s t a) :
    ∀ acts t, Execution.run step s acts = some t →
      (Execution.collect step accepted s acts).length ≤ N →
      ∃ spent, CreditInv K v₀ t spent ∧
        spent + openCredits credits t ≤ ↑(Execution.collect step accepted s acts) := by
  refine Execution.run_covered h hopen fun s a t spent hinv hcard hu => ?_
  have hst := trans_of_step hu
  obtain ⟨spent', -, hinv', hspent'⟩ := hinv.trans hK hst (heffect s t a spent hinv hcard hst)
  exact ⟨spent', hinv', hspent'⟩

theorem openCredits_of_quiescent (h : Quiescent s) (credits : Submission → Multiset ℚ) :
    openCredits credits s = 0 := by
  rw [openCredits, h.submissions]
  rfl

/-- **The hours are those of some of the accepted sessions.**  In every state of every run, whatever
the clients do and in whatever order, the total is the one the account had at first, and the credits
of some of the sessions accepted since then, none of them counted twice. -/
theorem totalHours_madeOf {t : Account} {acts : List Action} (h : Quiescent s)
    (hn : s.db.numSessions.isSome) {q : ℚ} (hq : s.db.totalHours = some q)
    (hrun : Execution.run step s acts = some t) :
    ∃ credits : Multiset ℚ, credits ≤ ↑(Execution.collect step accepted s acts) ∧
      t.db.totalHours = some (q + credits.sum) := by
  have hinv : CreditInv hoursCounter q s 0 := h.creditInv hq
  obtain ⟨spent, hspent, hcollect⟩ := hinv.run hoursCounter_lawful
    (openCredits_of_quiescent h hoursCredits)
    (fun s t a _ hI _ hst hios hland => creditEffect_hours hI.computed hst hios hland)
    acts t hrun le_rfl
  have hscreens : ScreensInv t :=
    Execution.run_invariant (fun _ _ _ hI hst => hI.trans (trans_of_step hst))
      (h.screensInv hn (by rw [hq]; rfl)) hrun
  obtain ⟨v, hv⟩ := Option.isSome_iff_exists.1 hscreens.submissions.totalHours
  obtain ⟨m, hm, rfl⟩ := hspent.value v hv
  refine ⟨m, hm.trans ((Multiset.le_add_right _ _).trans hcollect), ?_⟩
  rw [hv, show m.map hoursCounter.amount = m from Multiset.map_id m]

/-- Of two sessions of an hour the total has one, if the dialog of the first is answered after the
second has been submitted. -/
theorem totalHours_madeOf_overtaken : ∃ t, Execution.run step (atRest (Hours.created "A") .closed)
      (startAndStop ++ androidSession ++ confirm) = some t ∧ t.db.totalHours = some 1 ∧
    ∃ credits : Multiset ℚ, credits ≤ ↑(Execution.collect step accepted
        (atRest (Hours.created "A") .closed) (startAndStop ++ androidSession ++ confirm)) ∧
      t.db.totalHours = some (0 + credits.sum) := by
  obtain ⟨t, ht, htotal⟩ : ∃ t, Execution.run step (atRest (Hours.created "A") .closed)
      (startAndStop ++ androidSession ++ confirm) = some t ∧ t.db.totalHours = some 1 :=
    Execution.exists_run (by decide +kernel)
  exact ⟨t, ht, htotal, totalHours_madeOf (quiescent_atRest _ _) rfl rfl ht⟩

/-- **No more sessions are counted than have been accepted**, and none that the account had at first
is lost: this holds in every state of every run, as long as there are fewer than `2 ^ 31 - 1`. -/
theorem numSessions_le_accepted {t : Account} {acts : List Action} (h : Quiescent s) {n : ℤ}
    (hn : s.db.numSessions = some n) (hh : s.db.totalHours.isSome)
    (hrun : Execution.run step s acts = some t)
    (hmax : n + (Execution.collect step accepted s acts).length < 2 ^ 31 - 1) :
    ∃ k : ℕ, k ≤ (Execution.collect step accepted s acts).length ∧
      t.db.numSessions = some (n + (k : ℤ)) := by
  have hinv : CreditInv sessionsCounter n s 0 := h.creditInv hn
  obtain ⟨spent, hspent, hcollect⟩ := hinv.run sessionsCounter_lawful
    (openCredits_of_quiescent h sessionsCredits)
    (fun s t a spent hI hN hst hios hland => by
      refine creditEffect_sessions hI.computed hst hios hland fun hlarge => ?_
      -- the number is at most the one there was at first and one for each credit
      obtain ⟨m, hm, heq⟩ := hI.value _ hlarge
      have hcard := Multiset.card_le_card hm
      rw [sum_sessionsAmount] at heq
      omega)
    acts t hrun le_rfl
  have hscreens : ScreensInv t :=
    Execution.run_invariant (fun _ _ _ hI hst => hI.trans (trans_of_step hst))
      (h.screensInv (by rw [hn]; rfl) hh) hrun
  obtain ⟨v, hv⟩ := Option.isSome_iff_exists.1 hscreens.submissions.numSessions
  obtain ⟨m, hm, rfl⟩ := hspent.value v hv
  refine ⟨Multiset.card m, ?_, by rw [hv, sum_sessionsAmount]⟩
  have hle : m ≤ ↑(Execution.collect step accepted s acts) :=
    hm.trans ((Multiset.le_add_right _ _).trans hcollect)
  exact (Multiset.card_le_card hle).trans_eq (Multiset.coe_card _)

/-- In the same run one session is counted. -/
theorem numSessions_le_accepted_overtaken :
    ∃ t, Execution.run step (atRest (Hours.created "A") .closed)
      (startAndStop ++ androidSession ++ confirm) = some t ∧ t.db.numSessions = some 1 ∧
    ∃ k : ℕ, k ≤ (Execution.collect step accepted (atRest (Hours.created "A") .closed)
        (startAndStop ++ androidSession ++ confirm)).length ∧
      t.db.numSessions = some (0 + (k : ℤ)) := by
  obtain ⟨t, ht, hnumber⟩ : ∃ t, Execution.run step (atRest (Hours.created "A") .closed)
      (startAndStop ++ androidSession ++ confirm) = some t ∧ t.db.numSessions = some 1 :=
    Execution.exists_run (by decide)
  exact ⟨t, ht, hnumber,
    numSessions_le_accepted (quiescent_atRest _ _) rfl rfl ht (by decide)⟩

end Runs

end StudyHours
