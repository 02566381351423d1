/-
**One ledger for both clients.**

Two programs keep the ledger: iOS writes the check-in ahead and updates with plain writes at the
end, Android writes the whole session at the end, inside the handler of a transaction.  Used one
after another they keep one ledger: where nothing is under way on Android and no write is in flight,
the record represents the sessions that have been confirmed, in their order, whichever client has
recorded them, and possibly one that is in progress.

A session on Android goes through four stages: the toggle is on, the popup is open, the submission
is under way, and it is over.  While a submission is under way the two counters and the child are
written independently of one another.

Main definitions:

* `StudyHours.Running`, `StudyHours.Asking`, `StudyHours.Submitting` — the stages of a session on
  Android;
* `StudyHours.HoursStage`, `StudyHours.SessionsStage` — how far the two transactions have come;
* `StudyHours.Rests` — nothing is under way, and the record represents the ledger;
* `StudyHours.LedgerInv` — the record is on its way to represent the ledger;
* `StudyHours.Between`, `StudyHours.Chronological` — where a run stands, and its clock.

Main results:

* `StudyHours.LedgerInv.trans` — **whatever an action records is the next session of the ledger**;
* `StudyHours.exists_ledger_of_run` — an induction rule for what records along a run;
* `StudyHours.exists_ledger_of_inTurn` — the ledger that the record stands for at the end of a run.
-/

import Mathlib
import StudyHours.Confirmations
import StudyHours.Sequential
import StudyHours.SubmittedSession

set_option relaxedAutoImplicit false
set_option autoImplicit false

namespace StudyHours

open Account
open RecordViewController (Event Transition)

/-! ### The stages of a session on Android -/

/-- The toggle of client `c` is on. -/
structure Running (L : Ledger) (τ : ℤ) (s : Account) (c : ℕ) : Prop where
  idle : ∀ d, (s.device d).Idle
  outbox : s.outbox = []
  submissions : ∀ sub ∈ s.submissions, sub.Over
  others : ∀ c', c' ≠ c → (s.fragment c').AtRest
  isChecked : (s.fragment c).isChecked = true
  popups : (s.fragment c).popups = []
  field : ∃ σ, (s.fragment c).studySession = some σ ∧ L.EndsBy σ.inTime ∧ σ.inTime ≤ τ
  record : Represents s.db L none

/-- Client `c` asks whether to submit the session of the popup `p`. -/
structure Asking (L : Ledger) (τ : ℤ) (s : Account) (c : ℕ) (p : Popup) : Prop where
  idle : ∀ d, (s.device d).Idle
  outbox : s.outbox = []
  submissions : ∀ sub ∈ s.submissions, sub.Over
  others : ∀ c', c' ≠ c → (s.fragment c').AtRest
  isChecked : (s.fragment c).isChecked = false
  popups : (s.fragment c).popups = [p]
  field : (s.fragment c).studySession = some p.session
  diff : p.diff = p.session.outTime - p.session.inTime
  after : L.EndsBy p.session.inTime
  outTime : p.session.outTime ≤ τ
  record : Represents s.db L none

/-- How far the transaction of `totalHours` has come that is to change the value from `old` to
`new`, and the value on the server. -/
inductive HoursStage (old new : ℚ) : Option (Transaction ℚ) → Option ℚ → Prop
  | unstarted : HoursStage old new none (some old)
  | queued : HoursStage old new (some .queued) (some old)
  | sent (base result : Option ℚ) : HoursStage old new (some (.sent base result)) (some old)
  | committed (base : Option ℚ) : HoursStage old new (some (.committed base)) (some new)

/-- The write `w` that takes the children from the ledger `L` to `L'` is in flight or has landed. -/
inductive Landing (L L' : Ledger) (w : Entry) (h : Hours) : List Entry → Prop
  | inFlight (hc : Children h L none) : Landing L L' w h [w]
  | landed (hc : Children h L' none) : Landing L L' w h []

/-- How far the transaction of `numSessions` has come, and the session that its handler writes. -/
inductive SessionsStage (L L' : Ledger) (w : Entry) (h : Hours) (out : List Entry) :
    Option (Transaction ℤ) → Prop
  | unwritten {tr : Option (Transaction ℤ)}
      (htr : tr = none ∨ tr = some .queued ∨ ∃ result, tr = some (.sent none result))
      (hn : h.numSessions = some L.count) (hc : Children h L none) (hout : out = []) :
      SessionsStage L L' w h out tr
  | sent (hn : h.numSessions = some L.count) (hl : Landing L L' w h out) (result : Option ℤ) :
      SessionsStage L L' w h out (some (.sent (some L.count) result))
  | committed (hn : h.numSessions = some (L.count + 1)) (hl : Landing L L' w h out)
      (base : Option ℤ) : SessionsStage L L' w h out (some (.committed base))

/-- The submission `i` is under way, which takes the ledger from `L` to `L'`. -/
structure Submitting (L L' : Ledger) (τ : ℤ) (s : Account) (i : ℕ) (sub : Submission) : Prop where
  idle : ∀ d, (s.device d).Idle
  fragments : ∀ c, (s.fragment c).AtRest
  get : s.submissions[i]? = some sub
  others : ∀ j x, s.submissions[j]? = some x → j ≠ i → x.Over
  field : (s.fragment sub.client).studySession = some sub.popup.session
  diff : sub.popup.diff = sub.popup.session.outTime - sub.popup.session.inTime
  next : ∃ hlong hafter, L' = L.record ⟨.android, sub.popup.session⟩ hlong hafter
  endsBy : L'.EndsBy τ
  hours : HoursStage L.hours L'.hours sub.totalHours s.db.totalHours
  sessions : SessionsStage L L'
    ⟨.android sub.client i, .session (L.count + 1) sub.popup.session⟩ s.db s.outbox sub.numSessions

/-- Nothing is under way on either client, and no session is in progress. -/
structure Rests (L : Ledger) (τ : ℤ) (s : Account) : Prop where
  android : AndroidIdle s
  idle : ∀ d, (s.device d).Idle
  outbox : s.outbox = []
  record : Represents s.db L none
  endsBy : L.EndsBy τ

/-- The stage of a session on Android, up to its end. -/
inductive AndroidStage (L : Ledger) (τ : ℤ) (s : Account) : Prop
  | running {c : ℕ} (h : Running L τ s c)
  | asking {c : ℕ} {p : Popup} (h : Asking L τ s c p)
  | submitting {L₀ : Ledger} {i : ℕ} {sub : Submission} (h : Submitting L₀ L τ s i sub)
      (hopen : ¬ (sub.Over ∧ s.outbox = []))
  | ended (h : Rests L τ s)

/-- The stage that the clients are in. -/
inductive Stage (L : Ledger) (τ : ℤ) (s : Account) : Prop
  | ios {A : ℕ} (h : IosTurn L τ s A)
  | android (h : AndroidStage L τ s)

/-- The record is on its way to represent the ledger. -/
structure LedgerInv (L : Ledger) (τ : ℤ) (s : Account) : Prop where
  submissions : SubmissionsInv s
  popups : PopupInv s
  stage : Stage L τ s

/-! ### What cannot happen -/

/-- The submission whose callback or handler the action runs. -/
def Action.submission? : Action → Option ℕ
  | .deliver i | .runHours i _ | .commitHours i | .runSessions i _ | .commitSessions i => some i
  | _ => none

/-- Nothing happens to a submission that is over. -/
theorem exists_not_over {s t : Account} {a : Action} (hst : Trans s a t) {i : ℕ}
    (hi : a.submission? = some i) : ∃ sub, s.submissions[i]? = some sub ∧ ¬ sub.Over := by
  cases hst with
  | @deliver i sub hsub hd =>
      cases hi
      refine ⟨sub, hsub, fun hover => ?_⟩
      rw [hover.1] at hd
      cases hd
  | @runHours i v sub hsub htr | @hoursCommit i sub base new hsub htr _
  | @hoursRetry i sub base new hsub htr _ =>
      cases hi
      exact ⟨sub, hsub, fun hover => hover.2.1 _ htr⟩
  | @runSessions i v new sub hsub htr _ | @sessionsAbort i v sub hsub htr _
  | @sessionsCommit i sub base new hsub htr _ | @sessionsRetry i sub base new hsub htr _ =>
      cases hi
      exact ⟨sub, hsub, fun hover => hover.2.2 _ htr⟩
  | _ => cases hi

/-- One client comes to rest, the others are at rest. -/
theorem atRest_update {s : Account} {c : ℕ} {f : HomeFragment}
    (hothers : ∀ c', c' ≠ c → (s.fragment c').AtRest) (hf : f.AtRest) (c' : ℕ) :
    (Function.update s.fragment c f c').AtRest := by
  rcases eq_or_ne c' c with rfl | hne
  · rwa [Function.update_self]
  · rw [Function.update_of_ne hne]
    exact hothers c' hne

/-- An event of an idle screen that cannot be a tap. -/
theorem idle_issue {s : Account} (hidle : ∀ d, (s.device d).Idle) {d : ℕ} {e : Event}
    {vc : RecordViewController} {ws : List Write} (htap : e ≠ .tap)
    (htr : Transition (s.view d) (s.device d) e vc ws) :
    ws = [] ∧ recorded s (.ios d e) = [] ∧ ∀ d', ((s.issue d vc ws).device d').Idle := by
  obtain ⟨hvc, rfl⟩ := idle_of_transition (hidle d) htap htr
  refine ⟨rfl, recorded_of_idle (hidle d) e, fun d' => ?_⟩
  rcases eq_or_ne d' d with rfl | hne
  · rw [idle_issue_self]
    exact hvc
  · rw [device_issue_of_ne _ _ _ hne]
    exact hidle d'

/-! ### Between two sessions, and on iOS -/

section Steps

variable {L : Ledger} {τ : ℤ} {s t : Account} {a : Action}

/-- When nothing is under way it is nobody's turn. -/
theorem Rests.iosTurn (h : Rests L τ s) (A : ℕ) : IosTurn L τ s A :=
  .of_idle h.android h.idle h.outbox h.record (.inl rfl) h.endsBy A

/-- What the toggle does when it is turned on. -/
theorem toggle_on {f f' : HomeFragment} {elapsedRealtime now : ℤ} (hinh : f.inherited = false)
    (hc : f.isChecked = false) (hf : f.toggle elapsedRealtime now = some f') :
    f'.isChecked = true ∧ f'.popups = f.popups ∧ f'.studySession = some ⟨now, 0⟩ := by
  simp only [HomeFragment.toggle, HomeFragment.onCheckedChanged, hc, hinh, Bool.not_false,
    Bool.true_or, if_true, Option.some.injEq] at hf
  subst hf
  exact ⟨rfl, rfl, rfl⟩

/-- What the toggle does when it is turned off. -/
theorem toggle_off {f f' : HomeFragment} {elapsedRealtime now : ℤ} {σ : StudySession}
    (hc : f.isChecked = true) (hσ : f.studySession = some σ)
    (hf : f.toggle elapsedRealtime now = some f') :
    f'.isChecked = false ∧ f'.studySession = some ⟨σ.inTime, now⟩ ∧
      f'.popups = if now - σ.inTime ≥ 1800000 then
        f.popups ++ [⟨now - σ.inTime, ⟨σ.inTime, now⟩, f.recordings⟩] else f.popups := by
  simp only [HomeFragment.toggle, HomeFragment.onCheckedChanged, hc, hσ, Bool.not_true,
    Bool.false_eq_true, if_false, Option.map_some, Option.some.injEq] at hf
  subst hf
  exact ⟨rfl, rfl, rfl⟩

/-- What can happen while no Android client is in a session. -/
inductive IdleTrans (s : Account) : Action → Account → Prop
  | ios {d : ℕ} {e : Event} {vc : RecordViewController} {ws : List Write}
      (htr : Transition (s.view d) (s.device d) e vc ws) :
      IdleTrans s (.ios d e) (s.issue d vc ws)
  | land {l₁ l₂ : List Entry} {e : Entry} (hout : s.outbox = l₁ ++ e :: l₂)
      (hfirst : ∀ e' ∈ l₁, e'.sender.sameClient e.sender = false) :
      IdleTrans s (.land l₁.length) (s.landed l₁ e l₂)
  | toggle {c : ℕ} {elapsedRealtime now : ℤ} {f : HomeFragment}
      (hf : (s.fragment c).toggle elapsedRealtime now = some f) :
      IdleTrans s (.toggle c elapsedRealtime now)
        { s with fragment := Function.update s.fragment c f }

theorem AndroidIdle.idleTrans (h : AndroidIdle s) (hst : Trans s a t) : IdleTrans s a t := by
  have hst' := hst
  cases hst with
  | ios htr => exact .ios htr
  | land hout hj hfirst =>
      subst hj
      exact .land hout hfirst
  | toggle hf => exact .toggle hf
  | @submit c i popup hi | @decline c i popup hi =>
      rw [(h.fragments c).2] at hi
      cases hi
  | _ =>
      obtain ⟨sub, hsub, hnot⟩ := exists_not_over hst' rfl
      exact absurd (h.submissions sub (List.mem_of_getElem? hsub)) hnot

/-- A session on Android is started. -/
theorem Rests.toggle (h : Rests L τ s) {c : ℕ} {elapsedRealtime : ℤ} {f : HomeFragment}
    (hinh : (s.fragment c).inherited = false)
    (hf : (s.fragment c).toggle elapsedRealtime τ = some f) :
    Running L τ { s with fragment := Function.update s.fragment c f } c := by
  obtain ⟨hoff, hpopups⟩ := h.android.fragments c
  obtain ⟨hon, hpopups', hfield⟩ := toggle_on hinh hoff hf
  refine ⟨h.idle, h.outbox, h.android.submissions, fun c' hne => ?_, ?_, ?_,
    ⟨⟨τ, 0⟩, ?_, h.endsBy, le_rfl⟩, h.record⟩
  · simpa only [Function.update_of_ne hne] using h.android.fragments c'
  · simpa only [Function.update_self] using hon
  · simpa only [Function.update_self, hpopups] using hpopups'
  · simpa only [Function.update_self] using hfield

/-- Between two sessions, when nothing is in progress. -/
theorem IosTurn.rests {A : ℕ} (h : IosTurn L τ s A) (hidle : ∀ d, (s.device d).Idle)
    (hout : s.outbox = []) (hnone : s.db.inProgress? = none) : Rests L τ s :=
  ⟨h.android, hidle, hout, h.represents hout hnone, h.endsBy⟩

/-- **On iOS, and between two sessions.** -/
theorem IosTurn.trans {A : ℕ} (h : IosTurn L τ s A) (hst : Trans s a t)
    (hinh : ∀ c, (s.fragment c).inherited = false) (ha : InTurn s a)
    (hclock : ∀ x ∈ a.time?, x = τ) :
    ∃ L' : Ledger, L'.recordings = L.recordings ++ recorded s a ∧ Stage L' τ t := by
  cases h.android.idleTrans hst with
  | ios htr =>
      obtain ⟨L', hL', A', hturn⟩ := h.ios ha htr hclock
      exact ⟨L', hL', .ios hturn⟩
  | land hout hfirst => exact ⟨L, (List.append_nil _).symm, .ios (h.land hout hfirst)⟩
  | @toggle c elapsedRealtime now f hf =>
      obtain ⟨hidle, hout, -, hnone⟩ := ha.of_toggle (h.android.fragments c).1
      obtain rfl : now = τ := hclock now rfl
      exact ⟨L, (List.append_nil _).symm,
        .android (.running ((h.rests hidle hout hnone).toggle (hinh c) hf))⟩

/-! ### The toggle is on -/

/-- **While the toggle is on**, until it is turned off. -/
theorem Running.trans {c : ℕ} (h : Running L τ s c) (hst : Trans s a t) (ha : InTurn s a)
    (hclock : ∀ x ∈ a.time?, x = τ) :
    ∃ L' : Ledger, L'.recordings = L.recordings ++ recorded s a ∧ AndroidStage L' τ t := by
  have hbusy : ¬ AndroidIdle s := fun hidle => by
    have hoff := (hidle.fragments c).1
    rw [h.isChecked] at hoff
    cases hoff
  have hst' := hst
  cases hst with
  | @ios d e vc ws htr =>
      have htap : e ≠ .tap := by
        rintro rfl
        exact hbusy ha.of_tap.2.2
      obtain ⟨rfl, hrec, hidle⟩ := idle_issue h.idle htap htr
      refine ⟨L, by rw [hrec, List.append_nil], .running (c := c) ⟨hidle, ?_, h.submissions,
        h.others, h.isChecked, h.popups, h.field, h.record⟩⟩
      simpa [sendAll] using h.outbox
  | land hout _ _ =>
      rw [h.outbox] at hout
      exact absurd hout (by simp)
  | @toggle c' elapsedRealtime now f hf =>
      rcases eq_or_ne c' c with rfl | hne
      · -- the session ends: it is put to the user or dropped
        obtain rfl : now = τ := hclock now rfl
        obtain ⟨σ, hσ, hafter, hle⟩ := h.field
        obtain ⟨hoff, hfield, hpopups⟩ := toggle_off h.isChecked hσ hf
        refine ⟨L, (List.append_nil _).symm, ?_⟩
        rw [h.popups, List.nil_append] at hpopups
        split_ifs at hpopups with hlong
        · refine .asking (c := c') (p := ⟨now - σ.inTime, ⟨σ.inTime, now⟩,
            (s.fragment c').recordings⟩) ⟨h.idle, h.outbox, h.submissions, fun c hne => ?_, ?_, ?_,
            ?_, rfl, hafter, le_rfl, h.record⟩
          · simpa only [Function.update_of_ne hne] using h.others c hne
          · simpa only [Function.update_self] using hoff
          · simpa only [Function.update_self] using hpopups
          · simpa only [Function.update_self] using hfield
        · have handroid : AndroidIdle { s with fragment := Function.update s.fragment c' f } :=
            ⟨atRest_update h.others ⟨hoff, hpopups⟩, h.submissions⟩
          exact .ended ⟨handroid, h.idle, h.outbox, h.record, hafter.mono hle⟩
      · exact absurd (ha.of_toggle (h.others c' hne).1).2.2.1 hbusy
  | @submit c' i popup hi | @decline c' i popup hi =>
      have hpopups : (s.fragment c').popups = [] := by
        rcases eq_or_ne c' c with rfl | hne
        · exact h.popups
        · exact (h.others c' hne).2
      rw [hpopups] at hi
      cases hi
  | _ =>
      obtain ⟨sub, hsub, hnot⟩ := exists_not_over hst' rfl
      exact absurd (h.submissions sub (List.mem_of_getElem? hsub)) hnot

/-! ### The popup is open -/

/-- **While the popup is open**, until it is answered. -/
theorem Asking.trans {c : ℕ} {p : Popup} (h : Asking L τ s c p) (hst : Trans s a t)
    (hsubs : SubmissionsInv s) (ha : InTurn s a) :
    ∃ L' : Ledger, L'.recordings = L.recordings ++ recorded s a ∧ AndroidStage L' τ t := by
  have hbusy : ¬ AndroidIdle s := fun hidle => by
    have hnone := (hidle.fragments c).2
    rw [h.popups] at hnone
    cases hnone
  have hdiff : 1800000 ≤ p.diff := hsubs.popups c p (by simp [h.popups])
  have hle : p.session.inTime ≤ τ := by
    have hout := h.outTime
    have heq := h.diff
    omega
  have hanswer : ∀ {c' i popup}, (s.fragment c').popups[i]? = some popup →
      c' = c ∧ p = popup ∧ (s.fragment c).popups.eraseIdx i = [] := by
    intro c' i popup hi
    rcases eq_or_ne c' c with rfl | hne
    · obtain ⟨rfl, rfl⟩ := getElem?_singleton h.popups hi
      exact ⟨rfl, rfl, by rw [h.popups]; rfl⟩
    · rw [(h.others c' hne).2] at hi
      cases hi
  have hst' := hst
  cases hst with
  | @ios d e vc ws htr =>
      have htap : e ≠ .tap := by
        rintro rfl
        exact hbusy ha.of_tap.2.2
      obtain ⟨rfl, hrec, hidle⟩ := idle_issue h.idle htap htr
      refine ⟨L, by rw [hrec, List.append_nil], .asking (c := c) (p := p) ⟨hidle, ?_,
        h.submissions, h.others, h.isChecked, h.popups, h.field, h.diff, h.after, h.outTime,
        h.record⟩⟩
      simpa [sendAll] using h.outbox
  | land hout _ _ =>
      rw [h.outbox] at hout
      exact absurd hout (by simp)
  | @toggle c' elapsedRealtime now f hf =>
      have hoff : (s.fragment c').isChecked = false := by
        rcases eq_or_ne c' c with rfl | hne
        · exact h.isChecked
        · exact (h.others c' hne).1
      exact absurd (ha.of_toggle hoff).2.2.1 hbusy
  | @submit c' i popup hi =>
      -- the submission is the next session of the ledger from now on
      obtain ⟨rfl, rfl, hnone⟩ := hanswer hi
      have hlong : 1800000 ≤ (⟨.android, p.session⟩ : Recording).length := by
        rw [Recording.length, ← h.diff]
        exact hdiff
      have hget : (s.submissions ++ [Submission.start c' p])[s.submissions.length]? =
          some (.start c' p) := by simp
      refine ⟨L.record _ hlong h.after, by simp [recorded, hi], @AndroidStage.submitting _ _ _ L _ _
        ⟨h.idle, atRest_update h.others ⟨h.isChecked, hnone⟩, hget, fun j x hx hne => ?_, ?_,
        h.diff, ⟨hlong, h.after, rfl⟩, (h.after.mono hle).record h.outTime hlong h.after, ?_, ?_⟩
        fun hfin => Bool.false_ne_true hfin.1.1⟩
      · rw [List.getElem?_append] at hx
        split_ifs at hx with hj
        · exact h.submissions x (List.mem_of_getElem? hx)
        · obtain ⟨hlt, -⟩ := List.getElem?_eq_some_iff.1 hx
          rw [List.length_singleton] at hlt
          omega
      · simpa only [Submission.start, Function.update_self] using h.field
      · rw [h.record.totalHours]
        exact .unstarted
      · exact .unwritten (.inl rfl) h.record.numSessions h.record.children h.outbox
  | @decline c' i popup hi =>
      obtain ⟨rfl, rfl, hnone⟩ := hanswer hi
      have handroid : AndroidIdle { s with
          fragment := Function.update s.fragment c'
            { s.fragment c' with popups := (s.fragment c').popups.eraseIdx i } } :=
        ⟨atRest_update h.others ⟨h.isChecked, hnone⟩, h.submissions⟩
      exact ⟨L, (List.append_nil _).symm,
        .ended ⟨handroid, h.idle, h.outbox, h.record, h.after.mono hle⟩⟩
  | _ =>
      obtain ⟨sub, hsub, hnot⟩ := exists_not_over hst' rfl
      exact absurd (h.submissions sub (List.mem_of_getElem? hsub)) hnot

/-! ### The submission is under way -/

theorem HoursStage.of_open {old new : ℚ} {tr : Option (Transaction ℚ)} {v : Option ℚ}
    (h : HoursStage old new tr v) (htr : ∀ base, tr ≠ some (.committed base)) : v = some old := by
  cases h with
  | committed base => exact absurd rfl (htr base)
  | _ => rfl

theorem HoursStage.of_over {old new : ℚ} {tr : Option (Transaction ℚ)} {v : Option ℚ}
    (h : HoursStage old new tr v) (hstarted : tr.isSome) (hover : ∀ x ∈ tr, x.Over) :
    v = some new := by
  cases h with
  | unstarted => cases hstarted
  | queued | sent _ _ => exact (hover _ rfl).elim
  | committed base => rfl

/-- The transaction of `numSessions` is over. -/
theorem SessionsStage.of_over {L L' : Ledger} {w : Entry} {h : Hours} {out : List Entry}
    {tr : Option (Transaction ℤ)} (hs : SessionsStage L L' w h out tr) (hstarted : tr.isSome)
    (hover : ∀ x ∈ tr, x.Over) : h.numSessions = some (L.count + 1) ∧ Landing L L' w h out := by
  cases hs with
  | unwritten htr _ _ _ =>
      rcases htr with rfl | rfl | ⟨result, rfl⟩
      · cases hstarted
      · exact (hover _ rfl).elim
      · exact (hover _ rfl).elim
  | sent _ _ _ => exact (hover _ rfl).elim
  | committed hn hl _ => exact ⟨hn, hl⟩

/-- The transaction of `numSessions` has not sent anything that the server takes. -/
theorem SessionsStage.of_unwritten {L L' : Ledger} {w : Entry} {h : Hours} {out : List Entry}
    {tr : Option (Transaction ℤ)} (hs : SessionsStage L L' w h out tr)
    (htr : tr = none ∨ tr = some .queued ∨ ∃ result, tr = some (.sent none result)) :
    h.numSessions = some L.count ∧ Children h L none ∧ out = [] := by
  cases hs with
  | unwritten _ hn hc hout => exact ⟨hn, hc, hout⟩
  | sent _ _ _ | committed _ _ _ => simp at htr

/-- The transaction of `numSessions` has sent a result. -/
theorem SessionsStage.of_sent {L L' : Ledger} {w : Entry} {h : Hours} {out : List Entry}
    {base new : Option ℤ} (hs : SessionsStage L L' w h out (some (.sent base new))) :
    h.numSessions = some L.count ∧
      (base = none ∧ Children h L none ∧ out = [] ∨
        base = some L.count ∧ Landing L L' w h out) := by
  cases hs with
  | unwritten htr hn hc hout =>
      simp only [reduceCtorEq, Option.some.injEq, Transaction.sent.injEq, exists_and_left,
        exists_eq', and_true, false_or] at htr
      exact ⟨hn, .inl ⟨htr, hc, hout⟩⟩
  | sent hn hl _ => exact ⟨hn, .inr ⟨rfl, hl⟩⟩

theorem Landing.congr {L L' : Ledger} {w : Entry} {h h' : Hours} {out : List Entry}
    (hl : Landing L L' w h out) (heq : h'.children = h.children) : Landing L L' w h' out := by
  cases hl with
  | inFlight hc => exact .inFlight (hc.congr heq)
  | landed hc => exact .landed (hc.congr heq)

/-- The stage of the transaction of `numSessions` does not depend on the other counter. -/
theorem SessionsStage.congr {L L' : Ledger} {w : Entry} {h h' : Hours} {out : List Entry}
    {tr : Option (Transaction ℤ)} (hs : SessionsStage L L' w h out tr)
    (hn' : h'.numSessions = h.numSessions) (heq : h'.children = h.children) :
    SessionsStage L L' w h' out tr := by
  cases hs with
  | unwritten htr hn hc hout => exact .unwritten htr (hn'.trans hn) (hc.congr heq) hout
  | sent hn hl result => exact .sent (hn'.trans hn) (hl.congr heq) result
  | committed hn hl base => exact .committed (hn'.trans hn) (hl.congr heq) base

/-- No write is in flight but that of the session. -/
theorem SessionsStage.eq_of_mem {L L' : Ledger} {w e : Entry} {h : Hours} {out : List Entry}
    {tr : Option (Transaction ℤ)} (hs : SessionsStage L L' w h out tr) (he : e ∈ out) : e = w := by
  have hl : out = [] ∨ out = [w] := by
    cases hs with
    | unwritten _ _ _ hout => exact .inl hout
    | sent _ hl _ | committed _ hl _ =>
        cases hl with
        | inFlight _ => exact .inr rfl
        | landed _ => exact .inl rfl
  rcases hl with rfl | rfl
  · cases he
  · exact List.mem_singleton.1 he

theorem Landing.land {L L' : Ledger} {w e : Entry} {h : Hours} {l₁ l₂ : List Entry}
    (hl : Landing L L' w h (l₁ ++ e :: l₂))
    (hland : Children h L none → Children (h.apply w.write) L' none) :
    e = w ∧ Landing L L' w (h.apply w.write) (l₁ ++ l₂) := by
  generalize hout : l₁ ++ e :: l₂ = out at hl
  cases hl with
  | inFlight hc =>
      obtain ⟨rfl, heq⟩ : l₁ = [] ∧ e :: l₂ = [w] := by
        simpa [List.append_eq_singleton_iff] using hout
      obtain ⟨rfl, rfl⟩ := List.cons.inj heq
      exact ⟨rfl, .landed (hland hc)⟩
  | landed hc => simp at hout

/-- The session that the handler has written lands. -/
theorem SessionsStage.land {L L' : Ledger} {w e : Entry} {h : Hours} {l₁ l₂ : List Entry}
    {tr : Option (Transaction ℤ)} (hs : SessionsStage L L' w h (l₁ ++ e :: l₂) tr)
    (hn : (h.apply w.write).numSessions = h.numSessions)
    (hland : Children h L none → Children (h.apply w.write) L' none) :
    e = w ∧ SessionsStage L L' w (h.apply w.write) (l₁ ++ l₂) tr := by
  cases hs with
  | unwritten _ _ _ hout => simp at hout
  | sent hn' hl result =>
      obtain ⟨he, hl'⟩ := hl.land hland
      exact ⟨he, .sent (hn.trans hn') hl' result⟩
  | committed hn' hl base =>
      obtain ⟨he, hl'⟩ := hl.land hland
      exact ⟨he, .committed (hn.trans hn') hl' base⟩

namespace Submitting

variable {L₀ : Ledger} {i : ℕ} {sub : Submission}

/-- The submission goes on: what is left to show. -/
theorem set (h : Submitting L₀ L τ s i sub) {sub' : Submission} (hidle : ∀ d, (t.device d).Idle)
    (hfragment : t.fragment = s.fragment) (hsubs : t.submissions = s.submissions.set i sub')
    (hc : sub'.client = sub.client) (hp : sub'.popup = sub.popup)
    (hhours : HoursStage L₀.hours L.hours sub'.totalHours t.db.totalHours)
    (hsessions : SessionsStage L₀ L
      ⟨.android sub.client i, .session (L₀.count + 1) sub.popup.session⟩ t.db t.outbox
      sub'.numSessions) : Submitting L₀ L τ t i sub' where
  idle := hidle
  fragments := hfragment ▸ h.fragments
  get := by rw [hsubs, List.getElem?_set_self', h.get]; rfl
  others j x hx hne := by
    rw [hsubs, List.getElem?_set_ne hne.symm] at hx
    exact h.others j x hx hne
  field := by rw [hfragment, hc, hp]; exact h.field
  diff := by rw [hp]; exact h.diff
  next := by rw [hp]; exact h.next
  endsBy := h.endsBy
  hours := hhours
  sessions := by rw [hc, hp]; exact hsessions

theorem count_eq (h : Submitting L₀ L τ s i sub) : L.count = L₀.count + 1 := by
  obtain ⟨hlong, hafter, rfl⟩ := h.next
  exact Ledger.count_record _ _ _ _

theorem hours_eq (h : Submitting L₀ L τ s i sub) :
    L.hours = L₀.hours + androidCredit sub.popup.diff := by
  obtain ⟨hlong, hafter, rfl⟩ := h.next
  rw [Ledger.hours_record, h.diff]
  rfl

/-- When everything is over and has landed, nothing is under way. -/
theorem rests (h : Submitting L₀ L τ s i sub) (hsubs : SubmissionsInv s) (hover : sub.Over)
    (hout : s.outbox = []) : Rests L τ s := by
  have handroid : AndroidIdle s := by
    refine ⟨h.fragments, fun x hx => ?_⟩
    obtain ⟨j, hj⟩ := List.getElem?_of_mem hx
    rcases eq_or_ne j i with rfl | hne
    · rw [h.get, Option.some.injEq] at hj
      exact hj ▸ hover
    · exact h.others j x hj hne
  obtain ⟨hh, hn⟩ := (hsubs.sound sub (List.mem_of_getElem? h.get)).started hover.1
  obtain ⟨hnumber, hlanding⟩ := h.sessions.of_over hn hover.2.2
  rw [hout] at hlanding
  have hr : Represents s.db L none := by
    cases hlanding with
    | landed hc => exact ⟨hc, by rw [hnumber, h.count_eq], h.hours.of_over hh hover.2.1⟩
  exact ⟨handroid, h.idle, hout, hr, h.endsBy⟩

/-- The submission is under way, or it is over. -/
theorem stage (h : Submitting L₀ L τ s i sub) (hsubs : SubmissionsInv s) : AndroidStage L τ s := by
  by_cases hfin : sub.Over ∧ s.outbox = []
  · exact .ended (h.rests hsubs hfin.1 hfin.2)
  · exact .submitting h hfin

/-- **While a submission is under way.** -/
theorem trans (h : Submitting L₀ L τ s i sub) (hst : Trans s a t) (hsubs : SubmissionsInv s)
    (ha : InTurn s a) (hopen : ¬ (sub.Over ∧ s.outbox = [])) (hcount : L.count < 2 ^ 31 - 1) :
    ∃ sub', recorded s a = [] ∧ Submitting L₀ L τ t i sub' := by
  have hst' := hst
  have hlt : L₀.count < 2 ^ 31 - 1 := by
    have heq := h.count_eq
    omega
  have hsound := hsubs.sound sub (List.mem_of_getElem? h.get)
  -- nothing is under way but the one submission
  have hbusy : ∀ {j x}, a.submission? = some j → s.submissions[j]? = some x →
      j = i ∧ sub = x := by
    intro j x hj hx
    obtain ⟨y, hy, hnot⟩ := exists_not_over hst' hj
    obtain rfl : j = i := by
      by_contra hne
      exact hnot (h.others j y hy hne)
    exact ⟨rfl, Option.some.inj (h.get.symm.trans hx)⟩
  have hsender : ∀ e ∈ s.outbox, e.sender = .android sub.client i := fun e he => by
    rw [h.sessions.eq_of_mem he]
  cases hst with
  | @ios d e vc ws htr =>
      have htap : e ≠ .tap := by
        rintro rfl
        obtain ⟨-, hd, handroid⟩ := ha.of_tap
        refine hopen ⟨handroid.submissions sub (List.mem_of_getElem? h.get), ?_⟩
        refine List.eq_nil_iff_forall_not_mem.2 fun f hf => ?_
        have heq := (hsender f hf).symm.trans (hd f hf)
        cases heq
      obtain ⟨rfl, hrec, hidle⟩ := idle_issue h.idle htap htr
      refine ⟨sub, hrec, ⟨hidle, h.fragments, h.get, h.others, h.field, h.diff, h.next, h.endsBy,
        h.hours, ?_⟩⟩
      simpa [sendAll] using h.sessions
  | @land j l₁ l₂ e hout hj hfirst =>
      have hstage := h.sessions
      rw [hout] at hstage
      obtain ⟨rfl, hlanded⟩ := hstage.land rfl fun hc => by
        obtain ⟨hlong, hafter, rfl⟩ := h.next
        exact hc.session _ hlong hafter
      refine ⟨sub, rfl, ⟨fun d => ?_, h.fragments, h.get, h.others, h.field, h.diff, h.next,
        h.endsBy, h.hours, hlanded⟩⟩
      rw [idle_landed]
      exact h.idle d
  | @toggle c elapsedRealtime now f hf =>
      obtain ⟨-, hout, handroid, -⟩ := ha.of_toggle (h.fragments c).1
      exact absurd ⟨handroid.submissions sub (List.mem_of_getElem? h.get), hout⟩ hopen
  | @submit c j popup hi | @decline c j popup hi =>
      rw [(h.fragments c).2] at hi
      cases hi
  | @deliver j x hx hd =>
      obtain ⟨rfl, rfl⟩ := hbusy rfl hx
      obtain ⟨hh, hn⟩ := hsound.undelivered hd
      have hhours := h.hours.of_open (by rw [hh]; simp)
      obtain ⟨hnumber, hc, hout⟩ := h.sessions.of_unwritten (.inl hn)
      refine ⟨_, rfl, h.set h.idle rfl rfl rfl rfl ?_ ?_⟩
      · simp only [Submission.onDataChange, db_setSubmission, hhours]
        exact .queued
      · simp only [Submission.onDataChange, hsubs.numSessions, if_true]
        exact .unwritten (.inr (.inl rfl)) hnumber hc hout
  | @runHours j v x hx hq =>
      obtain ⟨rfl, rfl⟩ := hbusy rfl hx
      have hhours := h.hours.of_open (by rw [hq]; simp)
      refine ⟨_, rfl, h.set h.idle rfl rfl rfl rfl ?_ h.sessions⟩
      rw [db_setSubmission, hhours]
      exact .sent v _
  | @hoursCommit j x base new hx hs hb =>
      obtain ⟨rfl, rfl⟩ := hbusy rfl hx
      -- the handler was run on the value of the server, and has added the credit
      have hnew : new = some L.hours := by
        rw [hsound.hours base new hs, ← hb, h.hours.of_open (by rw [hs]; simp), h.hours_eq]
        rfl
      refine ⟨_, rfl, h.set (fun d => ?_) rfl rfl rfl rfl ?_ (h.sessions.congr rfl rfl)⟩
      · rw [idle_broadcast]
        exact h.idle d
      · change HoursStage _ _ _ new
        rw [hnew]
        exact .committed base
  | @hoursRetry j x base new hx hs hb =>
      obtain ⟨rfl, rfl⟩ := hbusy rfl hx
      have hhours := h.hours.of_open (by rw [hs]; simp)
      refine ⟨_, rfl, h.set h.idle rfl rfl rfl rfl ?_ h.sessions⟩
      rw [db_setSubmission, hhours]
      exact .queued
  | @runSessions j v new x hx hq hv =>
      obtain ⟨rfl, rfl⟩ := hbusy rfl hx
      obtain ⟨hnumber, hc, hout⟩ := h.sessions.of_unwritten (.inr (.inl hq))
      rcases ha 0 0 with rfl | rfl
      · obtain rfl : none = new := Option.some.inj hv
        refine ⟨_, rfl, h.set h.idle rfl rfl rfl rfl h.hours ?_⟩
        exact .unwritten (.inr (.inr ⟨none, rfl⟩)) hnumber hc
          (by simp [hout, handlerWrites, sendAll])
      · rw [hnumber] at hv
        obtain ⟨hint, rfl⟩ := numSessionsTransaction_some hv
        rw [integerSucc_of_lt hint hlt]
        refine ⟨_, rfl, h.set h.idle rfl rfl rfl rfl h.hours ?_⟩
        have hwrite : s.outbox ++ s.handlerWrites j sub (some (L₀.count + 1)) =
            [⟨.android sub.client j, .session (L₀.count + 1) sub.popup.session⟩] := by
          rw [hout, handlerWrites, h.field]
          rfl
        rw [outbox_setSubmission, hwrite, hnumber]
        exact .sent hnumber (.inFlight hc) _
  | @sessionsAbort j v x hx hq hv =>
      obtain ⟨rfl, rfl⟩ := hbusy rfl hx
      have hsome : (numSessionsTransaction v).isSome := by
        refine isSome_numSessionsTransaction fun m hm => ?_
        obtain ⟨hnumber, -, -⟩ := h.sessions.of_unwritten (.inr (.inl hq))
        rcases ha 0 0 with rfl | rfl
        · cases hm
        · obtain rfl : L₀.count = m := Option.some.inj (hnumber.symm.trans hm)
          have hnonneg := L₀.count_nonneg
          exact ⟨by omega, by omega⟩
      rw [hv] at hsome
      cases hsome
  | @sessionsCommit j x base new hx hs hb =>
      obtain ⟨rfl, rfl⟩ := hbusy rfl hx
      have hstage := h.sessions
      rw [hs] at hstage
      obtain ⟨hnumber, ⟨rfl, -, -⟩ | ⟨rfl, hl⟩⟩ := hstage.of_sent
      · rw [hnumber] at hb
        cases hb
      · obtain ⟨hint, rfl⟩ := numSessionsTransaction_some (hsound.sessions _ _ hs)
        rw [integerSucc_of_lt hint hlt]
        refine ⟨_, rfl, h.set (fun d => ?_) rfl rfl rfl rfl h.hours ?_⟩
        · rw [idle_broadcast]
          exact h.idle d
        · have hn : ({ s.db with numSessions := some (L₀.count + 1) } : Hours).numSessions =
              some (L₀.count + 1) := rfl
          exact .committed hn (hl.congr rfl) _
  | @sessionsRetry j x base new hx hs hb =>
      obtain ⟨rfl, rfl⟩ := hbusy rfl hx
      have hstage := h.sessions
      rw [hs] at hstage
      obtain ⟨hnumber, ⟨rfl, hc, hout⟩ | ⟨rfl, -⟩⟩ := hstage.of_sent
      · refine ⟨_, rfl, h.set h.idle rfl rfl rfl rfl h.hours ?_⟩
        exact .unwritten (.inr (.inl rfl)) hnumber hc hout
      · exact absurd hnumber hb

end Submitting

/-! ### Every action -/

theorem Rests.mono (h : Rests L τ s) {τ' : ℤ} (hle : τ ≤ τ') : Rests L τ' s :=
  { h with endsBy := h.endsBy.mono hle }

namespace AndroidStage

theorem mono (h : AndroidStage L τ s) {τ' : ℤ} (hle : τ ≤ τ') : AndroidStage L τ' s := by
  cases h with
  | running h =>
      obtain ⟨σ, hσ, hafter, hin⟩ := h.field
      exact .running { h with field := ⟨σ, hσ, hafter, hin.trans hle⟩ }
  | asking h => exact .asking { h with outTime := h.outTime.trans hle }
  | submitting h hopen => exact .submitting { h with endsBy := h.endsBy.mono hle } hopen
  | ended h => exact .ended (h.mono hle)

/-- When Android is idle and all writes have landed, the session is over. -/
theorem rests (h : AndroidStage L τ s) (handroid : AndroidIdle s) (hout : s.outbox = []) :
    Rests L τ s := by
  cases h with
  | @running c h =>
      have hoff := (handroid.fragments c).1
      rw [h.isChecked] at hoff
      cases hoff
  | @asking c p h =>
      have hnone := (handroid.fragments c).2
      rw [h.popups] at hnone
      cases hnone
  | @submitting L₀ i sub h hopen =>
      exact absurd ⟨handroid.submissions sub (List.mem_of_getElem? h.get), hout⟩ hopen
  | ended h => exact h

theorem idle (h : AndroidStage L τ s) (d : ℕ) : (s.device d).Idle := by
  cases h with
  | running h | asking h | submitting h _ | ended h => exact h.idle d

/-- **During a session on Android**, up to its end. -/
theorem trans (h : AndroidStage L τ s) (hst : Trans s a t) (hsubs : SubmissionsInv s)
    (ha : InTurn s a) (hclock : ∀ x ∈ a.time?, x = τ) (hcount : L.count < 2 ^ 31 - 1) :
    Rests L τ s ∨
      ∃ L' : Ledger, L'.recordings = L.recordings ++ recorded s a ∧ AndroidStage L' τ t := by
  cases h with
  | running h => exact .inr (h.trans hst ha hclock)
  | asking h => exact .inr (h.trans hst hsubs ha)
  | submitting h hopen =>
      obtain ⟨sub', hnone, h'⟩ := h.trans hst hsubs ha hopen hcount
      exact .inr ⟨L, by rw [hnone, List.append_nil], h'.stage (hsubs.trans hst)⟩
  | ended h => exact .inl h

end AndroidStage

theorem Stage.mono (h : Stage L τ s) {τ' : ℤ} (hle : τ ≤ τ') : Stage L τ' s := by
  cases h with
  | ios h => exact .ios (h.mono hle)
  | android h => exact .android (h.mono hle)

namespace LedgerInv

theorem mono (h : LedgerInv L τ s) {τ' : ℤ} (hle : τ ≤ τ') : LedgerInv L τ' s :=
  ⟨h.submissions, h.popups, h.stage.mono hle⟩

/-- **Whatever an action records is the next session of the ledger.** -/
theorem trans (h : LedgerInv L τ s) (hst : Trans s a t) (ha : InTurn s a)
    (hclock : ∀ x ∈ a.time?, x = τ) (hcount : L.count < 2 ^ 31 - 1) :
    ∃ L' : Ledger, L'.recordings = L.recordings ++ recorded s a ∧ LedgerInv L' τ t := by
  suffices hstage : ∃ L' : Ledger, L'.recordings = L.recordings ++ recorded s a ∧ Stage L' τ t by
    obtain ⟨L', hL', hstage⟩ := hstage
    exact ⟨L', hL', h.submissions.trans hst, h.popups.trans hst, hstage⟩
  cases h.stage with
  | ios hturn => exact hturn.trans hst h.popups.inherited ha hclock
  | android handroid =>
      rcases handroid.trans hst h.submissions ha hclock hcount with hrests | ⟨L', hL', hstage⟩
      · exact (hrests.iosTurn 0).trans hst h.popups.inherited ha hclock
      · exact ⟨L', hL', .android hstage⟩

end LedgerInv

end Steps

/-! ### Runs -/

/-- Nothing is under way on Android, and all writes have landed. -/
structure Between (s : Account) : Prop where
  outbox : s.outbox = []
  android : AndroidIdle s

/-- The clock never goes back. -/
def Chronological (acts : List Action) : Prop := (acts.filterMap Action.time?).Pairwise (· ≤ ·)

instance (acts : List Action) : Decidable (Chronological acts) := by
  unfold Chronological
  infer_instance

/-- Between two sessions the record represents the ledger, and possibly a session in progress. -/
theorem LedgerInv.represents {L : Ledger} {τ : ℤ} {s : Account} (h : LedgerInv L τ s)
    (hs : Between s) : ∃ next, Represents s.db L next := by
  cases h.stage with
  | ios hturn =>
      obtain ⟨next, hr, -⟩ := hturn.record
      rw [view_eq_db (by rw [hs.outbox]; rfl)] at hr
      exact ⟨next, hr⟩
  | android hstage => exact ⟨none, (hstage.rests hs.android hs.outbox).record⟩

theorem Untouched.androidIdle {s : Account} (hu : Untouched s) : AndroidIdle s := by
  refine ⟨fun c => ?_, fun sub hsub => ?_⟩
  · rw [hu.2 c]
    exact ⟨rfl, rfl⟩
  · rw [hu.1] at hsub
    cases hsub

/-- Nothing has been done with a new account. -/
theorem Rests.of_empty {s : Account} (hs : Represents s.db .empty none) (hu : Untouched s)
    (hout : s.outbox = []) (hidle : ∀ d, (s.device d).Idle) (τ : ℤ) : Rests .empty τ s :=
  ⟨hu.androidIdle, hidle, hout, hs, List.forall_mem_nil _⟩

theorem LedgerInv.of_empty {s : Account} (hs : Represents s.db .empty none) (hu : Untouched s)
    (hout : s.outbox = []) (hidle : ∀ d, (s.device d).Idle) (τ : ℤ) : LedgerInv .empty τ s := by
  refine ⟨⟨by simp [hs.numSessions], by simp [hs.totalHours], fun c p hp => ?_, fun sub hsub => ?_⟩,
    .of_untouched hu, .android (.ended (.of_empty hs hu hout hidle τ))⟩
  · rw [(hu.androidIdle.fragments c).2] at hp
    cases hp
  · rw [hu.1] at hsub
    cases hsub

/-- **Recording along a run**: where the ledger grows at every action by what the action puts out,
it has at the end of a run what the run has put out.  The clock never goes back, and `τ` bounds what
it has shown. -/
theorem exists_ledger_of_run {σ : Type*} {step : σ → Action → Option σ}
    {out : σ → Action → List Recording} {G : σ → Action → Prop} {I : Ledger → ℤ → σ → Prop}
    (hmono : ∀ {L : Ledger} {τ τ' : ℤ} {x : σ}, I L τ x → τ ≤ τ' → I L τ' x)
    (hstep : ∀ {L : Ledger} {τ : ℤ} {x y : σ} {a : Action}, I L τ x → G x a → step x a = some y →
      (∀ now ∈ a.time?, now = τ) → L.count < 2 ^ 31 - 1 →
      ∃ L' : Ledger, L'.recordings = L.recordings ++ out x a ∧ I L' τ y)
    {x : σ} (hx : ∀ τ, I .empty τ x) :
    ∀ (acts : List Action) (y : σ), Execution.run step x acts = some y →
      Chronological acts → Execution.Along step G x acts →
      (Execution.collect step out x acts).length < 2 ^ 31 - 1 →
      ∀ τ, (∀ now ∈ acts.filterMap Action.time?, now ≤ τ) →
        ∃ L : Ledger, L.recordings = Execution.collect step out x acts ∧ I L τ y := by
  refine Execution.run_induction ?_ ?_
  · intro _ _ _ τ _
    exact ⟨.empty, rfl, hx τ⟩
  · intro acts y a z hrun ih hyz hclock hG hcount τ hτ
    rw [Chronological, List.filterMap_append, List.pairwise_append] at hclock
    obtain ⟨hacts, -, hlast⟩ := hclock
    rw [Execution.along_snoc hrun] at hG
    rw [Execution.collect_snoc hrun] at hcount ⊢
    rw [List.length_append] at hcount
    simp only [List.filterMap_append, List.mem_append] at hτ
    -- the time of the last action, if it reads the clock
    obtain ⟨now, hle, hbefore, hnow⟩ : ∃ now ≤ τ, (∀ x ∈ acts.filterMap Action.time?, x ≤ now) ∧
        ∀ x ∈ a.time?, x = now := by
      cases htime : a.time? with
      | none => exact ⟨τ, le_rfl, fun x hx => hτ x (.inl hx), nofun⟩
      | some now =>
          have hmem : now ∈ [a].filterMap Action.time? := by simp [htime]
          exact ⟨now, hτ now (.inr hmem), fun x hx => hlast x hx now hmem,
            fun x hx => (Option.some.inj hx).symm⟩
    obtain ⟨L, hL, hinv⟩ := ih hacts hG.1 (by omega) now hbefore
    obtain ⟨L', hL', hinv'⟩ := hstep hinv hG.2 hyz hnow (by
      rw [Ledger.count, hL]
      omega)
    exact ⟨L', by rw [hL', hL], hmono hinv' hle⟩

/-- In every state of a run the record is on its way to represent what has been recorded. -/
theorem ledgerInv_of_inTurn {s u : Account} {acts : List Action} (hs : Represents s.db .empty none)
    (hu : Untouched s) (hout : s.outbox = []) (hidle : ∀ d, (s.device d).Idle)
    (hclock : Chronological acts) (hturns : Execution.Along step InTurn s acts)
    (hcount : (Execution.collect step recorded s acts).length < 2 ^ 31 - 1)
    (hrun : Execution.run step s acts = some u) :
    ∃ (L : Ledger) (τ : ℤ), L.recordings = Execution.collect step recorded s acts ∧
      LedgerInv L τ u := by
  obtain ⟨τ, hτ⟩ : ∃ τ, ∀ x ∈ acts.filterMap Action.time?, x ≤ τ :=
    (List.finite_toSet (acts.filterMap Action.time?)).bddAbove
  obtain ⟨L, hL, hinv⟩ := exists_ledger_of_run (I := LedgerInv) (G := InTurn)
    (fun h hle => h.mono hle) (fun h ha hst => h.trans (trans_of_step hst) ha)
    (LedgerInv.of_empty hs hu hout hidle) acts u hrun hclock hturns hcount τ hτ
  exact ⟨L, τ, hL, hinv⟩

/-- Between two sessions the record represents the ledger of what has been confirmed. -/
theorem exists_ledger_of_inTurn {s u : Account} {acts : List Action}
    (hs : Represents s.db .empty none) (hu : Untouched s) (hout : s.outbox = [])
    (hidle : ∀ d, (s.device d).Idle) (hclock : Chronological acts)
    (hturns : Execution.Along step InTurn s acts)
    (hcount : (Execution.collect step recorded s acts).length < 2 ^ 31 - 1)
    (hrun : Execution.run step s acts = some u) (hbetween : Between u) :
    ∃ (L : Ledger) (next : Option SessionNode),
      L.recordings = Execution.collect step recorded s acts ∧ Represents u.db L next := by
  obtain ⟨L, τ, hL, hinv⟩ := ledgerInv_of_inTurn hs hu hout hidle hclock hturns hcount hrun
  obtain ⟨next, hr⟩ := hinv.represents hbetween
  exact ⟨L, next, hL, hr⟩

end StudyHours
