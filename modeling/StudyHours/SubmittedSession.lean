/-
**The session an Android client stores.**

A submission credits the interval `diff`, which the listener of its popup has captured, and stores
the session it finds in the field `studySession` of the fragment when the handler of `numSessions`
is run.  The toggle stays usable while a popup is open and while a submission is under way, and
turning it on puts a new session into the field.  So the record that is stored is the one that is
credited as long as no session has been started in between, and only as long as that.

Main definitions:

* `StudyHours.storedRecord` — the write that a run of the handler of `numSessions` issues;
* `StudyHours.RecordsPopup` — the stored record is the one the popup was shown for;
* `StudyHours.NotRestarted` — no session has been started since the popup was shown.

Main results:

* `StudyHours.storedRecord_issued` — the write is the one the handler sends;
* `StudyHours.PopupInv.trans` — what is known of the popups survives every action;
* `StudyHours.recordsPopup_iff_notRestarted` — **along every run, the records are right if and
  only if no handler is run after a restart**.
-/

import Mathlib
import StudyHours.Account

set_option relaxedAutoImplicit false
set_option autoImplicit false

namespace StudyHours

open Account

/-! ### The record a handler stores -/

/-- The submission whose handler of `numSessions` the action runs on a value, and the write with
which the handler stores a session. -/
def storedRecord (s : Account) : Action → Option (Submission × Write)
  | .runSessions i v =>
      s.submissions[i]?.bind fun sub =>
        if sub.numSessions = some .queued then
          (numSessionsTransaction v).join.map fun n =>
            (sub, sessionWrite (s.fragment sub.client).studySession n)
        else none
  | _ => none

theorem storedRecord_runSessions {s : Account} {i : ℕ} {v : Option ℤ} {sub : Submission} {w : Write}
    (h : storedRecord s (.runSessions i v) = some (sub, w)) :
    s.submissions[i]? = some sub ∧ sub.numSessions = some .queued ∧
      ∃ n, numSessionsTransaction v = some (some n) ∧
        w = sessionWrite (s.fragment sub.client).studySession n := by
  obtain ⟨sub', hsub, h⟩ := Option.bind_eq_some_iff.1 h
  split_ifs at h with hq
  obtain ⟨n, hn, heq⟩ := Option.map_eq_some_iff.1 h
  obtain ⟨rfl, rfl⟩ := Prod.mk.inj heq
  exact ⟨hsub, hq, n, Option.join_eq_some_iff.1 hn, rfl⟩

/-- The write is the one that the run of the handler sends to the server. -/
theorem storedRecord_issued {s t : Account} {i : ℕ} {v : Option ℤ} {sub : Submission} {w : Write}
    (h : storedRecord s (.runSessions i v) = some (sub, w))
    (ht : s.step (.runSessions i v) = some t) :
    t.outbox = s.outbox ++ [⟨.android sub.client i, w⟩] := by
  obtain ⟨hsub, hq, n, hn, rfl⟩ := storedRecord_runSessions h
  simp only [step, hsub, Option.bind_some, hq, hn, Option.some.injEq] at ht
  subst ht
  rfl

/-- The write stores the session of the recording for which the popup was shown, and the length of
that session is the `diff` that the submission credits. -/
def RecordsPopup (s : Account) (a : Action) : Prop :=
  ∀ r ∈ storedRecord s a,
    (∃ n, r.2 = .session n r.1.popup.session) ∧
      r.1.popup.session.outTime - r.1.popup.session.inTime = r.1.popup.diff ∧
      (s.fragment r.1.client).recordings = r.1.popup.recording

/-- When the handler of `numSessions` is run on a value, its client has started no session since
the popup was shown. -/
def NotRestarted (s : Account) (a : Action) : Prop :=
  ∀ r ∈ storedRecord s a, (s.fragment r.1.client).recordings = r.1.popup.recording

instance (s : Account) (a : Action) : Decidable (NotRestarted s a) := by
  unfold NotRestarted
  infer_instance

/-! ### What is known of a popup -/

/-- A popup was shown for a session that has ended.  If the client has started no session since, the
toggle is off and the field still holds that session. -/
structure PopupOf (f : HomeFragment) (p : Popup) : Prop where
  diff : p.session.outTime - p.session.inTime = p.diff
  recording : p.recording ≤ f.recordings
  last : p.recording = f.recordings → f.isChecked = false ∧ f.studySession = some p.session

/-- What holds of the fragments and the submissions in every run of a fresh system. -/
structure PopupInv (s : Account) : Prop where
  inherited : ∀ c, (s.fragment c).inherited = false
  running : ∀ c, (s.fragment c).isChecked = true → (s.fragment c).studySession.isSome
  popups : ∀ c, ∀ p ∈ (s.fragment c).popups, PopupOf (s.fragment c) p
  tickets : ∀ x ∈ s.tickets, PopupOf (s.fragment x.1) x.2

/-- No client has shown a popup or submitted a session yet. -/
def Untouched (s : Account) : Prop :=
  s.submissions = [] ∧ ∀ c, s.fragment c = HomeFragment.initial

theorem PopupInv.of_untouched {s : Account} (h : Untouched s) : PopupInv s where
  inherited c := by rw [h.2 c]; rfl
  running c hc := by rw [h.2 c] at hc; cases hc
  popups c p hp := by rw [h.2 c] at hp; cases hp
  tickets x hx := by rw [Account.tickets, h.1] at hx; cases hx

/-- A popup shown earlier, when the toggle is tapped again. -/
theorem PopupOf.toggle {f f' : HomeFragment} {elapsedRealtime now : ℤ} {p : Popup}
    (h : PopupOf f p) (hinh : f.inherited = false)
    (hf : f.toggle elapsedRealtime now = some f') : PopupOf f' p := by
  cases hchecked : f.isChecked with
  | false =>
      -- a new session is started: the popup belongs to an older one
      simp only [HomeFragment.toggle, HomeFragment.onCheckedChanged, hchecked, hinh, Bool.not_false,
        Bool.true_or, if_true, Option.some.injEq] at hf
      subst hf
      have hle := h.recording
      exact ⟨h.diff, by simp only; omega, fun hlast => by simp only at hlast; omega⟩
  | true =>
      -- the session that ends is a newer one than that of the popup
      have hlt : p.recording ≠ f.recordings := fun hlast => by simp [(h.last hlast).1] at hchecked
      simp only [HomeFragment.toggle, HomeFragment.onCheckedChanged, hchecked, Bool.not_true,
        Bool.false_eq_true, if_false, Option.map_eq_some_iff] at hf
      obtain ⟨σ, -, rfl⟩ := hf
      exact ⟨h.diff, h.recording, fun hlast => absurd hlast hlt⟩

/-- The popups after the toggle has been tapped are the old ones and, after a stop, possibly a new
one. -/
theorem popupOf_of_toggle {f f' : HomeFragment} {elapsedRealtime now : ℤ}
    (hinh : f.inherited = false) (hpop : ∀ p ∈ f.popups, PopupOf f p)
    (hf : f.toggle elapsedRealtime now = some f') : ∀ p ∈ f'.popups, PopupOf f' p := by
  intro p hp
  by_cases hold : p ∈ f.popups
  · exact (hpop p hold).toggle hinh hf
  · cases hchecked : f.isChecked with
    | false =>
        simp only [HomeFragment.toggle, HomeFragment.onCheckedChanged, hchecked, hinh,
          Bool.not_false, Bool.true_or, if_true, Option.some.injEq] at hf
        subst hf
        exact absurd hp hold
    | true =>
        simp only [HomeFragment.toggle, HomeFragment.onCheckedChanged, hchecked, Bool.not_true,
          Bool.false_eq_true, if_false, Option.map_eq_some_iff] at hf
        obtain ⟨σ, hσ, rfl⟩ := hf
        simp only at hp
        split_ifs at hp
        · -- the popup that the stop has just shown
          rcases List.mem_append.1 hp with hp | hp
          · exact absurd hp hold
          · obtain rfl := List.mem_singleton.1 hp
            exact ⟨rfl, le_rfl, fun _ => ⟨rfl, rfl⟩⟩
        · exact absurd hp hold

theorem running_of_toggle {f f' : HomeFragment} {elapsedRealtime now : ℤ}
    (hinh : f.inherited = false) (hf : f.toggle elapsedRealtime now = some f') :
    f'.inherited = false ∧ (f'.isChecked = true → f'.studySession.isSome) := by
  cases hchecked : f.isChecked with
  | false =>
      simp only [HomeFragment.toggle, HomeFragment.onCheckedChanged, hchecked, hinh, Bool.not_false,
        Bool.true_or, if_true, Option.some.injEq] at hf
      subst hf
      exact ⟨rfl, fun _ => rfl⟩
  | true =>
      simp only [HomeFragment.toggle, HomeFragment.onCheckedChanged, hchecked, Bool.not_true,
        Bool.false_eq_true, if_false, Option.map_eq_some_iff] at hf
      obtain ⟨σ, -, rfl⟩ := hf
      exact ⟨rfl, fun _ => rfl⟩

/-- A popup depends on three fields of its fragment only. -/
theorem PopupOf.congr {f f' : HomeFragment} {p : Popup} (h : PopupOf f p)
    (hr : f'.recordings = f.recordings) (hc : f'.isChecked = f.isChecked)
    (hs : f'.studySession = f.studySession) : PopupOf f' p :=
  ⟨h.diff, hr ▸ h.recording, fun hlast => by rw [hc, hs]; exact h.last (hr ▸ hlast)⟩

/-- One client has changed its fragment to `f`: what is left to show for the invariant. -/
theorem PopupInv.update {s t : Account} {c : ℕ} {f : HomeFragment} (h : PopupInv s)
    (ht : t.fragment = Function.update s.fragment c f) (hinh : f.inherited = false)
    (hrun : f.isChecked = true → f.studySession.isSome) (hpop : ∀ p ∈ f.popups, PopupOf f p)
    (hold : ∀ p, PopupOf (s.fragment c) p → PopupOf f p)
    (htick : ∀ x ∈ t.tickets, x ∈ s.tickets ∨ PopupOf (s.fragment x.1) x.2) : PopupInv t where
  inherited c' := by
    rcases eq_or_ne c' c with rfl | hne
    · rwa [ht, Function.update_self]
    · rw [ht, Function.update_of_ne hne]
      exact h.inherited c'
  running c' := by
    rcases eq_or_ne c' c with rfl | hne
    · rwa [ht, Function.update_self]
    · rw [ht, Function.update_of_ne hne]
      exact h.running c'
  popups c' := by
    rcases eq_or_ne c' c with rfl | hne
    · rwa [ht, Function.update_self]
    · rw [ht, Function.update_of_ne hne]
      exact h.popups c'
  tickets x hx := by
    have hpopup : PopupOf (s.fragment x.1) x.2 := (htick x hx).elim (h.tickets x) id
    rcases eq_or_ne x.1 c with heq | hne
    · rw [ht, heq, Function.update_self]
      exact hold x.2 (heq ▸ hpopup)
    · rwa [ht, Function.update_of_ne hne]

/-- **What is known of the popups survives every action.** -/
theorem PopupInv.trans {s t : Account} {a : Action} (h : PopupInv s) (hst : Trans s a t) :
    PopupInv t := by
  rcases hst.fragment_cases with ⟨hfrag, htick⟩ | ⟨c, elapsedRealtime, now, f, hf, hfrag, htick⟩ |
    ⟨c, i, popup, hi, hfrag, htick⟩
  · exact ⟨fun c => hfrag ▸ h.inherited c, fun c => hfrag ▸ h.running c,
      fun c => hfrag ▸ h.popups c, fun x hx => hfrag ▸ h.tickets x (htick ▸ hx)⟩
  · obtain ⟨hinh, hrun⟩ := running_of_toggle (h.inherited c) hf
    exact h.update hfrag hinh hrun (popupOf_of_toggle (h.inherited c) (h.popups c) hf)
      (fun p hp => hp.toggle (h.inherited c) hf) fun x hx => .inl (htick ▸ hx)
  · -- a popup is answered: it is gone from the fragment and perhaps submitted
    refine h.update hfrag (h.inherited c) (h.running c) ?_ ?_ ?_
    · intro p hp
      exact (h.popups c p (List.mem_of_mem_eraseIdx hp)).congr rfl rfl rfl
    · intro p hp
      exact hp.congr rfl rfl rfl
    · intro x hx
      rcases htick with htick | htick
      · exact .inl (htick ▸ hx)
      · rw [htick] at hx
        rcases List.mem_append.1 hx with hx | hx
        · exact .inl hx
        · obtain rfl := List.mem_singleton.1 hx
          exact .inr (h.popups c popup (List.mem_of_getElem? hi))

/-! ### The stored record -/

theorem RecordsPopup.notRestarted {s : Account} {a : Action} (h : RecordsPopup s a) :
    NotRestarted s a := fun r hr => (h r hr).2.2

/-- Without a restart the field still holds the session that was submitted. -/
theorem PopupInv.recordsPopup {s : Account} {a : Action} (h : PopupInv s) (hr : NotRestarted s a) :
    RecordsPopup s a := by
  intro r hmem
  have hrec := hr r hmem
  cases a with
  | runSessions i v =>
      obtain ⟨sub, w⟩ := r
      obtain ⟨hsub, -, n, -, rfl⟩ := storedRecord_runSessions hmem
      have hpopup := h.tickets _ (mem_tickets hsub)
      have hfield := (hpopup.last hrec.symm).2
      exact ⟨⟨n, by simp only [hfield, sessionWrite]⟩, hpopup.diff, hrec⟩
  | _ => cases hmem

/-- **The session stored is the session credited exactly as long as no session is started** between
the stop and the run of the handler: in every run of a fresh system, all the records that handlers
store are those of their popups if and only if no handler is run after a restart. -/
theorem recordsPopup_iff_notRestarted {s : Account} (h : Untouched s) (acts : List Action) :
    Execution.Along step RecordsPopup s acts ↔ Execution.Along step NotRestarted s acts := by
  constructor
  · exact Execution.along_mono fun s a => RecordsPopup.notRestarted
  · intro hrun
    exact Execution.along_of_invariant (fun s a t hI _ hst => hI.trans (trans_of_step hst))
      (fun s a hI hG => hI.recordsPopup hG) (PopupInv.of_untouched h) hrun

/-- A client starts a session, stops it after half an hour and submits it. -/
def promptSubmission : List Action :=
  [.toggle 0 0 0, .toggle 0 1800000 1800000, .submit 0 0, .deliver 0, .runSessions 0 (some 0)]

/-- The same, but the next session is started while the popup is open. -/
def lateSubmission : List Action :=
  [.toggle 0 0 0, .toggle 0 1800000 1800000, .toggle 0 1800001 1800001, .submit 0 0, .deliver 0,
    .runSessions 0 (some 0)]

theorem untouched_atRest (h : Hours) (status : Status) : Untouched (atRest h status) :=
  ⟨rfl, fun _ => rfl⟩

/-- A submission that is not overtaken by a restart stores its own session. -/
theorem recordsPopup_promptSubmission :
    Execution.Along step RecordsPopup (atRest (Hours.created "A") .closed) promptSubmission :=
  (recordsPopup_iff_notRestarted (untouched_atRest _ _) promptSubmission).2 (by decide)

/-- **A restart while the popup is open makes the submission store the new session**, which has not
even ended. -/
theorem not_recordsPopup_lateSubmission :
    ¬ ∀ (s : Account) (acts : List Action), Untouched s →
      Execution.Along step RecordsPopup s acts := by
  intro h
  have hrun := h (atRest (Hours.created "A") .closed) lateSubmission (untouched_atRest _ _)
  exact absurd (Execution.along_mono (fun s a => RecordsPopup.notRestarted) hrun) (by decide)

end StudyHours
