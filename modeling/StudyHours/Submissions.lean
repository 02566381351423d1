/-
**What an Android client leaves to be done.**

A submission is under way until its two transactions are over.  This module collects what is known
of it in the meantime: its session lasted half an hour, its transactions have been started together,
and what a transaction has sent is what its handler computes from the value it was run on.  It also
has what the actions of Android clients leave alone.

Main definitions:

* `StudyHours.Submission.Sound` — what holds of a submission at any time;
* `StudyHours.SubmissionsInv` — the two counters are there and every submission is sound;
* `StudyHours.AndroidFrame` — what an Android client cannot do.

Main results:

* `StudyHours.SubmissionsInv.trans` — the invariant survives every action;
* `StudyHours.Account.Trans.kinds` — an action is an event of a device, a landing, or it is in the
  frame of an Android client.
-/

import Mathlib
import StudyHours.Account

set_option relaxedAutoImplicit false
set_option autoImplicit false

namespace StudyHours

open Account
open RecordViewController (Event Transition)

/-! ### Sound submissions -/

/-- What holds of a submission at any time. -/
structure Submission.Sound (sub : Submission) : Prop where
  diff : 1800000 ≤ sub.popup.diff
  undelivered : sub.delivered = false → sub.totalHours = none ∧ sub.numSessions = none
  started : sub.delivered = true → sub.totalHours.isSome ∧ sub.numSessions.isSome
  hours : ∀ base new, sub.totalHours = some (.sent base new) →
    new = totalHoursTransaction sub.popup.diff base
  sessions : ∀ base new, sub.numSessions = some (.sent base new) →
    numSessionsTransaction base = some new

namespace Submission

theorem sound_start {c : ℕ} {popup : Popup} (h : 1800000 ≤ popup.diff) : (start c popup).Sound where
  diff := h
  undelivered _ := ⟨rfl, rfl⟩
  started h := by cases h
  hours _ _ h := by cases h
  sessions _ _ h := by cases h

/-- With both counters in the snapshot, `onDataChange` starts both transactions. -/
theorem Sound.onDataChange {sub : Submission} (h : sub.Sound) {snapshot : Hours}
    (hn : snapshot.numSessions.isSome) (ht : snapshot.totalHours.isSome) :
    (sub.onDataChange snapshot).Sound where
  diff := h.diff
  undelivered h := by cases h
  started _ := by simp [Submission.onDataChange, hn, ht]
  hours _ _ h := by simp [Submission.onDataChange, ht] at h
  sessions _ _ h := by simp [Submission.onDataChange, hn] at h

/-- A transaction of `totalHours` that was started goes on. -/
theorem Sound.setHours {sub : Submission} (h : sub.Sound) (hstarted : sub.totalHours.isSome)
    (tr : Transaction ℚ)
    (htr : ∀ base new, tr = .sent base new → new = totalHoursTransaction sub.popup.diff base) :
    ({ sub with totalHours := some tr } : Submission).Sound where
  diff := h.diff
  undelivered hd := by rw [(h.undelivered hd).1] at hstarted; cases hstarted
  started hd := ⟨rfl, (h.started hd).2⟩
  hours base new heq := htr base new (Option.some.inj heq)
  sessions := h.sessions

/-- A transaction of `numSessions` that was started goes on. -/
theorem Sound.setSessions {sub : Submission} (h : sub.Sound) (hstarted : sub.numSessions.isSome)
    (tr : Transaction ℤ)
    (htr : ∀ base new, tr = .sent base new → numSessionsTransaction base = some new) :
    ({ sub with numSessions := some tr } : Submission).Sound where
  diff := h.diff
  undelivered hd := by rw [(h.undelivered hd).2] at hstarted; cases hstarted
  started hd := ⟨(h.started hd).1, rfl⟩
  hours := h.hours
  sessions base new heq := htr base new (Option.some.inj heq)

end Submission

/-! ### What an Android client cannot do -/

/-- An Android client issues session children only, leaves the children of the record to the
landings, and reaches a record screen only through the snapshots it is given. -/
structure AndroidFrame (s t : Account) : Prop where
  children : t.db.children = s.db.children
  device : ∀ d, ∃ hs, t.device d = (s.device d).notify hs
  outbox : ∃ l, t.outbox = s.outbox ++ l ∧
    ∀ e ∈ l, ∃ c i studySession n, e = ⟨.android c i, sessionWrite studySession n⟩

theorem RecordViewController.notify_nil (vc : RecordViewController) : vc.notify [] = vc := by
  simp [notify]

theorem AndroidFrame.of_eq {s t : Account} (hc : t.db.children = s.db.children)
    (hd : t.device = s.device) (ho : t.outbox = s.outbox) : AndroidFrame s t where
  children := hc
  device d := ⟨[], by rw [hd, RecordViewController.notify_nil]⟩
  outbox := ⟨[], by rw [ho, List.append_nil], fun e he => by cases he⟩

/-- **The kinds of actions**: an event of a record screen, a landing, or an action of an Android
client. -/
theorem Account.Trans.kinds {s t : Account} {a : Action} (h : Trans s a t) :
    (∃ d e vc ws, a = .ios d e ∧ Transition (s.view d) (s.device d) e vc ws ∧
      t = s.issue d vc ws) ∨
    (∃ l₁ e l₂, a = .land l₁.length ∧ s.outbox = l₁ ++ e :: l₂ ∧
      (∀ e' ∈ l₁, e'.sender.sameClient e.sender = false) ∧ t = s.landed l₁ e l₂) ∨
    ((∀ d e, a ≠ .ios d e) ∧ (∀ j, a ≠ .land j) ∧ AndroidFrame s t) := by
  cases h with
  | ios h => exact .inl ⟨_, _, _, _, rfl, h, rfl⟩
  | land hout hj hfirst => exact .inr (.inl ⟨_, _, _, by rw [hj], hout, hfirst, rfl⟩)
  | hoursCommit | sessionsCommit =>
      refine .inr (.inr ⟨nofun, nofun, rfl, fun d => ⟨_, rfl⟩, [], ?_, nofun⟩)
      exact (List.append_nil _).symm
  | runSessions hsub hq hv =>
      refine .inr (.inr ⟨nofun, nofun, rfl, fun d => ⟨[], ?_⟩, _, rfl, ?_⟩)
      · rw [RecordViewController.notify_nil]
        rfl
      · intro e he
        obtain ⟨w, hw, rfl⟩ := List.mem_map.1 he
        obtain ⟨n, -, rfl⟩ := List.mem_map.1 hw
        exact ⟨_, _, _, n, rfl⟩
  | _ => exact .inr (.inr ⟨nofun, nofun, .of_eq rfl rfl rfl⟩)

/-- A landing and an action of an Android client reach the screens through snapshots only. -/
theorem Account.Trans.device_notify {s t : Account} {a : Action} (h : Trans s a t)
    (hios : ∀ d e, a ≠ .ios d e) (d : ℕ) : ∃ hs, t.device d = (s.device d).notify hs := by
  rcases h.kinds with ⟨d', e, vc, ws, rfl, -, -⟩ | ⟨l₁, e, l₂, -, -, -, rfl⟩ | ⟨-, -, hframe⟩
  · exact absurd rfl (hios d' e)
  · rw [landed, device_broadcast]
    split_ifs
    · exact ⟨[], (RecordViewController.notify_nil _).symm⟩
    · exact ⟨_, rfl⟩
  · exact hframe.device d

/-- **What the snapshots and the events of a screen preserve holds of every screen.** -/
theorem Account.Trans.forall_device {P : RecordViewController → Prop} {s t : Account} {a : Action}
    (hst : Trans s a t) (hnotify : ∀ vc hs, P vc → P (vc.notify hs))
    (hevent : ∀ d e vc ws, Transition (s.view d) (s.device d) e vc ws → P (s.device d) → P vc)
    (h : ∀ d, P (s.device d)) (d : ℕ) : P (t.device d) := by
  by_cases hios : ∃ d' e, a = .ios d' e
  · obtain ⟨d', e, rfl⟩ := hios
    cases hst with
    | ios htr =>
        rcases eq_or_ne d d' with rfl | hne
        · rw [device_issue_self]
          exact hnotify _ _ (hevent d e _ _ htr (h d))
        · rw [device_issue_of_ne _ _ _ hne]
          exact h d
  · push Not at hios
    obtain ⟨hs, heq⟩ := hst.device_notify hios d
    rw [heq]
    exact hnotify _ _ (h d)

/-! ### Canonical keys -/

/-- No action stores a session child under another key than its numeral. -/
theorem Account.Trans.canonical {s t : Account} {a : Action} (hst : Trans s a t)
    (hc : s.db.Canonical) : t.db.Canonical := by
  rcases hst.kinds with ⟨d, e, vc, ws, -, -, rfl⟩ | ⟨l₁, e, l₂, -, -, -, rfl⟩ | ⟨-, -, hframe⟩
  · exact hc
  · exact hc.apply e.write
  · intro key hkey
    exact hc key (by rwa [← hframe.children])

/-- The snapshots of a device's own writes have canonical keys. -/
theorem canonical_of_mem_snapshots {h h' : Hours} {ws : List Write} (hc : h.Canonical)
    (hmem : h' ∈ snapshots h ws) : h'.Canonical := by
  induction ws generalizing h with
  | nil => cases hmem
  | cons w ws ih =>
      rcases List.mem_cons.1 hmem with rfl | hmem
      · exact hc.apply w
      · exact ih (hc.apply w) hmem

/-! ### The invariant -/

/-- The two counters are in the record, every popup is about a session of half an hour, and every
submission is sound. -/
structure SubmissionsInv (s : Account) : Prop where
  numSessions : s.db.numSessions.isSome
  totalHours : s.db.totalHours.isSome
  popups : ∀ c, ∀ p ∈ (s.fragment c).popups, 1800000 ≤ p.diff
  sound : ∀ sub ∈ s.submissions, sub.Sound

/-- The popups after the toggle has been tapped. -/
theorem popups_of_toggle {f f' : HomeFragment} {elapsedRealtime now : ℤ}
    (hpop : ∀ p ∈ f.popups, 1800000 ≤ p.diff)
    (hf : f.toggle elapsedRealtime now = some f') : ∀ p ∈ f'.popups, 1800000 ≤ p.diff := by
  intro p hp
  simp only [HomeFragment.toggle, HomeFragment.onCheckedChanged] at hf
  split_ifs at hf
  · cases hf
    exact hpop p hp
  · cases hf
    exact hpop p hp
  · obtain ⟨σ, -, rfl⟩ := Option.map_eq_some_iff.1 hf
    simp only at hp
    split_ifs at hp with hdiff
    · rcases List.mem_append.1 hp with hp | hp
      · exact hpop p hp
      · obtain rfl := List.mem_singleton.1 hp
        exact hdiff
    · exact hpop p hp

/-- No write takes a counter away. -/
theorem Hours.isSome_apply {h : Hours} (hn : h.numSessions.isSome) (ht : h.totalHours.isSome)
    (w : Write) : (h.apply w).numSessions.isSome ∧ (h.apply w).totalHours.isSome := by
  cases w with
  | numSessions n => exact ⟨rfl, ht⟩
  | totalHours t credit => exact ⟨hn, rfl⟩
  | _ => exact ⟨hn, ht⟩

namespace SubmissionsInv

variable {s t : Account}

/-- One submission has become another one. -/
theorem sound_set (h : SubmissionsInv s) (i : ℕ) {sub : Submission} (hsub : sub.Sound) :
    ∀ sub' ∈ s.submissions.set i sub, sub'.Sound := by
  intro sub' hmem
  rcases List.mem_or_eq_of_mem_set hmem with hmem | rfl
  · exact h.sound sub' hmem
  · exact hsub

/-- One client has changed its fragment. -/
theorem popups_update (h : SubmissionsInv s) (c : ℕ) {f : HomeFragment}
    (hf : ∀ p ∈ f.popups, 1800000 ≤ p.diff) (c' : ℕ) :
    ∀ p ∈ (Function.update s.fragment c f c').popups, 1800000 ≤ p.diff := by
  rcases eq_or_ne c' c with rfl | hne
  · rwa [Function.update_self]
  · rw [Function.update_of_ne hne]
    exact h.popups c'

/-- **The invariant survives every action.** -/
theorem trans (h : SubmissionsInv s) {a : Action} (hst : Trans s a t) : SubmissionsInv t := by
  obtain ⟨hn, ht, hpop, hsound⟩ := h
  have h : SubmissionsInv s := ⟨hn, ht, hpop, hsound⟩
  cases hst with
  | ios _ => exact ⟨hn, ht, hpop, hsound⟩
  | @land j l₁ l₂ e _ _ _ =>
      obtain ⟨hn', ht'⟩ := Hours.isSome_apply hn ht e.write
      exact ⟨hn', ht', hpop, hsound⟩
  | @toggle c _ _ f hf => exact ⟨hn, ht, h.popups_update c (popups_of_toggle (hpop c) hf), hsound⟩
  | @submit c i popup hi =>
      refine ⟨hn, ht, h.popups_update c fun p hp => hpop c p (List.mem_of_mem_eraseIdx hp), ?_⟩
      intro sub hmem
      rcases List.mem_append.1 hmem with hmem | hmem
      · exact hsound sub hmem
      · obtain rfl := List.mem_singleton.1 hmem
        exact Submission.sound_start (hpop c popup (List.mem_of_getElem? hi))
  | @decline c i popup hi =>
      exact ⟨hn, ht, h.popups_update c fun p hp => hpop c p (List.mem_of_mem_eraseIdx hp), hsound⟩
  | @deliver i sub hsub _ =>
      have hs := hsound sub (List.mem_of_getElem? hsub)
      exact ⟨hn, ht, hpop, h.sound_set i (hs.onDataChange hn ht)⟩
  | @runHours i v sub hsub hq =>
      have hs := hsound sub (List.mem_of_getElem? hsub)
      refine ⟨hn, ht, hpop, h.sound_set i (hs.setHours (by rw [hq]; rfl) _ ?_)⟩
      rintro base new heq
      cases heq
      rfl
  | @hoursCommit i sub base new hsub htr hb =>
      have hs := hsound sub (List.mem_of_getElem? hsub)
      refine ⟨hn, ?_, hpop, h.sound_set i (hs.setHours (by rw [htr]; rfl) _ nofun)⟩
      -- the counter was there when the handler was run on its value
      have hnew := hs.hours base new htr
      rw [← hb] at hnew
      simpa [hnew, totalHoursTransaction] using ht
  | @hoursRetry i sub base new hsub htr hb =>
      have hs := hsound sub (List.mem_of_getElem? hsub)
      exact ⟨hn, ht, hpop, h.sound_set i (hs.setHours (by rw [htr]; rfl) _ nofun)⟩
  | @runSessions i v new sub hsub hq hv =>
      have hs := hsound sub (List.mem_of_getElem? hsub)
      refine ⟨hn, ht, hpop, h.sound_set i (hs.setSessions (by rw [hq]; rfl) _ ?_)⟩
      rintro base new' heq
      cases heq
      exact hv
  | @sessionsAbort i v sub hsub hq hv =>
      have hs := hsound sub (List.mem_of_getElem? hsub)
      exact ⟨hn, ht, hpop, h.sound_set i (hs.setSessions (by rw [hq]; rfl) _ nofun)⟩
  | @sessionsCommit i sub base new hsub htr hb =>
      have hs := hsound sub (List.mem_of_getElem? hsub)
      refine ⟨?_, ht, hpop, h.sound_set i (hs.setSessions (by rw [htr]; rfl) _ nofun)⟩
      have hnew := hs.sessions base new htr
      obtain ⟨n, hn'⟩ := Option.isSome_iff_exists.1 hn
      rw [← hb, hn', numSessionsTransaction] at hnew
      split_ifs at hnew
      cases hnew
      rfl
  | @sessionsRetry i sub base new hsub htr hb =>
      have hs := hsound sub (List.mem_of_getElem? hsub)
      exact ⟨hn, ht, hpop, h.sound_set i (hs.setSessions (by rw [htr]; rfl) _ nofun)⟩

end SubmissionsInv

end StudyHours
