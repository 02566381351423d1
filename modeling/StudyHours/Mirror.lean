/-
**The recording flag as a mirror of the record.**

The flag of a record screen is meant to tell whether the record has a child under the next free
number.  The observer turns it on when a snapshot shows such a child, but nothing turns it off
except a tap on the same screen.  So a session that another device ends leaves the flag on, and so
does a snapshot that is handled after the stop it belongs to.  Devices that take turns mirror the
record as long as a session ends only where no screen shows it and none is about to.

Main definitions:

* `StudyHours.RecordViewController.Shows` — the flag is on, or a snapshot to be handled turns it on;
* `StudyHours.EndsUnseen` — the condition on the ends of sessions;
* `StudyHours.Mirrored` — the flags and the titles of the buttons are right;
* `StudyHours.Mirrors` — the relation of a screen to its view in the middle of a run.

Main results:

* `StudyHours.MirrorInv.step` — every such action preserves the relation;
* `StudyHours.mirrored_of_endsUnseen` — **the flags mirror the record in every such run**;
* `StudyHours.not_mirrored` — a session that another device dismisses leaves the flag on.
-/

import Mathlib
import StudyHours.History
import StudyHours.Turns

set_option relaxedAutoImplicit false
set_option autoImplicit false

namespace StudyHours

open Account
open RecordViewController (Event Transition showsInProgress showsInProgress_eq idle_initial
  observe_eq)

/-! ### The condition and the property -/

/-- The flag is on, or the observer is about to turn it on. -/
def RecordViewController.Shows (vc : RecordViewController) : Prop :=
  vc.recording = true ∨ ∃ h ∈ vc.events, showsInProgress h = true

instance (vc : RecordViewController) : Decidable vc.Shows := by
  unfold RecordViewController.Shows
  infer_instance

/-- If the action takes the child in progress away from the view of device `d`, then its screen
does not show it. -/
def EndsUnseenOn (d : ℕ) (s : Account) (a : Action) : Prop :=
  ∀ t ∈ step s a, (s.view d).inProgress?.isSome → (t.view d).inProgress? = none →
    ¬ (s.device d).Shows

instance (d : ℕ) (s : Account) (a : Action) : Decidable (EndsUnseenOn d s a) := by
  unfold EndsUnseenOn
  infer_instance

/-- A session ends only where no screen shows it and none is about to. -/
def EndsUnseen (s : Account) (a : Action) : Prop := ∀ d, EndsUnseenOn d s a

/-- **The flags mirror the record**: a device that has handled the latest snapshot and has nothing
outstanding has its flag on if and only if the child under `numSessions + 1` exists, and its button
says so. -/
def Mirrored (s : Account) : Prop :=
  ∀ d, (s.device d).status = .observing → (s.device d).events = [] → (s.device d).Idle →
    (s.device d).recording = (s.view d).inProgress?.isSome ∧
      (s.device d).screen.stopTitle = (s.device d).recording

/-! ### A screen and its view -/

/-- The relation of a screen to its view in the middle of a run: a session in progress shows, or it
is about to be stopped; and what shows is in progress, or it is about to be. -/
structure Mirrors (view : Hours) (vc : RecordViewController) : Prop where
  seen : vc.status.listens = true → view.inProgress?.isSome → vc.Shows ∨ ¬ vc.Idle
  shown : vc.Shows → view.inProgress?.isSome ∨ (vc.recording = true ∧ vc.outer ≠ [])
  events : vc.events ≠ [] → vc.status.listens = true
  title : vc.outer = [] → vc.screen.stopTitle = vc.recording

namespace Mirrors

variable {view view' : Hours} {vc vc' : RecordViewController} {e : Event} {ws : List Write}

/-- A screen that has handled everything and has nothing outstanding. -/
theorem recording_eq (h : Mirrors view vc) (hlistens : vc.status.listens = true)
    (hevents : vc.events = []) (hidle : vc.Idle) : vc.recording = view.inProgress?.isSome := by
  have hshows : vc.Shows ↔ vc.recording = true := by
    simp [RecordViewController.Shows, hevents]
  rw [Bool.eq_iff_iff]
  constructor
  · intro hrec
    exact (h.shown (hshows.2 hrec)).resolve_right fun hstart => hstart.2 hidle.1
  · intro hin
    exact hshows.1 ((h.seen hlistens hin).resolve_right fun hbusy => hbusy hidle)

/-- A screen that has just been loaded, or that has crashed. -/
theorem of_initial {status : Status} (h : status.listens = false) :
    Mirrors view (.initial status) where
  seen hlistens := by
    change status.listens = true at hlistens
    rw [h] at hlistens
    cases hlistens
  shown hshows := by
    rcases hshows with hrec | ⟨h', hh', -⟩
    · cases hrec
    · cases hh'
  events hne := absurd rfl hne
  title _ := rfl

/-- Only a screen that listens has snapshots to handle. -/
theorem listens_notify (h : vc.events ≠ [] → vc.status.listens = true) (hs : List Hours)
    (hne : (vc.notify hs).events ≠ []) : (vc.notify hs).status.listens = true := by
  rw [RecordViewController.status_notify]
  by_contra hlistens
  rw [RecordViewController.events_notify, if_neg hlistens] at hne
  exact hlistens (h hne)

/-- The record changes for the device, and the change is sent to its observer. -/
theorem notify_view (h : Mirrors view vc)
    (hview' : showsInProgress view' = view'.inProgress?.isSome)
    (hend : view.inProgress?.isSome → view'.inProgress? = none → ¬ vc.Shows) :
    Mirrors view' (vc.notify [view']) where
  seen hlistens hin := by
    rw [RecordViewController.status_notify] at hlistens
    refine .inl (.inr ⟨view', ?_, hview'.trans hin⟩)
    rw [RecordViewController.events_notify, if_pos hlistens]
    exact List.mem_append_right _ List.mem_cons_self
  shown hshows := by
    by_cases hin : view'.inProgress?.isSome
    · exact .inl hin
    · -- then the screen has shown the session before
      have hold : vc.Shows := by
        rcases hshows with hrec | ⟨h', hh', hshow⟩
        · exact .inl (by simpa using hrec)
        · rcases RecordViewController.mem_events_notify _ _ hh' with hh' | hh'
          · exact .inr ⟨h', hh', hshow⟩
          · obtain rfl := List.mem_singleton.1 hh'
            exact absurd (hview'.symm.trans hshow) hin
      rcases h.shown hold with hin' | hstart
      · exact absurd hold (hend hin' (by simpa using hin))
      · exact .inr (by simpa using hstart)
  events := listens_notify h.events _
  title houter := by
    rw [RecordViewController.outer_notify] at houter
    simpa using h.title houter

/-- The session has ended, and the screen neither shows it nor is about to. -/
theorem notify_end {hs : List Hours} (hend : view'.inProgress? = none) (hshows : ¬ vc.Shows)
    (hhs : ∀ h ∈ hs, showsInProgress h = false)
    (hevents : vc.events ≠ [] → vc.status.listens = true)
    (htitle : vc.outer = [] → vc.screen.stopTitle = vc.recording) :
    Mirrors view' (vc.notify hs) where
  seen _ hin := by simp [hend] at hin
  shown hnew := by
    refine absurd ?_ hshows
    rcases hnew with hrec | ⟨h', hh', hshow⟩
    · exact .inl (by simpa using hrec)
    · rcases RecordViewController.mem_events_notify _ _ hh' with hh' | hh'
      · exact .inr ⟨h', hh', hshow⟩
      · rw [hhs h' hh'] at hshow
        cases hshow
  events := listens_notify hevents hs
  title houter := by
    rw [RecordViewController.outer_notify] at houter
    simpa using htitle houter

/-- **An event that issues nothing** keeps the relation. -/
theorem quiet (h : Mirrors view vc) (hview : showsInProgress view = view.inProgress?.isSome)
    (htap : e = .tap → vc.Idle) (hcancel : ∀ i, e ≠ .cancelOuter i ∧ e ≠ .cancelInner i)
    (htr : Transition view vc e vc' ws) (hws : ws = []) : Mirrors view vc' := by
  cases htr with
  | launch | observeTrap _ _ | outerTrap _ _ | innerTrap _ _ | yesTrap _ _ => exact of_initial rfl
  | attach _ =>
      refine ⟨fun _ hin => .inl (.inr ⟨view, List.mem_cons_self, hview.trans hin⟩), ?_,
        fun _ => rfl, h.title⟩
      rintro (hrec | ⟨h', hh', hshow⟩)
      · exact h.shown (.inl hrec)
      · obtain rfl := List.mem_singleton.1 hh'
        exact .inl (hview.symm.trans hshow)
  | @observe snapshot rest vc' hevents hvc' =>
      obtain ⟨screen, htitle, rfl⟩ := observe_eq hvc'
      have hlistens := h.events (by rw [hevents]; exact List.cons_ne_nil _ _)
      refine ⟨fun _ hin => ?_, ?_, fun _ => rfl, fun _ => htitle⟩
      · -- the snapshot that is handled has turned the flag on
        refine (h.seen hlistens hin).imp ?_ id
        rintro (hrec | ⟨h', hh', hshow⟩)
        · exact .inl (by simp [hrec])
        · rw [hevents] at hh'
          rcases List.mem_cons.1 hh' with rfl | hh'
          · exact .inl (by simp [hshow])
          · exact .inr ⟨h', hh', hshow⟩
      · intro hshows
        have hold : vc.Shows := by
          rcases hshows with hrec | ⟨h', hh', hshow⟩
          · rcases Bool.or_eq_true_iff.1 hrec with hrec | hshow
            · exact .inl hrec
            · exact .inr ⟨snapshot, by rw [hevents]; exact List.mem_cons_self, hshow⟩
          · exact .inr ⟨h', by rw [hevents]; exact List.mem_cons_of_mem _ hh', hshow⟩
        exact (h.shown hold).imp id fun hstart => ⟨by simp [hstart.1], hstart.2⟩
  | tap _ =>
      obtain ⟨houter, -⟩ := htap rfl
      refine ⟨fun _ _ => .inr ?_, fun hshows => ?_, h.events, fun hempty => ?_⟩
      · simp [RecordViewController.startRecording, RecordViewController.Idle]
      · by_cases hrec : vc.recording = true
        · -- a stop: the session in progress shows for a while
          left
          refine (h.shown (.inl hrec)).resolve_right fun hstart => hstart.2 houter
        · exact .inr ⟨by simpa [RecordViewController.startRecording] using hrec,
            by simp [RecordViewController.startRecording]⟩
      · simp [RecordViewController.startRecording] at hempty
  | @arriveOuter i hi =>
      have hne : vc.outer ≠ [] := List.ne_nil_of_mem (List.mem_of_getElem? hi)
      refine ⟨fun _ _ => .inr fun hidle => hne (by simpa using hidle.1), fun hshows => ?_, h.events,
        fun hempty => absurd (by simpa using hempty) hne⟩
      exact (h.shown hshows).imp id fun hstart => ⟨hstart.1, by simpa using hne⟩
  | start _ _ _ => cases hws
  | stop _ _ hrec =>
      refine ⟨fun _ _ => .inr fun hidle => by simpa using hidle.2.1, fun hshows => ?_, h.events,
        fun _ => hrec.symm⟩
      refine .inl ((h.shown hshows).resolve_right fun hstart => ?_)
      rw [hrec] at hstart
      exact absurd hstart.1 (by decide)
  | cancelOuter _ => exact absurd rfl (hcancel _).1
  | cancelInner _ => exact absurd rfl (hcancel _).2
  | arriveInner hi =>
      have hne : vc.inner ≠ [] := List.ne_nil_of_mem (List.mem_of_getElem? hi)
      exact ⟨fun _ _ => .inr fun hidle => hne (by simpa using hidle.2.1), h.shown, h.events,
        h.title⟩
  | confirm _ _ _ =>
      exact ⟨fun _ _ => .inr fun hidle => by simpa using hidle.2.2, h.shown, h.events, h.title⟩
  | tooShort _ _ _ | no _ => simp [dismissSession] at hws
  | yes _ _ => simp [recordSession] at hws

end Mirrors

/-! ### The ends of a session -/

/-- After the last snapshot the view is what it shows. -/
theorem applyAll_mem_snapshots {h : Hours} {ws : List Write} (hne : ws ≠ []) :
    h.applyAll ws ∈ snapshots h ws := by
  induction ws generalizing h with
  | nil => exact absurd rfl hne
  | cons w ws ih =>
      rcases eq_or_ne ws [] with rfl | hws
      · exact List.mem_cons_self
      · exact List.mem_cons_of_mem _ (ih hws)

/-- A dismissal leaves nothing in progress. -/
theorem inProgress?_dismiss {h : Hours} {n : ℤ} (hn : h.numSessions = some n) :
    ∀ h' ∈ snapshots h (dismissSession n), h'.inProgress? = none := by
  intro h' hh'
  obtain rfl := List.mem_singleton.1 hh'
  have hn' : (h.apply (.remove (n + 1))).numSessions = some n := hn
  rw [Hours.inProgress?_eq hn', Hours.child_apply]
  exact if_pos rfl

/-- A recorded session is no longer in progress, whichever of its writes is the last to be seen. -/
theorem inProgress?_record {h : Hours} {n : ℤ} (ht : Tidy h) (hn : h.numSessions = some n)
    (interval out : ℤ) (q : ℚ) :
    ∀ h' ∈ snapshots h (recordSession interval n out q), h'.inProgress? = none := by
  obtain ⟨-, m, hm, hfree⟩ := ht
  obtain rfl : n = m := Option.some.inj (hn.symm.trans hm)
  have hnext : h.child (n + 1 + 1) = none := hfree _ (by omega)
  have hne : (Write.checkOut (n + 1) out).key? ≠ some (n + 1 + 1) := by simp [Write.key?]
  intro h' hh'
  simp only [recordSession, snapshots, List.mem_cons, List.not_mem_nil, or_false] at hh'
  rcases hh' with rfl | rfl | rfl
  · exact hnext
  · exact (Hours.child_apply_of_ne _ hne).trans hnext
  · exact (Hours.child_apply_of_ne _ hne).trans hnext

namespace Mirrors

variable {view : Hours} {vc vc' : RecordViewController} {e : Event} {ws : List Write}

/-- A session ends on the device whose turn it is: what is left to show. -/
theorem ending (h : Mirrors view vc) (hc : view.Canonical) (hne : ws ≠ [])
    (hnone : ∀ h ∈ snapshots view ws, h.inProgress? = none) (houter : vc.outer = [])
    (hend : view.inProgress?.isSome → (view.applyAll ws).inProgress? = none → ¬ vc.Shows)
    (hstatus : vc'.status = vc.status) (hrec : vc'.recording = vc.recording)
    (hscreen : vc'.screen = vc.screen) (hevents : vc'.events = vc.events) :
    Mirrors (view.applyAll ws) (vc'.notify (snapshots view ws)) := by
  have hlast := hnone _ (applyAll_mem_snapshots hne)
  have hshows : ¬ vc.Shows := by
    intro hshows
    rcases h.shown hshows with hin | hstart
    · exact hend hin hlast hshows
    · exact hstart.2 houter
  refine notify_end hlast ?_ (fun h' hh' => ?_) ?_ ?_
  · rwa [RecordViewController.Shows, hrec, hevents]
  · rw [showsInProgress_eq (canonical_of_mem_snapshots hc hh'), hnone h' hh']
    rfl
  · rw [hevents, hstatus]
    exact h.events
  · rw [hscreen, hrec]
    exact fun _ => h.title houter

/-- **An event that issues writes**, on the device whose turn it is. -/
theorem active (h : Mirrors view vc) (htidy : Tidy view) (hpending : Pending view vc)
    (htr : Transition view vc e vc' ws) (hne : ws ≠ [])
    (hend : view.inProgress?.isSome → (view.applyAll ws).inProgress? = none → ¬ vc.Shows) :
    Mirrors (view.applyAll ws) (vc'.notify (snapshots view ws)) := by
  cases htr with
  | @start i now snapshot n hi hn hrec =>
      obtain ⟨-, -, -, -, hview⟩ := hpending.of_outer hi
      have hn' : (view.apply (.checkIn (n + 1) now)).numSessions = some n := by
        rw [← hn, hview snapshot rfl]
        rfl
      refine ⟨fun _ _ => .inl (.inl (by simpa using hrec)), fun _ => .inl ?_, ?_,
        fun _ => by simp [hrec, updateScreen]⟩
      · rw [Hours.applyAll_cons, Hours.applyAll_nil, Hours.inProgress?_eq hn', Hours.child_apply]
        simp [Write.onChild]
      · refine listens_notify ?_ _
        exact h.events
  | tooShort hi _ _ =>
      obtain ⟨-, houter, -, -, hr⟩ := hpending.of_inner hi
      exact h.ending htidy.1 hne (inProgress?_dismiss hr.numSessions) houter hend rfl rfl rfl rfl
  | yes hi _ =>
      obtain ⟨-, houter, -, -, hdlg⟩ := hpending.of_dialog hi
      exact h.ending htidy.1 hne (inProgress?_record htidy hdlg.numSessions _ _ _) houter hend rfl
        rfl rfl rfl
  | no hi =>
      obtain ⟨-, houter, -, -, hdlg⟩ := hpending.of_dialog hi
      exact h.ending htidy.1 hne (inProgress?_dismiss hdlg.numSessions) houter hend rfl rfl rfl rfl
  | _ => exact absurd rfl hne

end Mirrors

/-! ### Runs -/

/-- The devices take turns, and every screen is related to its view. -/
structure MirrorInv (s : Account) : Prop where
  turns : TurnInv s
  mirrors : ∀ d, Mirrors (s.view d) (s.device d)

/-- **Every action preserves the relation** if the devices take turns and sessions end unseen. -/
theorem MirrorInv.step {s t : Account} {a : Action} (h : MirrorInv s) (ha : TakesTurns s a)
    (hend : EndsUnseen s a) (hst : step s a = some t) : MirrorInv t := by
  have htrans := trans_of_step hst
  have hturns := h.turns.trans ha htrans
  refine ⟨hturns, fun d => ?_⟩
  have hview : showsInProgress (s.view d) = (s.view d).inProgress?.isSome :=
    showsInProgress_eq (h.turns.tidy_view d).1
  have hview' : showsInProgress (t.view d) = (t.view d).inProgress?.isSome :=
    showsInProgress_eq (hturns.tidy_view d).1
  cases htrans with
  | @ios d' e vc ws htr =>
      rcases eq_or_ne d d' with rfl | hne
      · have hcancel : ∀ i, e ≠ .cancelOuter i ∧ e ≠ .cancelInner i :=
          fun i => ⟨by rintro rfl; exact ha d, by rintro rfl; exact ha d⟩
        have hquiet : ws = [] → Mirrors (s.view d) vc :=
          (h.mirrors d).quiet hview (by rintro rfl; exact (ha d).1) hcancel htr
        rw [view_issue_self, device_issue_self]
        rcases eq_or_ne ws [] with rfl | hws
        · simpa [snapshots, RecordViewController.notify_nil] using hquiet rfl
        · have hidle : ¬ (s.device d).Idle := fun hidle => hws (h.turns.issue_idle hidle ha htr).2
          obtain ⟨-, hout, hpending, -⟩ := h.turns.issue_pending hidle ha htr
          have hdb : s.view d = s.db := view_eq_db (by rw [hout]; rfl)
          refine (h.mirrors d).active (h.turns.tidy_view d) (hdb ▸ hpending) htr hws ?_
          rw [← view_issue_self s d vc ws]
          exact hend d _ hst
      · rw [view_issue_of_ne s hne, device_issue_of_ne _ _ _ hne]
        exact h.mirrors d
  | @land j l₁ l₂ e hout hj hfirst =>
      obtain ⟨-, A, hA, rfl, -, hown⟩ := h.turns.landed hout hfirst
      rcases eq_or_ne d A with rfl | hne
      · rw [view_land_self hout hA hfirst, device_landed_self hA]
        exact h.mirrors d
      · have hother : e.sender ≠ .ios d := by
          rw [hA]
          exact fun heq => hne (Sender.ios.inj heq).symm
        rw [device_landed_of_ne hother]
        exact (h.mirrors d).notify_view hview' (hend d _ hst)
  | _ => exact absurd (ha d) id

theorem MirrorInv.mirrored {s : Account} (h : MirrorInv s) : Mirrored s := by
  intro d hstatus hevents hidle
  have hlistens : (s.device d).status.listens = true := by rw [hstatus]; rfl
  exact ⟨(h.mirrors d).recording_eq hlistens hevents hidle, (h.mirrors d).title hidle.1⟩

/-- Nothing is outstanding, in flight or unhandled, the record is tidy, and the flags are right. -/
structure Steady (s : Account) : Prop where
  outbox : s.outbox = []
  idle : ∀ d, (s.device d).Idle
  events : ∀ d, (s.device d).events = []
  tidy : Tidy s.db
  seen : ∀ d, (s.device d).status.listens = true → s.db.inProgress?.isSome →
    (s.device d).recording = true
  shown : ∀ d, (s.device d).recording = true → s.db.inProgress?.isSome
  title : ∀ d, (s.device d).screen.stopTitle = (s.device d).recording

theorem Steady.mirrorInv {s : Account} (h : Steady s) : MirrorInv s := by
  refine ⟨.of_idle h.idle h.outbox h.tidy, fun d => ?_⟩
  have hview : s.view d = s.db := view_eq_db (by rw [h.outbox]; rfl)
  rw [hview]
  refine ⟨fun hlistens hin => .inl (.inl (h.seen d hlistens hin)), ?_, fun hne => ?_,
    fun _ => h.title d⟩
  · rintro (hrec | ⟨h', hh', -⟩)
    · exact .inl (h.shown d hrec)
    · rw [h.events d] at hh'
      cases hh'
  · exact absurd (h.events d) hne

/-- **The flags mirror the record** in every state of every run in which the devices take turns and
sessions end unseen. -/
theorem mirrored_of_endsUnseen {s t : Account} (h : Steady s) {acts : List Action}
    (hturns : Execution.Along step TakesTurns s acts)
    (hend : Execution.Along step EndsUnseen s acts) (hrun : Execution.run step s acts = some t) :
    Mirrored t := by
  have hinv : MirrorInv t :=
    Execution.run_invariant_along (I := MirrorInv) (G := fun s a => TakesTurns s a ∧ EndsUnseen s a)
      (fun _ _ _ hI hG hst => hI.step hG.1 hG.2 hst) h.mirrorInv
      (Execution.along_and.2 ⟨hturns, hend⟩) hrun
  exact hinv.mirrored

/-! ### A single screen, and two of them -/

/-- The screens of the devices other than `d` are not shown. -/
def OthersClosed (d : ℕ) (s : Account) : Prop := ∀ d', d' ≠ d → s.device d' = .initial .closed

/-- A screen that is not shown stays as it is. -/
theorem OthersClosed.trans {d : ℕ} {s t : Account} {a : Action} (h : OthersClosed d s)
    (ha : OnlyDevice d a) (hst : Trans s a t) : OthersClosed d t := by
  intro d' hne
  by_cases hios : ∃ d₀ e, a = .ios d₀ e
  · obtain ⟨d₀, e, rfl⟩ := hios
    obtain rfl : d₀ = d := ha
    cases hst with
    | ios _ => rw [device_issue_of_ne _ _ _ hne, h d' hne]
  · push Not at hios
    obtain ⟨hs, heq⟩ := hst.device_notify hios d'
    rw [heq, h d' hne]
    rfl

theorem steady_atRest (sisterName : String) (status : Status) :
    Steady (atRest (Hours.created sisterName) status) where
  outbox := rfl
  idle _ := idle_initial status
  events _ := rfl
  tidy := ⟨nofun, 0, rfl, fun k _ => rfl⟩
  seen _ _ hin := by cases hin
  shown _ hrec := by cases hrec
  title _ := rfl

/-- Then the devices take turns if the one device does. -/
theorem takesTurns_of_idle {d : ℕ} {s : Account} {a : Action}
    (h : ∀ d', d' ≠ d → (s.device d').Idle) (ha : TakesTurnsOn d s a) : TakesTurns s a := by
  intro d'
  rcases eq_or_ne d' d with rfl | hne
  · exact ha
  · cases a with
    | ios d₀ e =>
        cases e with
        | tap => exact ⟨h d' hne, ha.2⟩
        | _ => exact ha
    | _ => exact ha

/-- Device `d` checks in, stops soon after, and the session is dismissed; all snapshots are handled
at once. -/
def shortSession (d : ℕ) : List Action :=
  [.ios d .tap, .ios d (.arriveOuter 0), .ios d (.outer 0 0), .ios d .observe, .land 0, .ios d .tap,
    .ios d (.arriveOuter 0), .ios d (.outer 0 60000), .ios d (.arriveInner 0),
    .ios d (.inner 0 60000), .ios d .observe, .land 0]

/-- The same while device `1` shows its screen, too, and handles its snapshots. -/
def watchedSession : List Action :=
  [.ios 0 .tap, .ios 0 (.arriveOuter 0), .ios 0 (.outer 0 0), .ios 0 .observe, .land 0,
    .ios 1 .observe, .ios 0 .tap, .ios 0 (.arriveOuter 0), .ios 0 (.outer 0 60000),
    .ios 0 (.arriveInner 0), .ios 0 (.inner 0 60000), .ios 0 .observe, .land 0, .ios 1 .observe]

/-- A single screen mirrors the record when it handles the snapshots in time. -/
theorem mirrored_shortSession : ∃ t, Execution.run step (atRest (Hours.created "A") .closed)
    ([.ios 0 .launch, .ios 0 .attach, .ios 0 .observe] ++ shortSession 0) = some t ∧
      Mirrored t := by
  have ht := Option.eq_some_of_isSome (show (Execution.run step
    (atRest (Hours.created "A") .closed)
    ([.ios 0 .launch, .ios 0 .attach, .ios 0 .observe] ++ shortSession 0)).isSome by decide)
  have hboth : Execution.Along step (fun s a => TakesTurns s a ∧ EndsUnseen s a)
      (atRest (Hours.created "A") .closed)
      ([.ios 0 .launch, .ios 0 .attach, .ios 0 .observe] ++ shortSession 0) := by
    refine Execution.along_of_invariant (I := OthersClosed 0)
      (G := fun s a => OnlyDevice 0 a ∧ TakesTurnsOn 0 s a ∧ EndsUnseenOn 0 s a)
      (fun _ _ _ hI hG hst => hI.trans hG.1 (trans_of_step hst)) ?_ (fun _ _ => rfl) (by decide)
    rintro s a hI ⟨-, hturns, hend⟩
    refine ⟨takesTurns_of_idle (fun d hne => by rw [hI d hne]; exact idle_initial _) hturns,
      fun d => ?_⟩
    rcases eq_or_ne d 0 with rfl | hne
    · exact hend
    · rintro t - - - (hrec | ⟨h', hh', -⟩)
      · rw [hI d hne] at hrec
        cases hrec
      · rw [hI d hne] at hh'
        cases hh'
  exact ⟨_, ht, mirrored_of_endsUnseen (steady_atRest "A" .closed) (Execution.along_and.1 hboth).1
    (Execution.along_and.1 hboth).2 ht⟩

/-- **A session that another device dismisses leaves the flag on.** -/
theorem not_mirrored : ¬ ∀ (s t : Account) (acts : List Action), Steady s →
    Execution.Along step TakesTurns s acts → Execution.run step s acts = some t → Mirrored t := by
  intro h
  obtain ⟨t, ht, hstatus, hevents, hidle, hrec, hnone⟩ : ∃ t,
      Execution.run step (atRest (Hours.created "A") .observing) watchedSession = some t ∧
        (t.device 1).status = .observing ∧ (t.device 1).events.isEmpty = true ∧
        (t.device 1).Idle ∧ (t.device 1).recording = true ∧ (t.view 1).inProgress? = none :=
    Execution.exists_run (by decide)
  have hturns : Execution.Along step TakesTurns (atRest (Hours.created "A") .observing)
      watchedSession :=
    Execution.along_of_invariant (I := fun s => ∀ d, d ≠ 0 → (s.device d).Idle)
      (G := fun s a => TapsOn 0 a ∧ TakesTurnsOn 0 s a)
      (fun _ _ _ hI hG hst => idle_of_tapsOn hI hG.1 (trans_of_step hst))
      (fun _ _ hI hG => takesTurns_of_idle hI hG.2) (fun _ _ => idle_initial _) (by decide)
  have hflag := (h _ t watchedSession (steady_atRest "A" .observing) hturns ht 1 hstatus
    (List.isEmpty_iff.1 hevents) hidle).1
  rw [hrec, hnone] at hflag
  cases hflag

end StudyHours
