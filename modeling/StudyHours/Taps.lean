/-
**Orders of taps that end the app.**

The read that a tap issues decides by the flag, at the time it is delivered, whether it starts or
stops a session.  A stop unwraps the entry `in` of the child under `numSessions + 1`, so a stop that
finds no session in progress ends the app.  A start never does any harm of this kind.  Here it is
shown that it is enough to be careful with the taps that stop: nothing may be outstanding and a
check-in must be there.  Cancelled reads, the observer and starts at any time are all free.

Main definitions:

* `StudyHours.StopsInProgress` — the condition on the taps that stop;
* `StudyHours.MeetsValues` — no forced unwrap meets a missing value;
* `StudyHours.TapInv` — what the condition keeps true of a screen.

Main results:

* `StudyHours.TapInv.transition` — the invariant survives every such event;
* `StudyHours.meetsValues_of_stopsInProgress` — **careful stops never end the app**;
* `StudyHours.not_meetsValues` — two taps in a row do.
-/

import Mathlib
import StudyHours.CheckIn
import StudyHours.Counter

set_option relaxedAutoImplicit false
set_option autoImplicit false

namespace StudyHours

open Account
open RecordViewController (Event Transition mem_captured)

/-! ### The condition and the property -/

/-- A tap for a stop finds nothing outstanding and a check-in in progress. -/
def StopsInProgress (view : Hours) (vc : RecordViewController) : Event → Prop
  | .tap => vc.recording = true → vc.Idle ∧ view.checkIn?.isSome
  | _ => True

instance (view : Hours) (vc : RecordViewController) (e : Event) :
    Decidable (StopsInProgress view vc e) := by
  induction e using Event.casesOn <;> dsimp only [StopsInProgress] <;> infer_instance

/-- The callback of a read that stops a session runs only when a check-in is there. -/
def StopFindsCheckIn (view : Hours) (vc : RecordViewController) : Event → Prop
  | .outer i _ => vc.outer[i]?.join.isSome → vc.recording = false → view.checkIn?.isSome
  | _ => True

/-- **Every forced unwrap meets a value**: the action does not end the app of device `d`, and a stop
finds a check-in. -/
def MeetsValues (d : ℕ) (s : Account) (a : Action) : Prop :=
  (∀ t, step s a = some t → (t.device d).status ≠ .crashed) ∧ AtEvent StopFindsCheckIn d s a

/-! ### The invariant -/

/-- What is known of a screen that has been stopped with care. -/
structure TapInv (view : Hours) (vc : RecordViewController) : Prop where
  alive : vc.status ≠ .crashed
  numSessions : view.numSessions.isSome
  totalHours : view.totalHours.isSome
  captured : ∀ x ∈ vc.captured, x.1.isSome ∧ x.2.isSome
  events : ∀ h ∈ vc.events, h.numSessions.isSome
  /-- A read that will stop the session is the only thing outstanding. -/
  stopping : vc.recording = false → vc.outer ≠ [] → vc.inner = [] ∧ vc.dialogs = [] ∧
    view.checkIn?.isSome ∧ ∃ o, vc.outer = [o] ∧ ∀ h ∈ o, h.numSessions = view.numSessions
  /-- A read of a child is the only one, and the child is there. -/
  reading : vc.inner ≠ [] → vc.dialogs = [] ∧ ∃ r, vc.inner = [r] ∧
    view.numSessions = some r.numSessions ∧ (view.inTime? (r.numSessions + 1)).isSome ∧
      ∀ child ∈ r.arrived, (child.bind SessionNode.inTime?).isSome

/-- The snapshots a device sees while it issues writes have the counter. -/
theorem isSome_of_mem_snapshots {h : Hours} (hn : h.numSessions.isSome) (ht : h.totalHours.isSome)
    {ws : List Write} {h' : Hours} (hmem : h' ∈ snapshots h ws) : h'.numSessions.isSome := by
  induction ws generalizing h with
  | nil => cases hmem
  | cons w ws ih =>
      obtain ⟨hn', ht'⟩ := Hours.isSome_apply hn ht w
      rcases List.mem_cons.1 hmem with rfl | hmem
      · exact hn'
      · exact ih hn' ht' hmem

namespace TapInv

variable {view : Hours} {vc vc' : RecordViewController} {e : Event} {ws : List Write}

theorem of_idle (h : vc.Idle) (halive : vc.status ≠ .crashed) (hn : view.numSessions.isSome)
    (ht : view.totalHours.isSome) (hevents : ∀ h ∈ vc.events, h.numSessions.isSome) :
    TapInv view vc where
  alive := halive
  numSessions := hn
  totalHours := ht
  captured x hx := by rw [RecordViewController.captured_of_idle h] at hx; cases hx
  events := hevents
  stopping _ hne := absurd h.1 hne
  reading hne := absurd h.2.1 hne

/-- The snapshots of the device's own writes reach its observer. -/
theorem notify (h : TapInv view vc) {hs : List Hours} (hhs : ∀ h ∈ hs, h.numSessions.isSome) :
    TapInv view (vc.notify hs) where
  alive := by simpa using h.alive
  numSessions := h.numSessions
  totalHours := h.totalHours
  captured := by simpa using h.captured
  events h' hh' :=
    (RecordViewController.mem_events_notify _ _ hh').elim (h.events h') (hhs h')
  stopping := by simpa using h.stopping
  reading := by simpa using h.reading

/-- While a child is read or a dialog is open, no stop waits for its read of the record. -/
theorem outer_eq_nil (h : TapInv view vc) (hbusy : vc.inner ≠ [] ∨ vc.dialogs ≠ [])
    (hrec : vc.recording = false) : vc.outer = [] := by
  by_contra hne
  obtain ⟨hinner, hdialogs, -⟩ := h.stopping hrec hne
  rcases hbusy with hbusy | hbusy
  · exact hbusy hinner
  · exact hbusy hdialogs

/-- The read of a child that is outstanding. -/
theorem inner_eq (h : TapInv view vc) {i : ℕ} {r : InnerRead} (hi : vc.inner[i]? = some r) :
    i = 0 ∧ vc.inner = [r] := by
  obtain ⟨hlt, hget⟩ := List.getElem?_eq_some_iff.1 hi
  obtain ⟨-, r', hr', -⟩ := h.reading (List.ne_nil_of_length_pos (by omega))
  have hlen : vc.inner.length = 1 := by rw [hr']; rfl
  obtain rfl : i = 0 := by omega
  simp only [hr', List.getElem_cons_zero] at hget
  exact ⟨rfl, hget ▸ hr'⟩

/-- Everything but the reads outstanding, after an event that does not end the app. -/
theorem rebuild (h : TapInv view vc) (htr : Transition view vc e vc' ws)
    (halive : vc'.status ≠ .crashed)
    (hstopping : vc'.recording = false → vc'.outer ≠ [] → vc'.inner = [] ∧ vc'.dialogs = [] ∧
      (view.applyAll ws).checkIn?.isSome ∧
      ∃ o, vc'.outer = [o] ∧ ∀ h ∈ o, h.numSessions = (view.applyAll ws).numSessions)
    (hreading : vc'.inner ≠ [] → vc'.dialogs = [] ∧ ∃ r, vc'.inner = [r] ∧
      (view.applyAll ws).numSessions = some r.numSessions ∧
      ((view.applyAll ws).inTime? (r.numSessions + 1)).isSome ∧
      ∀ child ∈ r.arrived, (child.bind SessionNode.inTime?).isSome) :
    TapInv (view.applyAll ws) vc' where
  alive := halive
  numSessions := (Hours.isSome_applyAll h.numSessions h.totalHours ws).1
  totalHours := (Hours.isSome_applyAll h.numSessions h.totalHours ws).2
  captured x hx := by
    rcases RecordViewController.captured_of_transition htr x hx with hx | ⟨-, rfl⟩
    · exact h.captured x hx
    · exact ⟨h.numSessions, h.totalHours⟩
  events x hx := by
    rcases RecordViewController.events_of_transition htr x hx with hx | ⟨-, rfl⟩
    · exact h.events x hx
    · exact h.numSessions
  stopping := hstopping
  reading := hreading

/-- An event of a dialog: no read is outstanding that would find the child gone. -/
theorem dialog (h : TapInv view vc) (htr : Transition view vc e vc' ws) (hne : vc.dialogs ≠ [])
    (hfields : vc' = { vc with dialogs := vc'.dialogs }) : TapInv (view.applyAll ws) vc' := by
  have hinner : vc.inner = [] := by
    by_contra hinner
    exact hne (h.reading hinner).1
  rw [hfields] at htr ⊢
  exact h.rebuild htr h.alive
    (fun hrec hout => absurd (h.outer_eq_nil (.inr hne) hrec) hout) fun hne' => absurd hinner hne'

/-- **The invariant survives every event** in which a stop finds its check-in. -/
theorem transition (h : TapInv view vc) (hG : StopsInProgress view vc e)
    (htr : Transition view vc e vc' ws) : TapInv (view.applyAll ws) vc' := by
  have htr' := htr
  cases htr with
  | launch =>
      refine of_idle (RecordViewController.idle_initial _) ?_ h.numSessions h.totalHours ?_
      · simp [RecordViewController.initial]
      · intro h' hh'
        cases hh'
  | attach _ =>
      exact h.rebuild htr' (by simp) h.stopping h.reading
  | @observe snapshot rest vc' hevents hvc' =>
      obtain ⟨screen, -, rfl⟩ := RecordViewController.observe_eq hvc'
      refine h.rebuild htr' (by simp) (fun hrec hne => ?_) h.reading
      exact h.stopping (Bool.or_eq_false_iff.1 hrec).1 hne
  | observeTrap hevents hn =>
      have := h.events _ (by rw [hevents]; exact List.mem_cons_self)
      rw [hn] at this
      cases this
  | tap _ =>
      refine h.rebuild htr' h.alive (fun hrec _ => ?_) h.reading
      obtain ⟨⟨houter, hinner, hdialogs⟩, hin⟩ :=
        hG (by simpa [RecordViewController.startRecording] using hrec)
      exact ⟨hinner, hdialogs, hin, none, by simp [RecordViewController.startRecording, houter],
        by simp⟩
  | @arriveOuter i hi =>
      refine h.rebuild htr' h.alive (fun hrec hne => ?_) h.reading
      obtain ⟨hinner, hdialogs, hin, o, ho, -⟩ := h.stopping hrec fun heq => hne (by simp [heq])
      refine ⟨hinner, hdialogs, hin, some view, ?_, fun h hh => by rw [← Option.some.inj hh]; rfl⟩
      rw [ho] at hi ⊢
      obtain ⟨hlt, -⟩ := List.getElem?_eq_some_iff.1 hi
      obtain rfl : i = 0 := by simpa using hlt
      rfl
  | start _ _ hrec =>
      refine h.rebuild htr' h.alive (fun hrec' => ?_) fun hne => ?_
      · rw [hrec] at hrec'
        cases hrec'
      · -- the check-in may replace the one being read, but it takes none away
        obtain ⟨hdialogs, r, hr, hview, hin, harrived⟩ := h.reading hne
        exact ⟨hdialogs, r, hr, hview, Hours.isSome_inTime?_checkIn hin _ _, harrived⟩
  | @stop i now snapshot n hi hn hrec =>
      have hne : vc.outer ≠ [] := List.ne_nil_of_mem (List.mem_of_getElem? hi)
      obtain ⟨hinner, hdialogs, hin, o, ho, hnum⟩ := h.stopping hrec hne
      obtain ⟨rfl, rfl⟩ : i = 0 ∧ o = some snapshot := by
        rw [ho] at hi
        obtain ⟨hlt, hget⟩ := List.getElem?_eq_some_iff.1 hi
        obtain rfl : i = 0 := by simpa using hlt
        exact ⟨rfl, hget⟩
      have hview : view.numSessions = some n := by rw [← hnum snapshot rfl, hn]
      refine h.rebuild htr' h.alive (fun _ hne' => absurd (by simp [ho]) hne') fun _ => ?_
      refine ⟨hdialogs, ⟨n, snapshot.totalHours, none⟩, by rw [hinner]; rfl, hview, ?_,
        fun child hchild => by cases hchild⟩
      rwa [Hours.checkIn?, hview, Option.bind_some] at hin
  | outerTrap hi hn =>
      have := (h.captured _ (mem_captured.2 (.inl ⟨_, List.mem_of_getElem? hi, rfl⟩))).1
      rw [hn] at this
      cases this
  | @cancelOuter i hi =>
      refine h.rebuild htr' h.alive (fun hrec hne => absurd ?_ hne) h.reading
      obtain ⟨-, -, -, o, ho, -⟩ := h.stopping hrec (List.ne_nil_of_length_pos (by omega))
      rw [ho] at hi ⊢
      obtain rfl : i = 0 := by simpa using hi
      rfl
  | @arriveInner i n t hi =>
      obtain ⟨rfl, hinner⟩ := h.inner_eq hi
      have hne : vc.inner ≠ [] := by simp [hinner]
      obtain ⟨hdialogs, r, hr, hview, hin, -⟩ := h.reading hne
      obtain rfl : r = ⟨n, t, none⟩ := by
        rw [hinner] at hr
        exact (List.cons.inj hr).1.symm
      refine h.rebuild htr' h.alive
        (fun hrec hne' => absurd (h.outer_eq_nil (.inl hne) hrec) hne') fun _ => ?_
      refine ⟨hdialogs, ⟨n, t, some (view.child (n + 1))⟩, by rw [hinner]; rfl, hview, hin, ?_⟩
      rintro child hchild
      cases hchild
      exact hin
  | @confirm i now n inTime t child hi _ _ | @tooShort i now n inTime t child hi _ _ =>
      obtain ⟨rfl, hinner⟩ := h.inner_eq hi
      have hne : vc.inner ≠ [] := by simp [hinner]
      exact h.rebuild htr' h.alive
        (fun hrec hne' => absurd (h.outer_eq_nil (.inl hne) hrec) hne')
        fun hne' => absurd (by simp [hinner]) hne'
  | @innerTrap i now n t child hi hin =>
      -- the read has found the check-in
      obtain ⟨rfl, hinner⟩ := h.inner_eq hi
      obtain ⟨-, r, hr, -, -, harrived⟩ := h.reading (by simp [hinner])
      obtain rfl : r = ⟨n, t, some child⟩ := by
        rw [hinner] at hr
        exact (List.cons.inj hr).1.symm
      have := harrived child rfl
      rw [hin] at this
      cases this
  | @cancelInner i hi =>
      have hne : vc.inner ≠ [] := List.ne_nil_of_length_pos (by omega)
      obtain ⟨-, r, hr, -⟩ := h.reading hne
      obtain rfl : i = 0 := by rw [hr] at hi; simpa using hi
      exact h.rebuild htr' h.alive
        (fun hrec hne' => absurd (h.outer_eq_nil (.inl hne) hrec) hne')
        fun hne' => absurd (by simp [hr]) hne'
  | yes hi _ => exact h.dialog htr' (List.ne_nil_of_mem (List.mem_of_getElem? hi)) rfl
  | yesTrap hi ht =>
      have hmem := List.mem_of_getElem? hi
      have := (h.captured _ (mem_captured.2 (.inr (.inr ⟨_, hmem, rfl⟩)))).2
      rw [ht] at this
      cases this
  | no hi => exact h.dialog htr' (List.ne_nil_of_mem (List.mem_of_getElem? hi)) rfl

/-- A stop that waits for its read finds a check-in. -/
theorem stopFindsCheckIn (h : TapInv view vc) (e : Event) : StopFindsCheckIn view vc e := by
  cases e with
  | outer i now =>
      intro hi hrec
      have hne : vc.outer ≠ [] := by
        rintro heq
        simp [heq] at hi
      exact (h.stopping hrec hne).2.2.1
  | _ => trivial

end TapInv

/-! ### Runs -/

/-- A device, alone on a completely created account, whose observer has handled its first snapshot
and which has nothing outstanding. -/
structure ScreenReady (d : ℕ) (s : Account) : Prop extends SoleIdle d s where
  status : (s.device d).status = .observing
  events : (s.device d).events = []
  numSessions : s.db.numSessions.isSome
  totalHours : s.db.totalHours.isSome

/-- The account has one device, and its screen is sound. -/
def TapState (d : ℕ) (s : Account) : Prop := SoleDevice d s ∧ TapInv (s.view d) (s.device d)

theorem TapState.of_screenReady {d : ℕ} {s : Account} (h : ScreenReady d s) : TapState d s := by
  have hview : s.view d = s.db := view_eq_db (by rw [h.outbox]; rfl)
  have hsole : SoleDevice d s := by
    intro e he
    rw [h.outbox] at he
    cases he
  refine ⟨hsole, ?_⟩
  rw [hview]
  refine TapInv.of_idle h.idle ?_ h.numSessions h.totalHours fun h' hh' => ?_
  · rw [h.status]
    exact nofun
  · rw [h.events] at hh'
    cases hh'

theorem TapState.trans {d : ℕ} {s t : Account} {a : Action} (h : TapState d s) (ha : OnDevice d a)
    (hG : AtEvent StopsInProgress d s a) (hst : Trans s a t) : TapState d t := by
  obtain ⟨hsole, hcases⟩ := h.1.cases ha hst
  refine ⟨hsole, ?_⟩
  cases hcases with
  | land _ _ hview hdevice =>
      rw [hview, hdevice]
      exact h.2
  | event htr _ _ hview hdevice =>
      rw [hview, hdevice]
      exact (h.2.transition (hG rfl) htr).notify fun h' hh' =>
        isSome_of_mem_snapshots h.2.numSessions h.2.totalHours hh'

/-- **No order of events ends the app** in which every tap for a stop finds nothing outstanding and
a check-in in progress. -/
theorem meetsValues_of_stopsInProgress {d : ℕ} {s : Account} (h : ScreenReady d s)
    (acts : List Action) (hd : ∀ a ∈ acts, OnDevice d a)
    (hG : Execution.Along step (AtEvent StopsInProgress d) s acts) :
    Execution.Along step (MeetsValues d) s acts := by
  refine Execution.along_of_invariant (I := TapState d)
    (G := fun s a => OnDevice d a ∧ AtEvent StopsInProgress d s a)
    (fun _ _ _ hI hG hst => hI.trans hG.1 hG.2 (trans_of_step hst)) ?_ (TapState.of_screenReady h)
    (Execution.along_and.2 ⟨Execution.along_of_forall s hd, hG⟩)
  intro s a hI hG
  refine ⟨fun t ht => (hI.trans hG.1 hG.2 (trans_of_step ht)).2.alive, ?_⟩
  cases a with
  | ios d' e => exact fun _ => hI.2.stopFindsCheckIn e
  | _ => trivial

theorem screenReady_atRest (d : ℕ) (sisterName : String) :
    ScreenReady d (atRest (Hours.created sisterName) .observing) :=
  { outbox := rfl
    idle := RecordViewController.idle_initial _
    status := rfl
    events := rfl
    numSessions := rfl
    totalHours := rfl }

/-- A start, a stop whose read is cancelled, the start that the next tap is then taken for, and a
stop that is confirmed. -/
def carefulTaps : List Action :=
  [.ios 0 .tap, .ios 0 (.arriveOuter 0), .ios 0 (.outer 0 0), .ios 0 .observe, .land 0, .ios 0 .tap,
    .ios 0 (.cancelOuter 0), .ios 0 .tap, .ios 0 (.arriveOuter 0), .ios 0 (.outer 0 5), .ios 0 .tap,
    .ios 0 (.arriveOuter 0), .ios 0 (.outer 0 1800006), .ios 0 (.arriveInner 0),
    .ios 0 (.inner 0 1800006), .ios 0 (.yes 0)]

theorem meetsValues_carefulTaps : Execution.Along step (MeetsValues 0)
    (atRest (Hours.created "A") .observing) carefulTaps :=
  meetsValues_of_stopsInProgress (screenReady_atRest 0 "A") carefulTaps (by decide) (by decide)

/-- The button is tapped twice before the read of the first tap is delivered. -/
def doubleTap : List Action :=
  [.ios 0 .tap, .ios 0 .tap, .ios 0 (.arriveOuter 0), .ios 0 (.outer 0 0), .ios 0 (.arriveInner 0)]

/-- **Two taps in a row end the app**: the read of the first one finds the flag off, takes the
branch of a stop and unwraps the entry `in` of a child that does not exist. -/
theorem not_meetsValues : ¬ ∀ (d : ℕ) (s : Account) (acts : List Action), ScreenReady d s →
    (∀ a ∈ acts, OnDevice d a) → Execution.Along step (MeetsValues d) s acts := by
  intro h
  obtain ⟨t, ht, hcrashed⟩ : ∃ t,
      Execution.run step (atRest (Hours.created "A") .observing) doubleTap = some t ∧
        ((step t (.ios 0 (.inner 0 0))).map fun u => (u.device 0).status) = some .crashed :=
    Execution.exists_run (by decide)
  obtain ⟨u, hu, hcrash⟩ := Option.map_eq_some_iff.1 hcrashed
  have hall := h 0 (atRest (Hours.created "A") .observing) (doubleTap ++ [.ios 0 (.inner 0 0)])
    (screenReady_atRest 0 "A") (by decide)
  exact ((Execution.along_snoc ht _).1 hall).2.1 u hu hcrash

end StudyHours
