/-
**A check-in in progress on a single device.**

A tap of the record button toggles the flag at once, and the read it issues decides by the flag
whether it starts or stops a session.  Between the two the flag may change: the observer may find a
check-in that the screen did not know of, or the button may be tapped again.  A read that was meant
to stop a session then starts one, and its check-in replaces the one that is stored.  This cannot
happen if the button is tapped for a start only when no session is in progress and nothing is
outstanding, and if the observer does not turn the flag on while a stop waits for its read.

Main definitions:

* `StudyHours.Unhurried` — the condition on taps and on the observer;
* `StudyHours.KeepsCheckIn` — the stored check-in is not changed, and intervals run from it;
* `StudyHours.CheckInInv` — what the condition keeps true of a screen.

Main results:

* `StudyHours.CheckInInv.transition` — the invariant survives every unhurried event;
* `StudyHours.keepsCheckIn_of_unhurried` — **unhurried runs keep the check-in**;
* `StudyHours.not_keepsCheckIn` — a tap right after a relaunch replaces it.
-/

import Mathlib
import StudyHours.SingleDevice

set_option relaxedAutoImplicit false
set_option autoImplicit false

namespace StudyHours

open Account
open RecordViewController (Event Transition showsInProgress)

/-! ### The condition and the property -/

/-- A tap for a start finds no session in progress and nothing outstanding; and no snapshot of a
session in progress is handled while the flag is off and a read of the record is outstanding. -/
def Unhurried (view : Hours) (vc : RecordViewController) : Event → Prop
  | .tap => vc.recording = false → vc.Idle ∧ view.inProgress? = none
  | .observe => vc.recording = false → vc.outer ≠ [] →
      ∀ h ∈ vc.events.head?, showsInProgress h = false
  | _ => True

instance (view : Hours) (vc : RecordViewController) (e : Event) :
    Decidable (Unhurried view vc e) := by
  induction e using Event.casesOn <;> dsimp only [Unhurried] <;> infer_instance

/-- The entry `in` under `numSessions + 1` stays as it is, unless the child is removed. -/
def CheckInStays (s : Account) (a : Action) : Prop :=
  ∀ t, step s a = some t → ∀ n ∈ s.db.numSessions, ∀ τ ∈ s.db.inTime? (n + 1),
    t.db.inTime? (n + 1) = some τ ∨
      ∃ j e, a = .land j ∧ s.outbox[j]? = some e ∧ e.write = .remove (n + 1)

/-- A stop measures the session from the check-in that is stored, as long as one is. -/
def MeasuresFromCheckIn (view : Hours) (vc : RecordViewController) : Event → Prop
  | .inner i _ => ∀ r ∈ vc.inner[i]?, ∀ child ∈ r.arrived,
      ∀ inTime ∈ child.bind SessionNode.inTime?, ∀ τ ∈ view.inTime? (r.numSessions + 1), τ = inTime
  | _ => True

/-- **The check-in is kept**: no tap changes it, and the interval of a stop runs from it. -/
def KeepsCheckIn (d : ℕ) (s : Account) (a : Action) : Prop :=
  CheckInStays s a ∧ AtEvent MeasuresFromCheckIn d s a

/-! ### The invariant -/

/-- A read that will start a session is the only thing outstanding, and nothing is stored yet; and
the reads of a child have found the check-in that is stored. -/
structure CheckInInv (view : Hours) (vc : RecordViewController) : Prop where
  starting : vc.recording = true → vc.outer ≠ [] → vc.inner = [] ∧ vc.dialogs = [] ∧
    view.inProgress? = none ∧ ∃ o, vc.outer = [o] ∧ ∀ h ∈ o, h.numSessions = view.numSessions
  measured : ∀ r ∈ vc.inner, ∀ child ∈ r.arrived, ∀ inTime ∈ child.bind SessionNode.inTime?,
    ∀ τ ∈ view.inTime? (r.numSessions + 1), τ = inTime

namespace CheckInInv

variable {view : Hours} {vc vc' : RecordViewController} {e : Event} {ws : List Write}

theorem of_idle (h : vc.Idle) : CheckInInv view vc where
  starting _ hne := absurd h.1 hne
  measured r hr := by rw [h.2.1] at hr; cases hr

theorem notify (h : CheckInInv view vc) (hs : List Hours) : CheckInInv view (vc.notify hs) := by
  refine ⟨?_, ?_⟩
  · simpa using h.starting
  · simpa using h.measured

/-- A screen on which no start is under way, after writes that are no check-ins. -/
theorem of_stopping (h : CheckInInv view vc) (hws : ∀ w ∈ ws, w.AddsNoIn)
    (hstart : vc'.recording = true → vc'.outer = []) (hinner : ∀ r ∈ vc'.inner, r ∈ vc.inner) :
    CheckInInv (view.applyAll ws) vc' where
  starting hrec hne := absurd (hstart hrec) hne
  measured r hr child hchild inTime hin τ hτ :=
    h.measured r (hinner r hr) child hchild inTime hin τ (Hours.inTime?_of_applyAll hws hτ)

/-- While a start is under way there is no read of a child and no dialog. -/
theorem outer_eq_nil (h : CheckInInv view vc) (hbusy : vc.inner ≠ [] ∨ vc.dialogs ≠ [])
    (hrec : vc.recording = true) : vc.outer = [] := by
  by_contra hne
  obtain ⟨hinner, hdialogs, -⟩ := h.starting hrec hne
  rcases hbusy with hbusy | hbusy
  · exact hbusy hinner
  · exact hbusy hdialogs

/-- A start is the only read of the record. -/
theorem eraseIdx_outer (h : CheckInInv view vc) {i : ℕ} (hi : i < vc.outer.length)
    (hrec : vc.recording = true) : vc.outer.eraseIdx i = [] := by
  obtain ⟨-, -, -, o, ho, -⟩ := h.starting hrec (List.ne_nil_of_length_pos (by omega))
  rw [ho] at hi ⊢
  obtain rfl : i = 0 := by simpa using hi
  rfl

/-- **The invariant survives every unhurried event.** -/
theorem transition (h : CheckInInv view vc) (hG : Unhurried view vc e)
    (htr : Transition view vc e vc' ws) : CheckInInv (view.applyAll ws) vc' := by
  cases htr with
  | launch | observeTrap _ _ | outerTrap _ _ | innerTrap _ _ | yesTrap _ _ =>
      exact of_idle (RecordViewController.idle_initial _)
  | attach _ => exact ⟨h.starting, h.measured⟩
  | @observe snapshot rest vc' hevents hvc' =>
      obtain ⟨screen, -, rfl⟩ := RecordViewController.observe_eq hvc'
      refine ⟨fun hrec hne => ?_, h.measured⟩
      cases hflag : vc.recording with
      | true => exact h.starting hflag hne
      | false =>
          have hshows := hG hflag hne snapshot (by rw [hevents]; rfl)
          simp [hflag, hshows] at hrec
  | tap _ =>
      refine ⟨fun hrec _ => ?_, h.measured⟩
      obtain ⟨⟨houter, hinner, hdialogs⟩, hfree⟩ :=
        hG (by simpa [RecordViewController.startRecording] using hrec)
      exact ⟨hinner, hdialogs, hfree, none, by simp [RecordViewController.startRecording, houter],
        by simp⟩
  | @arriveOuter i hi =>
      refine ⟨fun hrec hne => ?_, h.measured⟩
      have hne' : vc.outer ≠ [] := fun heq => hne (by simp [heq])
      obtain ⟨hinner, hdialogs, hfree, o, ho, -⟩ := h.starting hrec hne'
      refine ⟨hinner, hdialogs, hfree, some view, ?_, fun h hh => by rw [← Option.some.inj hh]; rfl⟩
      rw [ho] at hi ⊢
      obtain ⟨hlt, -⟩ := List.getElem?_eq_some_iff.1 hi
      obtain rfl : i = 0 := by simpa using hlt
      rfl
  | @start i now snapshot n hi _ hrec =>
      -- the read that starts the session was the only thing outstanding
      obtain ⟨hlt, -⟩ := List.getElem?_eq_some_iff.1 hi
      have hempty := h.eraseIdx_outer hlt hrec
      obtain ⟨hinner, -⟩ := h.starting hrec (List.ne_nil_of_length_pos (by omega))
      refine ⟨fun _ hne => absurd hempty hne, fun r hr => ?_⟩
      rw [hinner] at hr
      cases hr
  | stop _ _ hrec =>
      refine ⟨fun hrec' => ?_, fun r hr child hchild => ?_⟩
      · rw [hrec] at hrec'
        cases hrec'
      · rcases List.mem_append.1 hr with hr | hr
        · exact h.measured r hr child hchild
        · obtain rfl := List.mem_singleton.1 hr
          cases hchild
  | cancelOuter hi =>
      exact h.of_stopping (by simp) (h.eraseIdx_outer hi) fun r hr => hr
  | @arriveInner i n t hi =>
      have hne : vc.inner ≠ [] := List.ne_nil_of_mem (List.mem_of_getElem? hi)
      refine ⟨fun hrec hne' => absurd (h.outer_eq_nil (.inl hne) hrec) hne', fun r hr => ?_⟩
      rcases List.mem_or_eq_of_mem_set hr with hr | rfl
      · exact h.measured r hr
      · -- the read finds what is stored
        rintro child hchild inTime hin τ hτ
        cases hchild
        exact Option.some.inj (hτ.symm.trans hin)
  | @confirm i now n inTime t child hi _ _ =>
      have hne : vc.inner ≠ [] := List.ne_nil_of_mem (List.mem_of_getElem? hi)
      exact h.of_stopping (by simp) (h.outer_eq_nil (.inl hne)) fun r => List.mem_of_mem_eraseIdx
  | @tooShort i now n inTime t child hi _ _ =>
      have hne : vc.inner ≠ [] := List.ne_nil_of_mem (List.mem_of_getElem? hi)
      refine h.of_stopping ?_ (h.outer_eq_nil (.inl hne)) fun r => List.mem_of_mem_eraseIdx
      simp [dismissSession, Write.AddsNoIn]
  | @cancelInner i hi =>
      have hne : vc.inner ≠ [] := List.ne_nil_of_length_pos (by omega)
      exact h.of_stopping (by simp) (h.outer_eq_nil (.inl hne)) fun r => List.mem_of_mem_eraseIdx
  | @yes i dlg t hi _ =>
      have hne : vc.dialogs ≠ [] := List.ne_nil_of_mem (List.mem_of_getElem? hi)
      refine h.of_stopping ?_ (h.outer_eq_nil (.inr hne)) fun r hr => hr
      simp [recordSession, Write.AddsNoIn]
  | @no i dlg hi =>
      have hne : vc.dialogs ≠ [] := List.ne_nil_of_mem (List.mem_of_getElem? hi)
      refine h.of_stopping ?_ (h.outer_eq_nil (.inr hne)) fun r hr => hr
      simp [dismissSession, Write.AddsNoIn]

/-- A start writes its check-in where nothing is stored. -/
theorem start_free (h : CheckInInv view vc) (htr : Transition view vc e vc' ws) {k now : ℤ}
    (hmem : Write.checkIn k now ∈ ws) : view.child k = none ∧ ws = [.checkIn k now] := by
  cases htr with
  | @start i now' snapshot n hi hn hrec =>
      obtain ⟨hlt, hget⟩ := List.getElem?_eq_some_iff.1 hi
      obtain ⟨-, -, hfree, o, ho, hnum⟩ :=
        h.starting hrec (List.ne_nil_of_length_pos (by omega))
      have ho' : o = some snapshot := by
        have hmem := List.mem_of_getElem? hi
        rw [ho] at hmem
        exact (List.mem_singleton.1 hmem).symm
      have hview : view.numSessions = some n := by rw [← hnum snapshot (by rw [ho']; rfl), hn]
      rw [Hours.inProgress?_eq hview] at hfree
      obtain ⟨rfl, rfl⟩ : k = n + 1 ∧ now = now' := by simpa using hmem
      exact ⟨hfree, rfl⟩
  | tooShort _ _ _ | no _ => simp [dismissSession] at hmem
  | yes _ _ => simp [recordSession] at hmem
  | _ => cases hmem

end CheckInInv

/-! ### Runs -/

/-- The account has one device, and the check-ins in flight will find their children free. -/
structure CheckInQueue (d : ℕ) (s : Account) : Prop where
  sole : SoleDevice d s
  screen : CheckInInv (s.view d) (s.device d)
  free : ∀ ws₁ k now ws₂, own d s.outbox = ws₁ ++ .checkIn k now :: ws₂ →
    (s.db.applyAll ws₁).child k = none
  ios : ∀ k σ, Write.session k σ ∉ own d s.outbox

/-- One device, with nothing outstanding, on an account that nobody else uses. -/
structure SoleIdle (d : ℕ) (s : Account) : Prop where
  outbox : s.outbox = []
  idle : (s.device d).Idle

namespace CheckInQueue

variable {d : ℕ} {s t : Account} {a : Action}

theorem of_soleIdle (h : SoleIdle d s) : CheckInQueue d s where
  sole e he := by rw [h.outbox] at he; cases he
  screen := CheckInInv.of_idle h.idle
  free ws₁ k now ws₂ hsplit := by simp [h.outbox] at hsplit
  ios k σ hmem := by simp [h.outbox] at hmem

/-- The head of the queue lands. -/
theorem land (h : CheckInQueue d s) {w : Write} (hout : s.outbox = ⟨.ios d, w⟩ :: t.outbox)
    (hdb : t.db = s.db.apply w) (hview : t.view d = s.view d)
    (hdevice : t.device d = s.device d) (hsole : SoleDevice d t) : CheckInQueue d t where
  sole := hsole
  screen := by rw [hview, hdevice]; exact h.screen
  free ws₁ k now ws₂ hsplit := by
    have hown : own d s.outbox = (w :: ws₁) ++ .checkIn k now :: ws₂ := by
      rw [hout, own_cons_self, hsplit, List.cons_append]
    rw [hdb]
    exact h.free _ k now ws₂ hown
  ios k σ hmem := by
    refine h.ios k σ ?_
    rw [hout, own_cons_self]
    exact List.mem_cons_of_mem _ hmem

/-- The device has an event. -/
theorem event (h : CheckInQueue d s) {e : Event} {vc : RecordViewController} {ws : List Write}
    (hG : Unhurried (s.view d) (s.device d) e)
    (htr : Transition (s.view d) (s.device d) e vc ws) (hdb : t.db = s.db)
    (hout : t.outbox = s.outbox ++ sendAll (.ios d) ws)
    (hview : t.view d = (s.view d).applyAll ws)
    (hdevice : t.device d = vc.notify (snapshots (s.view d) ws)) (hsole : SoleDevice d t) :
    CheckInQueue d t where
  sole := hsole
  screen := by
    rw [hview, hdevice]
    exact (h.screen.transition hG htr).notify _
  free ws₁ k now ws₂ hsplit := by
    rw [hout, own_append, own_sendAll_self] at hsplit
    rw [hdb]
    rcases append_eq_append_cons hsplit with ⟨l, hl⟩ | ⟨l, rfl, hl⟩
    · exact h.free ws₁ k now l hl
    · -- the event starts a session: nothing is stored in the view of the device
      have hmem : Write.checkIn k now ∈ ws := by simp [hl]
      obtain ⟨hfree, hws⟩ := h.screen.start_free htr hmem
      rw [hws] at hl
      obtain rfl : l = [] := by
        cases l with
        | nil => rfl
        | cons w l => simp at hl
      rw [List.append_nil]
      exact hfree
  ios k σ hmem := by
    rw [hout, own_append, own_sendAll_self] at hmem
    rcases List.mem_append.1 hmem with hmem | hmem
    · exact h.ios k σ hmem
    · rcases RecordViewController.writes_of_transition htr with rfl | ⟨n, now, rfl⟩ | ⟨n, rfl⟩ |
        ⟨i, dlg, q, -, -, -, rfl⟩
      · cases hmem
      · simp at hmem
      · simp [dismissSession] at hmem
      · simp [recordSession] at hmem

theorem trans (h : CheckInQueue d s) (ha : OnDevice d a) (hG : AtEvent Unhurried d s a)
    (hst : Trans s a t) : CheckInQueue d t := by
  obtain ⟨hsole, hcases⟩ := h.sole.cases ha hst
  cases hcases with
  | land hout hdb hview hdevice => exact h.land hout hdb hview hdevice hsole
  | event htr hdb hout hview hdevice => exact h.event (hG rfl) htr hdb hout hview hdevice hsole

/-- In such a state the next action keeps the check-in. -/
theorem keepsCheckIn (h : CheckInQueue d s) (ha : OnDevice d a) : KeepsCheckIn d s a := by
  refine ⟨fun t ht n hn τ hτ => ?_, ?_⟩
  · obtain ⟨-, hcases⟩ := h.sole.cases ha (trans_of_step ht)
    cases hcases with
    | @land w hout hdb _ _ =>
        rw [hdb]
        by_cases hw : w = .remove (n + 1)
        · exact .inr ⟨0, ⟨.ios d, w⟩, rfl, by simp [hout], hw⟩
        · left
          have hown : own d s.outbox = w :: own d t.outbox := by rw [hout, own_cons_self]
          cases w with
          | checkIn k now =>
              -- the check-in goes to a child that does not exist
              have hfree : s.db.child k = none := h.free [] k now _ hown
              have hne : k ≠ n + 1 := by
                rintro rfl
                simp [Hours.inTime?, hfree] at hτ
              rw [Hours.inTime?, Hours.child_apply_of_ne s.db (by simpa [Write.key?] using hne)]
              exact hτ
          | session k σ => exact absurd (by rw [hown]; exact List.mem_cons_self) (h.ios k σ)
          | checkOut _ _ | remove _ | numSessions _ | totalHours _ _ =>
              exact Hours.inTime?_apply (by trivial) hw hτ
    | event _ hdb _ _ _ => exact .inl (hdb ▸ hτ)
  · cases a with
    | ios d' e =>
        intro _
        cases e with
        | inner i now =>
            intro r hr
            exact h.screen.measured r (List.mem_of_getElem? hr)
        | _ => trivial
    | _ => trivial

end CheckInQueue

/-- **A check-in in progress survives on a single device** in every unhurried run, whatever the
order in which the reads are delivered. -/
theorem keepsCheckIn_of_unhurried {d : ℕ} {s : Account} (h : SoleIdle d s) (acts : List Action)
    (hd : ∀ a ∈ acts, OnDevice d a) (hG : Execution.Along step (AtEvent Unhurried d) s acts) :
    Execution.Along step (KeepsCheckIn d) s acts :=
  Execution.along_of_invariant
    (G := fun s a => OnDevice d a ∧ AtEvent Unhurried d s a)
    (fun _ _ _ hI hG hst => hI.trans hG.1 hG.2 (trans_of_step hst))
    (fun _ _ hI hG => hI.keepsCheckIn hG.1) (CheckInQueue.of_soleIdle h)
    (Execution.along_and.2 ⟨Execution.along_of_forall s hd, hG⟩)

/-- A check-in at `0` on a fresh screen; then the screen is loaded again, and the first snapshot is
handled before the button is tapped for the stop. -/
def relaunchAndStop : List Action :=
  [.ios 0 .launch, .ios 0 .attach, .ios 0 .observe, .ios 0 .tap, .ios 0 (.arriveOuter 0),
    .ios 0 (.outer 0 0), .land 0, .ios 0 .launch, .ios 0 .attach, .ios 0 .observe, .ios 0 .tap,
    .ios 0 (.arriveOuter 0), .ios 0 (.outer 0 3600000), .ios 0 (.arriveInner 0),
    .ios 0 (.inner 0 3600000)]

/-- The same, but the button is tapped before the first snapshot is there. -/
def relaunchAndTap : List Action :=
  [.ios 0 .launch, .ios 0 .attach, .ios 0 .observe, .ios 0 .tap, .ios 0 (.arriveOuter 0),
    .ios 0 (.outer 0 0), .land 0, .ios 0 .launch, .ios 0 .tap, .ios 0 .attach,
    .ios 0 (.arriveOuter 0), .ios 0 .observe, .ios 0 (.outer 0 3600000)]

theorem soleIdle_atRest (d : ℕ) (h : Hours) (status : Status) : SoleIdle d (atRest h status) :=
  ⟨rfl, RecordViewController.idle_initial status⟩

/-- A relaunch does no harm when the first snapshot is waited for. -/
theorem keepsCheckIn_relaunchAndStop :
    Execution.Along step (KeepsCheckIn 0) (atRest (Hours.created "A") .closed) relaunchAndStop :=
  keepsCheckIn_of_unhurried (soleIdle_atRest 0 _ _) relaunchAndStop (by decide) (by decide)

/-- **A tap right after a relaunch replaces the check-in**: the observer has not told the screen of
the session in progress yet, and the tap starts another one. -/
theorem not_keepsCheckIn : ¬ ∀ (d : ℕ) (s : Account) (acts : List Action), SoleIdle d s →
    (∀ a ∈ acts, OnDevice d a) → Execution.Along step (KeepsCheckIn d) s acts := by
  intro h
  obtain ⟨t, ht, hn, hin, hout, hnew⟩ : ∃ t,
      Execution.run step (atRest (Hours.created "A") .closed) relaunchAndTap = some t ∧
        t.db.numSessions = some 0 ∧ t.db.inTime? 1 = some 0 ∧
        t.outbox = [⟨.ios 0, .checkIn 1 3600000⟩] ∧
        ((step t (.land 0)).map fun u => u.db.inTime? 1) = some (some 3600000) :=
    Execution.exists_run (by decide)
  obtain ⟨u, hu, hu'⟩ := Option.map_eq_some_iff.1 hnew
  have hall := h 0 (atRest (Hours.created "A") .closed) (relaunchAndTap ++ [.land 0])
    (soleIdle_atRest 0 _ _) (by decide)
  have hlast := ((Execution.along_snoc ht (.land 0)).1 hall).2.1
  rcases hlast u hu 0 hn 0 hin with hkept | ⟨j, e, hj, he, hremove⟩
  · rw [zero_add, hu'] at hkept
    exact absurd hkept (by decide)
  · cases hj
    rw [hout] at he
    cases he
    cases hremove

end StudyHours
