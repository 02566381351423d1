/-
**Sessions, as the users see them.**

The ledger is kept in runs in which the clients are used one after another, a condition on the
states that the clients are in.  Here the sessions are told by what is done.  A tap of the record
button starts a session, or stops the one that has been started on the device; on Android the toggle
does.  A session is over when it has been stopped, its callbacks have been run, its dialog or popup
has been answered and its writes have landed; then, and not before, the next one is started.  A
device that is tapped has been launched, and has processed its first snapshot, after the last
session anywhere else.

What the app makes of a tap is decided by the flag of the screen, which a relaunch forgets and which
snapshots set again.  That a tap which starts a session is taken for a start, that one which stops
it is taken for a stop, and that no session which has been declined or was too short leaves a
check-in behind, is what has to be proved.

Main definitions:

* `StudyHours.Course`, `StudyHours.Course.next` — which session has been started, and what the
  devices have seen since the last session anywhere else;
* `StudyHours.Concluded` — every session that has been started is over;
* `StudyHours.InOrder` — the condition on the actions;
* `StudyHours.Progress` — how far the session on a device has come;
* `StudyHours.SessionInv` — what holds in every state of such a run.

Main results:

* `StudyHours.Progress.event` — what a tap has begun is carried through;
* `StudyHours.SessionInv.rests` — **when every session is over, none is in progress**;
* `StudyHours.SessionInv.step` — every action in order preserves the invariant;
* `StudyHours.represents_of_inOrder` — **after every session the record represents the ledger** of
  the sessions that have been confirmed;
* `StudyHours.inTurn_of_inOrder` — sessions in order are used one after another.
-/

import Mathlib
import StudyHours.Mirror
import StudyHours.SharedLedger
import StudyHours.Taps
import StudyHours.Tree

set_option relaxedAutoImplicit false
set_option autoImplicit false

namespace StudyHours

open Account
open RecordViewController (Event Transition showsInProgress showsInProgress_eq observe_eq)

/-! ### The course of the sessions -/

/-- What a device has seen since the last session anywhere else: nothing that counts, it has been
launched, or it has processed its first snapshot as well. -/
inductive Sight
  | stale
  | launched
  | seen
deriving DecidableEq

/-- What has been done so far. -/
structure Course where
  /-- The device on which a session has been started and not stopped. -/
  started : Option ℕ
  sight : ℕ → Sight

namespace Course

/-- No session has been started, and no device has been launched. -/
def initial : Course := ⟨none, fun _ => .stale⟩

/-- The course after an action.  A launch counts until something is done in a session of another
client. -/
def next (k : Course) (s : Account) (a : Action) : Course where
  started :=
    match a with
    | .ios d .tap => if k.started = some d then none else some d
    | _ => k.started
  sight d :=
    match a with
    | .ios d' .launch => if d' = d then .launched else k.sight d
    | .ios _ .attach => k.sight d
    | .ios d' .observe => if d' = d ∧ k.sight d = .launched then .seen else k.sight d
    | a => if actor s a = some (.ios d) then k.sight d else .stale

section Next

variable (k : Course) (s : Account) {d d' : ℕ} {e : Event} {a : Action}

@[simp] theorem started_tap : (k.next s (.ios d .tap)).started =
    if k.started = some d then none else some d := rfl

theorem started_of_ne_tap (h : ∀ d, a ≠ .ios d .tap) : (k.next s a).started = k.started := by
  cases a with
  | ios d e =>
      cases e with
      | tap => exact absurd rfl (h d)
      | _ => rfl
  | _ => rfl

@[simp] theorem sight_launch : (k.next s (.ios d .launch)).sight d = .launched := if_pos rfl

@[simp] theorem sight_observe : (k.next s (.ios d .observe)).sight d =
    if k.sight d = .launched then .seen else k.sight d := by
  simp [next]

/-- A device goes on seeing what it sees. -/
theorem sight_self (hlaunch : e ≠ .launch) (hk : k.sight d ≠ .launched) :
    (k.next s (.ios d e)).sight d = k.sight d := by
  cases e with
  | launch => exact absurd rfl hlaunch
  | observe => rw [sight_observe, if_neg hk]
  | attach => rfl
  | _ => exact if_pos rfl

theorem sight_of_ne (hne : d' ≠ d) : (k.next s (.ios d' e)).sight d = k.sight d ∨
    (k.next s (.ios d' e)).sight d = .stale := by
  cases e with
  | attach => exact .inl rfl
  | launch => exact .inl (if_neg hne)
  | observe => exact .inl (if_neg fun h => hne h.1)
  | _ => exact .inr (if_neg fun h => hne (App.ios.inj (Option.some.inj h)))

theorem sight_of_not_ios (h : ∀ d' e, a ≠ .ios d' e) : (k.next s a).sight d =
    if actor s a = some (.ios d) then k.sight d else .stale := by
  cases a with
  | ios d' e => exact absurd rfl (h d' e)
  | _ => rfl

end Next

/-- One action, with the course. -/
def step : Course × Account → Action → Option (Course × Account) :=
  Execution.withHistory Account.step next

end Course

/-- Every session is over, as far as device `d` and client `c` have to do with it: it has been
stopped, its callbacks have been run, its dialog or popup has been answered, its transactions have
ended and its writes have landed. -/
def ConcludedOn (d c : ℕ) (k : Course) (s : Account) : Prop :=
  k.started = none ∧ (s.device d).Idle ∧ s.outbox = [] ∧ (s.fragment c).AtRest ∧
    ∀ sub ∈ s.submissions, sub.Over

instance (d c : ℕ) (k : Course) (s : Account) : Decidable (ConcludedOn d c k s) := by
  unfold ConcludedOn
  infer_instance

/-- **Every session that has been started is over.** -/
def Concluded (k : Course) (s : Account) : Prop := ∀ d c, ConcludedOn d c k s

/-- A tap is made when the device has seen the record and its callbacks have been run, those of the
observer included; it stops the session of the device, or starts one when every session is over.  A
toggle does the same on Android.  A screen is loaded again only when its callbacks have been run, no
read fails, and a handler is run on nothing or on the value of the record. -/
def InOrderOn (d c : ℕ) (x : Course × Account) : Action → Prop
  | .ios d' .tap => x.1.sight d' = .seen ∧ (x.2.device d').events.isEmpty = true ∧
      (x.1.started = some d' ∧ (x.2.device d').Idle ∨ ConcludedOn d c x.1 x.2)
  | .ios d' .launch => (x.2.device d').Idle
  | .ios _ (.cancelOuter _) | .ios _ (.cancelInner _) => False
  | .toggle c' _ _ => (x.2.fragment c').isChecked = true ∨ ConcludedOn d c x.1 x.2
  | .runHours _ v => v = none ∨ v = x.2.db.totalHours
  | .runSessions _ v => v = none ∨ v = x.2.db.numSessions
  | _ => True

instance (d c : ℕ) (x : Course × Account) (a : Action) : Decidable (InOrderOn d c x a) := by
  induction a using Action.casesOn with
  | ios d e => induction e using Event.casesOn <;> dsimp only [InOrderOn] <;> infer_instance
  | _ => dsimp only [InOrderOn]; infer_instance

/-- **The sessions are in order**: each of them is over before the next one is started. -/
def InOrder (x : Course × Account) (a : Action) : Prop := ∀ d c, InOrderOn d c x a

namespace Concluded

variable {k : Course} {s : Account}

theorem stopped (h : Concluded k s) : k.started = none := (h 0 0).1

theorem idle (h : Concluded k s) (d : ℕ) : (s.device d).Idle := (h d 0).2.1

theorem outbox (h : Concluded k s) : s.outbox = [] := (h 0 0).2.2.1

theorem android (h : Concluded k s) : AndroidIdle s :=
  ⟨fun c => (h 0 c).2.2.2.1, (h 0 0).2.2.2.2⟩

end Concluded

/-- What a tap does, and when it is made. -/
theorem InOrder.of_tap {k : Course} {s : Account} {d : ℕ} (h : InOrder (k, s) (.ios d .tap)) :
    k.sight d = .seen ∧ (s.device d).events = [] ∧
      (k.started = some d ∧ (s.device d).Idle ∨ Concluded k s) := by
  refine ⟨(h 0 0).1, List.isEmpty_iff.1 (h 0 0).2.1, ?_⟩
  by_cases hstop : k.started = some d ∧ (s.device d).Idle
  · exact .inl hstop
  · exact .inr fun d' c => (h d' c).2.2.resolve_left hstop

/-- A toggle that is turned on. -/
theorem InOrder.of_toggle {k : Course} {s : Account} {c : ℕ} {elapsedRealtime now : ℤ}
    (h : InOrder (k, s) (.toggle c elapsedRealtime now)) (hc : (s.fragment c).isChecked = false) :
    Concluded k s :=
  fun d c' => (h d c').resolve_left (by rw [hc]; exact Bool.false_ne_true)

/-! ### The session on a device -/

/-- Nothing waits for the observer of the screen. -/
structure RecordViewController.Attentive (vc : RecordViewController) : Prop where
  status : vc.status = .observing
  events : vc.events = []

/-- How far the session on device `A` has come: there is none, its start is being handled, it is in
progress, or its stop is being handled.  The view of the device has a session in progress from the
check-in on until the session is recorded or dismissed. -/
inductive Progress (started : Option ℕ) (A : ℕ) (view : Hours) (vc : RecordViewController) : Prop
  | rest (hstarted : started = none) (hidle : vc.Idle) (hnone : view.inProgress? = none)
  | starting (hstarted : started = some A) (houter : vc.outer ≠ []) (hrec : vc.recording = true)
      (hvc : vc.Attentive) (hnone : view.inProgress? = none)
  | running (hstarted : started = some A) (hidle : vc.Idle) (hsome : view.inProgress?.isSome)
  | stopping (hstarted : started = none) (hbusy : ¬ vc.Idle) (hrec : vc.recording = false)
      (hvc : vc.Attentive) (hsome : view.inProgress?.isSome)

/-- The flag of an idle screen, and the snapshots that wait for its observer, tell whether the view
has a session in progress. -/
structure Faithful (view : Hours) (vc : RecordViewController) : Prop where
  status : vc.status = .observing
  events : ∀ h ∈ vc.events, h.numSessions.isSome ∧
    showsInProgress h = view.inProgress?.isSome
  recording : vc.Idle → vc.recording = view.inProgress?.isSome

section Device

variable {view : Hours} {vc vc' : RecordViewController} {e : Event} {ws : List Write}
  {started : Option ℕ} {A : ℕ} {L : Ledger} {τ : ℤ} {next : Option SessionNode}

/-- The screen is given its own writes. -/
theorem Faithful.of_writes (hcanonical : view.Canonical) (hn : view.numSessions.isSome)
    (ht : view.totalHours.isSome) (hvc : vc.Attentive)
    (hws : ∀ h ∈ snapshots view ws, h.inProgress?.isSome = (view.applyAll ws).inProgress?.isSome)
    (hrec : vc.Idle → vc.recording = (view.applyAll ws).inProgress?.isSome) :
    Faithful (view.applyAll ws) (vc.notify (snapshots view ws)) where
  status := by rw [RecordViewController.status_notify, hvc.status]
  events h hh := by
    rcases RecordViewController.mem_events_notify _ _ hh with hh | hh
    · rw [hvc.events] at hh
      cases hh
    · rw [showsInProgress_eq (canonical_of_mem_snapshots hcanonical hh)]
      exact ⟨isSome_of_mem_snapshots hn ht hh, hws h hh⟩
  recording hidle := by
    rw [RecordViewController.recording_notify]
    exact hrec ((RecordViewController.idle_notify _ _).1 hidle)

/-- A record that represents a ledger is tidy. -/
theorem Represents.tidy (hr : Represents view L next) : Tidy view :=
  ⟨hr.children.canonical, L.count, hr.numSessions, fun k hk => hr.children.others k (.inr hk)⟩

/-- The session that is in progress has a check-in. -/
theorem Started.inTime? (hs : Started L τ next) (hsome : next.isSome) :
    (next.bind SessionNode.inTime?).isSome := by
  obtain rfl | ⟨t, rfl⟩ := hs.forget
  · cases hsome
  · rfl

namespace Progress

/-- Nothing is being handled on the screen. -/
theorem of_idle (hp : Progress started A view vc) (hidle : vc.Idle) (hidle' : vc'.Idle) :
    Progress started A view vc' := by
  cases hp with
  | rest hstarted _ hnone => exact .rest hstarted hidle' hnone
  | running hstarted _ hsome => exact .running hstarted hidle' hsome
  | starting _ houter _ _ _ => exact absurd hidle.1 houter
  | stopping _ hbusy _ _ _ => exact absurd hidle hbusy

/-- The tap is still being handled. -/
theorem keep (hp : Progress started A view vc) (hbusy : ¬ vc.Idle) (hbusy' : ¬ vc'.Idle)
    (hrec : vc'.recording = vc.recording) (hstatus : vc'.status = vc.status)
    (hevents : vc'.events = vc.events) (houter : vc.outer ≠ [] → vc.recording = true →
      vc'.outer ≠ []) :
    Progress started A (view.applyAll []) (vc'.notify (snapshots view [])) ∧
      Faithful (view.applyAll []) (vc'.notify (snapshots view [])) := by
  rw [Hours.applyAll_nil, snapshots, RecordViewController.notify_nil]
  have hvc' : vc.Attentive → vc'.Attentive := fun hvc =>
    ⟨hstatus.trans hvc.status, hevents.trans hvc.events⟩
  have hfaithful : vc.Attentive → Faithful view vc' := fun hvc =>
    ⟨(hvc' hvc).status, by rw [(hvc' hvc).events]; exact List.forall_mem_nil _,
      fun hidle => absurd hidle hbusy'⟩
  cases hp with
  | rest _ hidle _ | running _ hidle _ => exact absurd hidle hbusy
  | starting hstarted hne hflag hvc hnone =>
      exact ⟨.starting hstarted (houter hne hflag) (hrec.trans hflag) (hvc' hvc) hnone,
        hfaithful hvc⟩
  | stopping hstarted _ hflag hvc hsome =>
      exact ⟨.stopping hstarted hbusy' (hrec.trans hflag) (hvc' hvc) hsome, hfaithful hvc⟩

/-- The stop has been handled: the session is recorded or dismissed. -/
theorem stop (hp : Progress started A view vc) (hbusy : ¬ vc.Idle) (houter : vc.outer = [])
    (hr : Represents view L next) (hidle : vc'.Idle) (hrec : vc'.recording = vc.recording)
    (hstatus : vc'.status = vc.status) (hevents : vc'.events = vc.events) (hne : ws ≠ [])
    (hnone : ∀ h ∈ snapshots view ws, h.inProgress? = none) :
    Progress started A (view.applyAll ws) (vc'.notify (snapshots view ws)) ∧
      Faithful (view.applyAll ws) (vc'.notify (snapshots view ws)) := by
  have hlast := hnone _ (applyAll_mem_snapshots hne)
  cases hp with
  | rest _ hidle _ | running _ hidle _ => exact absurd hidle hbusy
  | starting _ hne _ _ _ => exact absurd houter hne
  | stopping hstarted _ hflag hvc _ =>
      refine ⟨.rest hstarted ((RecordViewController.idle_notify _ _).2 hidle) hlast,
        .of_writes hr.children.canonical (by simp [hr.numSessions]) (by simp [hr.totalHours])
          ⟨hstatus.trans hvc.status, hevents.trans hvc.events⟩ (fun h hh => ?_) fun _ => ?_⟩
      · rw [hnone h hh, hlast]
      · rw [hrec, hflag, hlast]
        rfl

/-- The start has been handled: the check-in is written. -/
theorem start (hp : Progress started A view vc) (hbusy : ¬ vc.Idle) (hflag : vc.recording = true)
    (hr : Represents view L next) (hs : Started L τ next) {now : ℤ} (hidle : vc'.Idle)
    (hrec : vc'.recording = vc.recording) (hstatus : vc'.status = vc.status)
    (hevents : vc'.events = vc.events) :
    Progress started A (view.applyAll [.checkIn (L.count + 1) now])
        (vc'.notify (snapshots view [.checkIn (L.count + 1) now])) ∧
      Faithful (view.applyAll [.checkIn (L.count + 1) now])
        (vc'.notify (snapshots view [.checkIn (L.count + 1) now])) := by
  have hlast : (view.applyAll [.checkIn (L.count + 1) now]).inProgress? = some (.inOnly now) :=
    (hr.checkIn now hs.forget).inProgress?
  cases hp with
  | rest _ hidle _ | running _ hidle _ => exact absurd hidle hbusy
  | stopping _ _ hoff _ _ =>
      rw [hflag] at hoff
      cases hoff
  | starting hstarted _ _ hvc _ =>
      have hidle' := (RecordViewController.idle_notify vc' (snapshots view
        [.checkIn (L.count + 1) now])).2 hidle
      refine ⟨.running hstarted hidle' (by rw [hlast]; rfl),
        .of_writes hr.children.canonical (by simp [hr.numSessions]) (by simp [hr.totalHours])
          ⟨hstatus.trans hvc.status, hevents.trans hvc.events⟩ (fun h hh => ?_) fun _ => ?_⟩
      · obtain rfl := List.mem_singleton.1 hh
        rfl
      · rw [hrec, hflag, hlast]
        rfl

/-- **What a tap has begun is carried through**: whatever comes next on a screen that is handling a
tap, a start leaves a session in progress, a stop leaves none, and the flag tells which. -/
theorem event (hp : Progress started A view vc) (hbusy : ¬ vc.Idle) (hpending : Pending view vc)
    (hr : Represents view L next) (hs : Started L τ next) (htap : e ≠ .tap) (hlaunch : e ≠ .launch)
    (hcancel : ∀ i, e ≠ .cancelOuter i ∧ e ≠ .cancelInner i) (htr : Transition view vc e vc' ws) :
    Progress started A (view.applyAll ws) (vc'.notify (snapshots view ws)) ∧
      Faithful (view.applyAll ws) (vc'.notify (snapshots view ws)) := by
  have hvc : vc.Attentive := by
    cases hp with
    | rest _ hidle _ | running _ hidle _ => exact absurd hidle hbusy
    | starting _ _ _ hvc _ | stopping _ _ _ hvc _ => exact hvc
  have hcount : ∀ {n}, view.numSessions = some n → L.count = n := fun hn =>
    Option.some.inj (hr.numSessions.symm.trans hn)
  cases htr with
  | launch => exact absurd rfl hlaunch
  | tap _ => exact absurd rfl htap
  | cancelOuter _ => exact absurd rfl (hcancel _).1
  | cancelInner _ => exact absurd rfl (hcancel _).2
  | attach hstatus =>
      rw [hvc.status] at hstatus
      cases hstatus
  | observe hevents _ | observeTrap hevents _ =>
      rw [hvc.events] at hevents
      cases hevents
  | arriveOuter hi =>
      have hne : vc.outer ≠ [] := List.ne_nil_of_mem (List.mem_of_getElem? hi)
      refine hp.keep hbusy (fun hidle => hne (by simpa using hidle.1)) rfl rfl rfl fun _ _ => ?_
      simpa using hne
  | @start i now snapshot n hi hn hflag =>
      obtain ⟨rfl, houter, hinner, hdialogs, hview⟩ := hpending.of_outer hi
      obtain rfl := hview snapshot rfl
      obtain rfl := hcount hn
      exact hp.start hbusy hflag hr hs ⟨by simp [houter], hinner, hdialogs⟩ rfl rfl rfl
  | stop _ _ hflag =>
      refine hp.keep hbusy (fun hidle => by simpa using hidle.2.1) rfl rfl rfl fun _ hon => ?_
      rw [hflag] at hon
      cases hon
  | @outerTrap i now snapshot hi hn =>
      obtain ⟨-, -, -, -, hview⟩ := hpending.of_outer hi
      rw [hview snapshot rfl, hr.numSessions] at hn
      cases hn
  | arriveInner hi =>
      have hne : vc.inner ≠ [] := List.ne_nil_of_mem (List.mem_of_getElem? hi)
      obtain ⟨-, houter, -, -, -⟩ := hpending.of_inner hi
      exact hp.keep hbusy (fun hidle => hne (by simpa using hidle.2.1)) rfl rfl rfl
        fun hnonempty => absurd houter hnonempty
  | confirm hi _ _ =>
      obtain ⟨-, houter, -, -, -⟩ := hpending.of_inner hi
      exact hp.keep hbusy (fun hidle => by simpa using hidle.2.2) rfl rfl rfl
        fun hnonempty => absurd houter hnonempty
  | @tooShort i now n inTime t child hi _ _ =>
      obtain ⟨rfl, houter, hinner, hdialogs, hread⟩ := hpending.of_inner hi
      exact hp.stop hbusy houter hr ⟨houter, by simp [hinner], hdialogs⟩ rfl rfl rfl
        (List.cons_ne_nil _ _) (inProgress?_dismiss hread.numSessions)
  | @innerTrap i now n t child hi hin =>
      -- the stop has found the session in progress
      obtain ⟨-, houter, -, -, hread⟩ := hpending.of_inner hi
      obtain rfl := hcount hread.numSessions
      rw [hread.arrived child rfl, hr.children.next] at hin
      cases hp with
      | rest _ hidle _ | running _ hidle _ => exact absurd hidle hbusy
      | starting _ hne _ _ _ => exact absurd houter hne
      | stopping _ _ _ _ hsome =>
          rw [hr.inProgress?] at hsome
          have hcheckIn := hs.inTime? hsome
          rw [hin] at hcheckIn
          cases hcheckIn
  | @yes i dlg q hi hq =>
      obtain ⟨rfl, houter, hinner, hdialogs, hdlg⟩ := hpending.of_dialog hi
      exact hp.stop hbusy houter hr ⟨houter, hinner, by simp [hdialogs]⟩ rfl rfl rfl
        (List.cons_ne_nil _ _) (inProgress?_record hr.tidy hdlg.numSessions _ _ _)
  | yesTrap hi hq =>
      obtain ⟨-, -, -, -, hdlg⟩ := hpending.of_dialog hi
      rw [hdlg.totalHours, hr.totalHours] at hq
      cases hq
  | @no i dlg hi =>
      obtain ⟨rfl, houter, hinner, hdialogs, hdlg⟩ := hpending.of_dialog hi
      exact hp.stop hbusy houter hr ⟨houter, hinner, by simp [hdialogs]⟩ rfl rfl rfl
        (List.cons_ne_nil _ _) (inProgress?_dismiss hdlg.numSessions)

end Progress

end Device

/-! ### The invariant -/

/-- What a device has seen is what it shows. -/
def Sight.Agrees (view : Hours) (vc : RecordViewController) : Sight → Prop
  | .stale => True
  | .launched => vc.Idle ∧ vc.recording = false ∧
      (vc.status = .registered ∧ vc.events = [] ∨ vc.status = .attached ∧ vc.events = [view])
  | .seen => Faithful view vc

/-- It is the turn of an iOS device, whose session has come so far, or an Android client is in a
session. -/
inductive SessionStage (started : Option ℕ) (L : Ledger) (τ : ℤ) (s : Account) : Prop
  | ios {A : ℕ} (h : IosTurn L τ s A) (hp : Progress started A (s.view A) (s.device A))
  | android (h : AndroidStage L τ s) (hstarted : started = none)

/-- The record is on its way to represent the ledger, and the screens show how far it has come. -/
structure SessionInv (L : Ledger) (τ : ℤ) (x : Course × Account) : Prop where
  submissions : SubmissionsInv x.2
  popups : PopupInv x.2
  canonical : x.2.db.Canonical
  sights : ∀ d, (x.1.sight d).Agrees (x.2.view d) (x.2.device d)
  stage : SessionStage x.1.started L τ x.2

section Sights

variable {view : Hours} {vc vc' : RecordViewController} {e : Event} {ws : List Write} {g : Sight}

/-- Nothing happens on an idle screen that has to do with a tap. -/
theorem not_idle_of_transition (htr : Transition view vc e vc' ws) (htap : e ≠ .tap)
    (hlaunch : e ≠ .launch) (hattach : e ≠ .attach) (hobserve : e ≠ .observe) : ¬ vc.Idle := by
  rintro ⟨houter, hinner, hdialogs⟩
  cases htr with
  | launch => exact hlaunch rfl
  | attach _ => exact hattach rfl
  | observe _ _ | observeTrap _ _ => exact hobserve rfl
  | tap _ => exact htap rfl
  | arriveOuter hi | start hi _ _ | stop hi _ _ | outerTrap hi _ => simp [houter] at hi
  | cancelOuter hi => simp [houter] at hi
  | arriveInner hi | confirm hi _ _ | tooShort hi _ _ | innerTrap hi _ => simp [hinner] at hi
  | cancelInner hi => simp [hinner] at hi
  | yes hi _ | yesTrap hi _ | no hi => simp [hdialogs] at hi

/-- The first snapshot arrives. -/
theorem Sight.Agrees.attach (h : g.Agrees view vc) (htr : Transition view vc .attach vc' ws) :
    g.Agrees view vc' := by
  cases htr with
  | attach hstatus =>
      cases g with
      | stale => trivial
      | launched => exact ⟨h.1, h.2.1, .inr ⟨rfl, rfl⟩⟩
      | seen =>
          rw [h.status] at hstatus
          cases hstatus

/-- **A launched screen that has processed its first snapshot** shows what the view has, and a
screen that shows it goes on to. -/
theorem Sight.Agrees.observe (h : g.Agrees view vc) (hcanonical : view.Canonical)
    (hn : view.numSessions.isSome) (htr : Transition view vc .observe vc' ws) :
    (if g = .launched then Sight.seen else g).Agrees view vc' := by
  cases g with
  | stale => trivial
  | launched =>
      obtain ⟨-, hrec, ⟨-, hevents⟩ | ⟨-, hevents⟩⟩ := h
      · cases htr with
        | observe hevents' _ | observeTrap hevents' _ =>
            rw [hevents] at hevents'
            cases hevents'
      · cases htr with
        | observe hevents' hvc' =>
            obtain ⟨screen, -, rfl⟩ := observe_eq hvc'
            rw [hevents] at hevents'
            obtain ⟨rfl, rfl⟩ := List.cons.inj hevents'
            refine ⟨rfl, List.forall_mem_nil _, fun _ => ?_⟩
            rw [hrec, Bool.false_or, showsInProgress_eq hcanonical]
        | observeTrap hevents' hnone =>
            rw [hevents] at hevents'
            obtain ⟨rfl, -⟩ := List.cons.inj hevents'
            rw [hnone] at hn
            cases hn
  | seen =>
      cases htr with
      | @observe snapshot rest vc' hevents hvc' =>
          obtain ⟨screen, -, rfl⟩ := observe_eq hvc'
          have hmem := h.events
          rw [hevents, List.forall_mem_cons] at hmem
          refine ⟨rfl, hmem.2, fun hidle => ?_⟩
          rw [hmem.1.2, h.recording hidle, Bool.or_self]
      | @observeTrap snapshot rest hevents hnone =>
          have hmem := h.events
          rw [hevents, List.forall_mem_cons, hnone] at hmem
          cases hmem.1.1

end Sights

namespace SessionInv

variable {k : Course} {L : Ledger} {τ : ℤ} {s t : Account} {a : Action}

theorem mono {x : Course × Account} (h : SessionInv L τ x) {τ' : ℤ} (hle : τ ≤ τ') :
    SessionInv L τ' x where
  submissions := h.submissions
  popups := h.popups
  canonical := h.canonical
  sights := h.sights
  stage := by
    cases h.stage with
    | ios hturn hp => exact .ios (hturn.mono hle) hp
    | android hstage hstarted => exact .android (hstage.mono hle) hstarted

theorem numSessions (h : SessionInv L τ (k, s)) (d : ℕ) : (s.view d).numSessions.isSome :=
  (Hours.isSome_applyAll h.submissions.numSessions h.submissions.totalHours _).1

/-- **When every session is over, none is in progress**, and the record represents the ledger. -/
theorem rests (h : SessionInv L τ (k, s)) (hfin : Concluded k s) : Rests L τ s := by
  cases h.stage with
  | @ios A hturn hp =>
      cases hp with
      | rest _ _ hnone =>
          rw [view_eq_db (by rw [hfin.outbox]; rfl)] at hnone
          exact hturn.rests hfin.idle hfin.outbox hnone
      | starting hstarted _ _ _ _ | running hstarted _ _ =>
          rw [hfin.stopped] at hstarted
          cases hstarted
      | stopping _ hbusy _ _ _ => exact absurd (hfin.idle A) hbusy
  | android hstage _ => exact hstage.rests hfin.android hfin.outbox

/-- The session that is stopped is the one in progress. -/
theorem iosTurn_of_started (h : SessionInv L τ (k, s)) {d : ℕ} (hstarted : k.started = some d)
    (hidle : (s.device d).Idle) : IosTurn L τ s d ∧ (s.view d).inProgress?.isSome := by
  cases h.stage with
  | @ios A hturn hp =>
      cases hp with
      | rest hnone _ _ | stopping hnone _ _ _ _ =>
          rw [hstarted] at hnone
          cases hnone
      | starting hA houter _ _ _ =>
          obtain rfl := Option.some.inj (hstarted.symm.trans hA)
          exact absurd hidle.1 houter
      | running hA _ hsome =>
          obtain rfl := Option.some.inj (hstarted.symm.trans hA)
          exact ⟨hturn, hsome⟩
  | android _ hnone =>
      rw [hstarted] at hnone
      cases hnone

/-- **Sessions in order are used one after another.** -/
theorem inTurn (h : SessionInv L τ (k, s)) (ha : InOrder (k, s) a) : InTurn s a := by
  intro d c
  cases a with
  | ios d' e =>
      cases e with
      | tap =>
          obtain ⟨-, -, ⟨hstarted, hidle⟩ | hfin⟩ := ha.of_tap
          · obtain ⟨hturn, -⟩ := h.iosTurn_of_started hstarted hidle
            refine ⟨?_, hturn.sender, hturn.android.fragments c, hturn.android.submissions⟩
            rcases eq_or_ne d d' with rfl | hne
            · exact hidle
            · exact hturn.others d hne
          · exact ⟨hfin.idle d, by simp [hfin.outbox], hfin.android.fragments c,
              hfin.android.submissions⟩
      | _ => trivial
  | toggle c' elapsedRealtime now =>
      cases hchecked : (s.fragment c').isChecked with
      | true => exact .inl hchecked
      | false =>
          have hrests := h.rests (ha.of_toggle hchecked)
          exact .inr ⟨hrests.idle d, hrests.outbox, hrests.android.fragments c,
            hrests.android.submissions, hrests.record.inProgress?⟩
  | runHours i v | runSessions i v => exact ha d c
  | _ => trivial

/-- What a tap has begun on device `d` is carried through. -/
theorem event (h : SessionInv L τ (k, s)) {d : ℕ} {e : Event} (ha : InOrder (k, s) (.ios d e))
    {vc : RecordViewController} {ws : List Write} (htap : e ≠ .tap)
    (hbusy : ¬ (s.device d).Idle) (htr : Transition (s.view d) (s.device d) e vc ws) :
    IosTurn L τ s d ∧
      Progress k.started d ((s.issue d vc ws).view d) ((s.issue d vc ws).device d) ∧
      Faithful ((s.issue d vc ws).view d) ((s.issue d vc ws).device d) := by
  rw [view_issue_self, device_issue_self]
  cases h.stage with
  | @ios A hturn hp =>
      obtain rfl : d = A := by
        by_contra hne
        exact hbusy (hturn.others d hne)
      obtain ⟨next, hr, hs⟩ := hturn.record
      have hlaunch : e ≠ .launch := by
        rintro rfl
        exact hbusy (ha d 0)
      have hcancel : ∀ i, e ≠ .cancelOuter i ∧ e ≠ .cancelInner i :=
        fun i => ⟨by rintro rfl; exact ha d 0, by rintro rfl; exact ha d 0⟩
      exact ⟨hturn, hp.event hbusy (hturn.turn.resolve_left hbusy) hr hs htap hlaunch hcancel htr⟩
  | android hstage _ => exact absurd (hstage.idle d) hbusy

/-- What a device has seen is what it shows, after an event of its own. -/
theorem sight_trans (h : SessionInv L τ (k, s)) {d : ℕ} {e : Event} (ha : InOrder (k, s) (.ios d e))
    {vc : RecordViewController} {ws : List Write}
    (htr : Transition (s.view d) (s.device d) e vc ws) :
    ((k.next s (.ios d e)).sight d).Agrees ((s.issue d vc ws).view d)
      ((s.issue d vc ws).device d) := by
  have hsight : (k.sight d).Agrees (s.view d) (s.device d) := h.sights d
  -- an event that issues nothing
  have hquiet : ∀ {g : Sight}, ws = [] → g.Agrees (s.view d) vc →
      g.Agrees ((s.issue d vc ws).view d) ((s.issue d vc ws).device d) := by
    rintro g rfl hg
    rwa [view_issue_nil, device_issue_self, snapshots, RecordViewController.notify_nil]
  by_cases htap : e = .tap
  · subst htap
    obtain ⟨hseen, hevents, -⟩ := ha.of_tap
    rw [k.sight_self s (e := .tap) (by simp) (by simp [hseen]), hseen]
    rw [hseen] at hsight
    cases htr with
    | tap _ =>
        refine hquiet rfl ⟨hsight.status, ?_, fun hidle => ?_⟩
        · change ∀ h ∈ (s.device d).events, _
          rw [hevents]
          exact List.forall_mem_nil _
        · simp [RecordViewController.startRecording, RecordViewController.Idle] at hidle
  by_cases hidle : (s.device d).Idle
  · obtain ⟨-, hws⟩ := idle_of_transition hidle htap htr
    refine hquiet hws ?_
    cases e with
    | launch =>
        cases htr with
        | launch =>
            rw [Course.sight_launch]
            exact ⟨RecordViewController.idle_initial _, rfl, .inl ⟨rfl, rfl⟩⟩
    | attach => exact hsight.attach htr
    | observe =>
        rw [Course.sight_observe]
        exact hsight.observe (h.canonical.applyAll _) (h.numSessions d) htr
    | tap => exact absurd rfl htap
    | _ => exact absurd hidle (not_idle_of_transition htr (by simp) (by simp) (by simp) (by simp))
  · have hlaunch : e ≠ .launch := by
      rintro rfl
      exact hidle (ha d 0)
    have hk : k.sight d ≠ .launched := by
      intro hk
      rw [hk] at hsight
      exact hidle hsight.1
    rw [k.sight_self s hlaunch hk]
    cases hseen : k.sight d with
    | stale => trivial
    | launched => exact absurd hseen hk
    | seen => exact (h.event ha htap hidle htr).2.2

/-- **What the devices have seen is what they show**, after every action. -/
theorem sights_trans (h : SessionInv L τ (k, s)) (ha : InOrder (k, s) a) (hst : Trans s a t)
    (d : ℕ) : ((k.next s a).sight d).Agrees (t.view d) (t.device d) := by
  have hsight : (k.sight d).Agrees (s.view d) (s.device d) := h.sights d
  rcases hst.kinds with ⟨d', e, vc, ws, rfl, htr, rfl⟩ | ⟨l₁, e, l₂, rfl, hout, hfirst, rfl⟩ |
    ⟨hios, hland, hframe⟩
  · rcases eq_or_ne d' d with rfl | hne
    · exact h.sight_trans ha htr
    · -- the device is told of the writes of another one when they land
      rw [view_issue_of_ne s hne.symm, device_issue_of_ne _ _ _ hne.symm]
      rcases k.sight_of_ne s (e := e) hne with hsame | hstale
      · rwa [hsame]
      · rw [hstale]
        trivial
  · have hactor : actor s (.land l₁.length) = some e.sender.app := by simp [actor, hout]
    rw [k.sight_of_not_ios s (a := .land l₁.length) (by simp), hactor]
    split_ifs with hsender
    · have he : e.sender = .ios d := by
        cases hs : e.sender with
        | ios d' => simpa [hs, Sender.app] using hsender
        | android c i => simp [hs, Sender.app] at hsender
      rwa [view_land_self hout he hfirst, device_landed_self he]
    · trivial
  · have hactor : actor s a ≠ some (.ios d) := by
      cases a with
      | ios d' e => exact absurd rfl (hios d' e)
      | land j => exact absurd rfl (hland j)
      | _ => simp [actor]
    rw [k.sight_of_not_ios s hios, if_neg hactor]
    trivial

/-- **A tap** starts a session or stops the one in progress, as it is meant to. -/
theorem stage_of_tap (h : SessionInv L τ (k, s)) {d : ℕ} (ha : InOrder (k, s) (.ios d .tap)) :
    SessionStage (k.next s (.ios d .tap)).started L τ
      (s.issue d (s.device d).startRecording []) := by
  have hsight : (k.sight d).Agrees (s.view d) (s.device d) := h.sights d
  obtain ⟨hseen, hevents, hcases⟩ := ha.of_tap
  rw [hseen] at hsight
  have hvc : (s.device d).startRecording.Attentive := ⟨hsight.status, hevents⟩
  have houter : (s.device d).startRecording.outer ≠ [] := by
    simp [RecordViewController.startRecording]
  rw [Course.started_tap]
  rcases hcases with ⟨hstarted, hidle⟩ | hfin
  · -- the flag is on: the tap stops the session in progress
    obtain ⟨hturn, hsome⟩ := h.iosTurn_of_started hstarted hidle
    have hflag : (s.device d).recording = true := by rw [hsight.recording hidle, hsome]
    rw [if_pos hstarted]
    refine .ios (hturn.tap hidle) (.stopping rfl ?_ ?_ ?_ ?_)
    · rw [device_issue_self, snapshots, RecordViewController.notify_nil]
      exact fun hidle' => houter hidle'.1
    · simp [RecordViewController.startRecording, hflag]
    · rwa [device_issue_self, snapshots, RecordViewController.notify_nil]
    · rwa [view_issue_nil]
  · -- the flag is off: the tap starts a session
    have hrests := h.rests hfin
    have hview : (s.view d).inProgress? = none := by
      rw [view_eq_db (by rw [hfin.outbox]; rfl)]
      exact hrests.record.inProgress?
    have hflag : (s.device d).recording = false := by
      rw [hsight.recording (hfin.idle d), hview]
      rfl
    rw [if_neg (by rw [hfin.stopped]; simp)]
    refine .ios ((hrests.iosTurn d).tap (hfin.idle d)) (.starting rfl ?_ ?_ ?_ ?_)
    · rwa [device_issue_self, snapshots, RecordViewController.notify_nil]
    · simp [RecordViewController.startRecording, hflag]
    · rwa [device_issue_self, snapshots, RecordViewController.notify_nil]
    · rwa [view_issue_nil]

/-- The ledger grows by what an action records, while it is the turn of a device or nobody's. -/
theorem stage_of_iosTurn {A : ℕ} (h : SessionInv L τ (k, s)) (hturn : IosTurn L τ s A)
    (hp : Progress k.started A (s.view A) (s.device A)) (ha : InOrder (k, s) a)
    (hst : Trans s a t) (hclock : ∀ x ∈ a.time?, x = τ) :
    ∃ L' : Ledger, L'.recordings = L.recordings ++ recorded s a ∧
      SessionStage (k.next s a).started L' τ t := by
  cases hturn.android.idleTrans hst with
  | @ios d e vc ws htr =>
      by_cases htap : e = .tap
      · subst htap
        cases htr with
        | tap _ => exact ⟨L, (List.append_nil _).symm, h.stage_of_tap ha⟩
      rw [k.started_of_ne_tap s (a := .ios d e) (by simp [htap])]
      by_cases hidle : (s.device d).Idle
      · obtain ⟨hvc, rfl⟩ := idle_of_transition hidle htap htr
        refine ⟨L, by rw [recorded_of_idle hidle, List.append_nil], .ios (hturn.quiet hvc) ?_⟩
        rw [view_issue_nil]
        rcases eq_or_ne A d with rfl | hne
        · rw [device_issue_self, snapshots, RecordViewController.notify_nil]
          exact hp.of_idle hidle hvc
        · rwa [device_issue_of_ne _ _ _ hne]
      · obtain ⟨hturn, hp, -⟩ := h.event ha htap hidle htr
        obtain ⟨L', hL', hturn'⟩ := hturn.active (hturn.turn.resolve_left hidle) htap htr hclock
        exact ⟨L', hL', .ios hturn' hp⟩
  | @land l₁ l₂ e hout hfirst =>
      have he : e.sender = .ios A := hturn.sender e (by simp [hout])
      refine ⟨L, (List.append_nil _).symm, .ios (hturn.land hout hfirst) ?_⟩
      rw [view_land_self hout he hfirst, device_landed_self he]
      exact hp
  | @toggle c elapsedRealtime now f hf =>
      have hfin := ha.of_toggle (hturn.android.fragments c).1
      obtain rfl : now = τ := hclock now rfl
      exact ⟨L, (List.append_nil _).symm,
        .android (.running ((h.rests hfin).toggle (h.popups.inherited c) hf)) hfin.stopped⟩

/-- **The ledger grows by what an action records.** -/
theorem stage_trans (h : SessionInv L τ (k, s)) (ha : InOrder (k, s) a) (hst : Trans s a t)
    (hclock : ∀ x ∈ a.time?, x = τ) (hcount : L.count < 2 ^ 31 - 1) :
    ∃ L' : Ledger, L'.recordings = L.recordings ++ recorded s a ∧
      SessionStage (k.next s a).started L' τ t := by
  cases h.stage with
  | ios hturn hp => exact h.stage_of_iosTurn hturn hp ha hst hclock
  | android hstage hstarted =>
      -- when the session on Android is over, it is nobody's turn
      have hrest : Rests L τ s → ∃ L' : Ledger, L'.recordings = L.recordings ++ recorded s a ∧
          SessionStage (k.next s a).started L' τ t := fun hrests => by
        refine h.stage_of_iosTurn (hrests.iosTurn 0) (.rest hstarted (hrests.idle 0) ?_) ha hst
          hclock
        rw [view_eq_db (by rw [hrests.outbox]; rfl)]
        exact hrests.record.inProgress?
      rcases hstage.trans hst h.submissions (h.inTurn ha) hclock hcount with hrests |
        ⟨L', hL', hstage'⟩
      · exact hrest hrests
      by_cases htap : ∃ d, a = .ios d .tap
      · obtain ⟨d, rfl⟩ := htap
        obtain ⟨-, -, ⟨hd, -⟩ | hfin⟩ := ha.of_tap
        · rw [hstarted] at hd
          cases hd
        · exact hrest (h.rests hfin)
      · push Not at htap
        exact ⟨L', hL', .android hstage' ((k.started_of_ne_tap s htap).trans hstarted)⟩

/-- **Every action in order preserves the invariant**, and records the next session. -/
theorem step {x y : Course × Account} (h : SessionInv L τ x) (ha : InOrder x a)
    (hst : Course.step x a = some y) (hclock : ∀ now ∈ a.time?, now = τ)
    (hcount : L.count < 2 ^ 31 - 1) :
    ∃ L' : Ledger, L'.recordings = L.recordings ++ recorded x.2 a ∧ SessionInv L' τ y := by
  obtain ⟨k, s⟩ := x
  obtain ⟨k', t⟩ := y
  obtain ⟨ht, rfl⟩ := Execution.withHistory_eq_some.1 hst
  have htrans : Trans s a t := trans_of_step ht
  obtain ⟨L', hL', hstage⟩ := h.stage_trans ha htrans hclock hcount
  exact ⟨L', hL', h.submissions.trans htrans, h.popups.trans htrans, htrans.canonical h.canonical,
    h.sights_trans ha htrans, hstage⟩

end SessionInv

/-! ### Runs -/

section Runs

variable {s u : Account} {k : Course} {acts : List Action}

theorem SessionInv.of_empty (hs : Represents s.db .empty none) (hu : Untouched s)
    (hout : s.outbox = []) (hidle : ∀ d, (s.device d).Idle) (τ : ℤ) :
    SessionInv .empty τ (.initial, s) := by
  obtain ⟨hsubs, hpopups, -⟩ := LedgerInv.of_empty hs hu hout hidle τ
  exact ⟨hsubs, hpopups, hs.children.canonical, fun d => trivial,
    .android (.ended (.of_empty hs hu hout hidle τ)) rfl⟩

/-- In every state of a run in order the record is on its way to represent what has been
recorded. -/
theorem sessionInv_of_inOrder (hs : Represents s.db .empty none) (hu : Untouched s)
    (hout : s.outbox = []) (hidle : ∀ d, (s.device d).Idle) (hclock : Chronological acts)
    (horder : Execution.Along Course.step InOrder (.initial, s) acts)
    (hcount : (Execution.collect step recorded s acts).length < 2 ^ 31 - 1)
    (hrun : Execution.run Course.step (.initial, s) acts = some (k, u)) :
    ∃ (L : Ledger) (τ : ℤ), L.recordings = Execution.collect step recorded s acts ∧
      SessionInv L τ (k, u) := by
  obtain ⟨τ, hτ⟩ : ∃ τ, ∀ x ∈ acts.filterMap Action.time?, x ≤ τ :=
    (List.finite_toSet (acts.filterMap Action.time?)).bddAbove
  have hcollect : Execution.collect Course.step (fun x a => recorded x.2 a) (.initial, s) acts =
      Execution.collect step recorded s acts := Execution.collect_history recorded
  rw [← hcollect] at hcount ⊢
  obtain ⟨L, hL, hinv⟩ := exists_ledger_of_run (I := SessionInv) (G := InOrder)
    (fun h hle => h.mono hle) (fun h ha hst => h.step ha hst) (SessionInv.of_empty hs hu hout hidle)
    acts (k, u) hrun hclock horder hcount τ hτ
  exact ⟨L, τ, hL, hinv⟩

/-- **Sessions in order are used one after another**: what has been proved of runs in which the
clients are used one after another holds of runs of sessions in order. -/
theorem inTurn_of_inOrder (hs : Represents s.db .empty none) (hu : Untouched s)
    (hout : s.outbox = []) (hidle : ∀ d, (s.device d).Idle) :
    ∀ (acts : List Action) (x : Course × Account),
      Execution.run Course.step (.initial, s) acts = some x → Chronological acts →
      Execution.Along Course.step InOrder (.initial, s) acts →
      (Execution.collect step recorded s acts).length < 2 ^ 31 - 1 →
        Execution.Along step InTurn s acts := by
  refine Execution.run_induction ?_ ?_
  · intro _ _ _
    exact Execution.along_nil _ _
  · intro acts x a y hrun ih _ hclock horder hcount
    obtain ⟨k, t⟩ := x
    have hrun' : Execution.run step s acts = some t := Execution.run_of_history hrun
    rw [Chronological, List.filterMap_append, List.pairwise_append] at hclock
    rw [Execution.along_snoc hrun] at horder
    rw [Execution.collect_snoc hrun', List.length_append] at hcount
    have hcount' : (Execution.collect step recorded s acts).length < 2 ^ 31 - 1 := by omega
    obtain ⟨L, τ, -, hinv⟩ :=
      sessionInv_of_inOrder hs hu hout hidle hclock.1 horder.1 hcount' hrun
    rw [Execution.along_snoc hrun']
    exact ⟨ih hclock.1 horder.1 hcount', hinv.inTurn horder.2⟩

end Runs

/-! ### A session on each client -/

/-- Nobody but the user of client `c` taps the toggle. -/
def TogglesOn (c : ℕ) : Action → Prop
  | .toggle c' _ _ => c' = c
  | _ => True

instance (c : ℕ) (a : Action) : Decidable (TogglesOn c a) := by
  induction a using Action.casesOn <;> dsimp only [TogglesOn] <;> infer_instance

/-- Nothing is under way but on device `d` and on client `c`. -/
structure RestsBut (d c : ℕ) (s : Account) : Prop where
  devices : ∀ d', d' ≠ d → (s.device d').Idle
  fragments : ∀ c', c' ≠ c → (s.fragment c').AtRest

namespace RestsBut

variable {d c : ℕ} {k : Course} {s t : Account} {a : Action}

theorem device (h : RestsBut d c s) (hd : (s.device d).Idle) (d' : ℕ) : (s.device d').Idle := by
  by_cases heq : d' = d
  · exact heq ▸ hd
  · exact h.devices d' heq

theorem fragment (h : RestsBut d c s) (hc : (s.fragment c).AtRest) (c' : ℕ) :
    (s.fragment c').AtRest := by
  by_cases heq : c' = c
  · exact heq ▸ hc
  · exact h.fragments c' heq

/-- Nothing gets under way on a device that nobody taps and a client that nobody toggles. -/
theorem trans (h : RestsBut d c s) (htap : TapsOn d a) (htoggle : TogglesOn c a)
    (hst : Trans s a t) : RestsBut d c t where
  devices := idle_of_tapsOn h.devices htap hst
  fragments c' hne := by
    have hkeep : ∀ {c₁ f}, c₁ = c → (Function.update s.fragment c₁ f c').AtRest := by
      rintro c₁ f rfl
      rw [Function.update_of_ne hne]
      exact h.fragments c' hne
    -- a client at rest has no popup to answer
    have hanswer : ∀ {c₁ i : ℕ} {popup f}, (s.fragment c₁).popups[i]? = some popup →
        (Function.update s.fragment c₁ f c').AtRest := by
      intro c₁ i popup f hi
      refine hkeep ?_
      by_contra hc
      rw [(h.fragments c₁ hc).2] at hi
      cases hi
    cases hst with
    | toggle _ => exact hkeep htoggle
    | submit hi | decline hi => exact hanswer hi
    | _ => exact h.fragments c' hne

theorem concluded (h : RestsBut d c s) (hfin : ConcludedOn d c k s) : Concluded k s := by
  obtain ⟨hstopped, hidle, hout, hrest, hover⟩ := hfin
  exact fun d' c' => ⟨hstopped, h.device hidle d', hout, h.fragment hrest c', hover⟩

/-- The sessions are in order if those on these two are. -/
theorem inOrder (h : RestsBut d c s) (ha : InOrderOn d c (k, s) a) : InOrder (k, s) a := by
  intro d' c'
  cases a with
  | ios d₀ e =>
      cases e with
      | tap => exact ⟨ha.1, ha.2.1, ha.2.2.imp_right fun hfin => h.concluded hfin d' c'⟩
      | _ => exact ha
  | toggle c₀ elapsedRealtime now => exact ha.imp_right fun hfin => h.concluded hfin d' c'
  | _ => exact ha

end RestsBut

/-- **A run on one device and one client**: its sessions are in order if they are on these two. -/
theorem inOrder_of_tapsOn {h : Hours} {d c : ℕ} {acts : List Action} {k : Course} {u : Account}
    (hacts : Execution.Along Course.step
      (fun x a => (TapsOn d a ∧ TogglesOn c a) ∧ InOrderOn d c x a) (.initial, atRest h .closed)
      acts)
    (hrun : Execution.run Course.step (.initial, atRest h .closed) acts = some (k, u))
    (hfin : ConcludedOn d c k u) :
    Execution.Along Course.step InOrder (.initial, atRest h .closed) acts ∧ Concluded k u := by
  -- the other devices and clients do nothing
  have hothers : ∀ x a y, RestsBut d c x.2 →
      (TapsOn d a ∧ TogglesOn c a) ∧ InOrderOn d c x a → Course.step x a = some y →
      RestsBut d c y.2 := by
    intro x a y hx ha hst
    exact hx.trans ha.1.1 ha.1.2 (trans_of_step (Execution.withHistory_eq_some.1 hst).1)
  have hstart : RestsBut d c (atRest h .closed) :=
    ⟨fun _ _ => RecordViewController.idle_initial _, fun _ _ => ⟨rfl, rfl⟩⟩
  have hrests : RestsBut d c u :=
    Execution.run_invariant_along (I := fun x : Course × Account => RestsBut d c x.2) hothers hstart
      hacts hrun
  exact ⟨Execution.along_of_invariant (I := fun x : Course × Account => RestsBut d c x.2) hothers
    (fun x a hx ha => hx.inOrder ha.2) hstart hacts, hrests.concluded hfin⟩

/-- Device `0` records a session of an hour, then client `0` one of half an hour. -/
def oneSessionEach : List Action :=
  [.ios 0 .launch, .ios 0 .attach, .ios 0 .observe, .ios 0 .tap, .ios 0 (.arriveOuter 0),
    .ios 0 (.outer 0 0), .ios 0 .observe, .land 0, .ios 0 .tap, .ios 0 (.arriveOuter 0),
    .ios 0 (.outer 0 3600000), .ios 0 (.arriveInner 0), .ios 0 (.inner 0 3600000), .ios 0 (.yes 0),
    .land 0, .land 0, .land 0, .toggle 0 7200000 7200000, .toggle 0 9000000 9000000, .submit 0 0,
    .deliver 0, .runSessions 0 none, .runHours 0 (some 1), .commitHours 0, .commitSessions 0,
    .runSessions 0 (some 1), .commitSessions 0, .land 0]

/-- In this run the sessions are in order. -/
theorem inOrder_oneSessionEach : ∃ k u,
    Execution.run Course.step (.initial, atRest (Hours.created "A") .closed) oneSessionEach =
        some (k, u) ∧
      Execution.Along Course.step InOrder (.initial, atRest (Hours.created "A") .closed)
        oneSessionEach ∧ Concluded k u := by
  obtain ⟨⟨k, u⟩, hrun, hfin⟩ : ∃ x,
      Execution.run Course.step (.initial, atRest (Hours.created "A") .closed) oneSessionEach =
          some x ∧
        ConcludedOn 0 0 x.1 x.2 := Execution.exists_run (by decide +kernel)
  exact ⟨k, u, hrun, inOrder_of_tapsOn (by decide +kernel) hrun hfin⟩

/-- The clients are used one after another. -/
theorem inTurn_oneSessionEach : ∃ u,
    Execution.run step (atRest (Hours.created "A") .closed) oneSessionEach = some u ∧
      Execution.Along step InTurn (atRest (Hours.created "A") .closed) oneSessionEach ∧
      Between u := by
  obtain ⟨k, u, hrun, horder, hfin⟩ := inOrder_oneSessionEach
  refine ⟨u, Execution.run_of_history hrun, ?_, hfin.outbox, hfin.android⟩
  exact inTurn_of_inOrder (.created "A") (untouched_atRest _ _) rfl
    (fun _ => RecordViewController.idle_initial _) oneSessionEach (k, u) hrun (by decide) horder
    (by decide +kernel)

/-- What it has recorded. -/
theorem collect_oneSessionEach :
    Execution.collect step recorded (atRest (Hours.created "A") .closed) oneSessionEach =
      [⟨.ios, ⟨0, 3600000⟩⟩, ⟨.android, ⟨7200000, 9000000⟩⟩] := by decide +kernel

end StudyHours
