/-
**The record screen of the iOS client.**

`RecordViewController` shows whether a session is in progress and lets the user start and stop one.
A tap of the record button toggles the flag `recording` at once and then asks for the record
`hours/<uid>`; what the tap does is decided when that read is delivered, from the value the flag has
by then.  A start writes the check-in.  A stop reads the child under `numSessions + 1`, and either
dismisses it as too short or asks the user whether to record it.  Next to this an observer, which
`viewDidLoad` registers, is run on every snapshot of the record and sets the flag when it finds the
child under `numSessions + 1`.

The controller is modelled with everything that may be outstanding at a time: the snapshots not yet
given to the observer, the reads, and the dialogs.  A forced unwrap of a missing value ends the app.

Main definitions:

* `StudyHours.RecordViewController` — the state of the screen;
* `StudyHours.RecordViewController.startRecordingRead` and `inProgressRead` — the two callbacks of
  `startRecording`;
* `StudyHours.recordSession`, `StudyHours.dismissSession` — the writes that end a session;
* `StudyHours.RecordViewController.viewDidLoadObserver` — the observer;
* `StudyHours.RecordViewController.step` — one event of the screen, with the writes it issues.

Main results:

* `StudyHours.RecordViewController.viewDidLoadObserver_eq_some` — the observer turns the flag on
  when it finds the child, and never off;
* `StudyHours.RecordViewController.transition_of_step` — **everything an event can do**.
-/

import Mathlib
import StudyHours.Hours
import StudyHours.Rounding

set_option relaxedAutoImplicit false
set_option autoImplicit false

namespace StudyHours

/-! ### The writes that end a session -/

/-- The hours of an interval in milliseconds, formatted with `%.1f` and read back, in exact
arithmetic: the `Double` that stands for a tie may lie beside it, so that `%.1f` of 1.15 is 1.1. -/
def iosCredit (interval : ℤ) : ℚ := (Rounding.halfEven interval tenthOfHour : ℚ) / 10

theorem iosCredit_pos {interval : ℤ} (h : tenthOfHour < 2 * interval) : 0 < iosCredit interval := by
  have hpos : 0 < Rounding.halfEven interval tenthOfHour :=
    (Rounding.nearest_halfEven interval (by decide)).pos (by decide) h
  have hq : (0 : ℚ) < Rounding.halfEven interval tenthOfHour := by exact_mod_cast hpos
  exact div_pos hq (by norm_num)

/-- `recordSession`: the three writes of a confirmed session, in the order they are issued. -/
def recordSession (interval numSessionsIn out : ℤ) (totalHoursIn : ℚ) : List Write :=
  [.numSessions numSessionsIn, .checkOut (numSessionsIn + 1) out,
    .totalHours totalHoursIn (iosCredit interval)]

/-- `dismissSession`: the child under `numSessions + 1` is removed. -/
def dismissSession (numSessions : ℤ) : List Write := [.remove (numSessions + 1)]

/-! ### The state of the screen -/

/-- What the two labels tell: the check-in in seconds, if any, and the title of the button. -/
structure Screen where
  checkInTime : Option ℤ
  /-- The button reads `Stop`, otherwise `Start`. -/
  stopTitle : Bool
deriving DecidableEq

/-- `updateScreen`.  Dividing two `Int64` truncates. -/
def updateScreen (selfRecording recording : Bool) (inTime : ℤ) : Screen where
  checkInTime := if recording then some (inTime.tdiv 1000) else none
  stopTitle := selfRecording

/-- The life of a screen: it is not shown, its observer waits for its first snapshot, that snapshot
has come but has not been handled, it has been handled, or a forced unwrap has ended the app. -/
inductive Status
  | closed
  | registered
  | attached
  | observing
  | crashed
deriving DecidableEq

/-- The screen can be tapped. -/
def Status.shown : Status → Bool
  | closed | crashed => false
  | registered | attached | observing => true

/-- The observer is given the changes of the record. -/
def Status.listens : Status → Bool
  | attached | observing => true
  | closed | registered | crashed => false

/-- The read of the child under `numSessions + 1` that a stop issues, with the values its callback
has captured, and the child once it has arrived. -/
structure InnerRead where
  numSessions : ℤ
  totalHours : Option ℚ
  arrived : Option (Option SessionNode)

/-- The dialog that asks whether to submit a session, with the values its answers have captured. -/
structure Dialog where
  interval : ℤ
  numSessions : ℤ
  out : ℤ
  totalHours : Option ℚ

/-- The record screen of one device. -/
structure RecordViewController where
  status : Status
  recording : Bool
  screen : Screen
  /-- The snapshots that the observer has not been run on, oldest first. -/
  events : List Hours
  /-- The reads of the record that taps have issued, each with its snapshot once it has arrived. -/
  outer : List (Option Hours)
  inner : List InnerRead
  dialogs : List Dialog

namespace RecordViewController

/-- A screen that is not shown and has nothing outstanding. -/
def initial (status : Status) : RecordViewController :=
  ⟨status, false, ⟨none, false⟩, [], [], [], []⟩

/-- Nothing that a tap started is outstanding. -/
def Idle (vc : RecordViewController) : Prop := vc.outer = [] ∧ vc.inner = [] ∧ vc.dialogs = []

instance (vc : RecordViewController) : Decidable vc.Idle :=
  decidable_of_iff (vc.outer.isEmpty ∧ vc.inner.isEmpty ∧ vc.dialogs.isEmpty) (by
    simp only [Idle, List.isEmpty_iff])

@[simp] theorem idle_initial (status : Status) : (initial status).Idle := ⟨rfl, rfl, rfl⟩

/-- The snapshots of changes are queued for the observer. -/
def notify (vc : RecordViewController) (snapshots : List Hours) : RecordViewController :=
  if vc.status.listens then { vc with events := vc.events ++ snapshots } else vc

section Notify

variable (vc : RecordViewController) (hs : List Hours)

@[simp] theorem status_notify : (vc.notify hs).status = vc.status := by
  unfold notify; split <;> rfl

@[simp] theorem recording_notify : (vc.notify hs).recording = vc.recording := by
  unfold notify; split <;> rfl

@[simp] theorem outer_notify : (vc.notify hs).outer = vc.outer := by
  unfold notify; split <;> rfl

@[simp] theorem inner_notify : (vc.notify hs).inner = vc.inner := by
  unfold notify; split <;> rfl

@[simp] theorem dialogs_notify : (vc.notify hs).dialogs = vc.dialogs := by
  unfold notify; split <;> rfl

@[simp] theorem screen_notify : (vc.notify hs).screen = vc.screen := by
  unfold notify; split <;> rfl

@[simp] theorem idle_notify : (vc.notify hs).Idle ↔ vc.Idle := by
  simp [Idle]

/-- Only a screen that listens is given snapshots. -/
theorem events_notify : (vc.notify hs).events =
    if vc.status.listens then vc.events ++ hs else vc.events := by
  unfold notify; split <;> rfl

/-- A snapshot that waits for the observer has been waiting before, or is one of those given. -/
theorem mem_events_notify {h : Hours} (hmem : h ∈ (vc.notify hs).events) :
    h ∈ vc.events ∨ h ∈ hs := by
  rw [events_notify] at hmem
  split_ifs at hmem
  · exact List.mem_append.1 hmem
  · exact .inl hmem

end Notify

/-! ### The callbacks -/

/-- `startRecording`: the flag is toggled and the record asked for. -/
def startRecording (vc : RecordViewController) : RecordViewController :=
  { vc with recording := !vc.recording, outer := vc.outer ++ [none] }

/-- The callback of the read that `startRecording` issues: a start writes the check-in, a stop
reads the child in progress.  `none` is a trap. -/
def startRecordingRead (vc : RecordViewController) (snapshot : Hours) (now : ℤ) :
    Option (RecordViewController × List Write) :=
  match snapshot.numSessions with
  | none => none
  | some numSessions =>
      if vc.recording then
        some ({ vc with screen := updateScreen vc.recording vc.recording now },
          [.checkIn (numSessions + 1) now])
      else
        some ({ vc with
          inner := vc.inner ++ [⟨numSessions, snapshot.totalHours, none⟩]
          screen := updateScreen vc.recording vc.recording 0 }, [])

/-- The callback of the read of the child in progress: a session of more than half an hour is put
to the user, a shorter one is dismissed. -/
def inProgressRead (vc : RecordViewController) (read : InnerRead) (child : Option SessionNode)
    (now : ℤ) : Option (RecordViewController × List Write) :=
  match child.bind SessionNode.inTime? with
  | none => none
  | some inTime =>
      let interval := now - inTime
      if interval > 1800000 then
        some ({ vc with
          dialogs := vc.dialogs ++ [⟨interval, read.numSessions, now, read.totalHours⟩] }, [])
      else
        some (vc, dismissSession read.numSessions)

/-- The answer `Yes`. -/
def answerYes (vc : RecordViewController) (d : Dialog) :
    Option (RecordViewController × List Write) :=
  d.totalHours.map fun totalHours =>
    (vc, recordSession d.interval d.numSessions d.out totalHours)

/-- One round of the second loop of the observer: `Int(child.key) == numSessions! + 1`. -/
def observeChild (numSessions : ℤ) (acc : Bool × ℤ) (child : Sigma fun _ : String => SessionNode) :
    Bool × ℤ :=
  if swiftInt child.1 = some (numSessions + 1) then (true, child.2.inTime?.getD acc.2) else acc

/-- The observer of `viewDidLoad`.  The loop unwraps `numSessions` at every child of the snapshot,
the three fields included. -/
def viewDidLoadObserver (vc : RecordViewController) (snapshot : Hours) :
    Option RecordViewController :=
  if snapshot.exists? then
    match snapshot.numSessions with
    | none => none
    | some numSessions =>
        let acc := snapshot.children.entries.foldl (observeChild numSessions) (vc.recording, 0)
        some { vc with recording := acc.1, screen := updateScreen acc.1 acc.1 acc.2 }
  else
    some { vc with screen := updateScreen vc.recording vc.recording 0 }

/-! ### Events -/

/-- The events of a record screen.  A number picks one of the reads or dialogs outstanding. -/
inductive Event
  /-- A new screen is loaded; whatever the old one had outstanding is gone. -/
  | launch
  /-- The first snapshot of the observer arrives. -/
  | attach
  /-- The observer is run on the oldest snapshot it has been given. -/
  | observe
  /-- The record button is tapped. -/
  | tap
  | arriveOuter (i : ℕ)
  | outer (i : ℕ) (now : ℤ)
  | cancelOuter (i : ℕ)
  | arriveInner (i : ℕ)
  | inner (i : ℕ) (now : ℤ)
  | cancelInner (i : ℕ)
  | yes (i : ℕ)
  | no (i : ℕ)
deriving DecidableEq

/-- The outcome of a callback: a trap ends the app. -/
def orCrash (r : Option (RecordViewController × List Write)) : RecordViewController × List Write :=
  r.getD (initial .crashed, [])

/-- One event of the screen of a device that sees the record as `view`, with the writes it issues;
`none` if the event cannot happen now. -/
def step (view : Hours) (vc : RecordViewController) :
    Event → Option (RecordViewController × List Write)
  | .launch => some (initial .registered, [])
  | .attach =>
      if vc.status = .registered then some ({ vc with status := .attached, events := [view] }, [])
      else none
  | .observe =>
      match vc.events with
      | [] => none
      | snapshot :: rest =>
          some (orCrash ((viewDidLoadObserver { vc with status := .observing, events := rest }
            snapshot).map fun vc => (vc, [])))
  | .tap => if vc.status.shown then some (startRecording vc, []) else none
  | .arriveOuter i =>
      match vc.outer[i]? with
      | some none => some ({ vc with outer := vc.outer.set i (some view) }, [])
      | _ => none
  | .outer i now =>
      match vc.outer[i]? with
      | some (some snapshot) =>
          some (orCrash (startRecordingRead { vc with outer := vc.outer.eraseIdx i } snapshot now))
      | _ => none
  | .cancelOuter i =>
      if i < vc.outer.length then some ({ vc with outer := vc.outer.eraseIdx i }, []) else none
  | .arriveInner i =>
      match vc.inner[i]? with
      | some ⟨n, t, none⟩ =>
          some ({ vc with inner := vc.inner.set i ⟨n, t, some (view.child (n + 1))⟩ }, [])
      | _ => none
  | .inner i now =>
      match vc.inner[i]? with
      | some ⟨n, t, some child⟩ =>
          some (orCrash (inProgressRead { vc with inner := vc.inner.eraseIdx i }
            ⟨n, t, some child⟩ child now))
      | _ => none
  | .cancelInner i =>
      if i < vc.inner.length then some ({ vc with inner := vc.inner.eraseIdx i }, []) else none
  | .yes i =>
      match vc.dialogs[i]? with
      | some d => some (orCrash (answerYes { vc with dialogs := vc.dialogs.eraseIdx i } d))
      | none => none
  | .no i =>
      match vc.dialogs[i]? with
      | some d =>
          some ({ vc with dialogs := vc.dialogs.eraseIdx i }, dismissSession d.numSessions)
      | none => none

/-! ### The observer -/

/-- The flag after the second loop of the observer. -/
theorem foldl_observeChild_fst (numSessions : ℤ)
    (l : List (Sigma fun _ : String => SessionNode)) (acc : Bool × ℤ) :
    (l.foldl (observeChild numSessions) acc).1 =
      (acc.1 || l.any fun child => swiftInt child.1 = some (numSessions + 1)) := by
  induction l generalizing acc with
  | nil => simp
  | cons child l ih =>
      rw [List.foldl_cons, ih, List.any_cons, observeChild]
      split_ifs with h
      · simp [h]
      · simp [h]

/-- A key of the record that reads as `k` is found by a loop over the children. -/
theorem any_swiftInt_iff {h : Hours} (hc : h.Canonical) (k : ℤ) :
    (h.children.entries.any fun child => swiftInt child.1 = some k) = (h.child k).isSome := by
  rw [Bool.eq_iff_iff, ← hc.exists_swiftInt_iff, List.any_eq_true]
  constructor
  · rintro ⟨child, hmem, hk⟩
    exact ⟨child.1, List.mem_keys_of_mem hmem, of_decide_eq_true hk⟩
  · rintro ⟨key, hkey, hk⟩
    obtain ⟨c, hmem⟩ := List.exists_of_mem_keys (AList.mem_keys.1 hkey)
    exact ⟨⟨key, c⟩, hmem, decide_eq_true hk⟩

/-- The observer finds the child in progress in the snapshot. -/
def showsInProgress (snapshot : Hours) : Bool :=
  snapshot.numSessions.elim false fun numSessions =>
    snapshot.children.entries.any fun child => swiftInt child.1 = some (numSessions + 1)

theorem showsInProgress_eq {h : Hours} (hc : h.Canonical) :
    showsInProgress h = h.inProgress?.isSome := by
  cases hn : h.numSessions with
  | none => simp [showsInProgress, Hours.inProgress?, hn]
  | some n =>
      rw [showsInProgress, hn, Option.elim_some, any_swiftInt_iff hc, Hours.inProgress?_eq hn]

/-- **The observer only ever turns the flag on**, and it does when the snapshot has a child under
the next free key.  Nothing else of the screen is changed but its labels. -/
theorem viewDidLoadObserver_eq_some {vc vc' : RecordViewController} {snapshot : Hours}
    (h : vc.viewDidLoadObserver snapshot = some vc') :
    ∃ screen, vc' = { vc with recording := vc.recording || showsInProgress snapshot, screen } ∧
      screen.stopTitle = (vc.recording || showsInProgress snapshot) := by
  unfold viewDidLoadObserver at h
  split at h
  · cases hn : snapshot.numSessions with
    | none => simp [hn] at h
    | some n =>
        simp only [hn, Option.some.injEq] at h
        have hflag := foldl_observeChild_fst n snapshot.children.entries (vc.recording, 0)
        rw [showsInProgress, hn, Option.elim_some, ← hflag]
        exact ⟨_, h.symm, rfl⟩
  · next hex =>
      -- a record without children has no `numSessions` either
      have hn : snapshot.numSessions = none := by
        by_contra hn
        simp [Hours.exists?, Option.isSome_iff_ne_none.2 hn] at hex
      rw [Option.some.injEq] at h
      rw [showsInProgress, hn, Option.elim_none, Bool.or_false]
      exact ⟨_, h.symm, rfl⟩

/-- With `numSessions` in the snapshot the observer does not trap. -/
theorem viewDidLoadObserver_isSome {vc : RecordViewController} {snapshot : Hours}
    (h : snapshot.numSessions.isSome) : (vc.viewDidLoadObserver snapshot).isSome := by
  obtain ⟨n, hn⟩ := Option.isSome_iff_exists.1 h
  unfold viewDidLoadObserver
  split <;> simp [hn]

/-! ### Everything an event can do -/

/-- What an event does to the screen and which writes it issues, case by case. -/
inductive Transition (view : Hours) (vc : RecordViewController) :
    Event → RecordViewController → List Write → Prop
  | launch : Transition view vc .launch (initial .registered) []
  | attach (hstatus : vc.status = .registered) :
      Transition view vc .attach { vc with status := .attached, events := [view] } []
  | observe {snapshot : Hours} {rest : List Hours} {vc' : RecordViewController}
      (hevents : vc.events = snapshot :: rest)
      (hvc' : viewDidLoadObserver { vc with status := .observing, events := rest } snapshot
        = some vc') : Transition view vc .observe vc' []
  | observeTrap {snapshot : Hours} {rest : List Hours} (hevents : vc.events = snapshot :: rest)
      (hn : snapshot.numSessions = none) : Transition view vc .observe (initial .crashed) []
  | tap (hshown : vc.status.shown = true) : Transition view vc .tap (startRecording vc) []
  | arriveOuter {i : ℕ} (hi : vc.outer[i]? = some none) :
      Transition view vc (.arriveOuter i) { vc with outer := vc.outer.set i (some view) } []
  | start {i : ℕ} {now : ℤ} {snapshot : Hours} {n : ℤ}
      (hi : vc.outer[i]? = some (some snapshot)) (hn : snapshot.numSessions = some n)
      (hrec : vc.recording = true) :
      Transition view vc (.outer i now)
        { vc with outer := vc.outer.eraseIdx i, screen := updateScreen true true now }
        [.checkIn (n + 1) now]
  | stop {i : ℕ} {now : ℤ} {snapshot : Hours} {n : ℤ}
      (hi : vc.outer[i]? = some (some snapshot)) (hn : snapshot.numSessions = some n)
      (hrec : vc.recording = false) :
      Transition view vc (.outer i now)
        { vc with
          outer := vc.outer.eraseIdx i
          inner := vc.inner ++ [⟨n, snapshot.totalHours, none⟩]
          screen := updateScreen false false 0 } []
  | outerTrap {i : ℕ} {now : ℤ} {snapshot : Hours} (hi : vc.outer[i]? = some (some snapshot))
      (hn : snapshot.numSessions = none) : Transition view vc (.outer i now) (initial .crashed) []
  | cancelOuter {i : ℕ} (hi : i < vc.outer.length) :
      Transition view vc (.cancelOuter i) { vc with outer := vc.outer.eraseIdx i } []
  | arriveInner {i : ℕ} {n : ℤ} {t : Option ℚ} (hi : vc.inner[i]? = some ⟨n, t, none⟩) :
      Transition view vc (.arriveInner i)
        { vc with inner := vc.inner.set i ⟨n, t, some (view.child (n + 1))⟩ } []
  | confirm {i : ℕ} {now n inTime : ℤ} {t : Option ℚ} {child : Option SessionNode}
      (hi : vc.inner[i]? = some ⟨n, t, some child⟩)
      (hin : child.bind SessionNode.inTime? = some inTime) (hlong : 1800000 < now - inTime) :
      Transition view vc (.inner i now)
        { vc with
          inner := vc.inner.eraseIdx i
          dialogs := vc.dialogs ++ [⟨now - inTime, n, now, t⟩] } []
  | tooShort {i : ℕ} {now n inTime : ℤ} {t : Option ℚ} {child : Option SessionNode}
      (hi : vc.inner[i]? = some ⟨n, t, some child⟩)
      (hin : child.bind SessionNode.inTime? = some inTime) (hshort : now - inTime ≤ 1800000) :
      Transition view vc (.inner i now) { vc with inner := vc.inner.eraseIdx i }
        (dismissSession n)
  | innerTrap {i : ℕ} {now n : ℤ} {t : Option ℚ} {child : Option SessionNode}
      (hi : vc.inner[i]? = some ⟨n, t, some child⟩)
      (hin : child.bind SessionNode.inTime? = none) :
      Transition view vc (.inner i now) (initial .crashed) []
  | cancelInner {i : ℕ} (hi : i < vc.inner.length) :
      Transition view vc (.cancelInner i) { vc with inner := vc.inner.eraseIdx i } []
  | yes {i : ℕ} {d : Dialog} {t : ℚ} (hi : vc.dialogs[i]? = some d) (ht : d.totalHours = some t) :
      Transition view vc (.yes i) { vc with dialogs := vc.dialogs.eraseIdx i }
        (recordSession d.interval d.numSessions d.out t)
  | yesTrap {i : ℕ} {d : Dialog} (hi : vc.dialogs[i]? = some d) (ht : d.totalHours = none) :
      Transition view vc (.yes i) (initial .crashed) []
  | no {i : ℕ} {d : Dialog} (hi : vc.dialogs[i]? = some d) :
      Transition view vc (.no i) { vc with dialogs := vc.dialogs.eraseIdx i }
        (dismissSession d.numSessions)

theorem viewDidLoadObserver_eq_none {vc : RecordViewController} {snapshot : Hours}
    (h : vc.viewDidLoadObserver snapshot = none) : snapshot.numSessions = none := by
  by_contra hn
  have hsome : (vc.viewDidLoadObserver snapshot).isSome :=
    viewDidLoadObserver_isSome (Option.isSome_iff_ne_none.2 hn)
  rw [h] at hsome
  exact Bool.false_ne_true hsome

/-- **Inversion of a step**: an event of the screen is one of the transitions above. -/
theorem transition_of_step {view : Hours} {vc vc' : RecordViewController} {e : Event}
    {ws : List Write} (h : step view vc e = some (vc', ws)) : Transition view vc e vc' ws := by
  cases e with
  | launch =>
      cases h
      exact .launch
  | attach =>
      simp only [step, Option.ite_none_right_eq_some] at h
      obtain ⟨hstatus, h⟩ := h
      cases h
      exact .attach hstatus
  | observe =>
      simp only [step] at h
      split at h
      · cases h
      · next snapshot rest hevents =>
          cases ho :
              viewDidLoadObserver { vc with status := .observing, events := rest } snapshot with
          | none =>
              simp only [ho, orCrash, Option.map_none, Option.getD_none, Option.some.injEq] at h
              cases h
              exact .observeTrap hevents (viewDidLoadObserver_eq_none ho)
          | some vc₁ =>
              simp only [ho, orCrash, Option.map_some, Option.getD_some, Option.some.injEq] at h
              cases h
              exact .observe hevents ho
  | tap =>
      simp only [step, Option.ite_none_right_eq_some] at h
      obtain ⟨hshown, h⟩ := h
      cases h
      exact .tap hshown
  | arriveOuter i =>
      simp only [step] at h
      split at h
      · next hi => cases h; exact .arriveOuter hi
      · cases h
  | outer i now =>
      simp only [step] at h
      split at h
      · next snapshot hi =>
          cases hn : snapshot.numSessions with
          | none =>
              simp only [startRecordingRead, hn, orCrash, Option.getD_none, Option.some.injEq] at h
              cases h
              exact .outerTrap hi hn
          | some n =>
              cases hrec : vc.recording with
              | true =>
                  simp only [startRecordingRead, hn, hrec, orCrash, if_true, Option.getD_some,
                    Option.some.injEq] at h
                  cases h
                  simpa [hrec] using @Transition.start view vc i now _ _ hi hn hrec
              | false =>
                  simp only [startRecordingRead, hn, hrec, orCrash, Bool.false_eq_true, if_false,
                    Option.getD_some, Option.some.injEq] at h
                  cases h
                  simpa [hrec] using @Transition.stop view vc i now _ _ hi hn hrec
      · cases h
  | cancelOuter i =>
      simp only [step, Option.ite_none_right_eq_some] at h
      obtain ⟨hi, h⟩ := h
      cases h
      exact .cancelOuter hi
  | arriveInner i =>
      simp only [step] at h
      split at h
      · next hi => cases h; exact .arriveInner hi
      · cases h
  | inner i now =>
      simp only [step] at h
      split at h
      · next n t child hi =>
          cases hin : child.bind SessionNode.inTime? with
          | none =>
              simp only [inProgressRead, hin, orCrash, Option.getD_none, Option.some.injEq] at h
              cases h
              exact .innerTrap hi hin
          | some inTime =>
              simp only [inProgressRead, hin] at h
              split_ifs at h with hlong
              · cases h
                exact .confirm hi hin hlong
              · cases h
                exact .tooShort hi hin (not_lt.1 hlong)
      · cases h
  | cancelInner i =>
      simp only [step, Option.ite_none_right_eq_some] at h
      obtain ⟨hi, h⟩ := h
      cases h
      exact .cancelInner hi
  | yes i =>
      simp only [step] at h
      split at h
      · next d hi =>
          cases ht : d.totalHours with
          | none =>
              simp only [answerYes, ht, orCrash, Option.map_none, Option.getD_none,
                Option.some.injEq] at h
              cases h
              exact .yesTrap hi ht
          | some t =>
              simp only [answerYes, ht, orCrash, Option.map_some, Option.getD_some,
                Option.some.injEq] at h
              cases h
              exact .yes hi ht
      · cases h
  | no i =>
      simp only [step] at h
      split at h
      · next d hi => cases h; exact .no hi
      · cases h

/-- What `observe` leaves of the screen when it does not trap. -/
theorem observe_eq {snapshot : Hours} {rest : List Hours} {vc vc' : RecordViewController}
    (hvc' : viewDidLoadObserver { vc with status := .observing, events := rest } snapshot
      = some vc') :
    ∃ screen, screen.stopTitle = (vc.recording || showsInProgress snapshot) ∧
      vc' = { vc with
        status := .observing
        recording := vc.recording || showsInProgress snapshot
        screen
        events := rest } := by
  obtain ⟨screen, rfl, hscreen⟩ := viewDidLoadObserver_eq_some hvc'
  exact ⟨screen, hscreen, rfl⟩

/-- The snapshots that wait for the observer have been waiting before, or are the first one. -/
theorem events_of_transition {view : Hours} {vc vc' : RecordViewController} {e : Event}
    {ws : List Write} (h : Transition view vc e vc' ws) :
    ∀ x ∈ vc'.events, x ∈ vc.events ∨ e = .attach ∧ x = view := by
  intro x hx
  cases h with
  | launch | observeTrap _ _ | outerTrap _ _ | innerTrap _ _ | yesTrap _ _ => cases hx
  | attach _ => exact .inr ⟨rfl, List.mem_singleton.1 hx⟩
  | observe hevents hvc' =>
      obtain ⟨screen, -, rfl⟩ := observe_eq hvc'
      left
      rw [hevents]
      exact List.mem_cons_of_mem _ hx
  | _ => exact .inl hx

/-! ### What the callbacks have captured -/

/-- The values of `numSessions` and `totalHours` that the callbacks and dialogs outstanding were
given. -/
def captured (vc : RecordViewController) : List (Option ℤ × Option ℚ) :=
  (vc.outer.filterMap fun o => o.map fun h => (h.numSessions, h.totalHours)) ++
    (vc.inner.map fun r => (some r.numSessions, r.totalHours)) ++
    vc.dialogs.map fun d => (some d.numSessions, d.totalHours)

theorem mem_captured {vc : RecordViewController} {x : Option ℤ × Option ℚ} :
    x ∈ vc.captured ↔ (∃ h, some h ∈ vc.outer ∧ (h.numSessions, h.totalHours) = x) ∨
      (∃ r ∈ vc.inner, (some r.numSessions, r.totalHours) = x) ∨
      ∃ d ∈ vc.dialogs, (some d.numSessions, d.totalHours) = x := by
  simp [captured]

@[simp] theorem captured_notify (vc : RecordViewController) (hs : List Hours) :
    (vc.notify hs).captured = vc.captured := by
  simp [captured]

theorem captured_of_idle {vc : RecordViewController} (h : vc.Idle) : vc.captured = [] := by
  simp [captured, h.1, h.2.1, h.2.2]

/-- **Nothing is captured but what has been read**: what the callbacks hold after an event they held
before, or a read of the record has just arrived. -/
theorem captured_of_transition {view : Hours} {vc vc' : RecordViewController} {e : Event}
    {ws : List Write} (h : Transition view vc e vc' ws) :
    ∀ x ∈ vc'.captured, x ∈ vc.captured ∨
      (∃ i, e = .arriveOuter i) ∧ x = (view.numSessions, view.totalHours) := by
  intro x hx
  cases h with
  | launch | observeTrap _ _ | outerTrap _ _ | innerTrap _ _ | yesTrap _ _ =>
      rw [captured_of_idle (idle_initial _)] at hx
      cases hx
  | attach _ => exact .inl hx
  | observe _ hvc' =>
      obtain ⟨screen, -, rfl⟩ := observe_eq hvc'
      exact .inl hx
  | tap _ =>
      left
      simpa [mem_captured, startRecording] using hx
  | arriveOuter hi =>
      rcases mem_captured.1 hx with ⟨h, hh, rfl⟩ | hx
      · rcases List.mem_or_eq_of_mem_set hh with hh | hh
        · exact .inl (mem_captured.2 (.inl ⟨h, hh, rfl⟩))
        · exact .inr ⟨⟨_, rfl⟩, by rw [Option.some.inj hh]⟩
      · exact .inl (mem_captured.2 (.inr hx))
  | start _ _ _ =>
      left
      rcases mem_captured.1 hx with ⟨h, hh, rfl⟩ | hx
      · exact mem_captured.2 (.inl ⟨h, List.mem_of_mem_eraseIdx hh, rfl⟩)
      · exact mem_captured.2 (.inr hx)
  | @stop i now snapshot n hi hn _ =>
      left
      rcases mem_captured.1 hx with ⟨h, hh, rfl⟩ | ⟨r, hr, rfl⟩ | hx
      · exact mem_captured.2 (.inl ⟨h, List.mem_of_mem_eraseIdx hh, rfl⟩)
      · rcases List.mem_append.1 hr with hr | hr
        · exact mem_captured.2 (.inr (.inl ⟨r, hr, rfl⟩))
        · -- the inner read takes over what the outer one was given
          obtain rfl := List.mem_singleton.1 hr
          exact mem_captured.2 (.inl ⟨snapshot, List.mem_of_getElem? hi, by rw [hn]⟩)
      · exact mem_captured.2 (.inr (.inr hx))
  | cancelOuter _ =>
      left
      rcases mem_captured.1 hx with ⟨h, hh, rfl⟩ | hx
      · exact mem_captured.2 (.inl ⟨h, List.mem_of_mem_eraseIdx hh, rfl⟩)
      · exact mem_captured.2 (.inr hx)
  | @arriveInner i n t hi =>
      left
      rcases mem_captured.1 hx with hx | ⟨r, hr, rfl⟩ | hx
      · exact mem_captured.2 (.inl hx)
      · rcases List.mem_or_eq_of_mem_set hr with hr | rfl
        · exact mem_captured.2 (.inr (.inl ⟨r, hr, rfl⟩))
        · exact mem_captured.2 (.inr (.inl ⟨_, List.mem_of_getElem? hi, rfl⟩))
      · exact mem_captured.2 (.inr (.inr hx))
  | @confirm i now n inTime t child hi _ _ =>
      left
      rcases mem_captured.1 hx with hx | ⟨r, hr, rfl⟩ | ⟨d, hd, rfl⟩
      · exact mem_captured.2 (.inl hx)
      · exact mem_captured.2 (.inr (.inl ⟨r, List.mem_of_mem_eraseIdx hr, rfl⟩))
      · rcases List.mem_append.1 hd with hd | hd
        · exact mem_captured.2 (.inr (.inr ⟨d, hd, rfl⟩))
        · -- the dialog takes over what the inner read was given
          obtain rfl := List.mem_singleton.1 hd
          exact mem_captured.2 (.inr (.inl ⟨_, List.mem_of_getElem? hi, rfl⟩))
  | tooShort _ _ _ | cancelInner _ =>
      left
      rcases mem_captured.1 hx with hx | ⟨r, hr, rfl⟩ | hx
      · exact mem_captured.2 (.inl hx)
      · exact mem_captured.2 (.inr (.inl ⟨r, List.mem_of_mem_eraseIdx hr, rfl⟩))
      · exact mem_captured.2 (.inr (.inr hx))
  | yes _ _ | no _ =>
      left
      rcases mem_captured.1 hx with hx | hx | ⟨d, hd, rfl⟩
      · exact mem_captured.2 (.inl hx)
      · exact mem_captured.2 (.inr (.inl hx))
      · exact mem_captured.2 (.inr (.inr ⟨d, List.mem_of_mem_eraseIdx hd, rfl⟩))

/-- A dialog that is opened asks about a session of more than half an hour, which has just ended. -/
theorem mem_dialogs_of_transition {view : Hours} {vc vc' : RecordViewController} {e : Event}
    {ws : List Write} (h : Transition view vc e vc' ws) {d : Dialog} (hd : d ∈ vc'.dialogs) :
    d ∈ vc.dialogs ∨ (∃ i, e = .inner i d.out) ∧ 1800000 < d.interval := by
  cases h with
  | launch | observeTrap _ _ | outerTrap _ _ | innerTrap _ _ | yesTrap _ _ => cases hd
  | observe _ hvc' =>
      obtain ⟨screen, -, rfl⟩ := observe_eq hvc'
      exact .inl hd
  | @confirm i now n inTime t child _ _ hlong =>
      rcases List.mem_append.1 hd with hd | hd
      · exact .inl hd
      · obtain rfl := List.mem_singleton.1 hd
        exact .inr ⟨⟨i, rfl⟩, hlong⟩
  | yes _ _ | no _ => exact .inl (List.mem_of_mem_eraseIdx hd)
  | _ => exact .inl hd

/-- The dialogs are about sessions of more than half an hour. -/
theorem dialogs_of_transition {view : Hours} {vc vc' : RecordViewController} {e : Event}
    {ws : List Write} (h : Transition view vc e vc' ws)
    (hlong : ∀ d ∈ vc.dialogs, 1800000 < d.interval) : ∀ d ∈ vc'.dialogs, 1800000 < d.interval := by
  intro d hd
  rcases mem_dialogs_of_transition h hd with hd | ⟨-, hd⟩
  · exact hlong d hd
  · exact hd

/-- The writes an event can issue: none, a check-in, a dismissal, or a recording. -/
theorem writes_of_transition {view : Hours} {vc vc' : RecordViewController} {e : Event}
    {ws : List Write} (h : Transition view vc e vc' ws) :
    ws = [] ∨ (∃ n now, ws = [.checkIn (n + 1) now]) ∨ (∃ n, ws = dismissSession n) ∨
      ∃ i d t, e = .yes i ∧ vc.dialogs[i]? = some d ∧ d.totalHours = some t ∧
        ws = recordSession d.interval d.numSessions d.out t := by
  cases h with
  | start _ _ _ => exact .inr (.inl ⟨_, _, rfl⟩)
  | tooShort _ _ _ | no _ => exact .inr (.inr (.inl ⟨_, rfl⟩))
  | yes hi ht => exact .inr (.inr (.inr ⟨_, _, _, rfl, hi, ht, rfl⟩))
  | _ => exact .inl rfl

/-- **A write of a child goes to the number after one that has been read.** -/
theorem key_of_transition {view : Hours} {vc vc' : RecordViewController} {e : Event}
    {ws : List Write} (h : Transition view vc e vc' ws) {w : Write} (hw : w ∈ ws) {k : ℤ}
    (hk : w.key? = some k) : ∃ x ∈ vc.captured, x.1 = some (k - 1) := by
  cases h with
  | @start i now snapshot n hi hn _ =>
      obtain rfl := List.mem_singleton.1 hw
      cases hk
      refine ⟨_, mem_captured.2 (.inl ⟨snapshot, List.mem_of_getElem? hi, rfl⟩), ?_⟩
      simp [hn]
  | tooShort hi _ _ =>
      obtain rfl := List.mem_singleton.1 hw
      cases hk
      exact ⟨_, mem_captured.2 (.inr (.inl ⟨_, List.mem_of_getElem? hi, rfl⟩)), by simp⟩
  | yes hi _ =>
      refine ⟨_, mem_captured.2 (.inr (.inr ⟨_, List.mem_of_getElem? hi, rfl⟩)), ?_⟩
      simp only [recordSession, List.mem_cons, List.not_mem_nil, or_false] at hw
      rcases hw with rfl | rfl | rfl
      · cases hk
      · cases hk
        simp
      · cases hk
  | no hi =>
      obtain rfl := List.mem_singleton.1 hw
      cases hk
      exact ⟨_, mem_captured.2 (.inr (.inr ⟨_, List.mem_of_getElem? hi, rfl⟩)), by simp⟩
  | _ => cases hw

end RecordViewController

end StudyHours
