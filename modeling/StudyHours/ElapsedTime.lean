/-
**The elapsed time on the record screen of the iOS client.**

While a session is in progress the screen shows for how many minutes.  `updateScreen` computes the
number from the check-in and the clock, and sees to it that a timer runs; every minute the timer
adds one.  It is not set again when the number is computed anew, so its ticks have a phase of their
own, and the number changes up to a minute before or after the next minute of the session is full.

The label is modelled with the clock of the device: time goes on, but not beyond the moment at which
the timer is due.  What happens at the same moment comes in any order.  A screen calls
`updateScreen` when its observer is run on a snapshot, and when the read of a tap is delivered.

Main definitions:

* `StudyHours.ElapsedTime` — the counter, its text and the timer;
* `StudyHours.ElapsedTime.updateTimer`, `StudyHours.ElapsedTime.updateScreen` — the two methods;
* `StudyHours.Clocked.step` — time goes on, `updateScreen` is called, or the timer fires;
* `StudyHours.TimedScreen.step` — one event of the whole screen.

Main results:

* `StudyHours.Clocked.counter_near` — **the counter is wrong by one minute at most**, at any time
  after any number of calls and ticks;
* `StudyHours.RecordViewController.observed?_eq` — the observer passes the check-in that the
  snapshot shows;
* `StudyHours.TimedScreen.counter_near_of_watches` — so the screen of a session in progress is right
  but for one minute, whatever the snapshots are and whenever the observer is run on them.
-/

import Mathlib
import StudyHours.Execution
import StudyHours.RecordViewController
import StudyHours.Ticker

set_option relaxedAutoImplicit false
set_option autoImplicit false

namespace StudyHours

/-! ### The label -/

/-- `%02d`. -/
def twoDigits (n : ℤ) : String := if 0 ≤ n ∧ n < 10 then "0" ++ toString n else toString n

/-- The text of a number of minutes.  Both divisions truncate. -/
def durationText (counter : ℤ) : String :=
  "Duration: \n" ++ twoDigits (counter.tdiv 60) ++ ":" ++ twoDigits (counter.tmod 60)

/-- The label of the elapsed time, with the counter it shows and the timer. -/
structure ElapsedTime where
  counter : ℤ
  elapsedTime : String
  /-- When the timer fires next, if it is valid. -/
  timer : Option ℤ
deriving DecidableEq

namespace ElapsedTime

/-- The label of a screen that has just been loaded, with the text of the storyboard. -/
def initial : ElapsedTime := ⟨0, "Label", none⟩

/-- `UpdateTimer`. -/
def updateTimer (label : ElapsedTime) : ElapsedTime :=
  { label with
    counter := label.counter + 1
    elapsedTime := durationText (label.counter + 1) }

/-- The part of `updateScreen` that concerns the elapsed time, at the time `now`.  A timer that is
valid is left alone. -/
def updateScreen (label : ElapsedTime) (recording : Bool) (inTime now : ℤ) : ElapsedTime :=
  if recording then
    let counter := ((now - inTime).tdiv 1000).tdiv 60
    { counter
      elapsedTime := durationText counter
      timer := if label.timer.isSome then label.timer else some (now + 60000) }
  else
    { counter := 0, elapsedTime := "Duration:\n 00:00", timer := none }

/-- The whole minutes since the check-in. -/
def minutes (inTime now : ℤ) : ℤ := (now - inTime) / 60000

theorem counts_minutes (inTime : ℤ) : Ticker.Counts 60000 (minutes inTime) :=
  Ticker.counts_ediv (by norm_num) inTime

variable {label : ElapsedTime} {inTime now : ℤ}

/-- From the check-in on, the counter that `updateScreen` computes is the number of the minutes. -/
theorem counter_updateScreen (hle : inTime ≤ now) :
    (label.updateScreen true inTime now).counter = minutes inTime now := by
  have hnonneg : 0 ≤ now - inTime := by omega
  have hseconds : 0 ≤ (now - inTime) / 1000 := Int.ediv_nonneg hnonneg (by norm_num)
  have hcounter : (label.updateScreen true inTime now).counter =
      ((now - inTime).tdiv 1000).tdiv 60 := rfl
  rw [hcounter, Int.tdiv_eq_ediv_of_nonneg hnonneg, Int.tdiv_eq_ediv_of_nonneg hseconds, minutes]
  omega

theorem timer_updateScreen :
    (label.updateScreen true inTime now).timer =
      some (label.timer.getD (now + 60000)) := by
  rw [updateScreen, if_pos rfl]
  cases label.timer <;> rfl

theorem elapsedTime_updateScreen : (label.updateScreen true inTime now).elapsedTime =
    durationText (label.updateScreen true inTime now).counter := rfl

end ElapsedTime

/-! ### The clock -/

/-- The label of a device, with the time it is there. -/
structure Clocked where
  now : ℤ
  label : ElapsedTime

namespace Clocked

/-- What happens to the label. -/
inductive Action
  /-- Time goes on. -/
  | wait (moment : ℤ)
  /-- `updateScreen` is called. -/
  | updateScreen (recording : Bool) (inTime : ℤ)
  /-- The timer fires. -/
  | fire
deriving DecidableEq

/-- **One action.**  The timer fires at the very moment it is due, and again `60000` later. -/
def step (s : Clocked) : Action → Option Clocked
  | .wait moment =>
      if s.now ≤ moment ∧ ∀ due ∈ s.label.timer, moment ≤ due then some { s with now := moment }
      else none
  | .updateScreen recording inTime =>
      some { s with label := s.label.updateScreen recording inTime s.now }
  | .fire =>
      if s.label.timer = some s.now then
        some { s with label := { s.label.updateTimer with timer := some (s.now + 60000) } }
      else none

/-- If the action calls `updateScreen`, it is for the session with the check-in `inTime`, and not
before it. -/
def Refreshes (inTime : ℤ) (s : Clocked) : Action → Prop
  | .updateScreen recording inTime' => recording = true ∧ inTime' = inTime ∧ inTime ≤ s.now
  | .wait _ | .fire => True

instance (inTime : ℤ) (s : Clocked) (a : Action) : Decidable (Refreshes inTime s a) := by
  cases a <;> unfold Refreshes <;> infer_instance

/-- What holds of the label of a session: as soon as the timer runs, the counter tracks the minutes
since the check-in, and the text is the one of the counter. -/
structure LabelInv (inTime : ℤ) (s : Clocked) : Prop where
  tracks : ∀ due ∈ s.label.timer,
    Ticker.Tracks 60000 (ElapsedTime.minutes inTime) s.now due s.label.counter
  text : s.label.timer.isSome → s.label.elapsedTime = durationText s.label.counter

variable {inTime : ℤ} {s t : Clocked}

theorem LabelInv.of_invalid (h : s.label.timer = none) : LabelInv inTime s where
  tracks due hdue := by
    rw [h] at hdue
    cases hdue
  text hsome := by
    rw [h] at hsome
    cases hsome

/-- A call of `updateScreen` for the session. -/
theorem LabelInv.updateScreen (h : LabelInv inTime s) (hle : inTime ≤ s.now) :
    LabelInv inTime { s with label := s.label.updateScreen true inTime s.now } where
  tracks due hdue := by
    have hdue' : s.label.timer.getD (s.now + 60000) = due := by
      rw [ElapsedTime.timer_updateScreen] at hdue
      exact Option.some.inj hdue
    have hphase : s.now ≤ due ∧ due ≤ s.now + 60000 := by
      cases htimer : s.label.timer with
      | none =>
          -- the timer is scheduled by this call
          rw [htimer, Option.getD_none] at hdue'
          omega
      | some due' =>
          rw [htimer, Option.getD_some] at hdue'
          have htracks := h.tracks due' htimer
          rw [hdue'] at htracks
          exact ⟨htracks.le_due, htracks.due_le⟩
    rw [ElapsedTime.counter_updateScreen hle]
    exact (ElapsedTime.counts_minutes inTime).tracks hphase.1 hphase.2
  text _ := ElapsedTime.elapsedTime_updateScreen

/-- **Every action keeps the label right.** -/
theorem LabelInv.step (h : LabelInv inTime s) {a : Action} (ha : Refreshes inTime s a)
    (ht : s.step a = some t) : LabelInv inTime t := by
  cases a with
  | wait moment =>
      simp only [Clocked.step, Option.ite_none_right_eq_some] at ht
      obtain ⟨⟨hle, hdue⟩, ht⟩ := ht
      cases ht
      exact ⟨fun due htimer => (h.tracks due htimer).wait hle (hdue due htimer), h.text⟩
  | updateScreen recording inTime' =>
      obtain ⟨rfl, rfl, hle⟩ := ha
      cases ht
      exact h.updateScreen hle
  | fire =>
      simp only [Clocked.step, Option.ite_none_right_eq_some] at ht
      obtain ⟨htimer, ht⟩ := ht
      cases ht
      refine ⟨fun due hdue => ?_, fun _ => rfl⟩
      obtain rfl := Option.some.inj hdue
      exact (h.tracks s.now htimer).tick (ElapsedTime.counts_minutes inTime)

/-- A whole run of a session. -/
theorem LabelInv.run (h : LabelInv inTime s) {acts : List Action}
    (hacts : Execution.Along Clocked.step (Refreshes inTime) s acts)
    (hrun : Execution.run Clocked.step s acts = some t) : LabelInv inTime t :=
  Execution.run_invariant_along (fun _ _ _ hI hG ht => hI.step hG ht) h hacts hrun

/-- The counter of a label that is right. -/
theorem LabelInv.near (h : LabelInv inTime s) (hsome : s.label.timer.isSome) :
    |s.label.counter - (s.now - inTime) / 60000| ≤ 1 := by
  obtain ⟨due, hdue⟩ := Option.isSome_iff_exists.1 hsome
  exact (h.tracks due hdue).abs_sub_le (ElapsedTime.counts_minutes inTime)

/-- **The elapsed time does not drift**: from the call of `updateScreen` on that starts the timer,
the counter is wrong by one minute at most. -/
theorem counter_near {inTime : ℤ} {s t : Clocked} {acts : List Action}
    (htimer : s.label.timer = none)
    (hacts : Execution.Along step (Refreshes inTime) s acts)
    (hrun : Execution.run step s acts = some t) (hsome : t.label.timer.isSome) :
    |t.label.counter - (t.now - inTime) / 60000| ≤ 1 :=
  ((LabelInv.of_invalid htimer).run hacts hrun).near hsome

/-- A session that started at `0` is noticed half a minute later; the counter is computed anew at
the first full minute, and the timer fires half a minute after that. -/
def earlyTick : List Action :=
  [.wait 30000, .updateScreen true 0, .wait 60000, .updateScreen true 0, .wait 90000, .fire]

theorem counter_near_earlyTick : ∃ t, Execution.run step ⟨0, .initial⟩ earlyTick = some t ∧
    |t.label.counter - (t.now - 0) / 60000| ≤ 1 := by
  obtain ⟨t, ht, htimer⟩ : ∃ t, Execution.run step ⟨0, .initial⟩ earlyTick = some t ∧
      t.label.timer.isSome := Execution.exists_run (by decide)
  exact ⟨t, ht, counter_near rfl (by decide) ht htimer⟩

/-- The bound is attained: the counter is ahead by a minute then. -/
example : (Execution.run step ⟨0, .initial⟩ earlyTick).map
    (fun t => (t.label.counter, (t.now - 0) / 60000)) = some (2, 1) := by decide

end Clocked

/-! ### The calls of a screen -/

namespace RecordViewController

/-- The arguments that the observer passes to `updateScreen`. -/
def observed? (recording : Bool) (snapshot : Hours) : Option (Bool × ℤ) :=
  if snapshot.exists? then
    snapshot.numSessions.map fun numSessions =>
      snapshot.children.entries.foldl (observeChild numSessions) (recording, 0)
  else some (recording, 0)

theorem viewDidLoadObserver_eq (vc : RecordViewController) (snapshot : Hours) :
    vc.viewDidLoadObserver snapshot = (observed? vc.recording snapshot).map fun args =>
      { vc with recording := args.1, screen := updateScreen args.1 args.1 args.2 } := by
  rw [viewDidLoadObserver, observed?]
  split_ifs
  · cases snapshot.numSessions with
    | none => rfl
    | some numSessions => rfl
  · rfl

/-- The time that the second loop of the observer leaves, where all children under the key have the
same one. -/
theorem foldl_observeChild_snd {numSessions inTime : ℤ}
    {l : List (Sigma fun _ : String => SessionNode)}
    (hl : ∀ child ∈ l, swiftInt child.1 = some (numSessions + 1) → child.2.inTime? = some inTime)
    (acc : Bool × ℤ)
    (hfound : acc.2 = inTime ∨ ∃ child ∈ l, swiftInt child.1 = some (numSessions + 1)) :
    (l.foldl (observeChild numSessions) acc).2 = inTime := by
  induction l generalizing acc with
  | nil =>
      rcases hfound with hacc | ⟨child, hmem, -⟩
      · exact hacc
      · cases hmem
  | cons child l ih =>
      rw [List.forall_mem_cons] at hl
      rw [List.foldl_cons]
      refine ih hl.2 _ ?_
      by_cases hkey : swiftInt child.1 = some (numSessions + 1)
      · left
        rw [observeChild, if_pos hkey, hl.1 hkey, Option.getD_some]
      · rw [observeChild, if_neg hkey]
        refine hfound.imp_right ?_
        rintro ⟨child', hmem, hkey'⟩
        rcases List.mem_cons.1 hmem with rfl | hmem
        · exact absurd hkey' hkey
        · exact ⟨child', hmem, hkey'⟩

/-- **The observer passes the check-in that the snapshot shows**, whatever the flag was. -/
theorem observed?_eq {snapshot : Hours} (hc : snapshot.Canonical) {inTime : ℤ}
    (hin : snapshot.checkIn? = some inTime) (recording : Bool) :
    observed? recording snapshot = some (true, inTime) := by
  obtain ⟨n, hn, hin⟩ := Option.bind_eq_some_iff.1 hin
  obtain ⟨c, hchild, hc'⟩ := Option.bind_eq_some_iff.1 hin
  have hexists : snapshot.exists? = true := by simp [Hours.exists?, hn]
  have hany := any_swiftInt_iff hc (n + 1)
  rw [hchild, Option.isSome_some] at hany
  have hkey : ∀ child ∈ snapshot.children.entries, swiftInt child.1 = some (n + 1) →
      child.2.inTime? = some inTime := by
    intro child hmem hkey
    obtain ⟨k, hk⟩ := hc child.1 (AList.mem_keys.2 (List.mem_keys_of_mem hmem))
    rw [hk, swiftInt_childKey, Option.some.injEq] at hkey
    have hlookup : snapshot.children.lookup child.1 = some child.2 :=
      AList.mem_lookup_iff.2 hmem
    rw [hk, hkey, ← Hours.child, hchild, Option.some.injEq] at hlookup
    rw [← hlookup]
    exact hc'
  have hfst := foldl_observeChild_fst n snapshot.children.entries (recording, 0)
  have hsnd := foldl_observeChild_snd hkey (recording, 0) (.inr (by simpa using hany))
  rw [observed?, if_pos hexists, hn, Option.map_some, Option.some.injEq]
  refine Prod.ext ?_ hsnd
  rw [hfst, hany, Bool.or_true]

/-- The arguments of the call of `updateScreen` that an event makes, if it makes one. -/
def call? (vc : RecordViewController) : Event → Option (Bool × ℤ)
  | .observe => vc.events.head?.bind (observed? vc.recording)
  | .outer i now => vc.outer[i]?.bind fun read => read.bind fun snapshot =>
      snapshot.numSessions.map fun _ => (vc.recording, if vc.recording then now else 0)
  | _ => none

/-- The event ends the life of the screen: another one is loaded, or the app is ended. -/
def Replaced (vc' : RecordViewController) (e : Event) : Prop := e = .launch ∨ vc'.status = .crashed

instance (vc' : RecordViewController) (e : Event) : Decidable (vc'.Replaced e) := by
  unfold Replaced
  infer_instance

/-- **What an event calls** is what the other labels of the screen are set by. -/
theorem screen_of_transition {view : Hours} {vc vc' : RecordViewController} {e : Event}
    {ws : List Write} (h : Transition view vc e vc' ws) (hlive : ¬ vc'.Replaced e) :
    vc'.screen = (vc.call? e).elim vc.screen fun args => updateScreen args.1 args.1 args.2 := by
  cases h with
  | launch => exact absurd (.inl rfl) hlive
  | observeTrap _ _ | outerTrap _ _ | innerTrap _ _ | yesTrap _ _ => exact absurd (.inr rfl) hlive
  | @observe snapshot rest vc' hevents hvc' =>
      rw [viewDidLoadObserver_eq, Option.map_eq_some_iff] at hvc'
      obtain ⟨args, hargs, rfl⟩ := hvc'
      rw [call?, hevents, List.head?_cons, Option.bind_some]
      rw [hargs]
      rfl
  | start hi hn hrec => simp [call?, hi, hn, hrec]
  | stop hi hn hrec => simp [call?, hi, hn, hrec]
  | _ => rfl

end RecordViewController

/-! ### The screen and its clock -/

/-- The record screen of a device with the label of the elapsed time. -/
structure TimedScreen where
  vc : RecordViewController
  clocked : Clocked

namespace TimedScreen

open RecordViewController (Event Transition)

/-- What happens to the screen of a device. -/
inductive Action
  /-- An event of the screen, when the device sees the record as `view`. -/
  | event (view : Hours) (e : Event)
  /-- The observer is given snapshots. -/
  | notify (snapshots : List Hours)
  | wait (moment : ℤ)
  | fire

/-- The clock that the callback of an event reads. -/
def time? : Event → Option ℤ
  | .outer _ now | .inner _ now => some now
  | _ => none

/-- The label after an event that has left the screen in the state `vc'`. -/
def labelAfter (s : TimedScreen) (e : Event) (vc' : RecordViewController) : ElapsedTime :=
  if vc'.Replaced e then .initial
  else (s.vc.call? e).elim s.clocked.label fun args =>
    s.clocked.label.updateScreen args.1 args.2 s.clocked.now

/-- **One action.** -/
def step (s : TimedScreen) : Action → Option TimedScreen
  | .event view e =>
      if ∀ now ∈ time? e, now = s.clocked.now then
        (RecordViewController.step view s.vc e).map fun r =>
          ⟨r.1, { s.clocked with label := s.labelAfter e r.1 }⟩
      else none
  | .notify snapshots => some { s with vc := s.vc.notify snapshots }
  | .wait moment => (s.clocked.step (.wait moment)).map fun c => { s with clocked := c }
  | .fire => (s.clocked.step .fire).map fun c => { s with clocked := c }

/-- The record shows the check-in `inTime`. -/
def Shows (inTime : ℤ) (h : Hours) : Prop := h.Canonical ∧ h.checkIn? = some inTime

/-- The screen belongs to a session with the check-in `inTime` that stays in progress: whatever
snapshot it is given shows the check-in, and if the read of a tap is delivered, it is the one that
starts the session. -/
def Watches (inTime : ℤ) (s : TimedScreen) : Action → Prop
  | .event view e => (e = .attach → Shows inTime view) ∧
      ((s.vc.call? e).isSome → inTime ≤ s.clocked.now) ∧
      ∀ i now, e = .outer i now → s.vc.recording = true ∧ now = inTime
  | .notify snapshots => ∀ h ∈ snapshots, Shows inTime h
  | .wait _ | .fire => True

/-- What holds of the screen of a session. -/
structure ScreenInv (inTime : ℤ) (s : TimedScreen) : Prop where
  label : s.clocked.LabelInv inTime
  events : ∀ h ∈ s.vc.events, Shows inTime h

variable {inTime : ℤ} {s t : TimedScreen}

/-- Every call of the screen is for the session. -/
theorem call?_eq (h : ScreenInv inTime s) {view : Hours} {e : Event}
    (hwatches : Watches inTime s (.event view e)) {args : Bool × ℤ}
    (hcall : s.vc.call? e = some args) : args = (true, inTime) := by
  obtain ⟨-, -, hstart⟩ := hwatches
  cases e with
  | observe =>
      obtain ⟨snapshot, hsnapshot, hargs⟩ := Option.bind_eq_some_iff.1 hcall
      obtain ⟨hc, hin⟩ := h.events snapshot (List.mem_of_mem_head? hsnapshot)
      rw [RecordViewController.observed?_eq hc hin] at hargs
      exact (Option.some.inj hargs).symm
  | outer i now =>
      obtain ⟨hrec, rfl⟩ := hstart i now rfl
      obtain ⟨read, -, hcall⟩ := Option.bind_eq_some_iff.1 hcall
      obtain ⟨snapshot, -, hcall⟩ := Option.bind_eq_some_iff.1 hcall
      obtain ⟨n, -, rfl⟩ := Option.map_eq_some_iff.1 hcall
      rw [hrec, if_pos rfl]
  | _ => cases hcall

/-- The label after an event. -/
theorem labelInv_labelAfter (h : ScreenInv inTime s) {view : Hours} {e : Event}
    (hwatches : Watches inTime s (.event view e)) (vc' : RecordViewController) :
    Clocked.LabelInv inTime { s.clocked with label := s.labelAfter e vc' } := by
  unfold labelAfter
  split_ifs
  · exact .of_invalid rfl
  · cases hcall : s.vc.call? e with
    | none => exact h.label
    | some args =>
        obtain rfl := call?_eq h hwatches hcall
        exact h.label.updateScreen (hwatches.2.1 (by rw [hcall]; rfl))

/-- **Every action keeps the screen right.** -/
theorem ScreenInv.step (h : ScreenInv inTime s) {a : Action} (ha : Watches inTime s a)
    (ht : s.step a = some t) : ScreenInv inTime t := by
  cases a with
  | event view e =>
      simp only [TimedScreen.step, Option.ite_none_right_eq_some] at ht
      obtain ⟨-, ht⟩ := ht
      obtain ⟨⟨vc', ws⟩, hvc', rfl⟩ := Option.map_eq_some_iff.1 ht
      refine ⟨labelInv_labelAfter h ha vc', fun h' hh' => ?_⟩
      have htr := RecordViewController.transition_of_step hvc'
      rcases RecordViewController.events_of_transition htr h' hh' with hh' | ⟨rfl, rfl⟩
      · exact h.events h' hh'
      · exact ha.1 rfl
  | notify snapshots =>
      cases ht
      refine ⟨h.label, fun h' hh' => ?_⟩
      exact (RecordViewController.mem_events_notify _ _ hh').elim (h.events h') (ha h')
  | wait moment =>
      obtain ⟨c, hc, rfl⟩ := Option.map_eq_some_iff.1 ht
      exact ⟨h.label.step (a := .wait moment) trivial hc, h.events⟩
  | fire =>
      obtain ⟨c, hc, rfl⟩ := Option.map_eq_some_iff.1 ht
      exact ⟨h.label.step (a := .fire) trivial hc, h.events⟩

/-- **The screen of a session in progress** shows its minutes, or one more or less. -/
theorem counter_near_of_watches {acts : List Action}
    (htimer : s.clocked.label.timer = none) (hevents : s.vc.events = [])
    (hacts : Execution.Along TimedScreen.step (Watches inTime) s acts)
    (hrun : Execution.run TimedScreen.step s acts = some t)
    (hsome : t.clocked.label.timer.isSome) :
    |t.clocked.label.counter - (t.clocked.now - inTime) / 60000| ≤ 1 := by
  have hinv : ScreenInv inTime t :=
    Execution.run_invariant_along (fun _ _ _ hI hG ht => hI.step hG ht)
      ⟨.of_invalid htimer, by rw [hevents]; exact fun _ h => absurd h List.not_mem_nil⟩ hacts hrun
  exact hinv.label.near hsome

end TimedScreen

end StudyHours
