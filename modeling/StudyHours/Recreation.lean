/-
**The record screen of the Android client when it is recreated.**

The system may destroy a `HomeFragment` at any time and create it again, when the device is turned,
say.  What the fragment has put into a bundle is given to the new instance, and the toggle is
restored by itself: if it was on, it is turned on, and the listener is called as if the user had
tapped it.  The fragment tells the two apart by its flags `inherited` and `WasRunning`.

To the user the screen is a stopwatch, which is turned on and off and knows nothing of instances.

Main definitions:

* `StudyHours.Stopwatch` — what the user sees: the specification;
* `StudyHours.HomeFragment.recreate` — the life of an instance ends and that of the next one begins;
* `StudyHours.HomeFragment.Shows` — the fragment shows the stopwatch.

Main results:

* `StudyHours.HomeFragment.shows_toggle`, `shows_recreate` — a tap turns the stopwatch on or off,
  and a recreation leaves it alone;
* `StudyHours.HomeFragment.shows_run` — **no run of taps and recreations loses a session**.
-/

import Mathlib
import StudyHours.Execution
import StudyHours.HomeFragment

set_option relaxedAutoImplicit false
set_option autoImplicit false

namespace StudyHours

/-! ### What the user sees -/

/-- A stopwatch that is off shows how long it ran; one that is on has been turned on when the two
clocks read `base` and `wall`. -/
inductive Stopwatch
  | off (duration : ℤ)
  | on (base wall : ℤ)
deriving DecidableEq, Repr

/-- What happens to the record screen; each call of a clock is given its own reading. -/
inductive ScreenEvent
  /-- The user taps the toggle. -/
  | toggle (elapsedRealtime currentTimeMillis : ℤ)
  /-- The fragment is recreated; the last two readings are those of the call of the listener. -/
  | recreate (elapsedRealtime restoreElapsedRealtime restoreCurrentTimeMillis : ℤ)
deriving DecidableEq, Repr

namespace Stopwatch

/-- A tap starts or stops the stopwatch, a recreation does nothing. -/
def step : Stopwatch → ScreenEvent → Stopwatch
  | off _, .toggle elapsedRealtime currentTimeMillis => on elapsedRealtime currentTimeMillis
  | on base _, .toggle elapsedRealtime _ => off (elapsedRealtime - base)
  | w, .recreate _ _ _ => w

/-- The stopwatch after what has happened since the screen was first opened. -/
def after (events : List ScreenEvent) : Stopwatch := events.foldl step (off 0)

end Stopwatch

/-! ### The fragment -/

/-- The bundle of a fragment. -/
structure Bundle where
  clock : ℤ
  running : Bool
  offset : ℤ
  checkIn : ℤ
deriving DecidableEq, Repr

namespace HomeFragment

/-- `onSaveInstanceState`. -/
def onSaveInstanceState (f : HomeFragment) : Bundle :=
  ⟨f.base, f.isChecked, f.stopOffset, f.checkIn⟩

/-- `onActivityCreated` with a bundle. -/
def onActivityCreated (f : HomeFragment) (savedInstanceState : Bundle) (elapsedRealtime : ℤ) :
    HomeFragment :=
  let f := { f with
    inherited := true
    wasRunning := savedInstanceState.running
    stopOffset := savedInstanceState.offset
    checkIn := savedInstanceState.checkIn }
  if f.wasRunning then
    { f with base := savedInstanceState.clock, studySession := some ⟨f.checkIn, 0⟩ }
  else
    { f with base := elapsedRealtime - f.stopOffset }

/-- The toggle of a new view is off; where the saved one was on, it is turned on, which calls the
listener. -/
def restoreToggle (f : HomeFragment) (savedInstanceState : Bundle)
    (elapsedRealtime currentTimeMillis : ℤ) : Option HomeFragment :=
  if savedInstanceState.running then
    onCheckedChanged { f with isChecked := true } true elapsedRealtime currentTimeMillis
  else
    some f

/-- A new instance, with no popups; the number of sessions started is not a field of it. -/
def newInstance (f : HomeFragment) : HomeFragment := { initial with recordings := f.recordings }

/-- The fragment is recreated. -/
def recreate (f : HomeFragment) (elapsedRealtime restoreElapsedRealtime
    restoreCurrentTimeMillis : ℤ) : Option HomeFragment :=
  let savedInstanceState := f.onSaveInstanceState
  (f.newInstance.onActivityCreated savedInstanceState elapsedRealtime).restoreToggle
    savedInstanceState restoreElapsedRealtime restoreCurrentTimeMillis

/-- What an event does to the fragment. -/
def step (f : HomeFragment) : ScreenEvent → Option HomeFragment
  | .toggle elapsedRealtime currentTimeMillis => f.toggle elapsedRealtime currentTimeMillis
  | .recreate elapsedRealtime restoreElapsedRealtime restoreCurrentTimeMillis =>
      f.recreate elapsedRealtime restoreElapsedRealtime restoreCurrentTimeMillis

/-! ### What the fragment shows -/

/-- **The fragment shows the stopwatch.**  While it is on, the session, the field `checkIn` and the
chronometer go back to the tap that turned it on; while it is off, the duration is kept, and the
next call of the listener will be taken for a tap. -/
def Shows (f : HomeFragment) : Stopwatch → Prop
  | .on base wall => f.isChecked = true ∧ f.base = base ∧ f.checkIn = wall ∧
      ∃ s, f.studySession = some s ∧ s.inTime = wall
  | .off duration => f.isChecked = false ∧ f.stopOffset = duration ∧
      (!f.inherited || !f.wasRunning) = true

variable {f f' : HomeFragment} {w : Stopwatch}

theorem shows_initial : initial.Shows (.off 0) := ⟨rfl, rfl, rfl⟩

/-- A tap on a stopwatch that is off starts a new session. -/
theorem toggle_off {duration : ℤ} (h : f.Shows (.off duration))
    (elapsedRealtime currentTimeMillis : ℤ) :
    f.toggle elapsedRealtime currentTimeMillis = some { f with
      isChecked := true
      base := elapsedRealtime
      studySession := some ⟨currentTimeMillis, 0⟩
      checkIn := currentTimeMillis
      inherited := false
      recordings := f.recordings + 1 } := by
  obtain ⟨hoff, -, hflags⟩ := h
  simp only [toggle, onCheckedChanged, hoff, Bool.not_false, if_true, hflags]

/-- A tap on a stopwatch that is on ends its session. -/
theorem toggle_on {base wall : ℤ} (h : f.Shows (.on base wall))
    (elapsedRealtime currentTimeMillis : ℤ) :
    f.toggle elapsedRealtime currentTimeMillis = some { f with
      isChecked := false
      stopOffset := elapsedRealtime - base
      studySession := some ⟨wall, currentTimeMillis⟩
      inherited := false
      popups := if currentTimeMillis - wall ≥ 1800000 then
          f.popups ++ [⟨currentTimeMillis - wall, ⟨wall, currentTimeMillis⟩, f.recordings⟩]
        else f.popups } := by
  obtain ⟨hon, rfl, -, s, hs, rfl⟩ := h
  simp only [toggle, onCheckedChanged, hon, Bool.not_true, Bool.false_eq_true, if_false, hs,
    Option.map_some]

/-- **A tap turns the stopwatch on or off.** -/
theorem shows_toggle (h : f.Shows w) (elapsedRealtime currentTimeMillis : ℤ) :
    ∃ f', f.toggle elapsedRealtime currentTimeMillis = some f' ∧
      f'.Shows (w.step (.toggle elapsedRealtime currentTimeMillis)) := by
  cases w with
  | off duration => exact ⟨_, toggle_off h _ _, rfl, rfl, rfl, _, rfl, rfl⟩
  | on base wall => exact ⟨_, toggle_on h _ _, rfl, rfl, rfl⟩

/-- A recreation while the stopwatch is off: the chronometer is set to show the duration. -/
theorem recreate_off {duration : ℤ} (h : f.Shows (.off duration))
    (elapsedRealtime restoreElapsedRealtime restoreCurrentTimeMillis : ℤ) :
    f.recreate elapsedRealtime restoreElapsedRealtime restoreCurrentTimeMillis =
      some { f.newInstance with
        inherited := true
        wasRunning := false
        stopOffset := duration
        checkIn := f.checkIn
        base := elapsedRealtime - duration } := by
  obtain ⟨hoff, rfl, -⟩ := h
  simp only [recreate, restoreToggle, onActivityCreated, onSaveInstanceState, hoff,
    Bool.false_eq_true, if_false]

/-- A recreation while the stopwatch is on: the call of the listener is not taken for a tap. -/
theorem recreate_on {base wall : ℤ} (h : f.Shows (.on base wall))
    (elapsedRealtime restoreElapsedRealtime restoreCurrentTimeMillis : ℤ) :
    f.recreate elapsedRealtime restoreElapsedRealtime restoreCurrentTimeMillis =
      some { f.newInstance with
        inherited := false
        wasRunning := true
        stopOffset := f.stopOffset
        checkIn := wall
        base := base
        studySession := some ⟨wall, 0⟩
        isChecked := true } := by
  obtain ⟨hon, rfl, rfl, -⟩ := h
  simp only [recreate, restoreToggle, onActivityCreated, onSaveInstanceState, hon, if_true,
    onCheckedChanged, Bool.not_true, Bool.or_self, Bool.false_eq_true, if_false]

/-- **A recreation leaves the stopwatch alone.** -/
theorem shows_recreate (h : f.Shows w)
    (elapsedRealtime restoreElapsedRealtime restoreCurrentTimeMillis : ℤ) :
    ∃ f', f.recreate elapsedRealtime restoreElapsedRealtime restoreCurrentTimeMillis = some f' ∧
      f'.Shows w := by
  cases w with
  | off duration => exact ⟨_, recreate_off h _ _ _, rfl, rfl, rfl⟩
  | on base wall => exact ⟨_, recreate_on h _ _ _, rfl, rfl, rfl, _, rfl, rfl⟩

theorem shows_step (h : f.Shows w) (e : ScreenEvent) :
    ∃ f', f.step e = some f' ∧ f'.Shows (w.step e) := by
  cases e with
  | toggle elapsedRealtime currentTimeMillis => exact shows_toggle h _ _
  | recreate elapsedRealtime restoreElapsedRealtime restoreCurrentTimeMillis =>
      cases w with
      | off duration => exact shows_recreate h _ _ _
      | on base wall => exact shows_recreate h _ _ _

/-! ### Runs -/

/-- What the next tap and the next recreation find: a stop measures from the tap that turned the
stopwatch on, a start begins a new session, and a recreation shows the duration again. -/
structure Faithful (f : HomeFragment) (w : Stopwatch) : Prop where
  shows : f.Shows w
  stop : ∀ base wall, w = .on base wall → ∀ elapsedRealtime now, ∃ f',
    f.toggle elapsedRealtime now = some f' ∧ f'.studySession = some ⟨wall, now⟩ ∧
      f'.stopOffset = elapsedRealtime - base ∧
      (now - wall ≥ 1800000 → ∃ p ∈ f'.popups, p.diff = now - wall)
  start : ∀ duration, w = .off duration → ∀ elapsedRealtime now, ∃ f',
    f.toggle elapsedRealtime now = some f' ∧ f'.studySession = some ⟨now, 0⟩ ∧
      f'.checkIn = now ∧ f'.base = elapsedRealtime ∧ f'.recordings = f.recordings + 1
  shown : ∀ duration, w = .off duration → ∀ elapsedRealtime e now, ∃ f',
    f.recreate elapsedRealtime e now = some f' ∧ elapsedRealtime - f'.base = duration

theorem Shows.faithful (h : f.Shows w) : f.Faithful w where
  shows := h
  stop base wall hw elapsedRealtime now := by
    subst hw
    refine ⟨_, toggle_on h elapsedRealtime now, rfl, rfl, fun hlong => ?_⟩
    rw [if_pos hlong]
    exact ⟨_, List.mem_append_right _ (List.mem_singleton.2 rfl), rfl⟩
  start duration hw elapsedRealtime now := by
    subst hw
    exact ⟨_, toggle_off h elapsedRealtime now, rfl, rfl, rfl, rfl⟩
  shown duration hw elapsedRealtime e now := by
    subst hw
    exact ⟨_, recreate_off h elapsedRealtime e now, sub_sub_cancel _ _⟩

/-- **No run of taps and recreations loses a session**: after any of them, in any order and at any
readings of the clocks, no exception has occurred, and the fragment shows the stopwatch that has
been tapped alike and never been recreated. -/
theorem shows_run (events : List ScreenEvent) : ∃ f,
    Execution.run step initial events = some f ∧ f.Faithful (Stopwatch.after events) := by
  have hsim : ∀ f w e, Shows f w → ∃ f', step f e = some f' ∧ f'.Shows (w.step e) :=
    fun _ _ e h => shows_step h e
  obtain ⟨f, hrun, hshows⟩ := Execution.run_simulation hsim shows_initial events
  exact ⟨f, hrun, hshows.faithful⟩

/-- Two recreations in the middle of a session, and one after it, which shows its duration again. -/
example : ((Execution.run step initial [.toggle 10 1000, .recreate 20 21 1021, .recreate 30 31 1031,
    .toggle 40 1040, .recreate 50 51 1051]).map fun f => (f.stopOffset, 50 - f.base)) =
      some (30, 30) := by decide

end HomeFragment

end StudyHours
