/-
**The main activity of the Android client.**

`MainActivity` has a drawer with four items.  Three of them open a new fragment, in place of the one
that is shown, which goes to the back stack; a tap on a row of the list of all accounts opens the
history of that account in the same way.  The back button closes the drawer if it is open, and
otherwise removes the fragment that is shown; after the last one nothing is shown, and after that
the activity ends.  The fourth item signs the user out and ends the activity.

A fragment on the back stack has no view, but its instance is kept.  When it is shown again its view
is created again, with a new chronometer, which shows 00:00, and the state of the toggle is restored
into it: if it was on, the listener is called as if the user had tapped it.  The instance has no
bundle then, so its flags say that it has not been inherited.

When the system recreates the activity, every instance saves its bundle and is destroyed, and a new
one takes its place.  The one that is shown gets its view at once, the others when they are shown
again.  A new instance that has had no view yet has no chronometer: if the activity is recreated
once more before it is shown, a record screen is asked for its bundle all the same, which ends the
app.

Main definitions:

* `StudyHours.Fragment`, `StudyHours.SavedFragment` — a fragment, and what is saved of it;
* `StudyHours.HomeFragment.resumeView` — the view of an instance that was kept is created again;
* `StudyHours.BackStackEntry` — a fragment on the back stack;
* `StudyHours.MainActivity`, `StudyHours.MainActivity.step` — the activity.

Main results:

* `StudyHours.MainActivity.Trans`, `StudyHours.MainActivity.trans_of_step` — what an action does.
-/

import Mathlib
import StudyHours.BackStack
import StudyHours.GalleryFragment
import StudyHours.Recreation
import StudyHours.SistersHoursFragment

set_option relaxedAutoImplicit false
set_option autoImplicit false

namespace StudyHours

open SistersHoursFragment (Load)

/-! ### Fragments -/

/-- A fragment that has a view, or has had one.  While the toggle of a record screen is off, its
chronometer shows `shown`: what it read when it was last set or stopped.  A history has its account
in its arguments; `none` is `null`. -/
inductive Fragment
  | home (f : HomeFragment) (shown : ℤ)
  | gallery (UID : Option String) (f : GalleryFragment)
  | sistersHours (f : SistersHoursFragment)

/-- What is saved of a fragment whose instance is destroyed.  The number of recordings is not
saved, it only tells them apart. -/
inductive SavedFragment
  | home (savedInstanceState : Bundle) (recordings : ℕ)
  | gallery (UID : Option String)
  | sistersHours

/-- The readings of the clocks when a view is created: the first one is that of `onCreateView` and
`onActivityCreated`, the other two are those of the listener of the toggle. -/
structure Clocks where
  elapsedRealtime : ℤ
  restoreElapsedRealtime : ℤ
  restoreCurrentTimeMillis : ℤ
deriving DecidableEq

/-- The view of an instance that was kept is created again.  The chronometer is a new one, and the
toggle is off until its state is restored. -/
def HomeFragment.resumeView (f : HomeFragment) (clocks : Clocks) : Option HomeFragment :=
  let view := { f with base := clocks.elapsedRealtime, isChecked := false }
  if f.isChecked then
    onCheckedChanged { view with isChecked := true } true clocks.restoreElapsedRealtime
      clocks.restoreCurrentTimeMillis
  else
    some view

namespace Fragment

/-- `onSaveInstanceState`, and the arguments. -/
def save : Fragment → SavedFragment
  | home f _ => .home f.onSaveInstanceState f.recordings
  | gallery UID _ => .gallery UID
  | sistersHours _ => .sistersHours

/-- The view is created again.  A new chronometer shows 00:00.  A history reads its account again
into a new list; the list of all accounts has no rows until it is read again, but it has its map. -/
def resumeView (clocks : Clocks) : Fragment → Option Fragment
  | home f _ => (f.resumeView clocks).map fun f => home f 0
  | gallery UID _ => some (gallery UID GalleryFragment.onCreateView)
  | sistersHours f => some (sistersHours { f with infoArray := [] })

variable (format : Formats) (double : DoubleToString)

/-- `onDataChange` of the listener that the fragment has registered; the record screen has none. -/
def onDataChange (load : Load) : Fragment → Option Fragment
  | home _ _ => none
  | gallery UID f => (f.onDataChange format load.children).map (gallery UID)
  | sistersHours f => (f.onDataChange double load.keySet load.children).map sistersHours

end Fragment

/-- A new instance is created from what has been saved; its chronometer is set. -/
def SavedFragment.restore (clocks : Clocks) : SavedFragment → Option Fragment
  | home savedInstanceState recordings =>
      ((({ HomeFragment.initial with recordings } : HomeFragment).onActivityCreated
        savedInstanceState clocks.elapsedRealtime).restoreToggle savedInstanceState
        clocks.restoreElapsedRealtime clocks.restoreCurrentTimeMillis).map fun f =>
          .home f (clocks.elapsedRealtime - f.base)
  | gallery UID => some (.gallery UID GalleryFragment.onCreateView)
  | sistersHours => some (.sistersHours SistersHoursFragment.initial)

/-- The instance is destroyed and the next one is created. -/
def Fragment.recreate (clocks : Clocks) (x : Fragment) : Option Fragment := x.save.restore clocks

/-- For the record screen this is the recreation of the fragment. -/
theorem Fragment.recreate_home (clocks : Clocks) (f : HomeFragment) (shown : ℤ) :
    (home f shown).recreate clocks = (f.recreate clocks.elapsedRealtime
      clocks.restoreElapsedRealtime clocks.restoreCurrentTimeMillis).map fun f' =>
        home f' (clocks.elapsedRealtime - f'.base) := rfl

/-! ### The back stack -/

/-- A fragment on the back stack: an instance that has had a view, or what has been saved for one
that has not. -/
inductive BackStackEntry
  | kept (x : Fragment)
  | saved (x : SavedFragment)

namespace BackStackEntry

/-- The fragment is shown again. -/
def uncover (clocks : Clocks) : BackStackEntry → Option Fragment
  | kept x => x.resumeView clocks
  | saved x => x.restore clocks

/-- The activity is recreated.  A record screen that has had no view yet has no chronometer to read,
which is an exception; the other fragments do not override `onSaveInstanceState`. -/
def save : BackStackEntry → Option BackStackEntry
  | kept x => some (saved x.save)
  | saved (.home _ _) => none
  | saved x => some (saved x)

/-- A listener of an instance that is kept is run; one of an instance that has been destroyed has no
context and ends the app. -/
def onDataChange (format : Formats) (double : DoubleToString) (load : Load) :
    BackStackEntry → Option BackStackEntry
  | kept x => (x.onDataChange format double load).map kept
  | saved _ => none

end BackStackEntry

/-! ### The activity -/

/-- The items of the drawer. -/
inductive MenuItem
  | navRecord
  | navHistory
  | navSistersHours
  | navLogout
deriving DecidableEq

/-- The activity. -/
structure MainActivity where
  /-- The account id of `mFirebaseUser`. -/
  mFirebaseUser : Option String
  fragments : BackStack Fragment BackStackEntry
  title : String
  isDrawerOpen : Bool
  /-- The activity has ended. -/
  finished : Bool

namespace MainActivity

/-- What happens to the activity. -/
inductive Action
  | toggle (elapsedRealtime currentTimeMillis : ℤ)
  | openDrawer
  | closeDrawer
  | onNavigationItemSelected (item : MenuItem)
  | onBackPressed (clocks : Clocks)
  | onItemClick (position : ℕ)
  /-- A listener of the fragment `i` is given its snapshot; the one that is shown is `0`. -/
  | onDataChange (i : ℕ) (load : Load)
  | recreate (clocks : Clocks)

/-- `onCreate` when the activity is started. -/
def onCreate (mFirebaseUser : Option String) : MainActivity :=
  { mFirebaseUser
    fragments := if mFirebaseUser.isSome then .screens (.home .initial 0) [] else .blank
    title := "StudyHours"
    isDrawerOpen := false
    finished := mFirebaseUser.isNone }

/-- A new fragment replaces the one that is shown, which goes to the back stack. -/
def replace (s : MainActivity) (x : Fragment) : MainActivity :=
  { s with fragments := s.fragments.push .kept x }

/-- `displayView`. -/
def displayView (s : MainActivity) (title : String) (x : Fragment) : MainActivity :=
  { s.replace x with title, isDrawerOpen := false }

/-- `onNavigationItemSelected`. -/
def onNavigationItemSelected (s : MainActivity) : MenuItem → MainActivity
  | .navRecord => s.displayView "Record Hours" (.home .initial 0)
  | .navHistory =>
      s.displayView "Hours History" (.gallery s.mFirebaseUser GalleryFragment.onCreateView)
  | .navSistersHours => s.displayView "Sisters Hours" (.sistersHours .initial)
  | .navLogout => { s with mFirebaseUser := none, finished := true }

/-- The back button, when the drawer is closed. -/
def popBackStack (s : MainActivity) (clocks : Clocks) : Option MainActivity :=
  match s.fragments with
  | .blank => some { s with finished := true }
  | .screens _ _ => (s.fragments.pop (BackStackEntry.uncover clocks)).map fun fragments =>
      { s with fragments }

/-- The user taps the toggle of the record screen, and its chronometer starts or stops. -/
def tapToggle (elapsedRealtime currentTimeMillis : ℤ) : Fragment → Option Fragment
  | .home f _ => (f.toggle elapsedRealtime currentTimeMillis).map fun f =>
      .home f (elapsedRealtime - f.base)
  | _ => none

/-- The account that `onItemClick` puts into the arguments: what the map has for the text of the
row, which may be `null`. -/
def clicked (position : ℕ) : BackStack Fragment BackStackEntry → Option (Option String)
  | .screens (.sistersHours f) _ => f.infoArray[position]?.map fun text => f.map.lookup text
  | _ => none

variable (format : Formats) (double : DoubleToString)

/-- **One action.**  `none` if the action is not possible now, or ends in an exception.  An open
drawer covers the fragment. -/
def step (s : MainActivity) (a : Action) : Option MainActivity :=
  if s.finished then none else
  match a with
  | .toggle elapsedRealtime currentTimeMillis =>
      if s.isDrawerOpen then none else
      (s.fragments.onShown (tapToggle elapsedRealtime currentTimeMillis)).map fun fragments =>
        { s with fragments }
  | .openDrawer => if s.isDrawerOpen then none else some { s with isDrawerOpen := true }
  | .closeDrawer => if s.isDrawerOpen then some { s with isDrawerOpen := false } else none
  | .onNavigationItemSelected item =>
      if s.isDrawerOpen then some (s.onNavigationItemSelected item) else none
  | .onBackPressed clocks =>
      if s.isDrawerOpen then some { s with isDrawerOpen := false } else s.popBackStack clocks
  | .onItemClick position =>
      if s.isDrawerOpen then none else
      (clicked position s.fragments).map fun UID =>
        s.replace (.gallery UID GalleryFragment.onCreateView)
  | .onDataChange 0 load =>
      (s.fragments.onShown (Fragment.onDataChange format double load)).map fun fragments =>
        { s with fragments }
  | .onDataChange (i + 1) load =>
      (s.fragments.onCovered i (BackStackEntry.onDataChange format double load)).map
        fun fragments => { s with fragments }
  | .recreate clocks =>
      (s.fragments.mapScreens (Fragment.recreate clocks) BackStackEntry.save).map fun fragments =>
        { s with fragments, title := "StudyHours" }

/-! ### What an action does -/

/-- What an action does to an activity that has not ended. -/
inductive Trans (s : MainActivity) : Action → MainActivity → Prop
  | toggle {elapsedRealtime currentTimeMillis : ℤ} {fragments : BackStack Fragment BackStackEntry}
      (hclosed : s.isDrawerOpen = false)
      (h : s.fragments.onShown (tapToggle elapsedRealtime currentTimeMillis) = some fragments) :
      Trans s (.toggle elapsedRealtime currentTimeMillis) { s with fragments }
  | openDrawer (hclosed : s.isDrawerOpen = false) :
      Trans s .openDrawer { s with isDrawerOpen := true }
  | closeDrawer (hopen : s.isDrawerOpen = true) :
      Trans s .closeDrawer { s with isDrawerOpen := false }
  | onNavigationItemSelected (item : MenuItem) (hopen : s.isDrawerOpen = true) :
      Trans s (.onNavigationItemSelected item) (s.onNavigationItemSelected item)
  | backFromDrawer (clocks : Clocks) (hopen : s.isDrawerOpen = true) :
      Trans s (.onBackPressed clocks) { s with isDrawerOpen := false }
  | back {clocks : Clocks} {fragments : BackStack Fragment BackStackEntry}
      (hclosed : s.isDrawerOpen = false)
      (h : s.fragments.pop (BackStackEntry.uncover clocks) = some fragments) :
      Trans s (.onBackPressed clocks) { s with fragments }
  | finish (clocks : Clocks) (hclosed : s.isDrawerOpen = false) (h : s.fragments = .blank) :
      Trans s (.onBackPressed clocks) { s with finished := true }
  | onItemClick {position : ℕ} {UID : Option String} (hclosed : s.isDrawerOpen = false)
      (h : clicked position s.fragments = some UID) :
      Trans s (.onItemClick position) (s.replace (.gallery UID GalleryFragment.onCreateView))
  | onDataChange {load : Load} {fragments : BackStack Fragment BackStackEntry}
      (h : s.fragments.onShown (Fragment.onDataChange format double load) = some fragments) :
      Trans s (.onDataChange 0 load) { s with fragments }
  | onDataChangeCovered {i : ℕ} {load : Load} {fragments : BackStack Fragment BackStackEntry}
      (h : s.fragments.onCovered i (BackStackEntry.onDataChange format double load) =
        some fragments) :
      Trans s (.onDataChange (i + 1) load) { s with fragments }
  | recreate {clocks : Clocks} {fragments : BackStack Fragment BackStackEntry}
      (h : s.fragments.mapScreens (Fragment.recreate clocks) BackStackEntry.save =
        some fragments) :
      Trans s (.recreate clocks) { s with fragments, title := "StudyHours" }

variable {format double}

/-- **Inversion of an action.** -/
theorem trans_of_step {s t : MainActivity} {a : Action} (h : step format double s a = some t) :
    s.finished = false ∧ Trans format double s a t := by
  have hfin : s.finished = false := by
    by_contra hfin
    simp [step, hfin] at h
  refine ⟨hfin, ?_⟩
  rw [step.eq_def, if_neg (by simp [hfin])] at h
  cases a with
  | toggle elapsedRealtime currentTimeMillis =>
      dsimp only at h
      split_ifs at h with hdrawer
      obtain ⟨fragments, hf, rfl⟩ := Option.map_eq_some_iff.1 h
      exact .toggle (by simpa using hdrawer) hf
  | openDrawer =>
      dsimp only at h
      split_ifs at h with hdrawer
      cases h
      exact .openDrawer (by simpa using hdrawer)
  | closeDrawer =>
      dsimp only at h
      split_ifs at h with hdrawer
      cases h
      exact .closeDrawer hdrawer
  | onNavigationItemSelected item =>
      dsimp only at h
      split_ifs at h with hdrawer
      cases h
      exact .onNavigationItemSelected item hdrawer
  | onBackPressed clocks =>
      dsimp only at h
      split_ifs at h with hdrawer
      · cases h
        exact .backFromDrawer clocks hdrawer
      · rw [popBackStack] at h
        split at h
        · cases h
          exact .finish clocks (by simpa using hdrawer) ‹_›
        · obtain ⟨fragments, hf, rfl⟩ := Option.map_eq_some_iff.1 h
          exact .back (by simpa using hdrawer) hf
  | onItemClick position =>
      dsimp only at h
      split_ifs at h with hdrawer
      obtain ⟨UID, hUID, rfl⟩ := Option.map_eq_some_iff.1 h
      exact .onItemClick (by simpa using hdrawer) hUID
  | onDataChange i load =>
      cases i with
      | zero =>
          obtain ⟨fragments, hf, rfl⟩ := Option.map_eq_some_iff.1 h
          exact .onDataChange hf
      | succ i =>
          obtain ⟨fragments, hf, rfl⟩ := Option.map_eq_some_iff.1 h
          exact .onDataChangeCovered hf
  | recreate clocks =>
      obtain ⟨fragments, hf, rfl⟩ := Option.map_eq_some_iff.1 h
      exact .recreate hf

end MainActivity

end StudyHours
