/-
**Going from screen to screen on Android.**

To the user the activity is a stack of pages: record screens, each of them a stopwatch, histories of
accounts, and lists of all accounts.  Opening a page covers the one that is shown, and the back
button uncovers it again.  A stopwatch that is on would be expected to run on meanwhile, and it does
if the activity is recreated before it is uncovered; if it is not, the restored toggle is taken for
a tap, and the stopwatch starts again.  One that is off shows how long it ran; if it is uncovered
without a recreation it shows 00:00, and how long it ran again after the next recreation.

A record screen that has been recreated while it was covered must be shown before the activity is
recreated once more, or the app ends.

Main definitions:

* `StudyHours.Page`, `StudyHours.Page.restart` — what the user sees of a fragment;
* `StudyHours.Pages.after` — the pages after some moves: the specification;
* `StudyHours.MainActivity.ShowsPages` — the activity shows the pages;
* `StudyHours.MainActivity.SavesViews` — no record screen is saved that has had no view yet;
* `StudyHours.MainActivity.KeepsStopwatches` — an action starts no covered stopwatch again;
* `StudyHours.MainActivity.Aged` — what becomes of a fragment on the back stack.

Main results:

* `StudyHours.MainActivity.showsPages_run` — **after any run the activity shows the pages**, and
  what the user and the system can do next ends in an exception exactly if it saves a record screen
  that has had no view yet;
* `StudyHours.MainActivity.keepsStopwatches_iff` — **no stopwatch starts again along a run exactly
  if no record screen whose toggle is on is uncovered before the activity has been recreated**;
* `StudyHours.MainActivity.provenance_run` — **every history is that of the user or of an account
  that was listed** under the text of the row that was tapped;
* `StudyHours.MainActivity.back_of_opened` — **whatever is done above a screen, going back leads to
  that screen**.
-/

import Mathlib
import StudyHours.MainActivity

set_option relaxedAutoImplicit false
set_option autoImplicit false

namespace StudyHours

open SistersHoursFragment (Load)

/-! ### Pages -/

/-- What the user sees of a fragment.  A stopwatch that is on has been turned on when the two clocks
read `base` and `wall`; one that is off ran for `duration`, and its chronometer shows `shown`. -/
inductive Page
  | running (base wall : ℤ)
  | stopped (duration shown : ℤ)
  | history (UID : Option String)
  | sistersHours
deriving DecidableEq

namespace Page

/-- The page of a stopwatch that has been tapped. -/
def ofStopwatch : Stopwatch → Page
  | .on base wall => running base wall
  | .off duration => stopped duration duration

/-- A page after a tap on its toggle; only a record screen has one. -/
def tap (elapsedRealtime currentTimeMillis : ℤ) : Page → Option Page
  | running base wall =>
      some (ofStopwatch ((Stopwatch.on base wall).step (.toggle elapsedRealtime currentTimeMillis)))
  | stopped duration _ =>
      some (ofStopwatch ((Stopwatch.off duration).step (.toggle elapsedRealtime currentTimeMillis)))
  | history _ | sistersHours => none

/-- A recreated page: a stopwatch that is off shows how long it ran. -/
def recreated : Page → Page
  | stopped duration _ => stopped duration duration
  | p => p

/-- A page with a new chronometer: a stopwatch that is off shows 00:00. -/
def cleared : Page → Page
  | stopped duration _ => stopped duration 0
  | p => p

/-- The same, and a stopwatch that is on starts again. -/
def restart (clocks : Clocks) : Page → Page
  | running _ _ => running clocks.restoreElapsedRealtime clocks.restoreCurrentTimeMillis
  | p => p.cleared

end Page

/-- A page that is covered, and whether the activity has been recreated since. -/
structure CoveredPage where
  page : Page
  recreated : Bool
deriving DecidableEq

/-- What the user does with the pages. -/
inductive Move
  | tap (elapsedRealtime currentTimeMillis : ℤ)
  | opens (page : Page)
  | back (clocks : Clocks)
  | recreate

namespace CoveredPage

/-- How a page looks when it is uncovered: **a stopwatch starts again unless the activity has been
recreated in the meantime**. -/
def restarted (clocks : Clocks) (c : CoveredPage) : Page :=
  if c.recreated then c.page else c.page.restart clocks

/-- How it would look if it went on. -/
def expected (_ : Clocks) (c : CoveredPage) : Page :=
  if c.recreated then c.page else c.page.cleared

end CoveredPage

namespace Pages

/-- The pages after a move, where `uncover` tells how a page looks when it is uncovered.  A move
that is not possible does nothing. -/
def step (uncover : Clocks → CoveredPage → Page) (p : BackStack Page CoveredPage) :
    Move → BackStack Page CoveredPage
  | .tap elapsedRealtime currentTimeMillis =>
      (p.onShown (Page.tap elapsedRealtime currentTimeMillis)).getD p
  | .opens page => p.push (fun shown => ⟨shown, false⟩) page
  | .back clocks => (p.pop fun c => some (uncover clocks c)).getD p
  | .recreate => (p.mapScreens (fun shown => some shown.recreated)
      fun c => some ⟨c.page.recreated, true⟩).getD p

/-- The pages after some moves. -/
def after (uncover : Clocks → CoveredPage → Page) (p : BackStack Page CoveredPage)
    (moves : List Move) : BackStack Page CoveredPage := moves.foldl (step uncover) p

end Pages

/-! ### Fragments that show a page -/

/-- The fragment shows the page.  Where its toggle is on, the listener has been called. -/
def Fragment.Shows : Fragment → Page → Prop
  | home f _, .running base wall => f.Shows (.on base wall) ∧ f.inherited = false
  | home f shown, .stopped duration shown' => f.Shows (.off duration) ∧ shown = shown'
  | gallery UID _, .history UID' => UID = UID'
  | sistersHours _, .sistersHours => True
  | _, _ => False

/-- What has been saved tells the page. -/
def SavedFragment.Shows : SavedFragment → Page → Prop
  | home b _, .running base wall => b.running = true ∧ b.clock = base ∧ b.checkIn = wall
  | home b _, .stopped duration shown => b.running = false ∧ b.offset = duration ∧ shown = duration
  | gallery UID, .history UID' => UID = UID'
  | sistersHours, .sistersHours => True
  | _, _ => False

/-- The same on the back stack; what is saved has been recreated. -/
def BackStackEntry.Shows : BackStackEntry → CoveredPage → Prop
  | kept x, c => c.recreated = false ∧ x.Shows c.page
  | saved x, c => c.recreated = true ∧ x.Shows c.page

namespace Fragment

variable {x x' : Fragment} {p : Page}

theorem shows_save (h : x.Shows p) : x.save.Shows p.recreated := by
  rcases x with ⟨f, shown⟩ | ⟨UID, f⟩ | f <;>
    rcases p with ⟨base, wall⟩ | ⟨duration, shown'⟩ | UID' | _ <;> try exact h.elim
  · obtain ⟨⟨hon, hbase, hcheckIn, -⟩, -⟩ := h
    exact ⟨hon, hbase, hcheckIn⟩
  · obtain ⟨⟨hoff, hoffset, -⟩, -⟩ := h
    exact ⟨hoff, hoffset, rfl⟩
  · exact h
  · trivial

/-- **The view of a record screen whose toggle is on starts a new session**; that of one whose
toggle is off shows 00:00. -/
theorem shows_resumeView (clocks : Clocks) (h : x.Shows p) :
    ∃ x', x.resumeView clocks = some x' ∧ x'.Shows (p.restart clocks) := by
  rcases x with ⟨f, shown⟩ | ⟨UID, f⟩ | f <;>
    rcases p with ⟨base, wall⟩ | ⟨duration, shown'⟩ | UID' | _ <;> try exact h.elim
  · obtain ⟨⟨hon, -⟩, hflag⟩ := h
    have hnew : (!f.inherited || !f.wasRunning) = true := by simp [hflag]
    refine ⟨.home { f with
      base := clocks.restoreElapsedRealtime
      isChecked := true
      studySession := some ⟨clocks.restoreCurrentTimeMillis, 0⟩
      checkIn := clocks.restoreCurrentTimeMillis
      inherited := false
      recordings := f.recordings + 1 } 0, ?_, ⟨rfl, rfl, rfl, _, rfl, rfl⟩, rfl⟩
    simp only [resumeView, HomeFragment.resumeView, hon, if_true, HomeFragment.onCheckedChanged,
      hnew, Option.map_some]
  · obtain ⟨⟨hoff, hoffset, hflags⟩, -⟩ := h
    refine ⟨.home { f with base := clocks.elapsedRealtime, isChecked := false } 0, ?_,
      ⟨rfl, hoffset, hflags⟩, rfl⟩
    simp [resumeView, HomeFragment.resumeView, hoff]
  · exact ⟨_, rfl, h⟩
  · exact ⟨_, rfl, trivial⟩

/-- **A tap turns the stopwatch of a record screen on or off**, and its chronometer shows how long
it ran. -/
theorem shows_tapToggle {f : HomeFragment} {shown : ℤ} (h : (home f shown).Shows p)
    (elapsedRealtime now : ℤ) : ∃ x' p',
      MainActivity.tapToggle elapsedRealtime now (home f shown) = some x' ∧
        p.tap elapsedRealtime now = some p' ∧ x'.Shows p' := by
  rcases p with ⟨base, wall⟩ | ⟨duration, shown'⟩ | UID' | _ <;> try exact h.elim
  · have htoggle := HomeFragment.toggle_on h.1 elapsedRealtime now
    obtain ⟨-, rfl, -⟩ := h.1
    refine ⟨_, _, by rw [MainActivity.tapToggle, htoggle, Option.map_some], rfl, ?_⟩
    exact ⟨⟨rfl, rfl, rfl⟩, rfl⟩
  · have htoggle := HomeFragment.toggle_off h.1 elapsedRealtime now
    refine ⟨_, _, by rw [MainActivity.tapToggle, htoggle, Option.map_some], rfl, ?_⟩
    exact ⟨⟨rfl, rfl, rfl, _, rfl, rfl⟩, rfl⟩

theorem shows_onDataChange {format : Formats} {double : DoubleToString} {load : Load}
    (h : x.Shows p) (hx : x.onDataChange format double load = some x') : x'.Shows p := by
  rcases x with ⟨f, shown⟩ | ⟨UID, f⟩ | f
  · cases hx
  · obtain ⟨f', -, rfl⟩ := Option.map_eq_some_iff.1 hx
    cases p <;> exact h
  · obtain ⟨f', -, rfl⟩ := Option.map_eq_some_iff.1 hx
    cases p <;> exact h

/-- A fragment shows one page only. -/
theorem Shows.unique {p' : Page} (h : x.Shows p) (h' : x.Shows p') : p = p' := by
  rcases x with ⟨f, shown⟩ | ⟨UID, f⟩ | f <;>
    rcases p with ⟨base, wall⟩ | ⟨duration, shown₁⟩ | UID₁ | _ <;> (try exact h.elim) <;>
    rcases p' with ⟨base', wall'⟩ | ⟨duration', shown₂⟩ | UID₂ | _ <;> try exact h'.elim
  · rw [← h.1.2.1, ← h'.1.2.1, ← h.1.2.2.1, ← h'.1.2.2.1]
  · cases h.1.1.symm.trans h'.1.1
  · cases h.1.1.symm.trans h'.1.1
  · rw [← h.1.2.1, ← h'.1.2.1, ← h.2, ← h'.2]
  · exact congrArg Page.history (Eq.symm h |>.trans h')
  · rfl

end Fragment

/-- **A new instance that is created from a bundle shows the page that was saved.** -/
theorem SavedFragment.shows_restore {x : SavedFragment} {p : Page} (clocks : Clocks)
    (h : x.Shows p) : ∃ x', x.restore clocks = some x' ∧ x'.Shows p := by
  rcases x with ⟨b, recordings⟩ | UID | _ <;>
    rcases p with ⟨base, wall⟩ | ⟨duration, shown⟩ | UID' | _ <;> try exact h.elim
  · obtain ⟨hon, rfl, rfl⟩ := h
    refine ⟨.home { HomeFragment.initial with
      wasRunning := true
      stopOffset := b.offset
      checkIn := b.checkIn
      studySession := some ⟨b.checkIn, 0⟩
      base := b.clock
      isChecked := true
      recordings } (clocks.elapsedRealtime - b.clock), ?_, ⟨rfl, rfl, rfl, _, rfl, rfl⟩, rfl⟩
    simp [restore, HomeFragment.restoreToggle, HomeFragment.onActivityCreated, hon,
      HomeFragment.onCheckedChanged, HomeFragment.initial]
  · obtain ⟨hoff, hoffset, rfl⟩ := h
    refine ⟨.home { HomeFragment.initial with
      inherited := true
      stopOffset := b.offset
      checkIn := b.checkIn
      base := clocks.elapsedRealtime - b.offset
      recordings } b.offset, ?_, ⟨rfl, hoffset, rfl⟩, hoffset⟩
    simp [restore, HomeFragment.restoreToggle, HomeFragment.onActivityCreated, hoff,
      HomeFragment.initial]
  · exact ⟨_, rfl, h⟩
  · exact ⟨_, rfl, trivial⟩

/-- What has been saved tells one page only. -/
theorem SavedFragment.Shows.unique {x : SavedFragment} {p p' : Page} (h : x.Shows p)
    (h' : x.Shows p') : p = p' := by
  have clocks : Clocks := ⟨0, 0, 0⟩
  obtain ⟨x₁, hx₁, hshows⟩ := shows_restore clocks h
  obtain ⟨x₂, hx₂, hshows'⟩ := shows_restore clocks h'
  obtain rfl : x₁ = x₂ := Option.some.inj (hx₁.symm.trans hx₂)
  exact Fragment.Shows.unique hshows hshows'

/-- What has been saved shows what it does after another recreation. -/
theorem SavedFragment.Shows.recreated {x : SavedFragment} {p : Page} (h : x.Shows p) :
    p.recreated = p := by
  rcases x with ⟨b, recordings⟩ | UID | _ <;>
    rcases p with ⟨base, wall⟩ | ⟨duration, shown⟩ | UID' | _ <;> try exact h.elim
  · rfl
  · rw [Page.recreated, h.2.2]
  · rfl
  · rfl

theorem Fragment.shows_recreate {x : Fragment} {p : Page} (clocks : Clocks) (h : x.Shows p) :
    ∃ x', x.recreate clocks = some x' ∧ x'.Shows p.recreated :=
  SavedFragment.shows_restore clocks (shows_save h)

namespace BackStackEntry

variable {c c' : BackStackEntry} {p : CoveredPage}

theorem shows_uncover (clocks : Clocks) (h : c.Shows p) :
    ∃ x, c.uncover clocks = some x ∧ x.Shows (p.restarted clocks) := by
  cases c with
  | kept x =>
      rw [CoveredPage.restarted, if_neg (by simp [h.1])]
      exact Fragment.shows_resumeView clocks h.2
  | saved x =>
      rw [CoveredPage.restarted, if_pos h.1]
      exact SavedFragment.shows_restore clocks h.2

theorem shows_save (h : c.Shows p) (hc : c.save = some c') :
    c'.Shows ⟨p.page.recreated, true⟩ := by
  cases c with
  | kept x =>
      cases hc
      exact ⟨rfl, Fragment.shows_save h.2⟩
  | saved x =>
      have hx : x.Shows p.page.recreated := by
        rw [h.2.recreated]
        exact h.2
      cases x with
      | home b recordings => cases hc
      | gallery UID | sistersHours =>
          cases hc
          exact ⟨rfl, hx⟩

theorem shows_onDataChange {format : Formats} {double : DoubleToString} {load : Load}
    (h : c.Shows p) (hc : c.onDataChange format double load = some c') : c'.Shows p := by
  cases c with
  | kept x =>
      obtain ⟨x', hx', rfl⟩ := Option.map_eq_some_iff.1 hc
      exact ⟨h.1, Fragment.shows_onDataChange h.2 hx'⟩
  | saved x => cases hc

end BackStackEntry

/-- **A page goes on exactly if it is no stopwatch that is on and has not been recreated**, or the
clocks have stood still. -/
theorem BackStackEntry.restarted_eq_iff {c : BackStackEntry} {p : CoveredPage} {clocks : Clocks}
    (h : c.Shows p) : p.restarted clocks = p.expected clocks ↔
      ∀ f shown, c = .kept (.home f shown) → f.isChecked = true →
        clocks.restoreElapsedRealtime = f.base ∧ clocks.restoreCurrentTimeMillis = f.checkIn := by
  obtain ⟨page, recreated⟩ := p
  cases c with
  | saved x =>
      refine iff_of_true ?_ nofun
      rw [CoveredPage.restarted, CoveredPage.expected, if_pos h.1, if_pos h.1]
  | kept x =>
      obtain ⟨rfl, hx⟩ := h
      rw [CoveredPage.restarted, CoveredPage.expected, if_neg (by simp), if_neg (by simp)]
      rcases x with ⟨f, shown⟩ | ⟨UID, f⟩ | f <;>
        rcases page with ⟨base, wall⟩ | ⟨duration, shown'⟩ | UID' | _ <;> try exact hx.elim
      · obtain ⟨⟨hon, rfl, rfl, -⟩, -⟩ := hx
        simp [Page.restart, Page.cleared, hon]
      · have hoff : f.isChecked = false := hx.1.1
        simp [Page.restart, hoff]
      · exact iff_of_true rfl nofun
      · exact iff_of_true rfl nofun

theorem BackStackEntry.Shows.unique {c : BackStackEntry} {p p' : CoveredPage} (h : c.Shows p)
    (h' : c.Shows p') : p = p' := by
  obtain ⟨page, recreated⟩ := p
  obtain ⟨page', recreated'⟩ := p'
  cases c with
  | kept x =>
      obtain ⟨rfl, hx⟩ := h
      obtain ⟨rfl, hx'⟩ := h'
      exact congrArg (CoveredPage.mk · false) (Fragment.Shows.unique hx hx')
  | saved x =>
      obtain ⟨rfl, hx⟩ := h
      obtain ⟨rfl, hx'⟩ := h'
      exact congrArg (CoveredPage.mk · true) (SavedFragment.Shows.unique hx hx')

/-! ### The activity shows the pages -/

namespace MainActivity

variable {format : Formats} {double : DoubleToString} {s t : MainActivity} {a : Action}
  {p : BackStack Page CoveredPage}

/-- The activity shows the pages. -/
def ShowsPages (s : MainActivity) (p : BackStack Page CoveredPage) : Prop :=
  s.fragments.Rel Fragment.Shows BackStackEntry.Shows p

/-- What the user does with the pages by an action. -/
def moves (s : MainActivity) : Action → List Move
  | .toggle elapsedRealtime currentTimeMillis => [.tap elapsedRealtime currentTimeMillis]
  | .onNavigationItemSelected .navRecord => [.opens (.stopped 0 0)]
  | .onNavigationItemSelected .navHistory => [.opens (.history s.mFirebaseUser)]
  | .onNavigationItemSelected .navSistersHours => [.opens .sistersHours]
  | .onBackPressed clocks => if s.isDrawerOpen then [] else [.back clocks]
  | .onItemClick position =>
      (clicked position s.fragments).toList.map fun UID => .opens (.history UID)
  | .recreate _ => [.recreate]
  | .onNavigationItemSelected .navLogout | .openDrawer | .closeDrawer | .onDataChange _ _ => []

/-- **One action**: the activity shows the pages after the moves of the action. -/
theorem showsPages_trans (h : s.ShowsPages p) (hst : Trans format double s a t) :
    t.ShowsPages (Pages.after CoveredPage.restarted p (s.moves a)) := by
  have hpush : ∀ {x : Fragment} {page : Page}, x.Shows page →
      (s.fragments.push .kept x).Rel Fragment.Shows BackStackEntry.Shows
        (Pages.step CoveredPage.restarted p (.opens page)) :=
    fun hx => h.push (fun _ _ hxy => ⟨rfl, hxy⟩) hx
  cases hst with
  | @toggle elapsedRealtime now fragments hclosed ht =>
      have htap : ∀ x y, Fragment.Shows x y → ∀ x', tapToggle elapsedRealtime now x = some x' →
          ∃ y', y.tap elapsedRealtime now = some y' ∧ Fragment.Shows x' y' := by
        intro x y hxy x' hx
        cases x with
        | home f shown =>
            obtain ⟨x₁, y', hx₁, hy', hshows⟩ := Fragment.shows_tapToggle hxy elapsedRealtime now
            exact ⟨y', hy', Option.some.inj (hx₁.symm.trans hx) ▸ hshows⟩
        | gallery UID f | sistersHours f => cases hx
      obtain ⟨q, hq, hrel⟩ := h.onShown htap ht
      rw [moves, Pages.after, List.foldl_cons, List.foldl_nil, Pages.step, hq]
      exact hrel
  | openDrawer _ | closeDrawer _ => exact h
  | onNavigationItemSelected item _ =>
      cases item with
      | navRecord => exact hpush ⟨HomeFragment.shows_initial, rfl⟩
      | navHistory => exact hpush rfl
      | navSistersHours => exact hpush trivial
      | navLogout => exact h
  | backFromDrawer clocks hopen =>
      rw [moves, if_pos hopen]
      exact h
  | @back clocks fragments hclosed ht =>
      have huncover : ∀ c d, BackStackEntry.Shows c d → ∀ x, c.uncover clocks = some x →
          ∃ y, some (d.restarted clocks) = some y ∧ Fragment.Shows x y := by
        intro c d hcd x hx
        obtain ⟨x', hx', hshows⟩ := BackStackEntry.shows_uncover clocks hcd
        exact ⟨_, rfl, Option.some.inj (hx'.symm.trans hx) ▸ hshows⟩
      obtain ⟨q, hq, hrel⟩ := h.pop huncover ht
      rw [moves, if_neg (by simp [hclosed]), Pages.after, List.foldl_cons, List.foldl_nil,
        Pages.step, hq]
      exact hrel
  | finish clocks hclosed hblank =>
      rw [moves, if_neg (by simp [hclosed])]
      rw [ShowsPages, hblank] at h ⊢
      cases h
      exact .blank
  | @onItemClick position UID hclosed hUID =>
      rw [moves, hUID]
      exact hpush rfl
  | onDataChange ht =>
      exact h.onShown_left (fun x y hxy x' hx => Fragment.shows_onDataChange hxy hx) ht
  | onDataChangeCovered ht =>
      exact h.onCovered (fun c d hcd c' hc => BackStackEntry.shows_onDataChange hcd hc) ht
  | @recreate clocks fragments ht =>
      have hrecreate : ∀ x y, Fragment.Shows x y → ∀ x', x.recreate clocks = some x' →
          ∃ y', some y.recreated = some y' ∧ Fragment.Shows x' y' := by
        intro x y hxy x' hx
        obtain ⟨x₁, hx₁, hshows⟩ := Fragment.shows_recreate clocks hxy
        exact ⟨_, rfl, Option.some.inj (hx₁.symm.trans hx) ▸ hshows⟩
      obtain ⟨q, hq, hrel⟩ := h.mapScreens hrecreate
        (fun c d hcd c' hc => ⟨_, rfl, BackStackEntry.shows_save hcd hc⟩) ht
      rw [moves, Pages.after, List.foldl_cons, List.foldl_nil, Pages.step, hq]
      exact hrel

/-- What the user and the system can do at any time; the delivery of a snapshot is not among it. -/
def Possible (s : MainActivity) : Action → Prop
  | .toggle _ _ => s.isDrawerOpen = false ∧ ∃ f shown cs, s.fragments = .screens (.home f shown) cs
  | .openDrawer => s.isDrawerOpen = false
  | .closeDrawer | .onNavigationItemSelected _ => s.isDrawerOpen = true
  | .onBackPressed _ | .recreate _ => True
  | .onItemClick position => s.isDrawerOpen = false ∧
      ∃ f cs, s.fragments = .screens (.sistersHours f) cs ∧ position < f.infoArray.length
  | .onDataChange _ _ => False

/-- A record screen on the back stack has a chronometer. -/
def HasView : BackStackEntry → Prop
  | .saved (.home _ _) => False
  | _ => True

/-- A recreation asks no record screen for its bundle that has been recreated while it was covered
and has not been shown since. -/
def SavesViews (s : MainActivity) : Action → Prop
  | .recreate _ => s.fragments.All (fun _ => True) HasView
  | _ => True

theorem isSome_save_iff (c : BackStackEntry) : c.save.isSome ↔ HasView c := by
  rcases c with x | ⟨b, recordings⟩ | UID | _
  · exact iff_of_true rfl trivial
  · exact iff_of_false (by simp [BackStackEntry.save]) id
  · exact iff_of_true rfl trivial
  · exact iff_of_true rfl trivial

/-- **What can be done ends in an exception exactly if it saves a record screen without a view.** -/
theorem isSome_step_iff (h : s.ShowsPages p) (hfin : s.finished = false) (ha : s.Possible a) :
    (step format double s a).isSome ↔ s.SavesViews a := by
  rw [step.eq_def, if_neg (by simp [hfin])]
  cases a with
  | toggle elapsedRealtime now =>
      refine iff_of_true ?_ trivial
      obtain ⟨hclosed, f, shown, cs, hf⟩ := ha
      rw [ShowsPages, hf] at h
      cases h with
      | screens hxy hcs =>
          obtain ⟨x', -, hx', -⟩ := Fragment.shows_tapToggle hxy elapsedRealtime now
          simp [hclosed, hf, BackStack.onShown, hx']
  | openDrawer =>
      exact iff_of_true (by simp [show s.isDrawerOpen = false from ha]) trivial
  | closeDrawer | onNavigationItemSelected item =>
      exact iff_of_true (by simp [show s.isDrawerOpen = true from ha]) trivial
  | onBackPressed clocks =>
      refine iff_of_true ?_ trivial
      dsimp only
      split_ifs
      · rfl
      · rw [popBackStack]
        rw [ShowsPages] at h
        rcases hf : s.fragments with _ | ⟨x, _ | ⟨c, cs⟩⟩
        · rfl
        · rfl
        · rw [hf] at h
          cases h with
          | screens hxy hcs =>
              cases hcs with
              | cons hcd hcs =>
                  obtain ⟨x', hx', -⟩ := BackStackEntry.shows_uncover clocks hcd
                  simp [BackStack.pop, hx']
  | onItemClick position =>
      refine iff_of_true ?_ trivial
      obtain ⟨hclosed, f, cs, hf, hposition⟩ := ha
      simp [hclosed, hf, clicked, hposition]
  | onDataChange i load => exact ha.elim
  | recreate clocks =>
      rw [Option.isSome_map, BackStack.isSome_mapScreens_iff, SavesViews]
      rw [ShowsPages] at h
      generalize s.fragments = fragments at h
      cases h with
      | blank => exact Iff.rfl
      | screens hxy hcs =>
          -- the fragment that is shown can be recreated
          obtain ⟨x', hx', -⟩ := Fragment.shows_recreate clocks hxy
          simp only [BackStack.All, hx', Option.isSome_some, isSome_save_iff]

/-- The pages when the activity has been started. -/
def firstPages : BackStack Page CoveredPage := .screens (.stopped 0 0) []

theorem showsPages_onCreate (uid : String) : (onCreate (some uid)).ShowsPages firstPages :=
  .screens ⟨HomeFragment.shows_initial, rfl⟩ .nil

/-- **After any run the activity shows the pages**: whatever is opened, tapped, listed, loaded, left
and recreated, in any order and at any readings of the clocks, it shows the pages that the user has
made of them.  A stopwatch that was on when it was covered starts again when it is uncovered unless
the activity has been recreated, and one that was off shows 00:00 until the activity is recreated.
And what can be done next ends in an exception exactly if the activity is recreated for the second
time since a record screen was covered. -/
theorem showsPages_run {uid : String} {acts : List Action}
    (hrun : Execution.run (step format double) (onCreate (some uid)) acts = some t) :
    t.ShowsPages (Pages.after CoveredPage.restarted firstPages
        (Execution.collect (step format double) moves (onCreate (some uid)) acts)) ∧
      (t.finished = false → ∀ a, t.Possible a →
        ((step format double t a).isSome ↔ t.SavesViews a)) := by
  have hshows : t.ShowsPages (Pages.after CoveredPage.restarted firstPages
      (Execution.collect (step format double) moves (onCreate (some uid)) acts)) := by
    refine Execution.run_induction (P := fun acts t => ShowsPages t (Pages.after
      CoveredPage.restarted firstPages
      (Execution.collect (step format double) moves (onCreate (some uid)) acts)))
      (showsPages_onCreate uid) ?_ acts t hrun
    intro acts t a u hrun ih hu
    rw [Execution.collect_snoc hrun, Pages.after, List.foldl_append]
    exact showsPages_trans ih (trans_of_step hu).2
  exact ⟨hshows, fun hfin a ha => isSome_step_iff hshows hfin ha⟩

/-- A session is stopped, the history is looked at, and the back button leads back; then another one
is started, and the same is done. -/
def lookAtHistory : List Action :=
  [.toggle 10 1000, .toggle 40 1030, .openDrawer, .onNavigationItemSelected .navHistory,
    .onBackPressed ⟨50, 51, 1041⟩, .toggle 60 1050, .openDrawer,
    .onNavigationItemSelected .navHistory, .onBackPressed ⟨90, 91, 1081⟩]

/-- The stopwatch has shown 00:00 after the first session, and it has started the second one
again. -/
theorem showsPages_lookAtHistory : ∃ t u,
    Execution.run (step firstFormats printWhole) (onCreate (some "u")) (lookAtHistory.take 5) =
        some t ∧ t.ShowsPages (.screens (.stopped 30 0) []) ∧
      Execution.run (step firstFormats printWhole) (onCreate (some "u")) lookAtHistory = some u ∧
        u.ShowsPages (.screens (.running 91 1081) []) ∧
        (u.finished = false → ∀ a, u.Possible a →
          ((step firstFormats printWhole u a).isSome ↔ u.SavesViews a)) := by
  have ht := Option.eq_some_of_isSome (show (Execution.run (step firstFormats printWhole)
    (onCreate (some "u")) (lookAtHistory.take 5)).isSome by decide)
  have hu := Option.eq_some_of_isSome (show (Execution.run (step firstFormats printWhole)
    (onCreate (some "u")) lookAtHistory).isSome by decide)
  have hfirst : Pages.after CoveredPage.restarted firstPages
      (Execution.collect (step firstFormats printWhole) moves (onCreate (some "u"))
        (lookAtHistory.take 5)) = .screens (.stopped 30 0) [] := by decide
  have hlast : Pages.after CoveredPage.restarted firstPages
      (Execution.collect (step firstFormats printWhole) moves (onCreate (some "u")) lookAtHistory) =
        .screens (.running 91 1081) [] := by decide
  obtain ⟨hshows, hpossible⟩ := showsPages_run hu
  exact ⟨_, _, ht, hfirst ▸ (showsPages_run ht).1, hu, hlast ▸ hshows, hpossible⟩

/-! ### Stopwatches that start again -/

/-- The action leaves the stopwatches alone: one that is uncovered goes on. -/
def KeepsStopwatches (format : Formats) (double : DoubleToString) (s : MainActivity)
    (a : Action) : Prop :=
  ∀ t, step format double s a = some t → ∀ p, s.ShowsPages p →
    t.ShowsPages (Pages.after CoveredPage.expected p (s.moves a))

/-- The record screen that the back button uncovers, if its instance has been kept. -/
def uncovered? : BackStack Fragment BackStackEntry → Option HomeFragment
  | .screens _ (.kept (.home f _) :: _) => some f
  | _ => none

/-- The back button does not uncover a record screen whose toggle is on and whose instance has been
kept, unless the clocks still read what they read when its session was started. -/
def UncoversStopped (s : MainActivity) : Action → Prop
  | .onBackPressed clocks => s.isDrawerOpen = false → ∀ f ∈ uncovered? s.fragments,
      f.isChecked = true →
        clocks.restoreElapsedRealtime = f.base ∧ clocks.restoreCurrentTimeMillis = f.checkIn
  | _ => True

instance (s : MainActivity) (a : Action) : Decidable (s.UncoversStopped a) := by
  cases a <;> dsimp only [UncoversStopped] <;> infer_instance

/-- Only the back button tells the two specifications apart. -/
theorem after_eq_of_not_back (ha : ∀ clocks, .back clocks ∉ s.moves a) :
    Pages.after CoveredPage.restarted p (s.moves a) =
      Pages.after CoveredPage.expected p (s.moves a) := by
  have hstep : ∀ (moves : List Move) p, (∀ clocks, Move.back clocks ∉ moves) →
      Pages.after CoveredPage.restarted p moves = Pages.after CoveredPage.expected p moves := by
    intro moves
    induction moves with
    | nil => exact fun _ _ => rfl
    | cons m moves ih =>
        intro p hback
        have hm : Pages.step CoveredPage.restarted p m = Pages.step CoveredPage.expected p m := by
          cases m with
          | back clocks => exact absurd List.mem_cons_self (hback clocks)
          | _ => rfl
        rw [Pages.after, List.foldl_cons, hm]
        exact ih _ fun clocks hmem => hback clocks (List.mem_cons_of_mem m hmem)
  exact hstep _ _ ha

/-- The activity shows one stack of pages only. -/
theorem ShowsPages.unique {q : BackStack Page CoveredPage} (h : s.ShowsPages p)
    (h' : s.ShowsPages q) : p = q :=
  BackStack.Rel.unique (R := Fragment.Shows) (K := BackStackEntry.Shows)
    (fun _ _ _ => Fragment.Shows.unique) (fun _ _ _ => BackStackEntry.Shows.unique) h h'

/-- The back button leads to the pages that are expected exactly if it uncovers no stopwatch that is
on. -/
theorem back_eq_iff (h : s.ShowsPages p) (clocks : Clocks) :
    Pages.step CoveredPage.restarted p (.back clocks) =
        Pages.step CoveredPage.expected p (.back clocks) ↔
      ∀ f ∈ uncovered? s.fragments, f.isChecked = true →
        clocks.restoreElapsedRealtime = f.base ∧ clocks.restoreCurrentTimeMillis = f.checkIn := by
  rw [ShowsPages] at h
  generalize s.fragments = fragments at h
  cases h with
  | blank => exact iff_of_true rfl nofun
  | screens hxy hcs =>
      cases hcs with
      | nil => exact iff_of_true rfl nofun
      | @cons c d cs ds hcd hcs =>
          change BackStack.screens (d.restarted clocks) ds = .screens (d.expected clocks) ds ↔ _
          rw [BackStack.screens.injEq, and_iff_left rfl, BackStackEntry.restarted_eq_iff hcd]
          constructor
          · intro hguard f hf
            rcases c with (⟨f', shown⟩ | ⟨UID, f'⟩ | f') | y
            · cases hf
              exact hguard f shown rfl
            · cases hf
            · cases hf
            · cases hf
          · rintro hguard f shown rfl
            exact hguard f rfl

/-- **An action leaves the stopwatches alone exactly if it uncovers none that is on.** -/
theorem keepsStopwatches_step_iff (h : s.ShowsPages p) (hst : step format double s a = some t) :
    KeepsStopwatches format double s a ↔ s.UncoversStopped a := by
  have hshows := showsPages_trans h (trans_of_step hst).2
  have hkeeps : KeepsStopwatches format double s a ↔
      Pages.after CoveredPage.restarted p (s.moves a) =
        Pages.after CoveredPage.expected p (s.moves a) := by
    constructor
    · exact fun hkeeps => hshows.unique (hkeeps t hst p h)
    · intro heq t' hst' p' hp'
      obtain rfl : t = t' := Option.some.inj (hst.symm.trans hst')
      obtain rfl := h.unique hp'
      exact heq ▸ hshows
  rw [hkeeps]
  cases a with
  | onBackPressed clocks =>
      rw [moves, UncoversStopped]
      split_ifs with hopen
      · exact iff_of_true rfl fun hclosed => absurd (hopen.symm.trans hclosed) (by simp)
      · have hclosed : s.isDrawerOpen = false := by simpa using hopen
        exact (back_eq_iff h clocks).trans ⟨fun hguard _ => hguard, fun hguard => hguard hclosed⟩
  | onNavigationItemSelected item =>
      cases item <;> exact iff_of_true (after_eq_of_not_back (by simp [moves])) trivial
  | _ => exact iff_of_true (after_eq_of_not_back (by simp [moves])) trivial

/-- **No stopwatch that is uncovered along a run starts again exactly if no record screen whose
toggle is on is uncovered before the activity has been recreated**, or the clocks still read the
same. -/
theorem keepsStopwatches_iff {uid : String} {acts : List Action}
    (hrun : Execution.run (step format double) (onCreate (some uid)) acts = some t) :
    Execution.Along (step format double) (KeepsStopwatches format double)
        (onCreate (some uid)) acts ↔
      Execution.Along (step format double) UncoversStopped (onCreate (some uid)) acts := by
  refine Execution.along_iff_along (I := fun s => ∃ p, s.ShowsPages p) ?_ ?_
    ⟨_, showsPages_onCreate uid⟩ hrun
  · rintro s a t ⟨p, hp⟩ hst
    exact keepsStopwatches_step_iff hp hst
  · rintro s a t ⟨p, hp⟩ - hst
    exact ⟨_, showsPages_trans hp (trans_of_step hst).2⟩

/-- The history is looked at, and the activity is recreated meanwhile: the stopwatch goes on. -/
theorem keepsStopwatches_recreated : Execution.Along (step firstFormats printWhole)
    (KeepsStopwatches firstFormats printWhole) (onCreate (some "u"))
    [.toggle 10 1000, .openDrawer, .onNavigationItemSelected .navHistory, .recreate ⟨30, 31, 21031⟩,
      .onBackPressed ⟨60, 61, 51061⟩] :=
  (keepsStopwatches_iff (Option.eq_some_of_isSome (by decide))).2 (by decide)

/-! ### Where the histories come from -/

/-- In a snapshot that was delivered, the account had the text. -/
def Listed (double : DoubleToString) (acts : List Action) (account text : String) : Prop :=
  ∃ i load, Action.onDataChange i load ∈ acts ∧ ∃ child ∈ load.children,
    child.1 = account ∧ SistersHoursFragment.label double child.2 = some text

/-- A history is that of the user, or of an account of the list `L`; the map of a list has accounts
of `L` only, and its rows are keys of the map. -/
def From (uid : String) (L : String → String → Prop) : Fragment → Prop
  | .home _ _ => True
  | .gallery UID _ => UID = some uid ∨ ∃ account text, UID = some account ∧ L account text
  | .sistersHours f => (∀ text account, f.map.lookup text = some account → L account text) ∧
      ∀ text ∈ f.infoArray, text ∈ f.map

/-- The same for a fragment on the back stack. -/
def CoveredFrom (uid : String) (L : String → String → Prop) : BackStackEntry → Prop
  | .kept x => From uid L x
  | .saved (.gallery UID) => UID = some uid ∨ ∃ account text, UID = some account ∧ L account text
  | .saved _ => True

section From

variable {uid : String} {L L' : String → String → Prop} {x x' : Fragment} {c c' : BackStackEntry}

theorem From.mono (h : From uid L x) (hL : ∀ account text, L account text → L' account text) :
    From uid L' x := by
  rcases x with f | ⟨UID, f⟩ | f
  · trivial
  · exact h.imp_right fun ⟨account, text, hUID, hlisted⟩ => ⟨account, text, hUID, hL _ _ hlisted⟩
  · exact ⟨fun text account hget => hL _ _ (h.1 text account hget), h.2⟩

theorem CoveredFrom.mono (h : CoveredFrom uid L c)
    (hL : ∀ account text, L account text → L' account text) : CoveredFrom uid L' c := by
  rcases c with x | (_ | UID | _)
  · exact From.mono h hL
  · trivial
  · exact h.imp_right fun ⟨account, text, hUID, hlisted⟩ => ⟨account, text, hUID, hL _ _ hlisted⟩
  · trivial

theorem CoveredFrom.save (h : CoveredFrom uid L c) (hc : c.save = some c') :
    CoveredFrom uid L c' := by
  rcases c with (f | ⟨UID, f⟩ | f) | (b | UID | _)
  · cases hc
    trivial
  · cases hc
    exact h
  · cases hc
    trivial
  · cases hc
  · cases hc
    exact h
  · cases hc
    exact h

/-- A new instance has an empty map. -/
theorem CoveredFrom.restore {y : SavedFragment} {clocks : Clocks} (h : CoveredFrom uid L (.saved y))
    (hx : y.restore clocks = some x) : From uid L x := by
  rcases y with _ | UID | _
  · obtain ⟨f, -, rfl⟩ := Option.map_eq_some_iff.1 hx
    trivial
  · cases hx
    exact h
  · cases hx
    refine ⟨fun text account hget => ?_, fun text htext => ?_⟩
    · rw [SistersHoursFragment.initial, AList.lookup_empty] at hget
      cases hget
    · cases htext

theorem CoveredFrom.uncover {clocks : Clocks} (h : CoveredFrom uid L c)
    (hx : c.uncover clocks = some x) : From uid L x := by
  rcases c with (f | ⟨UID, f⟩ | f) | y
  · obtain ⟨f', -, rfl⟩ := Option.map_eq_some_iff.1 hx
    trivial
  · cases hx
    exact h
  · cases hx
    exact ⟨h.1, nofun⟩
  · exact h.restore hx

/-- A snapshot puts its accounts into the map. -/
theorem From.onDataChange {load : Load} (h : From uid L x)
    (hlisted : ∀ child ∈ load.children, ∀ text,
      SistersHoursFragment.label double child.2 = some text → L child.1 text)
    (hx : x.onDataChange format double load = some x') : From uid L x' := by
  rcases x with f | ⟨UID, f⟩ | f
  · cases hx
  · obtain ⟨f', -, rfl⟩ := Option.map_eq_some_iff.1 hx
    exact h
  · obtain ⟨f', hf', rfl⟩ := Option.map_eq_some_iff.1 hx
    obtain ⟨hmap, hrows⟩ := SistersHoursFragment.of_onDataChange hf'
    refine ⟨fun text account hget => ?_, fun text htext => ?_⟩
    · rw [hmap] at hget
      rcases Dictionary.of_lookup_putAll hget with hmem | hget
      · obtain ⟨child, hchild, hentry⟩ := List.mem_filterMap.1 hmem
        obtain ⟨text', htext', heq⟩ := Option.map_eq_some_iff.1 hentry
        cases heq
        exact hlisted child hchild _ htext'
      · exact h.1 text account hget
    · rw [hrows] at htext
      exact AList.mem_keys.2 ((load.keySet.perm f'.map).mem_iff.1 htext)

end From

/-- **A tap on a row leads to an account that was listed under the text of the row.** -/
theorem of_clicked {uid : String} {L : String → String → Prop} {position : ℕ} {UID : Option String}
    (h : s.fragments.All (From uid L) (CoveredFrom uid L))
    (hUID : clicked position s.fragments = some UID) : ∃ f cs account text,
      s.fragments = .screens (.sistersHours f) cs ∧ f.getView position = some text ∧
        UID = some account ∧ L account text := by
  cases hf : s.fragments with
  | blank =>
      rw [hf] at hUID
      cases hUID
  | screens x cs =>
      rw [hf] at hUID h
      rcases x with f | ⟨UID', f⟩ | f
      · cases hUID
      · cases hUID
      · obtain ⟨text, htext, hget⟩ := Option.map_eq_some_iff.1 hUID
        obtain ⟨hmap, hrows⟩ := h.1
        have hmem : text ∈ f.map := hrows text (List.mem_of_getElem? htext)
        obtain ⟨account, haccount⟩ := Option.isSome_iff_exists.1 (AList.lookup_isSome.2 hmem)
        exact ⟨f, cs, account, text, rfl, htext, hget.symm.trans haccount,
          hmap text account haccount⟩

/-- **One action.** -/
theorem provenance_trans {uid : String} {L : String → String → Prop}
    (h : s.fragments.All (From uid L) (CoveredFrom uid L)) (huser : s.mFirebaseUser = some uid)
    (hL : ∀ account text, Listed double [a] account text → L account text)
    (hst : Trans format double s a t) : t.fragments.All (From uid L) (CoveredFrom uid L) := by
  have hlisted : ∀ {i load}, a = .onDataChange i load → ∀ child ∈ load.children, ∀ text,
      SistersHoursFragment.label double child.2 = some text → L child.1 text := by
    rintro i load rfl child hchild text htext
    exact hL _ _ ⟨i, load, List.mem_singleton_self _, child, hchild, rfl, htext⟩
  have hcover : ∀ x, From uid L x → CoveredFrom uid L (.kept x) := fun _ hx => hx
  have hpush : ∀ {x}, From uid L x →
      (s.fragments.push .kept x).All (From uid L) (CoveredFrom uid L) := fun hx => h.push hcover hx
  cases hst with
  | toggle hclosed ht =>
      refine h.onShown (fun x hx x' hx' => ?_) ht
      rcases x with f | ⟨UID, f⟩ | f
      · obtain ⟨f', -, rfl⟩ := Option.map_eq_some_iff.1 hx'
        trivial
      · cases hx'
      · cases hx'
  | openDrawer _ | closeDrawer _ | backFromDrawer _ _ | finish _ _ _ => exact h
  | onNavigationItemSelected item _ =>
      cases item with
      | navRecord => exact hpush trivial
      | navHistory => exact hpush (Or.inl huser)
      | navSistersHours => exact hpush ⟨nofun, nofun⟩
      | navLogout => exact h
  | back hclosed ht => exact h.pop (fun c hc x hx => hc.uncover hx) ht
  | onItemClick hclosed hUID =>
      obtain ⟨f, cs, account, text, -, -, rfl, haccount⟩ := of_clicked h hUID
      exact hpush (Or.inr ⟨account, text, rfl, haccount⟩)
  | onDataChange ht =>
      exact h.onShown (fun x hx x' hx' => hx.onDataChange (hlisted rfl) hx') ht
  | onDataChangeCovered ht =>
      refine h.onCovered (fun c hc c' hc' => ?_) ht
      cases c with
      | kept x =>
          obtain ⟨x', hx', rfl⟩ := Option.map_eq_some_iff.1 hc'
          exact From.onDataChange hc (hlisted rfl) hx'
      | saved y => cases hc'
  | recreate ht =>
      exact h.mapScreens (fun x hx x' hx' => (CoveredFrom.save (c := .kept x) hx rfl).restore hx')
        (fun c hc c' hc' => hc.save hc') ht

/-- Until the activity has ended the user stays the same. -/
theorem mFirebaseUser_of_trans {uid : String} (h : s.mFirebaseUser = some uid)
    (hst : Trans format double s a t) (hfin : t.finished = false) : t.mFirebaseUser = some uid := by
  cases hst with
  | onNavigationItemSelected item _ =>
      cases item with
      | navLogout => cases hfin
      | _ => exact h
  | _ => exact h

/-- **Every history is that of the user or of an account that was listed**, after any run; and a tap
on a row of a list never leads to a history of no account, but to one that was listed under the text
of the row, however often the list has been loaded and left. -/
theorem provenance_run {uid : String} {acts : List Action}
    (hrun : Execution.run (step format double) (onCreate (some uid)) acts = some t) :
    t.fragments.All (From uid (Listed double acts)) (CoveredFrom uid (Listed double acts)) ∧
      ∀ position UID, clicked position t.fragments = some UID → ∃ f cs account text,
        t.fragments = .screens (.sistersHours f) cs ∧ f.getView position = some text ∧
          UID = some account ∧ Listed double acts account text := by
  have hall : (t.finished = false → t.mFirebaseUser = some uid) ∧
      t.fragments.All (From uid (Listed double acts)) (CoveredFrom uid (Listed double acts)) := by
    refine Execution.run_induction (P := fun acts t => (t.finished = false →
      t.mFirebaseUser = some uid) ∧ t.fragments.All (From uid (Listed double acts))
        (CoveredFrom uid (Listed double acts))) ⟨fun _ => rfl, trivial, nofun⟩ ?_ acts t hrun
    rintro acts s a t - ⟨huser, hs⟩ hst
    obtain ⟨hfin, htrans⟩ := trans_of_step hst
    refine ⟨mFirebaseUser_of_trans (huser hfin) htrans, ?_⟩
    have hmono : ∀ account text, Listed double acts account text →
        Listed double (acts ++ [a]) account text := by
      rintro account text ⟨i, load, hmem, hchild⟩
      exact ⟨i, load, List.mem_append_left _ hmem, hchild⟩
    refine provenance_trans (hs.mono (fun x hx => hx.mono hmono) fun c hc => hc.mono hmono)
      (huser hfin) ?_ htrans
    rintro account text ⟨i, load, hmem, hchild⟩
    exact ⟨i, load, List.mem_append_right _ hmem, hchild⟩
  exact ⟨hall.2, fun position UID hUID => of_clicked hall.2 hUID⟩

/-- The list of all accounts is opened and loaded, and its first row is tapped. -/
def lookAtSister : List Action :=
  [.openDrawer, .onNavigationItemSelected .navSistersHours,
    .onDataChange 0 ⟨keyOrder, [("v", accountNode "A" 1)]⟩, .onItemClick 0]

/-- The history is that of the account that was listed. -/
theorem provenance_lookAtSister : ∃ t,
    Execution.run (step firstFormats printWhole) (onCreate (some "u")) lookAtSister = some t ∧
      t.fragments.All (From "u" (Listed printWhole lookAtSister))
        (CoveredFrom "u" (Listed printWhole lookAtSister)) := by
  have ht := Option.eq_some_of_isSome (show (Execution.run (step firstFormats printWhole)
    (onCreate (some "u")) lookAtSister).isSome by decide +kernel)
  exact ⟨_, ht, (provenance_run ht).1⟩

/-! ### Going back -/

/-- The instance is the same, but a snapshot may have been delivered to it. -/
inductive Delivered : BackStackEntry → BackStackEntry → Prop
  | refl (c : BackStackEntry) : Delivered c c
  | gallery (UID : Option String) (f f' : GalleryFragment) :
      Delivered (.kept (.gallery UID f)) (.kept (.gallery UID f'))
  | sistersHours (f f' : SistersHoursFragment) :
      Delivered (.kept (.sistersHours f)) (.kept (.sistersHours f'))

/-- What has become of a fragment on the back stack. -/
def Aged (recreated : Bool) (c d : BackStackEntry) : Prop :=
  if recreated then c.save = some d else Delivered c d

/-- The action recreates the activity. -/
def Action.recreates : Action → Bool
  | .recreate _ => true
  | _ => false

section Aged

variable {recreated : Bool} {c d d' : BackStackEntry}

theorem Delivered.save (h : Delivered c d) : d.save = c.save := by
  cases h <;> rfl

/-- What can be saved once more stays as it is. -/
theorem save_of_save (hd : c.save = some d) (hd' : d.save = some d') : d' = d := by
  rcases c with (f | ⟨UID, f⟩ | f) | (b | UID | _) <;> cases hd <;> cases hd' <;> rfl

theorem Delivered.onDataChange {load : Load} (h : Delivered c d)
    (hd : d.onDataChange format double load = some d') : Delivered c d' := by
  rcases d with (f | ⟨UID, f⟩ | f) | y
  · cases hd
  · obtain ⟨x, hx, rfl⟩ := Option.map_eq_some_iff.1 hd
    obtain ⟨f', -, rfl⟩ := Option.map_eq_some_iff.1 hx
    cases h <;> exact .gallery _ _ _
  · obtain ⟨x, hx, rfl⟩ := Option.map_eq_some_iff.1 hd
    obtain ⟨f', -, rfl⟩ := Option.map_eq_some_iff.1 hx
    cases h <;> exact .sistersHours _ _
  · cases hd

theorem Aged.save (h : Aged recreated c d) (hd : d.save = some d') : Aged true c d' := by
  cases recreated with
  | false => exact (Delivered.save h).symm.trans hd
  | true =>
      have hc : c.save = some d := h
      rwa [← save_of_save hc hd] at hc

theorem Aged.onDataChange {load : Load} (h : Aged recreated c d)
    (hd : d.onDataChange format double load = some d') : Aged recreated c d' := by
  cases recreated with
  | false => exact Delivered.onDataChange h hd
  | true =>
      -- nothing is delivered to an instance that has been destroyed
      have hc : c.save = some d := h
      rcases c with x | (b | UID | _) <;> cases hc <;> cases hd

end Aged

/-- The back button does not go below the level `n`. -/
def StaysAbove (n : ℕ) (s : MainActivity) : Action → Prop
  | .onBackPressed _ => s.isDrawerOpen = false → n + 1 < s.fragments.depth
  | _ => True

/-- What lies below is left alone by an action, but for its being recreated. -/
theorem above_trans {b : List BackStackEntry} {recreated : Bool}
    (h : s.fragments.Above (Aged recreated) b) (ha : s.StaysAbove b.length a)
    (hst : Trans format double s a t) :
    t.fragments.Above (Aged (recreated || a.recreates)) b := by
  have hkeep : a.recreates = false → t.fragments.Above (Aged recreated) b →
      t.fragments.Above (Aged (recreated || a.recreates)) b := by
    intro hfalse habove
    rwa [hfalse, Bool.or_false]
  cases hst with
  | toggle hclosed ht => exact hkeep rfl (h.onShown ht)
  | openDrawer _ | closeDrawer _ | backFromDrawer _ _ | finish _ _ _ => exact hkeep rfl h
  | onNavigationItemSelected item _ =>
      cases item with
      | navLogout => exact hkeep rfl h
      | _ => exact hkeep rfl (h.push _ _)
  | back hclosed ht => exact hkeep rfl (h.pop (ha hclosed) ht)
  | onItemClick hclosed hUID => exact hkeep rfl (h.push _ _)
  | onDataChange ht => exact hkeep rfl (h.onShown ht)
  | onDataChangeCovered ht =>
      exact hkeep rfl (h.onCovered (fun c d d' hcd hd => hcd.onDataChange hd) ht)
  | recreate ht =>
      rw [Action.recreates, Bool.or_true]
      exact h.mapScreens (fun c d hcd d' hd => hcd.save hd) ht

theorem above_run {b : List BackStackEntry} (h : s.fragments.Above (Aged false) b) :
    ∀ (acts : List Action) (t : MainActivity),
      Execution.run (step format double) s acts = some t →
      Execution.Along (step format double) (StaysAbove b.length) s acts →
        t.fragments.Above (Aged (acts.any Action.recreates)) b := by
  refine Execution.run_induction (fun _ => h) ?_
  intro acts t a u hrun ih hu halong
  rw [Execution.along_snoc hrun] at halong
  rw [List.any_append, List.any_cons, List.any_nil, Bool.or_false]
  exact above_trans (ih halong.1) halong.2 (trans_of_step hu).2

/-- What is shown when a fragment is uncovered: a new instance that is created from what was saved
if the activity has been recreated, and otherwise the view of the same instance. -/
def Returns (recreated : Bool) (clocks : Clocks) (x x' : Fragment) : Prop :=
  if recreated then x.recreate clocks = some x' else
  match x with
  | .home f shown => (Fragment.home f shown).resumeView clocks = some x'
  | .gallery UID _ => x' = .gallery UID GalleryFragment.onCreateView
  | .sistersHours _ => ∃ f, x' = .sistersHours f ∧ f.infoArray = []

/-- **Whatever is done above a screen, going back leads to that screen**: when a fragment has been
opened above it, and then any run that does not go below this level has come back to it, the back
button shows the fragment that was left, created again if the run has recreated the activity, and
the ones below it are those that were there. -/
theorem back_of_opened {u v : MainActivity} {x y : Fragment} {cs : List BackStackEntry}
    {acts : List Action} {clocks : Clocks} (hs : s.fragments = .screens x cs)
    (hopen : t.fragments = s.fragments.push .kept y)
    (hrun : Execution.run (step format double) t acts = some u)
    (hstay : Execution.Along (step format double) (StaysAbove (cs.length + 1)) t acts)
    (hdepth : u.fragments.depth = cs.length + 2) (hclosed : u.isDrawerOpen = false)
    (hback : step format double u (.onBackPressed clocks) = some v) :
    ∃ x' cs', v.fragments = .screens x' cs' ∧
      Returns (acts.any Action.recreates) clocks x x' ∧
        List.Forall₂ (Aged (acts.any Action.recreates)) cs cs' := by
  have hstart : t.fragments.Above (Aged false) (.kept x :: cs) := by
    rw [hopen, hs]
    exact BackStack.Above.opened (fun c => Delivered.refl c) _ _ _ _
  have habove := above_run hstart acts u hrun hstay
  generalize acts.any Action.recreates = recreated at habove ⊢
  obtain ⟨d, cs', hd, hcs, hpop⟩ := habove.uncover (BackStackEntry.uncover clocks) hdepth
  obtain ⟨-, hst⟩ := trans_of_step hback
  cases hst with
  | backFromDrawer _ hdrawer => rw [hclosed] at hdrawer; cases hdrawer
  | finish _ _ hblank => rw [hblank] at hdepth; cases hdepth
  | back _ ht =>
      rw [hpop] at ht
      obtain ⟨x', hx', rfl⟩ := Option.map_eq_some_iff.1 ht
      refine ⟨x', cs', rfl, ?_, hcs⟩
      cases recreated with
      | true =>
          obtain rfl := Option.some.inj (hd : some (BackStackEntry.saved x.save) = some d)
          exact hx'
      | false =>
          have hsame : Delivered (.kept x) d := hd
          cases hsame with
          | refl =>
              rcases x with f | ⟨UID, f⟩ | f
              · exact hx'
              · exact (Option.some.inj hx').symm
              · exact ⟨_, (Option.some.inj hx').symm, rfl⟩
          | gallery UID f f' => exact (Option.some.inj hx').symm
          | sistersHours f f' => exact ⟨_, (Option.some.inj hx').symm, rfl⟩

/-- The history is opened above a new record screen, the activity is recreated, and the back button
leads back to the record screen. -/
theorem back_of_history : ∃ u v x' cs',
    Execution.run (step firstFormats printWhole)
        ((onCreate (some "u")).onNavigationItemSelected .navHistory)
        [.recreate ⟨20, 21, 11021⟩] = some u ∧
      step firstFormats printWhole u (.onBackPressed ⟨60, 61, 51061⟩) = some v ∧
        v.fragments = .screens x' cs' ∧
          Returns true ⟨60, 61, 51061⟩ (.home .initial 0) x' ∧
            List.Forall₂ (Aged true) [] cs' := by
  obtain ⟨u, hu, hdepth, hclosed, hback⟩ : ∃ u,
      Execution.run (step firstFormats printWhole)
          ((onCreate (some "u")).onNavigationItemSelected .navHistory)
          [.recreate ⟨20, 21, 11021⟩] = some u ∧
        u.fragments.depth = 2 ∧ u.isDrawerOpen = false ∧
        (step firstFormats printWhole u (.onBackPressed ⟨60, 61, 51061⟩)).isSome :=
    Execution.exists_run (by decide)
  have huv := Option.eq_some_of_isSome hback
  obtain ⟨x', cs', hx, hreturns, hcs⟩ := back_of_opened (s := onCreate (some "u")) rfl rfl hu
    ⟨trivial, fun _ _ => trivial⟩ hdepth hclosed huv
  exact ⟨u, _, x', cs', hu, huv, hx, hreturns, hcs⟩

end MainActivity

end StudyHours
