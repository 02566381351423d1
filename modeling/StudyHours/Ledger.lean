/-
**The ledger that the record stands for.**

What the two clients keep together is a ledger: the sessions that have been recorded, in
chronological order, each of them of half an hour at least and credited by the client that recorded
it.  The record `hours/<uid>` represents a ledger if its children are the sessions of the ledger,
its two counters are their number and the sum of their credits, and nothing else is there but
possibly a session in progress, under the next free number.

This module has the ledger and what the writes of the clients do to the ledger that is represented.

Main definitions:

* `StudyHours.Recording`, `StudyHours.Recording.credit` — a session, and what it is credited with;
* `StudyHours.Ledger`, `StudyHours.Ledger.record` — a ledger, and the next session;
* `StudyHours.Represents` — the record stands for the ledger.

Main results:

* `StudyHours.iosCredit_eq_androidCredit_iff` — **the sessions that both clients credit alike**;
* `StudyHours.Represents.mem_children_iff` — the keys of the children are `1`, ..., `numSessions`;
* `StudyHours.Represents.checkIn`, `dismiss`, `recordSession` — what iOS does to the ledger;
* `StudyHours.Children.session` — what Android does to its sessions.
-/

import Mathlib
import StudyHours.Slots

set_option relaxedAutoImplicit false
set_option autoImplicit false

namespace StudyHours

/-! ### Recordings -/

/-- The two programs. -/
inductive Client
  | ios
  | android
deriving DecidableEq, Repr

/-- A session that has been recorded, and the client that recorded it. -/
structure Recording where
  client : Client
  session : StudySession
deriving DecidableEq, Repr

namespace Recording

/-- The length of the session in milliseconds. -/
def length (r : Recording) : ℤ := r.session.outTime - r.session.inTime

/-- The hours that the recording client computes for the session. -/
def credit (r : Recording) : ℚ :=
  match r.client with
  | .ios => iosCredit r.length
  | .android => androidCredit r.length

end Recording

/-! ### The two credits -/

/-- **The two clients credit the same hours**, for every interval that both accept, except where the
hours lie halfway between two tenths of which the lower one is even.  This is about exact hours, of
which a `Double` may be a little more or less. -/
theorem iosCredit_eq_androidCredit_iff {interval : ℤ} (h : 1800000 < interval) :
    iosCredit interval = androidCredit interval ↔ interval % 720000 ≠ 180000 := by
  have hround : Rounding.halfEven interval tenthOfHour = Rounding.halfUp interval tenthOfHour ↔
      2 * (interval % (2 * tenthOfHour)) ≠ tenthOfHour :=
    Rounding.halfEven_eq_halfUp_iff (by decide) (by omega)
  rw [iosCredit, androidCredit, div_left_inj' (by norm_num), Int.cast_inj, hround, tenthOfHour]
  omega

/-- An hour is an hour. -/
theorem iosCredit_eq_androidCredit_hour : iosCredit 3600000 = androidCredit 3600000 :=
  (iosCredit_eq_androidCredit_iff (by decide)).2 (by decide)

/-- **A session of an hour and a quarter** is credited with 1.2 hours on iOS and with 1.3 hours on
Android. -/
theorem not_iosCredit_eq_androidCredit :
    ¬ ∀ interval : ℤ, 1800000 < interval → iosCredit interval = androidCredit interval := by
  intro h
  have hquarter := h 4500000 (by decide)
  rw [iosCredit, androidCredit, div_left_inj' (by norm_num), Int.cast_inj] at hquarter
  exact absurd hquarter (by decide)

/-! ### The recorded sessions -/

/-- The recorded sessions in chronological order, each of them of half an hour at least. -/
structure Ledger where
  recordings : List Recording
  long : ∀ r ∈ recordings, 1800000 ≤ r.length
  chronological : recordings.Pairwise fun r r' => r.session.outTime ≤ r'.session.inTime

namespace Ledger

/-- The ledger of an account that has just been created. -/
def empty : Ledger := ⟨[], nofun, .nil⟩

/-- The number of sessions. -/
def count (L : Ledger) : ℤ := L.recordings.length

/-- The hours of all sessions. -/
def hours (L : Ledger) : ℚ := (L.recordings.map Recording.credit).sum

/-- All sessions are over at the time `τ`. -/
def EndsBy (L : Ledger) (τ : ℤ) : Prop := ∀ r ∈ L.recordings, r.session.outTime ≤ τ

/-- The next session is recorded. -/
def record (L : Ledger) (r : Recording) (hlong : 1800000 ≤ r.length)
    (hafter : L.EndsBy r.session.inTime) : Ledger where
  recordings := L.recordings ++ [r]
  long x hx := by
    rcases List.mem_append.1 hx with hx | hx
    · exact L.long x hx
    · obtain rfl := List.mem_singleton.1 hx
      exact hlong
  chronological := by
    refine List.pairwise_append.2 ⟨L.chronological, List.pairwise_singleton _ _, ?_⟩
    intro x hx y hy
    obtain rfl := List.mem_singleton.1 hy
    exact hafter x hx

section Record

variable (L : Ledger) (r : Recording) (hlong : 1800000 ≤ r.length)
  (hafter : L.EndsBy r.session.inTime)

@[simp] theorem recordings_record :
    (L.record r hlong hafter).recordings = L.recordings ++ [r] := rfl

@[simp] theorem count_record : (L.record r hlong hafter).count = L.count + 1 := by
  simp [count]

@[simp] theorem hours_record : (L.record r hlong hafter).hours = L.hours + r.credit := by
  simp [hours]

end Record

@[simp] theorem count_empty : empty.count = 0 := rfl

@[simp] theorem hours_empty : empty.hours = 0 := rfl

theorem count_nonneg (L : Ledger) : 0 ≤ L.count := Int.natCast_nonneg _

theorem EndsBy.mono {L : Ledger} {τ τ' : ℤ} (h : L.EndsBy τ) (hle : τ ≤ τ') : L.EndsBy τ' :=
  fun r hr => (h r hr).trans hle

theorem EndsBy.record {L : Ledger} {r : Recording} {τ : ℤ} (h : L.EndsBy τ)
    (hr : r.session.outTime ≤ τ) (hlong : 1800000 ≤ r.length)
    (hafter : L.EndsBy r.session.inTime) : (L.record r hlong hafter).EndsBy τ := by
  intro x hx
  rcases List.mem_append.1 hx with hx | hx
  · exact h x hx
  · obtain rfl := List.mem_singleton.1 hx
    exact hr

end Ledger

/-! ### Records and ledgers -/

/-- The children of the record are the sessions of the ledger, under the numbers from `1` on, and
possibly the child `next` under the next free number. -/
structure Children (h : Hours) (L : Ledger) (next : Option SessionNode) : Prop where
  canonical : h.Canonical
  recorded : ∀ (i : ℕ) r, L.recordings[i]? = some r →
    h.child (i + 1) = some (.full r.session.inTime r.session.outTime)
  next : h.child (L.count + 1) = next
  others : ∀ k, k < 1 ∨ L.count + 1 < k → h.child k = none

/-- The record stands for the ledger. -/
structure Represents (h : Hours) (L : Ledger) (next : Option SessionNode) : Prop where
  children : Children h L next
  numSessions : h.numSessions = some L.count
  totalHours : h.totalHours = some L.hours

namespace Children

variable {h h' : Hours} {L : Ledger} {next : Option SessionNode}

theorem congr (hc : Children h L next) (heq : h'.children = h.children) : Children h' L next := by
  have hchild : ∀ k, h'.child k = h.child k := fun k => by rw [Hours.child, heq, Hours.child]
  refine ⟨fun key hkey => hc.canonical key (heq ▸ hkey), fun i r hr => ?_, ?_, fun k hk => ?_⟩
  · rw [hchild, hc.recorded i r hr]
  · rw [hchild, hc.next]
  · rw [hchild, hc.others k hk]

/-- The number of a session of the ledger. -/
theorem exists_recording (hc : Children h L next) {k : ℤ} (hlow : 1 ≤ k) (hhigh : k ≤ L.count) :
    ∃ r ∈ L.recordings, h.child k = some (.full r.session.inTime r.session.outTime) := by
  obtain ⟨i, rfl⟩ : ∃ i : ℕ, k = i + 1 := ⟨(k - 1).toNat, by omega⟩
  have hi : i < L.recordings.length := by
    rw [Ledger.count] at hhigh
    omega
  exact ⟨_, List.getElem_mem hi, hc.recorded i _ (List.getElem?_eq_getElem hi)⟩

/-- A write to the child under the next free number. -/
theorem apply (hc : Children h L next) {w : Write} (hkey : w.key? = some (L.count + 1)) :
    Children (h.apply w) L (w.onChild (L.count + 1) next) := by
  have hnonneg := L.count_nonneg
  refine ⟨hc.canonical.apply w, fun i r hr => ?_, ?_, fun k hk => ?_⟩
  · have hi : i < L.recordings.length := (List.getElem?_eq_some_iff.1 hr).1
    rw [Hours.child_apply_of_ne _ ?_, hc.recorded i r hr]
    rw [hkey, ne_eq, Option.some.injEq, Ledger.count]
    omega
  · rw [Hours.child_apply, hc.next]
  · rw [Hours.child_apply_of_ne _ ?_, hc.others k hk]
    rw [hkey, ne_eq, Option.some.injEq]
    omega

/-- The session under the next free number is a session of the ledger now. -/
theorem record (hc : Children h L next) {r : Recording} (hlong : 1800000 ≤ r.length)
    (hafter : L.EndsBy r.session.inTime)
    (hnext : next = some (.full r.session.inTime r.session.outTime)) :
    Children h (L.record r hlong hafter) none := by
  have hnonneg := L.count_nonneg
  refine ⟨hc.canonical, fun i x hx => ?_, ?_, fun k hk => ?_⟩
  · rw [Ledger.recordings_record, List.getElem?_append] at hx
    split_ifs at hx with hi
    · exact hc.recorded i x hx
    · obtain ⟨hlt, hget⟩ := List.getElem?_eq_some_iff.1 hx
      rw [List.getElem_singleton] at hget
      have hcount : (i : ℤ) = L.count := by
        rw [List.length_singleton] at hlt
        rw [Ledger.count]
        omega
      rw [hcount, hc.next, hnext, hget]
  · rw [Ledger.count_record]
    exact hc.others _ (by omega)
  · rw [Ledger.count_record] at hk
    exact hc.others k (by omega)

/-- A session that an Android client has recorded lands. -/
theorem session (hc : Children h L none) (σ : StudySession)
    (hlong : 1800000 ≤ (⟨.android, σ⟩ : Recording).length) (hafter : L.EndsBy σ.inTime) :
    Children (h.apply (.session (L.count + 1) σ)) (L.record ⟨.android, σ⟩ hlong hafter) none :=
  (hc.apply rfl).record hlong hafter (if_pos rfl)

end Children

namespace Represents

variable {h : Hours} {L : Ledger} {next : Option SessionNode}

/-- A completely created account represents the empty ledger. -/
theorem created (sisterName : String) : Represents (Hours.created sisterName) .empty none where
  children := ⟨nofun, nofun, child_created sisterName _, fun k _ => child_created sisterName k⟩
  numSessions := rfl
  totalHours := rfl

theorem inProgress? (hr : Represents h L next) : h.inProgress? = next := by
  rw [Hours.inProgress?_eq hr.numSessions, hr.children.next]

/-- A record that represents a ledger is consistent. -/
theorem consistent (hr : Represents h L next) : Consistent h L.count next where
  numSessions := hr.numSessions
  nonneg := L.count_nonneg
  complete k hlow hhigh := by
    obtain ⟨r, -, hchild⟩ := hr.children.exists_recording hlow hhigh
    exact ⟨_, hchild, trivial⟩
  next := hr.children.next
  others := hr.children.others

/-- A check-in. -/
theorem checkIn (hr : Represents h L next) (t : ℤ)
    (hnext : next = none ∨ ∃ t', next = some (.inOnly t')) :
    Represents (h.apply (.checkIn (L.count + 1) t)) L (some (.inOnly t)) where
  children := by
    have hc := hr.children.apply (w := .checkIn (L.count + 1) t) rfl
    rw [Write.onChild, if_pos rfl] at hc
    obtain rfl | ⟨t', rfl⟩ := hnext
    · exact hc
    · exact hc
  numSessions := hr.numSessions
  totalHours := hr.totalHours

/-- A dismissal. -/
theorem dismiss (hr : Represents h L next) :
    Represents (h.applyAll (dismissSession L.count)) L none where
  children := by
    have hc := hr.children.apply (w := .remove (L.count + 1)) rfl
    rwa [Write.onChild, if_pos rfl] at hc
  numSessions := hr.numSessions
  totalHours := hr.totalHours

/-- **A session that iOS records is the next one of the ledger.** -/
theorem recordSession {t out : ℤ} (hr : Represents h L (some (.inOnly t)))
    (hlong : 1800000 ≤ (⟨.ios, ⟨t, out⟩⟩ : Recording).length) (hafter : L.EndsBy t) :
    Represents (h.applyAll (StudyHours.recordSession (out - t) L.count out L.hours))
      (L.record ⟨.ios, ⟨t, out⟩⟩ hlong hafter) none where
  children := by
    have hnum : Children (h.apply (.numSessions L.count)) L (some (.inOnly t)) :=
      hr.children.congr rfl
    have hc := hnum.apply (w := .checkOut (L.count + 1) out) rfl
    rw [Write.onChild, if_pos rfl] at hc
    exact (hc.record hlong hafter rfl).congr rfl
  numSessions := by
    rw [Ledger.count_record]
    rfl
  totalHours := by
    rw [Ledger.hours_record]
    rfl

end Represents

end StudyHours
