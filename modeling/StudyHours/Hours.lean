/-
**The record of an account, `hours/<uid>`.**

Both clients keep the sessions of an account in one record of the database: the number of recorded
sessions, the hours they add up to, the name of the account, and one child for each session, whose
key is the decimal numeral of the session's number.  A session child has an entry `in` and an entry
`out`, each of them a time in milliseconds; the database has no empty nodes, so a child exists as
soon as one of its entries does.

Nothing here belongs to one client: this module has the record, the writes that the clients send to
it, and the effect of a write.

Main definitions:

* `StudyHours.SessionNode` — a session child: one of its entries or both;
* `StudyHours.Hours` — the record, `StudyHours.Hours.child` — a child by the number of its session;
* `StudyHours.Write`, `StudyHours.Hours.apply` — the writes and their effect;
* `StudyHours.Hours.inProgress?` — the child a check-in leaves under the next free key.

Main results:

* `StudyHours.Hours.child_apply` — a write changes at most the child it names;
* `StudyHours.Hours.Canonical.apply` — every child is written under a decimal numeral.
-/

import Mathlib
import StudyHours.Numeral

set_option relaxedAutoImplicit false
set_option autoImplicit false

namespace StudyHours

/-! ### Session children -/

/-- A child of the record that stands for a session. -/
inductive SessionNode
  | inOnly (inTime : ℤ)
  | outOnly (outTime : ℤ)
  | full (inTime outTime : ℤ)
deriving DecidableEq, Repr

namespace SessionNode

/-- The entry `in` of the child. -/
def inTime? : SessionNode → Option ℤ
  | inOnly i => some i
  | outOnly _ => none
  | full i _ => some i

/-- The entry `out` of the child. -/
def outTime? : SessionNode → Option ℤ
  | inOnly _ => none
  | outOnly o => some o
  | full _ o => some o

/-- The child after its entry `in` has been set; it need not have existed before. -/
def setIn (t : ℤ) : Option SessionNode → SessionNode
  | none => inOnly t
  | some (inOnly _) => inOnly t
  | some (outOnly o) => full t o
  | some (full _ o) => full t o

/-- The child after its entry `out` has been set. -/
def setOut (t : ℤ) : Option SessionNode → SessionNode
  | none => outOnly t
  | some (inOnly i) => full i t
  | some (outOnly _) => outOnly t
  | some (full i _) => full i t

/-- Both entries are there. -/
def Complete : SessionNode → Prop
  | full _ _ => True
  | _ => False

instance (c : SessionNode) : Decidable c.Complete := by
  cases c <;> unfold Complete <;> infer_instance

@[simp] theorem inTime?_setIn (t : ℤ) (c : Option SessionNode) :
    (setIn t c).inTime? = some t := by
  rcases c with _ | _ | _ | _ <;> rfl

end SessionNode

/-- A session as the Android client holds it: the fields `in` and `out` of a `StudySession`. -/
structure StudySession where
  inTime : ℤ
  outTime : ℤ
deriving DecidableEq, Repr

/-- The milliseconds of a tenth of an hour, the unit in which both clients credit a session. -/
def tenthOfHour : ℤ := 360000

/-! ### Keys -/

/-- The key of the child of session `k`: `"\(k)"` on iOS and `"" + k` on Android. -/
def childKey (k : ℤ) : String := toString k

/-- `Int(key)` on iOS.  The keys are far inside the range of `Int`, which is not checked here. -/
def swiftInt (key : String) : Option ℤ := Numeral.parse Numeral.asciiDigit key

theorem childKey_inj {j k : ℤ} : childKey j = childKey k ↔ j = k := Int.repr_inj

@[simp] theorem swiftInt_childKey (k : ℤ) : swiftInt (childKey k) = some k :=
  Numeral.parse_repr (fun _ _ h => h) k

/-! ### The record -/

/-- The record `hours/<uid>`. -/
structure Hours where
  totalHours : Option ℚ
  numSessions : Option ℤ
  sisterName : Option String
  /-- The session children, by key. -/
  children : AList fun _ : String => SessionNode

/-- A write to one place of the record.  The counters are written as values computed from a value
read earlier, and the write keeps the two apart. -/
inductive Write
  /-- `<key>/in` is set. -/
  | checkIn (key t : ℤ)
  /-- `<key>/out` is set. -/
  | checkOut (key t : ℤ)
  /-- `<key>` is set to nothing. -/
  | remove (key : ℤ)
  /-- `<key>` is set to a whole session. -/
  | session (key : ℤ) (s : StudySession)
  /-- `numSessions` is set to `numSessionsIn + 1`. -/
  | numSessions (numSessionsIn : ℤ)
  /-- `totalHours` is set to `totalHoursIn + credit`. -/
  | totalHours (totalHoursIn credit : ℚ)
deriving DecidableEq

/-- The session whose child a write is to. -/
def Write.key? : Write → Option ℤ
  | checkIn k _ | checkOut k _ | remove k | session k _ => some k
  | numSessions _ | totalHours _ _ => none

/-- What a write does to the child of session `j`. -/
def Write.onChild (j : ℤ) (c : Option SessionNode) : Write → Option SessionNode
  | checkIn k t => if k = j then some (SessionNode.setIn t c) else c
  | checkOut k t => if k = j then some (SessionNode.setOut t c) else c
  | remove k => if k = j then none else c
  | session k s => if k = j then some (.full s.inTime s.outTime) else c
  | numSessions _ => c
  | totalHours _ _ => c

/-- A write that is no check-in and does not store a whole session. -/
def Write.AddsNoIn : Write → Prop
  | checkIn _ _ | session _ _ => False
  | checkOut _ _ | remove _ | numSessions _ | totalHours _ _ => True

namespace Hours

/-- The child of session `k`. -/
def child (h : Hours) (k : ℤ) : Option SessionNode := h.children.lookup (childKey k)

/-- The record has a child of any kind; a record without one does not exist. -/
def exists? (h : Hours) : Bool :=
  h.totalHours.isSome || h.numSessions.isSome || h.sisterName.isSome ||
    !h.children.entries.isEmpty

/-- The record of an account whose creation has been completed. -/
def created (sisterName : String) : Hours := ⟨some 0, some 0, some sisterName, ∅⟩

/-- The effect of a write. -/
def apply (h : Hours) : Write → Hours
  | .checkIn k t =>
      { h with children := h.children.insert (childKey k) (SessionNode.setIn t (h.child k)) }
  | .checkOut k t =>
      { h with children := h.children.insert (childKey k) (SessionNode.setOut t (h.child k)) }
  | .remove k => { h with children := h.children.erase (childKey k) }
  | .session k s =>
      { h with children := h.children.insert (childKey k) (.full s.inTime s.outTime) }
  | .numSessions n => { h with numSessions := some (n + 1) }
  | .totalHours t credit => { h with totalHours := some (t + credit) }

/-- The effect of several writes, one after the other. -/
def applyAll (h : Hours) (ws : List Write) : Hours := ws.foldl apply h

@[simp] theorem applyAll_nil (h : Hours) : h.applyAll [] = h := rfl

@[simp] theorem applyAll_cons (h : Hours) (w : Write) (ws : List Write) :
    h.applyAll (w :: ws) = (h.apply w).applyAll ws := rfl

@[simp] theorem applyAll_append (h : Hours) (ws ws' : List Write) :
    h.applyAll (ws ++ ws') = (h.applyAll ws).applyAll ws' := List.foldl_append ..

/-- **A write changes at most the child it names.** -/
theorem child_apply (h : Hours) (w : Write) (j : ℤ) :
    (h.apply w).child j = w.onChild j (h.child j) := by
  cases w with
  | checkIn k t | checkOut k t | session k s =>
      rcases eq_or_ne k j with rfl | hne
      · simp [apply, child, Write.onChild]
      · have hkey : childKey j ≠ childKey k := fun hk => hne (childKey_inj.1 hk).symm
        simp [apply, child, Write.onChild, hne, AList.lookup_insert_ne hkey]
  | remove k =>
      rcases eq_or_ne k j with rfl | hne
      · simp [apply, child, Write.onChild]
      · have hkey : childKey j ≠ childKey k := fun hk => hne (childKey_inj.1 hk).symm
        simp [apply, child, Write.onChild, hne, AList.lookup_erase_ne hkey]
  | numSessions n | totalHours t credit => rfl

/-- The other children stay as they are. -/
theorem child_apply_of_ne (h : Hours) {w : Write} {j : ℤ} (hj : w.key? ≠ some j) :
    (h.apply w).child j = h.child j := by
  have hne : ∀ k, w.key? = some k → k ≠ j := fun k hk hkj => hj (hkj ▸ hk)
  rw [child_apply]
  cases w with
  | checkIn k t | checkOut k t | remove k | session k s => exact if_neg (hne k rfl)
  | numSessions n | totalHours t credit => rfl

/-! ### The entry under the next free key -/

/-- The child under `numSessions + 1`: what a check-in leaves until it is recorded or dismissed. -/
def inProgress? (h : Hours) : Option SessionNode := h.numSessions.bind fun n => h.child (n + 1)

theorem inProgress?_eq {h : Hours} {n : ℤ} (hn : h.numSessions = some n) :
    h.inProgress? = h.child (n + 1) := by
  rw [inProgress?, hn, Option.bind_some]

/-! ### The entry `in` of a child -/

/-- The entry `in` of the child of session `k`. -/
def inTime? (h : Hours) (k : ℤ) : Option ℤ := (h.child k).bind SessionNode.inTime?

/-- Without a check-in no entry `in` appears or changes. -/
theorem inTime?_of_apply {h : Hours} {w : Write} (hw : w.AddsNoIn) {k τ : ℤ}
    (hτ : (h.apply w).inTime? k = some τ) : h.inTime? k = some τ := by
  rw [inTime?, child_apply] at hτ
  cases w with
  | checkIn j t | session j σ => exact hw.elim
  | checkOut j t =>
      rw [inTime?]
      simp only [Write.onChild] at hτ
      split_ifs at hτ
      · rcases hc : h.child k with _ | _ | _ | _ <;> simp [hc, SessionNode.setOut,
          SessionNode.inTime?] at hτ ⊢ <;> exact hτ
      · exact hτ
  | remove j =>
      simp only [Write.onChild] at hτ
      split_ifs at hτ
      · cases hτ
      · exact hτ
  | numSessions n | totalHours q r => exact hτ

/-- Without a check-in an entry `in` stays until its child is removed. -/
theorem inTime?_apply {h : Hours} {w : Write} (hw : w.AddsNoIn) {k τ : ℤ}
    (hrm : w ≠ .remove k) (hτ : h.inTime? k = some τ) : (h.apply w).inTime? k = some τ := by
  rw [inTime?] at hτ
  rw [inTime?, child_apply]
  cases w with
  | checkIn j t | session j σ => exact hw.elim
  | checkOut j t =>
      simp only [Write.onChild]
      split_ifs
      · rcases hc : h.child k with _ | _ | _ | _ <;> simp [hc, SessionNode.setOut,
          SessionNode.inTime?] at hτ ⊢ <;> exact hτ
      · exact hτ
  | remove j =>
      have hne : j ≠ k := fun heq => hrm (heq ▸ rfl)
      simpa [Write.onChild, hne] using hτ
  | numSessions n | totalHours q r => exact hτ

/-- The same for several writes. -/
theorem inTime?_of_applyAll {h : Hours} {ws : List Write} (hws : ∀ w ∈ ws, w.AddsNoIn) {k τ : ℤ}
    (hτ : (h.applyAll ws).inTime? k = some τ) : h.inTime? k = some τ := by
  induction ws generalizing h with
  | nil => exact hτ
  | cons w ws ih =>
      have htail := ih (fun w' hw' => hws w' (List.mem_cons_of_mem _ hw')) hτ
      exact inTime?_of_apply (hws w List.mem_cons_self) htail

/-- A check-in leaves an entry `in`, and takes none away. -/
theorem isSome_inTime?_checkIn {h : Hours} {k : ℤ} (hk : (h.inTime? k).isSome) (j t : ℤ) :
    ((h.apply (.checkIn j t)).inTime? k).isSome := by
  rw [inTime?, child_apply]
  simp only [Write.onChild]
  split_ifs
  · rw [Option.bind_some, SessionNode.inTime?_setIn]
    rfl
  · exact hk

/-- The time of the check-in in progress. -/
def checkIn? (h : Hours) : Option ℤ := h.numSessions.bind fun n => h.inTime? (n + 1)

/-! ### Canonical keys -/

/-- Every key of a session child is the decimal numeral of an integer. -/
def Canonical (h : Hours) : Prop := ∀ key ∈ h.children, ∃ k : ℤ, key = childKey k

/-- Both clients write a child under the decimal numeral of its session only. -/
theorem Canonical.apply {h : Hours} (hc : h.Canonical) (w : Write) : (h.apply w).Canonical := by
  cases w with
  | checkIn k t | checkOut k t | session k s =>
      intro key hkey
      rcases (AList.mem_insert _).1 hkey with rfl | hkey
      · exact ⟨k, rfl⟩
      · exact hc key hkey
  | remove k =>
      intro key hkey
      exact hc key (AList.mem_erase.1 hkey).2
  | numSessions n | totalHours t credit => exact hc

theorem Canonical.applyAll {h : Hours} (hc : h.Canonical) (ws : List Write) :
    (h.applyAll ws).Canonical := by
  induction ws generalizing h with
  | nil => exact hc
  | cons w ws ih => exact ih (hc.apply w)

/-- Under canonical keys, a key that reads as `k` is the key of session `k`. -/
theorem Canonical.exists_swiftInt_iff {h : Hours} (hc : h.Canonical) (k : ℤ) :
    (∃ key ∈ h.children, swiftInt key = some k) ↔ (h.child k).isSome := by
  rw [child, AList.lookup_isSome]
  constructor
  · rintro ⟨key, hkey, hk⟩
    obtain ⟨k', rfl⟩ := hc key hkey
    rw [swiftInt_childKey, Option.some.injEq] at hk
    exact hk ▸ hkey
  · intro hk
    exact ⟨childKey k, hk, swiftInt_childKey k⟩

end Hours

end StudyHours
