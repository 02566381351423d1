/-
**Snapshots of the database.**

What a listener is given is a snapshot: a value, or children under keys, in the order in which the
database enumerates them.  A reader asks for the values it expects, and fails on others: a missing
number cannot be unboxed in Java, and a forced cast of something else traps in Swift.

The record `hours/<uid>` is given to the listeners as such a snapshot.  The three entries and the
session children stand in one row, and a reader tells them apart by their keys.

Main definitions:

* `StudyHours.DataSnapshot` — a snapshot, with what the two clients read from it;
* `StudyHours.Hours.getChildren` — the children of a record, `StudyHours.Hours.Enumerates` — in any
  order;
* `StudyHours.SessionKey` — a key that is none of the three reserved ones.

Main results:

* `StudyHours.Hours.mem_getChildren` — a child of a record is one of the three entries or a session;
* `StudyHours.sessionKey_childKey` — the key of a session is none of the reserved ones;
* `StudyHours.Hours.Enumerates.session_or_reserved` — the same for a child of any enumeration;
* `StudyHours.Hours.Enumerates.child_eq` — a reader finds a child by its key in any enumeration.
-/

import Mathlib
import StudyHours.AdminCode
import StudyHours.HomeFragment

set_option relaxedAutoImplicit false
set_option autoImplicit false

namespace StudyHours

/-! ### Snapshots -/

/-- A value of the database. -/
inductive Value
  | long (n : ℤ)
  | double (q : ℚ)
  | string (s : String)
deriving DecidableEq

/-- A snapshot: a value, or children in the order of their enumeration.  Where nothing is stored
there are no children. -/
inductive DataSnapshot
  | value (v : Value)
  | node (children : List (String × DataSnapshot))

namespace DataSnapshot

/-- The children, in the order of their enumeration. -/
def getChildren : DataSnapshot → List (String × DataSnapshot)
  | value _ => []
  | node children => children

/-- The child under a key. -/
def child (s : DataSnapshot) (key : String) : DataSnapshot :=
  (s.getChildren.lookup key).getD (node [])

/-- `getValue(Long.class)`, unboxed: a missing value cannot be. -/
def getLong : DataSnapshot → Option ℤ
  | value (.long n) => some n
  | value (.double q) => some (q.num.tdiv q.den)
  | _ => none

/-- `getValue(Double.class)`, unboxed. -/
def getDouble : DataSnapshot → Option ℚ
  | value (.long n) => some n
  | value (.double q) => some q
  | _ => none

/-- `getValue(String.class)`, which may be missing. -/
def getString : DataSnapshot → Option (Option String)
  | value (.string s) => some (some s)
  | node [] => some none
  | _ => none

/-- `value as! Int64`. -/
def asInt64 : DataSnapshot → Option ℤ
  | value (.long n) => some n
  | value (.double q) => if q.den = 1 then some q.num else none
  | _ => none

end DataSnapshot

/-- `Integer.valueOf(key)`; `none` is a `NumberFormatException`. -/
def integerValueOf (key : String) : Option ℤ :=
  (Numeral.parse characterDigit key).filter fun n => InInteger n

theorem integerValueOf_childKey (k : ℤ) :
    integerValueOf (childKey k) = if InInteger k then some k else none := by
  have hparse : Numeral.parse characterDigit (childKey k) = some k :=
    Numeral.parse_repr extends_asciiDigit k
  rw [integerValueOf, hparse, Option.filter_some]
  simp

/-! ### The record of an account -/

/-- A session child as a snapshot. -/
def SessionNode.snapshot : SessionNode → DataSnapshot
  | inOnly inTime => .node [("in", .value (.long inTime))]
  | outOnly outTime => .node [("out", .value (.long outTime))]
  | full inTime outTime =>
      .node [("in", .value (.long inTime)), ("out", .value (.long outTime))]

@[simp] theorem getLong_child_in (c : SessionNode) :
    (c.snapshot.child "in").getLong = c.inTime? := by
  cases c <;> rfl

@[simp] theorem getLong_child_out (c : SessionNode) :
    (c.snapshot.child "out").getLong = c.outTime? := by
  cases c <;> rfl

/-- A key that is none of the three reserved ones. -/
def SessionKey (key : String) : Prop :=
  key ≠ "totalHours" ∧ key ≠ "numSessions" ∧ key ≠ "sisterName"

instance (key : String) : Decidable (SessionKey key) := by
  unfold SessionKey
  infer_instance

/-- The decimal numeral of a session is none of the reserved keys. -/
theorem sessionKey_childKey (k : ℤ) : SessionKey (childKey k) := by
  have hne : ∀ key : String, swiftInt key = none → childKey k ≠ key := by
    rintro key hkey rfl
    rw [swiftInt_childKey] at hkey
    cases hkey
  exact ⟨hne _ (by decide), hne _ (by decide), hne _ (by decide)⟩

namespace Hours

/-- The session children as a listener is given them. -/
def sessionChildren (h : Hours) : List (String × DataSnapshot) :=
  h.children.entries.map fun e => (e.1, e.2.snapshot)

/-- The entries of the record as a listener is given them. -/
def reservedChildren (h : Hours) : List (String × DataSnapshot) :=
  (h.numSessions.toList.map fun n => ("numSessions", .value (.long n))) ++
    (h.sisterName.toList.map fun s => ("sisterName", .value (.string s))) ++
    h.totalHours.toList.map fun q => ("totalHours", .value (.double q))

/-- The children of the record. -/
def getChildren (h : Hours) : List (String × DataSnapshot) :=
  h.sessionChildren ++ h.reservedChildren

/-- A listener may be given the children in any order. -/
def Enumerates (h : Hours) (children : List (String × DataSnapshot)) : Prop :=
  children.Perm h.getChildren

variable {h : Hours}

theorem mem_sessionChildren {e : String × DataSnapshot} :
    e ∈ h.sessionChildren ↔ ∃ c, h.children.lookup e.1 = some c ∧ e.2 = c.snapshot := by
  obtain ⟨key, s⟩ := e
  rw [sessionChildren, List.mem_map]
  constructor
  · rintro ⟨⟨key', c⟩, hmem, heq⟩
    obtain ⟨rfl, rfl⟩ := Prod.mk.inj heq
    exact ⟨c, AList.mem_lookup_iff.2 hmem, rfl⟩
  · rintro ⟨c, hget, rfl⟩
    exact ⟨⟨key, c⟩, AList.mem_lookup_iff.1 hget, rfl⟩

theorem mem_reservedChildren {e : String × DataSnapshot} : e ∈ h.reservedChildren ↔
    (∃ n, h.numSessions = some n ∧ e = ("numSessions", .value (.long n))) ∨
    (∃ s, h.sisterName = some s ∧ e = ("sisterName", .value (.string s))) ∨
      ∃ q, h.totalHours = some q ∧ e = ("totalHours", .value (.double q)) := by
  simp only [reservedChildren, List.mem_append, List.mem_map, Option.mem_toList, or_assoc,
    eq_comm (b := e)]

/-- **A child of a record is a session child or one of the three entries.** -/
theorem mem_getChildren {e : String × DataSnapshot} : e ∈ h.getChildren ↔
    (∃ c, h.children.lookup e.1 = some c ∧ e.2 = c.snapshot) ∨ e ∈ h.reservedChildren := by
  rw [getChildren, List.mem_append, mem_sessionChildren]

theorem not_sessionKey_of_mem {e : String × DataSnapshot} (he : e ∈ h.reservedChildren) :
    ¬ SessionKey e.1 := by
  rcases mem_reservedChildren.1 he with ⟨n, -, rfl⟩ | ⟨s, -, rfl⟩ | ⟨q, -, rfl⟩
  · simp [SessionKey]
  · simp [SessionKey]
  · simp [SessionKey]

/-- Under canonical keys, the session children are those whose key is not reserved. -/
theorem Canonical.sessionKey (hc : h.Canonical) {key : String} (hkey : key ∈ h.children) :
    SessionKey key := by
  obtain ⟨k, rfl⟩ := hc key hkey
  exact sessionKey_childKey k

/-- **The keys of the session children are different.** -/
theorem nodup_sessionChildren (h : Hours) : (h.sessionChildren.map Prod.fst).Nodup := by
  rw [sessionChildren, List.map_map]
  exact h.children.keys_nodup

/-- **What a reader comes across**: a session under its numeral, or one of the three entries. -/
theorem Enumerates.session_or_reserved (hc : h.Canonical) {children : List (String × DataSnapshot)}
    (he : h.Enumerates children) {child : String × DataSnapshot} (hmem : child ∈ children) :
    (∃ k c, h.child k = some c ∧ child = (childKey k, c.snapshot)) ∨
      child ∈ h.reservedChildren := by
  obtain ⟨key, s⟩ := child
  rcases mem_getChildren.1 (he.mem_iff.1 hmem) with ⟨c, hget, rfl⟩ | hreserved
  · obtain ⟨k, rfl⟩ := hc key (AList.lookup_isSome.1 (by rw [hget]; rfl))
    exact .inl ⟨k, c, hget, rfl⟩
  · exact .inr hreserved

/-- It comes across every session. -/
theorem Enumerates.mem_of_child {children : List (String × DataSnapshot)}
    (he : h.Enumerates children) {k : ℤ} {c : SessionNode} (hget : h.child k = some c) :
    (childKey k, c.snapshot) ∈ children :=
  he.mem_iff.2 (mem_getChildren.2 (.inl ⟨c, hget, rfl⟩))

/-- **The keys of all children are different.** -/
theorem Canonical.nodup_getChildren (hc : h.Canonical) : (h.getChildren.map Prod.fst).Nodup := by
  have hreserved : (h.reservedChildren.map Prod.fst).Nodup := by
    cases hn : h.numSessions <;> cases hs : h.sisterName <;> cases ht : h.totalHours <;>
      simp [reservedChildren, hn, hs, ht]
  rw [getChildren, List.map_append, List.nodup_append]
  refine ⟨h.nodup_sessionChildren, hreserved, ?_⟩
  rintro key hkey _ hkey' rfl
  obtain ⟨e, he, rfl⟩ := List.mem_map.1 hkey
  obtain ⟨e', he', heq⟩ := List.mem_map.1 hkey'
  obtain ⟨c, hget, -⟩ := mem_sessionChildren.1 he
  have hsession : SessionKey e.1 := hc.sessionKey (AList.lookup_isSome.1 (by rw [hget]; rfl))
  rw [← heq] at hsession
  exact not_sessionKey_of_mem he' hsession

/-- **A reader finds a child by its key**, whatever the order of the children. -/
theorem Enumerates.child_eq (hc : h.Canonical) {children : List (String × DataSnapshot)}
    (he : h.Enumerates children) {key : String} {s : DataSnapshot}
    (hmem : (key, s) ∈ h.getChildren) : (DataSnapshot.node children).child key = s := by
  have hnodup : (children.map Prod.fst).Nodup :=
    (he.map Prod.fst).nodup_iff.2 hc.nodup_getChildren
  obtain ⟨l₁, l₂, rfl⟩ := List.append_of_mem (he.mem_iff.2 hmem)
  have hlookup : (l₁ ++ (key, s) :: l₂).lookup key = some s := by
    refine List.lookup_eq_some_iff.2 ⟨l₁, l₂, rfl, fun e hmem' => bne_iff_ne.2 ?_⟩
    rintro rfl
    rw [List.map_append, List.map_cons, List.nodup_append] at hnodup
    exact hnodup.2.2 _ (List.mem_map_of_mem hmem') _ List.mem_cons_self rfl
  rw [DataSnapshot.child, DataSnapshot.getChildren, hlookup, Option.getD_some]

/-- The total as a reader finds it. -/
theorem Enumerates.getDouble_totalHours (hc : h.Canonical) {children : List (String × DataSnapshot)}
    (he : h.Enumerates children) (ht : h.totalHours.isSome) :
    ((DataSnapshot.node children).child "totalHours").getDouble = h.totalHours := by
  obtain ⟨q, hq⟩ := Option.isSome_iff_exists.1 ht
  have hmem : ("totalHours", DataSnapshot.value (.double q)) ∈ h.getChildren :=
    mem_getChildren.2 (.inr (mem_reservedChildren.2 (.inr (.inr ⟨q, hq, rfl⟩))))
  rw [he.child_eq hc hmem, hq]
  rfl

/-- The name as a reader finds it, which may be missing. -/
theorem Enumerates.getString_sisterName (hc : h.Canonical) {children : List (String × DataSnapshot)}
    (he : h.Enumerates children) :
    ((DataSnapshot.node children).child "sisterName").getString = some h.sisterName := by
  cases hs : h.sisterName with
  | some name =>
      have hmem : ("sisterName", DataSnapshot.value (.string name)) ∈ h.getChildren :=
        mem_getChildren.2 (.inr (mem_reservedChildren.2 (.inr (.inl ⟨name, hs, rfl⟩))))
      rw [he.child_eq hc hmem]
      rfl
  | none =>
      have hnone : children.lookup "sisterName" = none := by
        refine List.lookup_eq_none_iff.2 fun e hmem => bne_iff_ne.2 fun heq => ?_
        rcases he.session_or_reserved hc hmem with ⟨k, c, -, rfl⟩ | hreserved
        · exact (sessionKey_childKey k).2.2 heq.symm
        · rcases mem_reservedChildren.1 hreserved with ⟨n, -, rfl⟩ | ⟨name, hname, -⟩ | ⟨q, -, rfl⟩
          · simp at heq
          · rw [hs] at hname
            cases hname
          · simp at heq
      rw [DataSnapshot.child, DataSnapshot.getChildren, hnone]
      rfl

end Hours

end StudyHours
