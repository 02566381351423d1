/-
**The operations of the clients, interrupted.**

What the user takes for one operation — creating an account, checking in, recording a session — is
carried out by the clients as a row of writes and transactions, each of which takes effect by
itself.  A client that stops in between leaves the record as the effects so far have made it, and
nothing in the two programs repairs it later.

Main definitions:

* `StudyHours.ConsistentRecord` — a record whose children, counters and name fit together;
* `StudyHours.Effect`, `StudyHours.Hours.applyEffect` — a single write or transaction;
* `StudyHours.Operation`, `StudyHours.Operation.effects` — the operations and their effects;
* `StudyHours.Restored` — the record is consistent again, or still absent.

Main results:

* `StudyHours.Account.Trans.applyEffect` — an action of the clients has one effect at most;
* `StudyHours.restored_recorded_iff` — which parts of a recording leave a consistent record;
* `StudyHours.restored_iff` — **an interrupted operation leaves a consistent record exactly before
  its first and after its last effect**.
-/

import Mathlib
import StudyHours.Commits
import StudyHours.Interruption
import StudyHours.SignUp

set_option relaxedAutoImplicit false
set_option autoImplicit false

namespace StudyHours

open Account

/-! ### Consistent records -/

/-- The hours that a child is credited with, if the session was recorded by `client`. -/
def childCredit (client : Client) : Option SessionNode → ℚ
  | some (.full inTime outTime) => Recording.credit ⟨client, ⟨inTime, outTime⟩⟩
  | _ => 0

/-- The hours of the sessions `1`, ..., `n`, session `k` having been recorded by `client k`. -/
def creditsUpTo (client : ℤ → Client) (h : Hours) (n : ℤ) : ℚ :=
  ∑ i ∈ Finset.range n.toNat, childCredit (client (i + 1)) (h.child (i + 1))

/-- The children of the record are the `n` sessions it counts, and possibly a check-in under the
next free number; and the hours are those of the sessions. -/
structure ConsistentRecord (client : ℤ → Client) (h : Hours) (n : ℤ) : Prop where
  children : Consistent h n (h.child (n + 1))
  checkIn : ∀ c, h.child (n + 1) = some c → ∃ t, c = .inOnly t
  canonical : h.Canonical
  sisterName : h.sisterName.isSome
  totalHours : h.totalHours = some (creditsUpTo client h n)

/-- The record `h'` is consistent, each session of `h` still being credited to the client that
recorded it; or it does not exist. -/
def Restored (client : ℤ → Client) (h h' : Hours) : Prop :=
  h'.exists? = false ∨
    ∃ client' n, (∀ k c, h.child k = some c → c.Complete → client' k = client k) ∧
      ConsistentRecord client' h' n

theorem consistentRecord_created (client : ℤ → Client) (name : String) :
    ConsistentRecord client (Hours.created name) 0 where
  children := by
    rw [child_created]
    exact consistent_created name
  checkIn c hc := by rw [child_created] at hc; cases hc
  canonical key hkey := absurd hkey (AList.notMem_empty key)
  sisterName := rfl
  totalHours := rfl

namespace ConsistentRecord

variable {client client' : ℤ → Client} {h h' : Hours} {n : ℤ}

theorem restored (hc : ConsistentRecord client h' n)
    (hclient : ∀ k c, h.child k = some c → c.Complete → client k = client' k) :
    Restored client' h h' := .inr ⟨client, n, hclient, hc⟩

/-- The hours of the sessions depend on the sessions only. -/
theorem creditsUpTo_congr (hc : ConsistentRecord client h n)
    (hclient : ∀ k c, h.child k = some c → c.Complete → client' k = client k)
    (hchild : ∀ k, 1 ≤ k → k ≤ n → h'.child k = h.child k) :
    creditsUpTo client' h' n = creditsUpTo client h n := by
  refine Finset.sum_congr rfl fun i hi => ?_
  have hlt := Finset.mem_range.1 hi
  obtain ⟨c, hget, hcomplete⟩ := hc.children.complete (i + 1) (by omega) (by omega)
  rw [hclient _ c hget hcomplete, hchild _ (by omega) (by omega)]

end ConsistentRecord

/-- The hours of one more session. -/
theorem creditsUpTo_succ (client : ℤ → Client) (h : Hours) {n : ℤ} (hn : 0 ≤ n) :
    creditsUpTo client h (n + 1) =
      creditsUpTo client h n + childCredit (client (n + 1)) (h.child (n + 1)) := by
  have hsucc : (n + 1).toNat = n.toNat + 1 := by omega
  have hcast : (n.toNat : ℤ) = n := Int.toNat_of_nonneg hn
  rw [creditsUpTo, hsucc, Finset.sum_range_succ, hcast, creditsUpTo]

/-- A session of half an hour is credited with some hours by either client. -/
theorem credit_pos (r : Recording) (h : 1800000 ≤ r.length) : 0 < r.credit := by
  have hlong : tenthOfHour < 2 * r.length := by
    rw [tenthOfHour]
    omega
  rw [Recording.credit]
  cases r.client with
  | ios => exact iosCredit_pos hlong
  | android => exact androidCredit_pos hlong

/-! ### Effects -/

/-- What takes effect at once: a write, or a transaction that commits. -/
inductive Effect
  | signUp (w : SignUpWrite)
  | write (w : Write)
  /-- A transaction of `totalHours`. -/
  | totalHours (diff : ℤ)
  /-- A transaction of `numSessions`. -/
  | numSessions
deriving DecidableEq

/-- The record after an effect.  A transaction that commits has been run on the value it replaces;
one whose handler throws has no effect. -/
def Hours.applyEffect (h : Hours) : Effect → Hours
  | .signUp w => h.applySignUp w
  | .write w => h.apply w
  | .totalHours diff => { h with totalHours := totalHoursTransaction diff h.totalHours }
  | .numSessions =>
      (numSessionsTransaction h.numSessions).elim h fun new => { h with numSessions := new }

/-- **An action of the clients has one effect at most.** -/
theorem Account.Trans.applyEffect {s t : Account} {a : Action} (hs : SubmissionsInv s)
    (hst : Trans s a t) : t.db = s.db ∨ ∃ e, t.db = s.db.applyEffect e := by
  cases hst with
  | @hoursCommit i sub base new hsub htr hb =>
      have hnew := (hs.sound sub (List.mem_of_getElem? hsub)).hours base new htr
      refine .inr ⟨.totalHours sub.popup.diff, ?_⟩
      rw [Hours.applyEffect, hb, ← hnew]
      rfl
  | @sessionsCommit i sub base new hsub htr hb =>
      have hnew := (hs.sound sub (List.mem_of_getElem? hsub)).sessions base new htr
      refine .inr ⟨.numSessions, ?_⟩
      rw [Hours.applyEffect, hb, hnew]
      rfl
  | @land j l₁ l₂ e _ _ _ => exact .inr ⟨.write e.write, rfl⟩
  | _ => exact .inl rfl

/-! ### Operations -/

/-- What a user does with the record of an account. -/
inductive Operation
  /-- An Android account is created, with a text in the admin-code field. -/
  | createAccount (text displayName : String)
  /-- An iOS account is created. -/
  | signUp (sisterName : String)
  /-- A session is submitted on Android. -/
  | submit (session : StudySession)
  /-- A session is started on iOS. -/
  | checkIn (now : ℤ)
  /-- The session in progress is stopped on iOS at the time `out`, and recorded. -/
  | recordSession (out : ℤ)
  /-- The session in progress is dismissed on iOS. -/
  | dismissSession

namespace Operation

/-- The effects of an operation that is not disturbed, on the record it finds. -/
def effects (h : Hours) : Operation → List Effect
  | createAccount text displayName =>
      ((StudyHours.createAccount text displayName).getD []).map .signUp
  | signUp sisterName => (StudyHours.signUp sisterName).map .signUp
  | submit session =>
      .totalHours (session.outTime - session.inTime) ::
        ((numSessionsTransaction h.numSessions).elim [] fun new =>
          new.toList.flatMap fun n => [.write (sessionWrite (some session) n), .numSessions])
  | checkIn now => (h.numSessions.elim [] fun n => [.checkIn (n + 1) now]).map .write
  | recordSession out =>
      (h.numSessions.elim [] fun n => h.totalHours.elim [] fun q => h.checkIn?.elim [] fun inTime =>
        StudyHours.recordSession (out - inTime) n out q).map .write
  | dismissSession => (h.numSessions.elim [] StudyHours.dismissSession).map .write

/-- The record that the operation is meant for: none at all for a sign-up, a consistent one
otherwise; a session that is recorded has lasted long enough. -/
def Meets (client : ℤ → Client) (h : Hours) : Operation → Prop
  | createAccount _ _ | signUp _ => h = Hours.absent
  | submit session => (∃ n, ConsistentRecord client h n) ∧
      1800000 ≤ session.outTime - session.inTime
  | checkIn _ | dismissSession => ∃ n, ConsistentRecord client h n
  | recordSession out => (∃ n, ConsistentRecord client h n) ∧
      ∃ inTime, h.checkIn? = some inTime ∧ 1800000 < out - inTime

/-- The number of sessions can be increased in an `int`. -/
def Fits (h : Hours) : Operation → Prop
  | submit _ => ∀ n ∈ h.numSessions, n < 2 ^ 31 - 1
  | _ => True

end Operation

/-! ### The parts of a recording -/

/-- The record when some of the parts of a recording under the number `m` have been stored: the
number, the child, and the hours `q`. -/
def Hours.recorded (h : Hours) (m : ℤ) (session : StudySession) (q : ℚ)
    (number child hours : Bool) : Hours :=
  { h with
    totalHours := if hours then some q else h.totalHours
    numSessions := if number then some m else h.numSessions
    children := if child then
        h.children.insert (childKey m) (.full session.inTime session.outTime)
      else h.children }

section Recorded

variable {client : ℤ → Client} {h : Hours} {n m : ℤ} {session : StudySession} {recorder : Client}
  {q : ℚ} {number child hours : Bool}

theorem child_recorded (h : Hours) (m : ℤ) (session : StudySession) (q : ℚ)
    (number child hours : Bool) (k : ℤ) : (h.recorded m session q number child hours).child k =
      if child = true ∧ k = m then some (.full session.inTime session.outTime) else h.child k := by
  cases child with
  | false => simp [Hours.recorded, Hours.child]
  | true =>
      rcases eq_or_ne k m with rfl | hne
      · simp [Hours.recorded, Hours.child]
      · have hkey : childKey k ≠ childKey m := fun hk => hne (childKey_inj.1 hk)
        simp [Hours.recorded, Hours.child, hne, AList.lookup_insert_ne hkey]

theorem recorded_none (h : Hours) (m : ℤ) (session : StudySession) (q : ℚ) :
    h.recorded m session q false false false = h := rfl

/-- When all three parts have been stored, the session is the next one of the record. -/
theorem ConsistentRecord.recorded (hc : ConsistentRecord client h n)
    (hq : q = creditsUpTo client h n + Recording.credit ⟨recorder, session⟩) :
    ConsistentRecord (Function.update client (n + 1) recorder)
      (h.recorded (n + 1) session q true true true) (n + 1) := by
  have hnonneg := hc.children.nonneg
  have hchild : ∀ k, (h.recorded (n + 1) session q true true true).child k =
      if k = n + 1 then some (.full session.inTime session.outTime) else h.child k := by
    intro k
    rw [child_recorded]
    simp
  have hold : creditsUpTo (Function.update client (n + 1) recorder)
      (h.recorded (n + 1) session q true true true) n = creditsUpTo client h n := by
    refine Finset.sum_congr rfl fun i hi => ?_
    have hne : (i + 1 : ℤ) ≠ n + 1 := by
      have := Finset.mem_range.1 hi
      omega
    rw [Function.update_of_ne hne, hchild, if_neg hne]
  refine ⟨⟨rfl, by omega, fun k hlow hhigh => ?_, rfl, fun k hk => ?_⟩, fun c hget => ?_, ?_,
    hc.sisterName, ?_⟩
  · rw [hchild]
    split_ifs with hk
    · exact ⟨_, rfl, trivial⟩
    · exact hc.children.complete k hlow (by omega)
  · rw [hchild, if_neg (by omega)]
    exact hc.children.others k (by omega)
  · rw [hchild, if_neg (by omega), hc.children.others _ (by omega)] at hget
    cases hget
  · intro key hkey
    rcases (AList.mem_insert _).1 hkey with rfl | hkey
    · exact ⟨_, rfl⟩
    · exact hc.canonical key hkey
  · rw [creditsUpTo_succ _ _ hnonneg, hold, Function.update_self, hchild, if_pos rfl]
    exact congrArg some hq

/-- **A part of a recording is worse than none**: the record is consistent when nothing has been
stored, and when everything has been stored under the next free number. -/
theorem restored_recorded_iff (hc : ConsistentRecord client h n) (hm : m = n + 1 ∨ m < 0)
    (hlong : 1800000 ≤ session.outTime - session.inTime)
    (hq : q = creditsUpTo client h n + Recording.credit ⟨recorder, session⟩) :
    Restored client h (h.recorded m session q number child hours) ↔
      (number = false ∧ child = false ∧ hours = false) ∨
        (number = true ∧ child = true ∧ hours = true ∧ m = n + 1) := by
  have hpos : ∀ r : Client, 0 < Recording.credit ⟨r, session⟩ := fun r => credit_pos _ hlong
  constructor
  · rintro (habsent | ⟨client', N, hclient, hrec⟩)
    · obtain ⟨name, hname⟩ := Option.isSome_iff_exists.1 hc.sisterName
      simp [Hours.exists?, Hours.recorded, hname] at habsent
    · have hnumber : (if number = true then some m else h.numSessions) = some N :=
        hrec.children.numSessions
      have hhours : (if hours = true then some q else h.totalHours) =
          some (creditsUpTo client' (h.recorded m session q number child hours) N) :=
        hrec.totalHours
      have hchild := child_recorded h m session q number child hours
      -- the sessions recorded before are credited as before
      have hold : creditsUpTo client' (h.recorded m session q number child hours) n =
          creditsUpTo client h n := by
        refine hc.creditsUpTo_congr hclient fun k hlow hhigh => ?_
        rw [hchild, if_neg]
        rintro ⟨-, rfl⟩
        omega
      cases number with
      | false =>
          rw [if_neg Bool.false_ne_true, hc.children.numSessions, Option.some.injEq] at hnumber
          subst hnumber
          cases child with
          | true =>
              -- a complete child that the number does not count
              have hget := hchild m
              rw [if_pos ⟨rfl, rfl⟩] at hget
              rcases hm with rfl | hm
              · obtain ⟨t, ht⟩ := hrec.checkIn _ hget
                cases ht
              · rw [hrec.children.others m (by omega)] at hget
                cases hget
          | false =>
              cases hours with
              | false => exact .inl ⟨rfl, rfl, rfl⟩
              | true =>
                  rw [if_pos rfl, Option.some.injEq, hold, hq] at hhours
                  exact absurd hhours (by have := hpos recorder; linarith)
      | true =>
          rw [if_pos rfl, Option.some.injEq] at hnumber
          subst hnumber
          have hnonneg := hrec.children.nonneg
          obtain rfl : m = n + 1 := by omega
          obtain ⟨c, hget, hcomplete⟩ := hrec.children.complete (n + 1)
            (by have := hc.children.nonneg; omega) le_rfl
          cases child with
          | false =>
              -- a number that counts the check-in
              rw [hchild, if_neg (by simp)] at hget
              obtain ⟨t, rfl⟩ := hc.checkIn c hget
              exact hcomplete.elim
          | true =>
              cases hours with
              | true => exact .inr ⟨rfl, rfl, rfl, rfl⟩
              | false =>
                  rw [if_neg Bool.false_ne_true, hc.totalHours, Option.some.injEq,
                    creditsUpTo_succ _ _ hc.children.nonneg, hold, hchild,
                    if_pos ⟨rfl, rfl⟩] at hhours
                  exact absurd hhours (by
                    have := hpos (client' (n + 1))
                    rw [childCredit]
                    linarith)
  · rintro (⟨rfl, rfl, rfl⟩ | ⟨rfl, rfl, rfl, rfl⟩)
    · rw [recorded_none]
      exact hc.restored fun _ _ _ _ => rfl
    · refine (hc.recorded hq).restored fun k c hget hcomplete => ?_
      rw [Function.update_of_ne]
      rintro rfl
      obtain ⟨t, rfl⟩ := hc.checkIn c hget
      exact hcomplete.elim

end Recorded

/-! ### Recordings that are interrupted -/

section Recording

variable {client : ℤ → Client} {h : Hours} {n m : ℤ} {session : StudySession} {q : ℚ}
  {number child hours : Effect} {S : Finset Effect}

/-- The three parts of a recording are stored by three effects, each of which looks at its own part
only. -/
theorem independent_recorded (session : StudySession) (hnodup : [number, child, hours].Nodup)
    (hnumber : ∀ r : Hours, r.numSessions = h.numSessions →
      r.applyEffect number = { r with numSessions := some m })
    (hchild : ∀ r : Hours, r.children = h.children → r.applyEffect child =
      { r with children := r.children.insert (childKey m) (.full session.inTime session.outTime) })
    (hhours : ∀ r : Hours, r.totalHours = h.totalHours →
      r.applyEffect hours = { r with totalHours := some q }) :
    Interruption.Independent Hours.applyEffect [number, child, hours] fun S =>
      h.recorded m session q (number ∈ S) (child ∈ S) (hours ∈ S) where
  nodup := hnodup
  effect_eq S e he hS := by
    simp only [List.nodup_cons, List.mem_cons, List.not_mem_nil, or_false, not_or] at hnodup he
    obtain ⟨⟨hnc, hnh⟩, hch, -⟩ := hnodup
    rcases he with rfl | rfl | rfl
    · rw [hnumber _ (by simp [Hours.recorded, hS])]
      simp [Hours.recorded, Ne.symm hnc, Ne.symm hnh]
    · rw [hchild _ (by simp [Hours.recorded, hS])]
      simp [Hours.recorded, hS, hnc, Ne.symm hch]
    · rw [hhours _ (by simp [Hours.recorded, hS])]
      simp [Hours.recorded, hnh, hch]

theorem eq_empty_iff (hS : S ⊆ [number, child, hours].toFinset) :
    S = ∅ ↔ number ∉ S ∧ child ∉ S ∧ hours ∉ S := by
  constructor
  · rintro rfl
    simp
  · rintro ⟨hn, hc, hh⟩
    refine Finset.eq_empty_of_forall_notMem fun e he => ?_
    have hmem := List.mem_toFinset.1 (hS he)
    simp only [List.mem_cons, List.not_mem_nil, or_false] at hmem
    rcases hmem with rfl | rfl | rfl
    · exact hn he
    · exact hc he
    · exact hh he

theorem eq_all_iff (hS : S ⊆ [number, child, hours].toFinset) :
    S = [number, child, hours].toFinset ↔ number ∈ S ∧ child ∈ S ∧ hours ∈ S := by
  constructor
  · rintro rfl
    simp
  · rintro ⟨hn, hc, hh⟩
    refine Finset.Subset.antisymm hS fun e he => ?_
    have hmem := List.mem_toFinset.1 he
    simp only [List.mem_cons, List.not_mem_nil, or_false] at hmem
    rcases hmem with rfl | rfl | rfl
    · exact hn
    · exact hc
    · exact hh

/-- A recording that is interrupted leaves a consistent record before its first and after its last
effect, and after the last one only if the session got the next number. -/
theorem restored_interrupted_iff (hc : ConsistentRecord client h n) (hm : m = n + 1 ∨ m < 0)
    (hlong : 1800000 ≤ session.outTime - session.inTime) {recorder : Client}
    (hq : q = creditsUpTo client h n + Recording.credit ⟨recorder, session⟩)
    (hind : Interruption.Independent Hours.applyEffect [number, child, hours] fun S =>
      h.recorded m session q (number ∈ S) (child ∈ S) (hours ∈ S))
    {order : List Effect} (horder : order.Perm [number, child, hours]) {k : ℕ}
    (hk : k ≤ order.length) :
    Restored client h ((order.take k).foldl Hours.applyEffect h) ↔
      k = 0 ∨ k = order.length ∧ m = n + 1 := by
  have hP : ∀ S ⊆ [number, child, hours].toFinset,
      Restored client h (h.recorded m session q (number ∈ S) (child ∈ S) (hours ∈ S)) ↔
        S = ∅ ∨ S = [number, child, hours].toFinset ∧ m = n + 1 := by
    intro S hS
    rw [restored_recorded_iff hc hm hlong hq, eq_empty_iff hS, eq_all_iff hS]
    simp only [decide_eq_true_eq, decide_eq_false_iff_not, and_assoc]
  have hstart : h.recorded m session q (number ∈ (∅ : Finset Effect))
      (child ∈ (∅ : Finset Effect)) (hours ∈ (∅ : Finset Effect)) = h := by
    simp [Hours.recorded]
  have hiff := hind.interrupted_iff hP horder hk
  rwa [hstart] at hiff

end Recording

/-! ### The operations one by one -/

section Operations

variable {client : ℤ → Client} {h : Hours} {n : ℤ} {order : List Effect} {k : ℕ}

/-- An operation with a single effect is not interrupted. -/
theorem restored_singleton {e : Effect} (hc : Restored client h h)
    (he : Restored client h (h.applyEffect e)) (horder : order.Perm [e]) (hk : k ≤ order.length) :
    Restored client h ((order.take k).foldl Hours.applyEffect h) ↔
      k = 0 ∨ k = order.length ∧ True := by
  obtain rfl := List.perm_singleton.1 horder
  rw [List.length_singleton] at hk ⊢
  obtain rfl | rfl : k = 0 ∨ k = 1 := by omega
  · simpa using hc
  · simpa using he

/-- A write to the child under the next free number that leaves no more than a check-in there. -/
theorem ConsistentRecord.apply (hc : ConsistentRecord client h n) {w : Write}
    (hkey : w.key? = some (n + 1))
    (hnext : ∀ c, w.onChild (n + 1) (h.child (n + 1)) = some c → ∃ t, c = .inOnly t) :
    ConsistentRecord client (h.apply w) n := by
  obtain ⟨hhours, hnumber⟩ := counters_apply h (Option.isSome_iff_exists.2 ⟨_, hkey⟩)
  have hother : ∀ j, j ≠ n + 1 → (h.apply w).child j = h.child j := by
    intro j hj
    refine Hours.child_apply_of_ne h ?_
    rw [hkey, ne_eq, Option.some.injEq]
    exact hj.symm
  refine ⟨⟨hnumber.trans hc.children.numSessions, hc.children.nonneg, fun j hlow hhigh => ?_, rfl,
    fun j hj => ?_⟩, fun c hget => ?_, hc.canonical.apply w, ?_, ?_⟩
  · rw [hother j (by omega)]
    exact hc.children.complete j hlow hhigh
  · have hnonneg := hc.children.nonneg
    rw [hother j (by omega)]
    exact hc.children.others j hj
  · rw [Hours.child_apply] at hget
    exact hnext c hget
  · cases w with
    | numSessions _ | totalHours _ _ => cases hkey
    | _ => exact hc.sisterName
  · have hsame : creditsUpTo client (h.apply w) n = creditsUpTo client h n :=
      hc.creditsUpTo_congr (fun _ _ _ _ => rfl) fun j _ hhigh => hother j (by omega)
    rw [hhours, hc.totalHours, hsame]

theorem restored_checkIn_iff (hc : ConsistentRecord client h n) (now : ℤ)
    (horder : order.Perm ((Operation.checkIn now).effects h)) (hk : k ≤ order.length) :
    Restored client h ((order.take k).foldl Hours.applyEffect h) ↔
      k = 0 ∨ k = order.length ∧ True := by
  rw [Operation.effects, hc.children.numSessions] at horder
  refine restored_singleton (hc.restored fun _ _ _ _ => rfl) ?_ horder hk
  have hrec : ConsistentRecord client (h.apply (.checkIn (n + 1) now)) n := by
    refine hc.apply rfl fun c hget => ?_
    rw [Write.onChild, if_pos rfl, Option.some.injEq] at hget
    subst hget
    cases hnext : h.child (n + 1) with
    | none => exact ⟨now, rfl⟩
    | some c =>
        obtain ⟨t, rfl⟩ := hc.checkIn c hnext
        exact ⟨now, rfl⟩
  exact hrec.restored fun _ _ _ _ => rfl

theorem restored_dismissSession_iff (hc : ConsistentRecord client h n)
    (horder : order.Perm (Operation.dismissSession.effects h)) (hk : k ≤ order.length) :
    Restored client h ((order.take k).foldl Hours.applyEffect h) ↔
      k = 0 ∨ k = order.length ∧ True := by
  rw [Operation.effects, hc.children.numSessions] at horder
  refine restored_singleton (hc.restored fun _ _ _ _ => rfl) ?_ horder hk
  have hrec : ConsistentRecord client (h.apply (.remove (n + 1))) n := by
    refine hc.apply rfl fun c hget => ?_
    rw [Write.onChild, if_pos rfl] at hget
    cases hget
  exact hrec.restored fun _ _ _ _ => rfl

/-- A recording on iOS: the number, the child, and the hours are stored one by one. -/
theorem restored_recordSession_iff (hc : ConsistentRecord client h n) {inTime out : ℤ}
    (hin : h.checkIn? = some inTime) (hlong : 1800000 < out - inTime)
    (horder : order.Perm ((Operation.recordSession out).effects h)) (hk : k ≤ order.length) :
    Restored client h ((order.take k).foldl Hours.applyEffect h) ↔
      k = 0 ∨ k = order.length ∧ True := by
  have hnext : h.child (n + 1) = some (.inOnly inTime) := by
    rw [Hours.checkIn?, hc.children.numSessions, Option.bind_some, Hours.inTime?,
      Option.bind_eq_some_iff] at hin
    obtain ⟨c, hget, hin⟩ := hin
    obtain ⟨t, rfl⟩ := hc.checkIn c hget
    rw [hget, SessionNode.inTime?, Option.some.injEq] at *
    rw [hin]
  rw [Operation.effects, hc.children.numSessions, hc.totalHours, hin] at horder
  have hcredit : creditsUpTo client h n + iosCredit (out - inTime) =
      creditsUpTo client h n + Recording.credit ⟨.ios, ⟨inTime, out⟩⟩ := rfl
  have hchild : ∀ r : Hours, r.children = h.children →
      r.applyEffect (.write (.checkOut (n + 1) out)) =
        { r with children := r.children.insert (childKey (n + 1)) (.full inTime out) } := by
    intro r hr
    have hget : r.child (n + 1) = some (.inOnly inTime) := by
      rw [Hours.child, hr, ← hnext, Hours.child]
    rw [Hours.applyEffect, Hours.apply, hget]
    rfl
  have hnodup : [Effect.write (.numSessions n), .write (.checkOut (n + 1) out),
      .write (.totalHours (creditsUpTo client h n) (iosCredit (out - inTime)))].Nodup := by simp
  have hind := independent_recorded ⟨inTime, out⟩ hnodup (fun _ _ => rfl) hchild fun _ _ => rfl
  have hiff := restored_interrupted_iff hc (.inl rfl) hlong.le hcredit hind horder hk
  simpa using hiff

/-- A submission: the hours, the child, and the number are stored one by one. -/
theorem restored_submit_iff (hc : ConsistentRecord client h n) {session : StudySession}
    (hlong : 1800000 ≤ session.outTime - session.inTime)
    (horder : order.Perm ((Operation.submit session).effects h)) (hk : k ≤ order.length) :
    Restored client h ((order.take k).foldl Hours.applyEffect h) ↔
      k = 0 ∨ k = order.length ∧ n < 2 ^ 31 - 1 := by
  have hnonneg := hc.children.nonneg
  have hcredit : creditsUpTo client h n + androidCredit (session.outTime - session.inTime) =
      creditsUpTo client h n + Recording.credit ⟨.android, session⟩ := rfl
  have hhours : ∀ r : Hours, r.totalHours = h.totalHours →
      r.applyEffect (.totalHours (session.outTime - session.inTime)) = { r with
        totalHours := some (creditsUpTo client h n +
          androidCredit (session.outTime - session.inTime)) } := by
    intro r hr
    rw [Hours.applyEffect, hr, hc.totalHours]
    rfl
  rw [Operation.effects, hc.children.numSessions, numSessionsTransaction] at horder
  by_cases hint : InInteger n
  · rw [if_pos hint] at horder
    have hslot : integerSucc n = n + 1 ∨ integerSucc n < 0 := by
      rcases lt_or_ge n (2 ^ 31 - 1) with hlt | hge
      · exact .inl (integerSucc_of_lt hint hlt)
      · obtain rfl : n = 2 ^ 31 - 1 := le_antisymm (by have := hint.2; omega) hge
        rw [integerSucc_max]
        exact .inr (by norm_num)
    have hnumber : ∀ r : Hours, r.numSessions = h.numSessions →
        r.applyEffect .numSessions = { r with numSessions := some (integerSucc n) } := by
      intro r hr
      rw [Hours.applyEffect, hr, hc.children.numSessions, numSessionsTransaction, if_pos hint]
      rfl
    have hnodup : [Effect.numSessions, .write (.session (integerSucc n) session),
        .totalHours (session.outTime - session.inTime)].Nodup := by simp
    have hind := independent_recorded session hnodup hnumber (fun _ _ => rfl) hhours
    have horder' : order.Perm [Effect.numSessions, .write (.session (integerSucc n) session),
        .totalHours (session.outTime - session.inTime)] :=
      horder.trans (List.reverse_perm [_, _, _]).symm
    have hlt : integerSucc n = n + 1 ↔ n < 2 ^ 31 - 1 := by
      rw [integerSucc_eq_iff hint]
      have := hint.2
      omega
    rw [restored_interrupted_iff hc hslot hlong hcredit hind horder' hk, hlt]
  · -- the handler of `numSessions` throws, and the hours alone are stored
    rw [if_neg hint] at horder
    obtain rfl := List.perm_singleton.1 horder
    have hge : ¬ n < 2 ^ 31 - 1 := fun hlt => hint ⟨by omega, by omega⟩
    rw [List.length_singleton] at hk ⊢
    obtain rfl | rfl : k = 0 ∨ k = 1 := by omega
    · simpa using hc.restored fun _ _ _ _ => rfl
    · have hstate : [Effect.totalHours (session.outTime - session.inTime)].foldl Hours.applyEffect h
          = h.recorded (-1) session (creditsUpTo client h n +
            androidCredit (session.outTime - session.inTime)) false false true := hhours h rfl
      rw [List.take_of_length_le (by simp), hstate,
        restored_recorded_iff hc (.inr (by norm_num)) hlong hcredit]
      simpa using hge

/-- The record of a new account with some of its three entries. -/
def newRecord (name : String) (hours number sister : Bool) : Hours :=
  ⟨if hours then some 0 else none, if number then some 0 else none,
    if sister then some name else none, ∅⟩

/-- A record with some of the entries only is neither consistent nor absent. -/
theorem restored_newRecord_iff (client : ℤ → Client) (name : String) (hours number sister : Bool) :
    Restored client Hours.absent (newRecord name hours number sister) ↔
      (hours = false ∧ number = false ∧ sister = false) ∨
        (hours = true ∧ number = true ∧ sister = true) := by
  constructor
  · rintro (habsent | ⟨client', n, -, hrec⟩)
    · left
      simpa [Hours.exists?, newRecord, apply_ite Option.isSome, and_assoc] using habsent
    · right
      have hhours := hrec.totalHours
      have hnumber := hrec.children.numSessions
      have hsister := hrec.sisterName
      simp only [newRecord, Option.ite_none_right_eq_some, apply_ite Option.isSome,
        Option.isSome_some, Option.isSome_none, Bool.if_false_right, Bool.and_true,
        decide_eq_true_eq] at hhours hnumber hsister
      exact ⟨hhours.1, hnumber.1, hsister⟩
  · rintro (⟨rfl, rfl, rfl⟩ | ⟨rfl, rfl, rfl⟩)
    · exact .inl rfl
    · exact (consistentRecord_created client name).restored fun _ _ _ _ => rfl

/-- An account creation on Android: the three entries are stored one by one. -/
theorem restored_createAccount_iff (client : ℤ → Client) (text displayName : String)
    (horder : order.Perm ((Operation.createAccount text displayName).effects Hours.absent))
    (hk : k ≤ order.length) :
    Restored client Hours.absent ((order.take k).foldl Hours.applyEffect Hours.absent) ↔
      k = 0 ∨ k = order.length ∧ True := by
  rw [Operation.effects] at horder
  cases hws : createAccount text displayName with
  | none =>
      -- the handler throws, and there is nothing to interrupt
      rw [hws] at horder
      obtain rfl := List.perm_nil.1 horder
      obtain rfl : k = 0 := Nat.le_zero.1 hk
      simpa using show Restored client Hours.absent Hours.absent from .inl rfl
  | some ws =>
      obtain ⟨code, -, rfl⟩ := Option.map_eq_some_iff.1 hws
      rw [hws] at horder
      have hind : Interruption.Independent Hours.applyEffect
          [.signUp (.totalHours 0), .signUp (.numSessions 0), .signUp (.sisterName displayName)]
          fun S => newRecord displayName (.signUp (.totalHours 0) ∈ S)
            (.signUp (.numSessions 0) ∈ S) (.signUp (.sisterName displayName) ∈ S) := by
        refine ⟨by simp, fun S e he _ => ?_⟩
        simp only [List.mem_cons, List.not_mem_nil, or_false] at he
        rcases he with rfl | rfl | rfl <;> simp [Hours.applyEffect, Hours.applySignUp, newRecord]
      refine hind.interrupted_iff (fun S hS => ?_) horder hk
      rw [restored_newRecord_iff, eq_empty_iff hS, eq_all_iff hS, and_true]
      simp only [decide_eq_true_eq, decide_eq_false_iff_not]

end Operations

/-! ### All operations -/

/-- **An interrupted operation leaves a consistent record exactly before its first and after its
last effect**: for every operation on every record it is meant for, and for every order of its
effects.  After the last effect of a submission the number of sessions must have fit into an
`int`. -/
theorem restored_iff {client : ℤ → Client} {h : Hours} {op : Operation} (hop : op.Meets client h)
    {order : List Effect} (horder : order.Perm (op.effects h)) {k : ℕ} (hk : k ≤ order.length) :
    Restored client h ((order.take k).foldl Hours.applyEffect h) ↔
      k = 0 ∨ k = order.length ∧ op.Fits h := by
  cases op with
  | createAccount text displayName =>
      obtain rfl : h = Hours.absent := hop
      exact restored_createAccount_iff client text displayName horder hk
  | signUp sisterName =>
      obtain rfl : h = Hours.absent := hop
      have hend : Restored client Hours.absent
          (Hours.absent.applyEffect (.signUp (.post sisterName 0 0))) :=
        (consistentRecord_created client sisterName).restored fun _ _ _ _ => rfl
      exact restored_singleton (.inl rfl) hend horder hk
  | submit session =>
      obtain ⟨⟨n, hc⟩, hlong⟩ := hop
      have hfits : (Operation.submit session).Fits h ↔ n < 2 ^ 31 - 1 := by
        simp [Operation.Fits, hc.children.numSessions]
      rw [hfits]
      exact restored_submit_iff hc hlong horder hk
  | checkIn now =>
      obtain ⟨n, hc⟩ := hop
      exact restored_checkIn_iff hc now horder hk
  | recordSession out =>
      obtain ⟨⟨n, hc⟩, inTime, hin, hlong⟩ := hop
      exact restored_recordSession_iff hc hin hlong horder hk
  | dismissSession =>
      obtain ⟨n, hc⟩ := hop
      exact restored_dismissSession_iff hc horder hk

/-- A submission that is not interrupted. -/
theorem restored_wholeSubmission : Restored (fun _ => .ios) (Hours.created "A")
    ((((Operation.submit ⟨0, 3600000⟩).effects (Hours.created "A")).take 3).foldl Hours.applyEffect
      (Hours.created "A")) := by
  have hmeets : (Operation.submit ⟨0, 3600000⟩).Meets (fun _ => .ios) (Hours.created "A") :=
    ⟨⟨0, consistentRecord_created _ "A"⟩, by decide⟩
  have hfits : (Operation.submit ⟨0, 3600000⟩).Fits (Hours.created "A") := by
    intro n hn
    obtain rfl : 0 = n := Option.some.inj hn
    norm_num
  exact (restored_iff hmeets (.refl _) (by decide)).2 (.inr ⟨by decide, hfits⟩)

/-- **An Android account whose creation is cut off after the first write** has a record without
`numSessions`. -/
theorem not_restored : ¬ ∀ (client : ℤ → Client) (h : Hours) (op : Operation) (order : List Effect)
    (k : ℕ), op.Meets client h → order.Perm (op.effects h) → k ≤ order.length →
      Restored client h ((order.take k).foldl Hours.applyEffect h) := by
  intro h
  have hone := h (fun _ => .android) Hours.absent (.createAccount "" "A")
    ((Operation.createAccount "" "A").effects Hours.absent) 1 rfl (.refl _) (by decide)
  rcases hone with habsent | ⟨client', n, -, hrec⟩
  · exact absurd habsent (by decide)
  · have hnumber := hrec.children.numSessions
    cases hnumber

end StudyHours
