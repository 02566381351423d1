/-
**Concurrent Android submissions and the session children.**

The handler of `numSessions` writes a session child each time it is run, under the number after the
value it is run on, and the transaction takes the number it has computed only if the server still
holds that value.  A run that is not taken leaves a stray write, to a slot that another submission
may have taken.  Here the slots are followed through every interleaving of handler runs, re-runs,
commits and landings, and it is shown which of the landings a run may contain so that in the end the
children are the earlier sessions and the submitted ones, each of them once.

Main definitions:

* `StudyHours.Stored` — a session is in a slot, or a write that puts it there is in flight;
* `StudyHours.KeepsSlots` — no session is pushed out of its slot for good;
* `StudyHours.SlotsInv` — what is known of the slots;
* `StudyHours.Corresponds` — the children are the earlier sessions and the submitted ones.

Main results:

* `StudyHours.SlotsInv.trans` — the invariant survives every action that keeps the slots;
* `StudyHours.corresponds_of_keepsSlots` — **in the end each session has a slot of its own, and each
  slot a session**;
* `StudyHours.not_corresponds` — a stray write that pushes a session out.
-/

import Mathlib
import StudyHours.Confirmations
import StudyHours.Slots
import StudyHours.SubmittedSession

set_option relaxedAutoImplicit false
set_option autoImplicit false

namespace StudyHours

open Account

/-! ### Sessions and their slots -/

/-- The session that submission `i` is about. -/
def Account.session (s : Account) (i : ℕ) : Option StudySession :=
  s.tickets[i]?.map fun ticket => ticket.2.session

theorem session_eq {s : Account} {i : ℕ} {sub : Submission} (h : s.submissions[i]? = some sub) :
    s.session i = some sub.popup.session := by
  rw [session, tickets, List.getElem?_map, h]
  rfl

/-- A submission stays about the same session. -/
theorem session_of_extends {s t : Account} (h : s.tickets <+: t.tickets) {i : ℕ}
    {tr : Transaction ℤ} (hi : s.phase i = some tr) : t.session i = s.session i := by
  obtain ⟨sub, hsub, -⟩ := phase_eq_some hi
  have hlt : i < s.tickets.length := by
    rw [tickets, List.length_map]
    exact (List.getElem?_eq_some_iff.1 hsub).1
  obtain ⟨l, hl⟩ := h
  rw [session, session, ← hl, List.getElem?_append_left hlt]

/-- The session `σ` is in slot `k`, or a write that puts it there is in flight. -/
def Stored (s : Account) (k : ℤ) (σ : StudySession) : Prop :=
  s.db.child k = some (.full σ.inTime σ.outTime) ∨ ∃ e ∈ s.outbox, e.write = .session k σ

instance (s : Account) (k : ℤ) (σ : StudySession) : Decidable (Stored s k σ) := by
  unfold Stored
  infer_instance

/-- The same children, and more writes in flight. -/
theorem Stored.mono {s t : Account} {k : ℤ} {σ : StudySession} (h : Stored s k σ)
    (hchildren : t.db.children = s.db.children) (hout : ∀ e ∈ s.outbox, e ∈ t.outbox) :
    Stored t k σ := by
  rcases h with h | ⟨e, he, hw⟩
  · left
    rwa [Hours.child, hchildren]
  · exact .inr ⟨e, hout e he, hw⟩

/-- A session that is on its way to its slot, after a landing. -/
theorem Stored.of_mem {s t : Account} {l₁ l₂ : List Entry} {e f : Entry} {k : ℤ} {σ : StudySession}
    (hout : s.outbox = l₁ ++ e :: l₂) (hdb : t.db = s.db.apply e.write)
    (hout' : t.outbox = l₁ ++ l₂) (hf : f ∈ s.outbox) (hw : f.write = .session k σ) :
    Stored t k σ := by
  rw [hout, List.mem_append, List.mem_cons] at hf
  rcases hf with hf | rfl | hf
  · exact .inr ⟨f, by simp [hout', hf], hw⟩
  · left
    rw [hdb, hw, Hours.child_apply, Write.onChild, if_pos rfl]
  · exact .inr ⟨f, by simp [hout', hf], hw⟩

/-! ### Keeping the slots -/

/-- No session is pushed out of its slot for good.

A handler is run on no number from the largest `int` on, and only as long as its client has started
no session since.  A submission takes a slot only if its session is there, or on its way there.  A
write to a slot that has been taken lands only if it changes nothing, if it stores the session of
the submission that took the slot, or if a write of that session to the slot is still in flight. -/
def KeepsSlots (s : Account) : Action → Prop
  | .runSessions i v => NotRestarted s (.runSessions i v) ∧ ∀ m ∈ v, m < 2 ^ 31 - 1
  | .commitSessions i => ∀ tr ∈ s.phase i, ∀ N ∈ s.db.numSessions, tr.base? = some (some N) →
      ∀ σ ∈ s.session i, Stored s (N + 1) σ
  | .land j => ∀ e ∈ s.outbox[j]?, ∀ k ∈ e.write.key?, ∀ N ∈ s.db.numSessions, k ≤ N →
      (s.db.apply e.write).child k = s.db.child k ∨
        ∃ i < s.submissions.length, s.phase i = some (.committed (some (k - 1))) ∧
          ∃ σ ∈ s.session i, e.write = .session k σ ∨
            ∃ e' ∈ s.outbox.eraseIdx j, e'.write = .session k σ
  | _ => True

instance (s : Account) (a : Action) : Decidable (KeepsSlots s a) := by
  induction a using Action.casesOn <;> dsimp only [KeepsSlots] <;> infer_instance

/-! ### The invariant -/

/-- What is known of the slots when the account started with the record `h₀` of `n₀` sessions and
has come to `N`.  Every slot above `n₀` has been taken by one submission, whose session is there or
on its way there; there is nothing beyond the next free slot, and nothing in it but what a
transaction under way has put there. -/
structure SlotsInv (h₀ : Hours) (n₀ N : ℤ) (s : Account) : Prop where
  submissions : SubmissionsInv s
  popups : PopupInv s
  number : s.db.numSessions = some N
  le : n₀ ≤ N
  owned : ∀ k, n₀ < k → k ≤ N → ∃ i, s.phase i = some (.committed (some (k - 1)))
  base : ∀ i b, s.phase i = some (.committed b) → ∃ m, b = some m ∧ n₀ ≤ m ∧ m < N
  unique : ∀ i j b, s.phase i = some (.committed b) → s.phase j = some (.committed b) → i = j
  sessions : ∀ e ∈ s.outbox, ∃ k σ, e.write = .session k σ ∧ k ≤ N + 1
  stored : ∀ i m, s.phase i = some (.committed (some m)) → ∀ σ ∈ s.session i, Stored s (m + 1) σ
  earlier : ∀ k, k ≤ n₀ → s.db.child k = h₀.child k
  beyond : ∀ k, N + 1 < k → s.db.child k = none
  next : (s.db.child (N + 1)).isSome ∨ (∃ e ∈ s.outbox, e.write.key? = some (N + 1)) →
    ∃ i new, s.phase i = some (.sent (some N) new)
  sent : ∀ i m new, s.phase i = some (.sent (some m) new) → m < 2 ^ 31 - 1
  aborted : ∀ i, s.phase i ≠ some .aborted

namespace SlotsInv

variable {h₀ : Hours} {n₀ N : ℤ} {s t : Account} {a : Action}

/-- At first no submission has taken a slot. -/
theorem of_consistent (hc : Consistent s.db n₀ none) (ht : s.db.totalHours.isSome)
    (hu : Untouched s) (hout : s.outbox = []) : SlotsInv s.db n₀ n₀ s := by
  have hphase : ∀ i, s.phase i = none := phase_of_submissions_nil hu.1
  refine ⟨⟨by simp [hc.numSessions], ht, ?_, ?_⟩, .of_untouched hu, hc.numSessions, le_rfl, ?_, ?_,
    ?_, ?_, ?_, fun k _ => rfl, fun k hk => hc.others k (.inr hk), ?_, ?_, ?_⟩
  · intro c p hp
    rw [hu.2 c] at hp
    cases hp
  · intro sub hsub
    rw [hu.1] at hsub
    cases hsub
  · intro k hlow hhigh
    omega
  · intro i b hi
    rw [hphase] at hi
    cases hi
  · intro i j b hi
    rw [hphase] at hi
    cases hi
  · intro e he
    rw [hout] at he
    cases he
  · intro i m hi
    rw [hphase] at hi
    cases hi
  · rintro (hnext | ⟨e, he, -⟩)
    · rw [hc.next] at hnext
      cases hnext
    · rw [hout] at he
      cases he
  · intro i m new hi
    rw [hphase] at hi
    cases hi
  · intro i hi
    rw [hphase] at hi
    cases hi

/-- An action after which the same slots have been taken: what is left to show. -/
theorem of_committed_iff (h : SlotsInv h₀ n₀ N s) (hsub : SubmissionsInv t) (hpop : PopupInv t)
    (hnumber : t.db.numSessions = s.db.numSessions)
    (hcomm : ∀ i b, t.phase i = some (.committed b) ↔ s.phase i = some (.committed b))
    (hsessions : ∀ e ∈ t.outbox, ∃ k σ, e.write = .session k σ ∧ k ≤ N + 1)
    (hstored : ∀ i m, s.phase i = some (.committed (some m)) →
      ∀ σ ∈ t.session i, Stored t (m + 1) σ)
    (hearlier : ∀ k, k ≤ n₀ → t.db.child k = h₀.child k)
    (hbeyond : ∀ k, N + 1 < k → t.db.child k = none)
    (hnext : (t.db.child (N + 1)).isSome ∨ (∃ e ∈ t.outbox, e.write.key? = some (N + 1)) →
      ∃ i new, t.phase i = some (.sent (some N) new))
    (hsent : ∀ i m new, t.phase i = some (.sent (some m) new) → m < 2 ^ 31 - 1)
    (haborted : ∀ i, t.phase i ≠ some .aborted) : SlotsInv h₀ n₀ N t where
  submissions := hsub
  popups := hpop
  number := hnumber.trans h.number
  le := h.le
  owned k hlow hhigh := (h.owned k hlow hhigh).imp fun i hi => (hcomm i _).2 hi
  base i b hi := h.base i b ((hcomm i b).1 hi)
  unique i j b hi hj := h.unique i j b ((hcomm i b).1 hi) ((hcomm j b).1 hj)
  sessions := hsessions
  stored i m hi := hstored i m ((hcomm i _).1 hi)
  earlier := hearlier
  beyond := hbeyond
  next := hnext
  sent := hsent
  aborted := haborted

/-- The next number, for a number that has been read. -/
theorem new_of_sent (h : SlotsInv h₀ n₀ N s) {i : ℕ} {m : ℤ} {new : Option ℤ}
    (hi : s.phase i = some (.sent (some m) new)) : new = some (m + 1) := by
  obtain ⟨hint, hnew⟩ := numSessionsTransaction_some (h.submissions.sent hi)
  rw [hnew, integerSucc_of_lt hint (h.sent i m new hi)]

/-- Nothing happens to the slots. -/
theorem quiet (h : SlotsInv h₀ n₀ N s) (hsub : SubmissionsInv t) (hpop : PopupInv t)
    (hchildren : t.db.children = s.db.children) (hnumber : t.db.numSessions = s.db.numSessions)
    (hout : t.outbox = s.outbox) (htickets : s.tickets <+: t.tickets)
    (hkept : ∀ i tr, s.phase i = some tr → t.phase i = some tr ∨
      ∃ base new, tr = .sent base new ∧ s.db.numSessions ≠ base)
    (hnew : ∀ i tr, t.phase i = some tr → s.phase i = some tr ∨ tr = .queued) :
    SlotsInv h₀ n₀ N t := by
  have hchild : ∀ k, t.db.child k = s.db.child k := fun k => by
    rw [Hours.child, hchildren, Hours.child]
  refine h.of_committed_iff hsub hpop hnumber (fun i b => ⟨fun hi => ?_, fun hi => ?_⟩)
    (hout ▸ h.sessions) ?_ (fun k hk => (hchild k).trans (h.earlier k hk))
    (fun k hk => (hchild k).trans (h.beyond k hk)) ?_ ?_ ?_
  · exact (hnew i _ hi).resolve_right (by simp)
  · refine (hkept i _ hi).resolve_right ?_
    rintro ⟨base, new, heq, -⟩
    cases heq
  · intro i m hi σ hσ
    rw [session_of_extends htickets hi] at hσ
    exact (h.stored i m hi σ hσ).mono hchildren fun e he => hout ▸ he
  · rw [hchild, hout]
    intro hnext
    obtain ⟨i, new, hi⟩ := h.next hnext
    -- a transaction that was run on the current number is not sent back
    refine ⟨i, new, (hkept i _ hi).resolve_right ?_⟩
    rintro ⟨base, new', heq, hne⟩
    cases heq
    exact hne h.number
  · intro i m new hi
    exact h.sent i m new ((hnew i _ hi).resolve_right (by simp))
  · intro i hi
    exact h.aborted i ((hnew i _ hi).resolve_right (by simp))

/-- What a run of a handler writes: the session of its submission, to the slot after the number it
was run on. -/
theorem handlerWrites (h : SlotsInv h₀ n₀ N s) {i : ℕ} {v new : Option ℤ} {sub : Submission}
    (hsub : s.submissions[i]? = some sub) (hq : s.phase i = some .queued)
    (hv : numSessionsTransaction v = some new) (hlocal : LocalValue s (.runSessions i v))
    (hkeeps : KeepsSlots s (.runSessions i v)) :
    ∀ e ∈ s.handlerWrites i sub new, ∃ m,
      v = some m ∧ e.write = .session (m + 1) sub.popup.session ∧ m ≤ N := by
  intro e he
  cases v with
  | none =>
      obtain rfl : none = new := Option.some.inj hv
      cases he
  | some m =>
      obtain ⟨hint, rfl⟩ := numSessionsTransaction_some hv
      have hsucc := integerSucc_of_lt hint (hkeeps.2 m rfl)
      rw [hsucc] at hv he
      obtain rfl := List.mem_singleton.1 he
      -- no session has been started since, so the field still holds the submitted one
      have hrecord : storedRecord s (.runSessions i (some m)) =
          some (sub, sessionWrite (s.fragment sub.client).studySession (m + 1)) := by
        rw [phase_eq hsub] at hq
        simp [storedRecord, hsub, hq, hv]
      obtain ⟨⟨k, hk⟩, -, -⟩ := h.popups.recordsPopup hkeeps.1 _ hrecord
      simp only at hk
      have hkey : k = m + 1 := by
        have hkey := key?_sessionWrite (s.fragment sub.client).studySession (m + 1)
        rw [hk] at hkey
        exact Option.some.inj hkey
      exact ⟨m, rfl, hkey ▸ hk, (hlocal m rfl).2 N h.number⟩

/-- A handler is run: its session is on its way to the slot after the number it was run on. -/
theorem run (h : SlotsInv h₀ n₀ N s) (hsubs : SubmissionsInv t) (hpop : PopupInv t) {i : ℕ}
    {v new : Option ℤ} {sub : Submission} (hsub : s.submissions[i]? = some sub)
    (hq : s.phase i = some .queued) (hv : numSessionsTransaction v = some new) (hdb : t.db = s.db)
    (hout : t.outbox = s.outbox ++ s.handlerWrites i sub new) (htickets : t.tickets = s.tickets)
    (hphase : t.phase = Function.update s.phase i (some (.sent v new)))
    (hlocal : LocalValue s (.runSessions i v)) (hkeeps : KeepsSlots s (.runSessions i v)) :
    SlotsInv h₀ n₀ N t := by
  have hmem : ∀ e ∈ s.outbox, e ∈ t.outbox := fun e he => hout ▸ List.mem_append_left _ he
  have hwrite := h.handlerWrites hsub hq hv hlocal hkeeps
  refine h.of_committed_iff hsubs hpop (by rw [hdb]) (fun j b => ?_) ?_ ?_ (hdb ▸ h.earlier)
    (hdb ▸ h.beyond) ?_ ?_ ?_
  · rw [hphase]
    constructor
    · intro hj
      rcases update_eq_some hj with ⟨-, heq⟩ | ⟨-, hj⟩
      · cases heq
      · exact hj
    · intro hj
      rw [Function.update_of_ne, hj]
      rintro rfl
      rw [hq] at hj
      cases hj
  · intro e he
    rw [hout, List.mem_append] at he
    rcases he with he | he
    · exact h.sessions e he
    · obtain ⟨m, -, hw, hm⟩ := hwrite e he
      exact ⟨m + 1, _, hw, by omega⟩
  · intro j m hj σ hσ
    rw [session, htickets] at hσ
    exact (h.stored j m hj σ hσ).mono (by rw [hdb]) hmem
  · intro hnext
    by_cases hold : (s.db.child (N + 1)).isSome ∨ ∃ e ∈ s.outbox, e.write.key? = some (N + 1)
    · obtain ⟨j, new', hj⟩ := h.next hold
      refine ⟨j, new', ?_⟩
      rw [hphase, Function.update_of_ne, hj]
      rintro rfl
      rw [hq] at hj
      cases hj
    · -- the write to the next slot is the one this run has issued
      rw [hdb, hout] at hnext
      simp only [List.mem_append, or_and_right, exists_or] at hnext
      rcases hnext with hnext | hnext | ⟨e, he, hkey⟩
      · exact absurd (.inl hnext) hold
      · exact absurd (.inr hnext) hold
      · obtain ⟨m, rfl, hw, -⟩ := hwrite e he
        rw [hw, Write.key?, Option.some.injEq, add_left_inj] at hkey
        subst hkey
        exact ⟨i, new, by rw [hphase, Function.update_self]⟩
  · intro j m new' hj
    rw [hphase] at hj
    rcases update_eq_some hj with ⟨-, heq⟩ | ⟨-, hj⟩
    · cases heq
      exact hkeeps.2 m rfl
    · exact h.sent j m new' hj
  · intro j hj
    rw [hphase] at hj
    rcases update_eq_some hj with ⟨-, heq⟩ | ⟨-, hj⟩
    · cases heq
    · exact h.aborted j hj

/-- A result is taken: the submission takes the next free slot. -/
theorem commit (h : SlotsInv h₀ n₀ N s) (hsubs : SubmissionsInv t) (hpop : PopupInv t) {i : ℕ}
    {base new : Option ℤ} (hsent : s.phase i = some (.sent base new))
    (hbase : s.db.numSessions = base) (hchildren : t.db.children = s.db.children)
    (hnumber : t.db.numSessions = new) (hout : t.outbox = s.outbox)
    (htickets : t.tickets = s.tickets)
    (hphase : t.phase = Function.update s.phase i (some (.committed base)))
    (hkeeps : KeepsSlots s (.commitSessions i)) : SlotsInv h₀ n₀ (N + 1) t := by
  have hchild : ∀ k, t.db.child k = s.db.child k := fun k => by
    rw [Hours.child, hchildren, Hours.child]
  obtain rfl : base = some N := hbase.symm.trans h.number
  have hnew : new = some (N + 1) := h.new_of_sent hsent
  have hle := h.le
  -- the submissions that had committed have other numbers, and stay as they are
  have hold : ∀ j b, s.phase j = some (.committed b) → j ≠ i := by
    rintro j b hj rfl
    rw [hsent] at hj
    cases hj
  have hne : ∀ j b, s.phase j = some (.committed b) → b ≠ some N := by
    rintro j b hj rfl
    obtain ⟨m, heq, -, hlt⟩ := h.base j _ hj
    exact absurd (Option.some.inj heq) hlt.ne'
  refine ⟨hsubs, hpop, hnumber.trans hnew, by omega, ?_, ?_, ?_, ?_, ?_,
    fun k hk => (hchild k).trans (h.earlier k hk), fun k hk => (hchild k).trans (h.beyond k ?_), ?_,
    ?_, ?_⟩
  · intro k hlow hhigh
    rcases eq_or_ne k (N + 1) with rfl | hk
    · exact ⟨i, by rw [hphase, Function.update_self, add_sub_cancel_right]⟩
    · obtain ⟨j, hj⟩ := h.owned k hlow (by omega)
      exact ⟨j, by rw [hphase, Function.update_of_ne (hold j _ hj), hj]⟩
  · intro j b hj
    rw [hphase] at hj
    rcases update_eq_some hj with ⟨-, heq⟩ | ⟨-, hj⟩
    · cases heq
      exact ⟨N, rfl, hle, by omega⟩
    · obtain ⟨m, rfl, hlow, hhigh⟩ := h.base j b hj
      exact ⟨m, rfl, hlow, by omega⟩
  · intro j j' b hj hj'
    rw [hphase] at hj hj'
    rcases update_eq_some hj with ⟨rfl, heq⟩ | ⟨-, hj₀⟩
    · cases heq
      rcases update_eq_some hj' with ⟨rfl, -⟩ | ⟨-, hj₁⟩
      · rfl
      · exact absurd rfl (hne j' _ hj₁)
    · rcases update_eq_some hj' with ⟨rfl, heq⟩ | ⟨-, hj₁⟩
      · cases heq
        exact absurd rfl (hne j _ hj₀)
      · exact h.unique j j' b hj₀ hj₁
  · intro e he
    rw [hout] at he
    obtain ⟨k, σ, hw, hk⟩ := h.sessions e he
    exact ⟨k, σ, hw, by omega⟩
  · intro j m hj σ hσ
    rw [session, htickets] at hσ
    refine Stored.mono ?_ hchildren fun e he => hout ▸ he
    rw [hphase] at hj
    rcases update_eq_some hj with ⟨rfl, heq⟩ | ⟨-, hj⟩
    · cases heq
      exact hkeeps _ hsent N h.number rfl σ hσ
    · exact h.stored j m hj σ hσ
  · omega
  · -- nothing has been written beyond the slot that has been taken
    rintro (hnext | ⟨e, he, hkey⟩)
    · rw [hchild, h.beyond _ (by omega)] at hnext
      cases hnext
    · rw [hout] at he
      obtain ⟨k, σ, hw, hk⟩ := h.sessions e he
      rw [hw, Write.key?, Option.some.injEq] at hkey
      omega
  · intro j m new' hj
    rw [hphase] at hj
    rcases update_eq_some hj with ⟨-, heq⟩ | ⟨-, hj⟩
    · cases heq
    · exact h.sent j m new' hj
  · intro j hj
    rw [hphase] at hj
    rcases update_eq_some hj with ⟨-, heq⟩ | ⟨-, hj⟩
    · cases heq
    · exact h.aborted j hj

/-- What a landing that keeps the slots does to a slot that has been taken. -/
theorem of_keepsSlots_land {l₁ l₂ : List Entry} {e : Entry} (hnumber : s.db.numSessions = some N)
    (hout : s.outbox = l₁ ++ e :: l₂) (hdb : t.db = s.db.apply e.write)
    (hout' : t.outbox = l₁ ++ l₂) (hkeeps : KeepsSlots s (.land l₁.length)) {k : ℤ}
    (hkey : e.write.key? = some k) (hk : k ≤ N) : t.db.child k = s.db.child k ∨
      ∃ i σ, s.phase i = some (.committed (some (k - 1))) ∧ s.session i = some σ ∧
        Stored t k σ := by
  have hget : s.outbox[l₁.length]? = some e := by simp [hout]
  rcases hkeeps e hget k hkey N hnumber hk with hsame | ⟨i, -, hi, σ, hσ, hw | ⟨f, hf, hw⟩⟩
  · left
    rw [hdb, hsame]
  · exact .inr ⟨i, σ, hi, hσ, .of_mem hout hdb hout' (by simp [hout]) hw⟩
  · rw [hout, List.eraseIdx_append_of_length_le le_rfl, Nat.sub_self, List.eraseIdx_cons_zero] at hf
    exact .inr ⟨i, σ, hi, hσ, .inr ⟨f, hout' ▸ hf, hw⟩⟩

/-- The session of a submission that has taken a slot, when a write lands that keeps the slots. -/
theorem stored_land (h : SlotsInv h₀ n₀ N s) {l₁ l₂ : List Entry} {e : Entry}
    (hout : s.outbox = l₁ ++ e :: l₂) (hdb : t.db = s.db.apply e.write)
    (hout' : t.outbox = l₁ ++ l₂) (hkeeps : KeepsSlots s (.land l₁.length)) {i : ℕ} {m : ℤ}
    (hi : s.phase i = some (.committed (some m))) {σ : StudySession} (hσ : s.session i = some σ) :
    Stored t (m + 1) σ := by
  rcases h.stored i m hi σ hσ with hchild | ⟨f, hf, hw⟩
  · by_cases hkey : e.write.key? = some (m + 1)
    · obtain ⟨m', heq, -, hlt⟩ := h.base i _ hi
      obtain rfl := Option.some.inj heq
      rcases of_keepsSlots_land h.number hout hdb hout' hkeeps hkey (by omega) with
        hsame | ⟨j, σ', hj, hσ', hstored⟩
      · exact .inl (hsame.trans hchild)
      · -- the slot has been taken by one submission only
        rw [add_sub_cancel_right] at hj
        obtain rfl := h.unique i j _ hi hj
        obtain rfl : σ = σ' := Option.some.inj (hσ.symm.trans hσ')
        exact hstored
    · left
      rw [hdb, Hours.child_apply_of_ne _ hkey, hchild]
  · exact .of_mem hout hdb hout' hf hw

/-- A write lands. -/
theorem land (h : SlotsInv h₀ n₀ N s) (hsubs : SubmissionsInv t) (hpop : PopupInv t)
    {l₁ l₂ : List Entry} {e : Entry} (hout : s.outbox = l₁ ++ e :: l₂)
    (hdb : t.db = s.db.apply e.write) (hout' : t.outbox = l₁ ++ l₂)
    (htickets : t.tickets = s.tickets) (hphase : t.phase = s.phase)
    (hkeeps : KeepsSlots s (.land l₁.length)) : SlotsInv h₀ n₀ N t := by
  have hmem : ∀ f ∈ t.outbox, f ∈ s.outbox := by
    intro f hf
    rw [hout]
    rw [hout'] at hf
    simp only [List.mem_append, List.mem_cons] at hf ⊢
    tauto
  have he : e ∈ s.outbox := by simp [hout]
  obtain ⟨k, σ, hw, hk⟩ := h.sessions e he
  have hother : ∀ j, j ≠ k → t.db.child j = s.db.child j := by
    intro j hj
    rw [hdb]
    refine Hours.child_apply_of_ne _ ?_
    rw [hw, Write.key?, ne_eq, Option.some.injEq]
    exact hj.symm
  have hle := h.le
  refine h.of_committed_iff hsubs hpop (by rw [hdb, hw]; rfl) (fun i b => by rw [hphase])
    (fun f hf => h.sessions f (hmem f hf)) ?_ ?_ ?_ ?_ (hphase ▸ h.sent) (hphase ▸ h.aborted)
  · intro i m hi σ' hσ
    rw [session, htickets] at hσ
    exact h.stored_land hout hdb hout' hkeeps hi hσ
  · intro j hj
    rw [← h.earlier j hj]
    rcases eq_or_ne j k with rfl | hne
    · have hkey : e.write.key? = some j := by rw [hw, Write.key?]
      rcases of_keepsSlots_land h.number hout hdb hout' hkeeps hkey (by omega) with
        hsame | ⟨i, _, hi, -, -⟩
      · exact hsame
      · -- no submission has taken the slot of an earlier session
        obtain ⟨m, heq, hlow, -⟩ := h.base i _ hi
        rw [Option.some.injEq] at heq
        omega
    · exact hother j hne
  · intro j hj
    rw [hother j (by omega), h.beyond j hj]
  · intro hnext
    rw [hphase]
    refine h.next ?_
    rcases hnext with hnext | ⟨f, hf, hkey⟩
    · rcases eq_or_ne (N + 1) k with rfl | hne
      · exact .inr ⟨e, he, by rw [hw, Write.key?]⟩
      · rw [hother _ hne] at hnext
        exact .inl hnext
    · exact .inr ⟨f, hmem f hf, hkey⟩

/-- **What is known of the slots survives every action that keeps them.** -/
theorem trans (h : SlotsInv h₀ n₀ N s) (hst : Trans s a t) (ha : NoIosUse a)
    (hlocal : LocalValue s a) (hkeeps : KeepsSlots s a) : ∃ N', SlotsInv h₀ n₀ N' t := by
  have hsubs : SubmissionsInv t := h.submissions.trans hst
  have hpop : PopupInv t := h.popups.trans hst
  cases slotTrans_of_trans h.submissions hst ha with
  | quiet hchildren hnumber hout htickets hkept hnew =>
      exact ⟨N, h.quiet hsubs hpop hchildren hnumber hout htickets hkept hnew⟩
  | run hsub hq hv hdb hout htickets hphase =>
      exact ⟨N, h.run hsubs hpop hsub hq hv hdb hout htickets hphase hlocal hkeeps⟩
  | @abort i v _ hq hv =>
      have hint : ∀ m ∈ v, InInteger m := by
        intro m hm
        have hlow := (hlocal m hm).1
        have hhigh := hkeeps.2 m hm
        exact ⟨by omega, by omega⟩
      have hsome := isSome_numSessionsTransaction hint
      rw [hv] at hsome
      cases hsome
  | commit hsent hbase hchildren hnumber hout htickets hphase =>
      exact ⟨N + 1, h.commit hsubs hpop hsent hbase hchildren hnumber hout htickets hphase hkeeps⟩
  | land hout hdb hout' htickets hphase =>
      exact ⟨N, h.land hsubs hpop hout hdb hout' htickets hphase hkeeps⟩

end SlotsInv

/-! ### Runs -/

/-- The children are exactly those of the sessions `1`, ..., `numSessions`: the earlier ones, and
the submitted ones, each of which has a slot of its own. -/
structure Corresponds (h₀ : Hours) (n₀ : ℤ) (u : Account) : Prop where
  number : u.db.numSessions = some (n₀ + u.submissions.length)
  children : ∀ k, (u.db.child k).isSome ↔ 1 ≤ k ∧ k ≤ n₀ + u.submissions.length
  earlier : ∀ k, k ≤ n₀ → u.db.child k = h₀.child k
  submitted : ∃ key : ℕ → ℤ,
    Set.BijOn key (Finset.range u.submissions.length)
      (Finset.Ioc n₀ (n₀ + u.submissions.length)) ∧
    ∀ i sub, u.submissions[i]? = some sub →
      u.db.child (key i) = some (.full sub.popup.session.inTime sub.popup.session.outTime)

/-- The slot that a transaction has taken. -/
def Transaction.slot : Transaction ℤ → ℤ
  | committed (some m) => m + 1
  | _ => 0

namespace SlotsInv

variable {h₀ : Hours} {n₀ N : ℤ} {u : Account}

/-- Once everything has landed, every submission has taken a slot, and its session is there. -/
theorem taken (h : SlotsInv h₀ n₀ N u) (hu : Settled u) {i : ℕ} {sub : Submission}
    (hsub : u.submissions[i]? = some sub) : ∃ m, n₀ ≤ m ∧ m < N ∧
      u.phase i = some (.committed (some m)) ∧
      u.db.child (m + 1) = some (.full sub.popup.session.inTime sub.popup.session.outTime) := by
  rcases h.submissions.over hsub (hu.2 sub (List.mem_of_getElem? hsub)) with habort | ⟨b, hi⟩
  · exact absurd habort (h.aborted i)
  · obtain ⟨m, rfl, hlow, hhigh⟩ := h.base i b hi
    refine ⟨m, hlow, hhigh, hi, ?_⟩
    rcases h.stored i m hi _ (session_eq hsub) with hchild | ⟨e, he, -⟩
    · exact hchild
    · rw [hu.1] at he
      cases he

/-- The slots that the submissions have taken are those above `n₀`, each of them once. -/
theorem bijOn_slot (h : SlotsInv h₀ n₀ N u) (hu : Settled u) :
    Set.BijOn (fun i => ((u.phase i).map Transaction.slot).getD 0)
      (Finset.range u.submissions.length) (Finset.Ioc n₀ N) := by
  have htaken : ∀ i ∈ Finset.range u.submissions.length, ∃ m, n₀ ≤ m ∧ m < N ∧
      u.phase i = some (.committed (some m)) := by
    intro i hi
    obtain ⟨m, hlow, hhigh, hphase, -⟩ :=
      h.taken hu (List.getElem?_eq_getElem (Finset.mem_range.1 hi))
    exact ⟨m, hlow, hhigh, hphase⟩
  refine ⟨?_, ?_, ?_⟩
  · intro i hi
    obtain ⟨m, hlow, hhigh, hphase⟩ := htaken i hi
    simp only [hphase, Option.map_some, Option.getD_some, Transaction.slot, Finset.coe_Ioc,
      Set.mem_Ioc]
    omega
  · intro i hi j hj heq
    obtain ⟨m, -, -, hphase⟩ := htaken i hi
    obtain ⟨m', -, -, hphase'⟩ := htaken j hj
    simp only [hphase, hphase', Option.map_some, Option.getD_some, Transaction.slot,
      add_left_inj] at heq
    subst heq
    exact h.unique i j _ hphase hphase'
  · intro k hk
    rw [Finset.coe_Ioc, Set.mem_Ioc] at hk
    obtain ⟨i, hi⟩ := h.owned k hk.1 hk.2
    obtain ⟨sub, hsub, -⟩ := phase_eq_some hi
    refine ⟨i, Finset.mem_coe.2 (Finset.mem_range.2 (List.getElem?_eq_some_iff.1 hsub).1), ?_⟩
    simp [hi, Transaction.slot]

/-- As many slots have been taken as sessions have been submitted. -/
theorem number_eq (h : SlotsInv h₀ n₀ N u) (hu : Settled u) : N = n₀ + u.submissions.length := by
  obtain ⟨hmaps, hinj, hsurj⟩ := h.bijOn_slot hu
  have hcard := Finset.card_nbij _ hmaps hinj hsurj
  rw [Finset.card_range, Int.card_Ioc] at hcard
  have hle := h.le
  omega

/-- Once everything has landed there is nothing in the next free slot. -/
theorem next_free (h : SlotsInv h₀ n₀ N u) (hu : Settled u) : u.db.child (N + 1) = none := by
  by_contra hnext
  obtain ⟨i, new, hi⟩ := h.next (.inl (Option.isSome_iff_ne_none.2 hnext))
  obtain ⟨sub, hsub, htr⟩ := phase_eq_some hi
  exact (hu.2 sub (List.mem_of_getElem? hsub)).2.2 _ htr

/-- The children, once everything has landed. -/
theorem corresponds (h : SlotsInv h₀ n₀ N u) (hc : Consistent h₀ n₀ none) (hu : Settled u) :
    Corresponds h₀ n₀ u := by
  have hnumber := h.number_eq hu
  refine ⟨hnumber ▸ h.number, fun k => ?_, h.earlier, _, hnumber ▸ h.bijOn_slot hu, ?_⟩
  · rw [← hnumber]
    have hle := h.le
    have hnonneg := hc.nonneg
    rcases le_or_gt k n₀ with hk | hk
    · rw [h.earlier k hk]
      rcases lt_or_ge k 1 with hlow | hlow
      · rw [hc.others k (.inl hlow)]
        simp only [Option.isSome_none, Bool.false_eq_true, false_iff]
        omega
      · obtain ⟨c, hchild, -⟩ := hc.complete k hlow hk
        rw [hchild]
        simp only [Option.isSome_some, true_iff]
        omega
    · rcases le_or_gt k N with hkN | hkN
      · obtain ⟨i, hi⟩ := h.owned k hk hkN
        obtain ⟨sub, hsub, -⟩ := phase_eq_some hi
        obtain ⟨m, -, -, hm, hchild⟩ := h.taken hu hsub
        obtain rfl : k = m + 1 := by
          rw [hi, Option.some.injEq, Transaction.committed.injEq, Option.some.injEq] at hm
          omega
        rw [hchild]
        simp only [Option.isSome_some, true_iff]
        omega
      · have hnone : u.db.child k = none := by
          rcases eq_or_ne k (N + 1) with rfl | hne
          · exact h.next_free hu
          · exact h.beyond k (by omega)
        rw [hnone]
        simp only [Option.isSome_none, Bool.false_eq_true, false_iff]
        omega
  · intro i sub hsub
    obtain ⟨m, -, -, hphase, hchild⟩ := h.taken hu hsub
    simpa [hphase, Transaction.slot] using hchild

end SlotsInv

/-- **Each session has a slot of its own, and each slot a session**, in every run of Android clients
on a consistent account in which no session is pushed out of its slot for good: once everything has
landed, the children are the earlier sessions and the submitted ones, each of them once. -/
theorem corresponds_of_keepsSlots {s u : Account} {acts : List Action} {n : ℤ}
    (hc : Consistent s.db n none) (ht : s.db.totalHours.isSome) (hs : Untouched s)
    (hout : s.outbox = [])
    (hacts : Execution.Along step (fun s a => NoIosUse a ∧ LocalValue s a) s acts)
    (hkeeps : Execution.Along step KeepsSlots s acts)
    (hrun : Execution.run step s acts = some u) (hu : Settled u) : Corresponds s.db n u := by
  obtain ⟨N, hN⟩ : ∃ N, SlotsInv s.db n N u :=
    Execution.run_invariant_along (I := fun t => ∃ N, SlotsInv s.db n N t)
      (fun t a t' ⟨N, hN⟩ ha hst => hN.trans (trans_of_step hst) ha.1.1 ha.1.2 ha.2)
      ⟨n, .of_consistent hc ht hs hout⟩ (Execution.along_and.2 ⟨hacts, hkeeps⟩) hrun
  exact hN.corresponds hc hu

/-! ### A stray write -/

/-- Clients `0` and `1` run sessions of one hour and of two and submit them at the same time; the
handlers of `numSessions` of both are run on `0`. -/
def bothSubmit : List Action :=
  [.toggle 0 0 0, .toggle 1 0 0, .toggle 0 3600000 3600000, .toggle 1 7200000 7200000,
    .submit 0 0, .submit 1 0, .deliver 0, .deliver 1, .runHours 0 (some 0), .commitHours 0,
    .runHours 1 (some 1), .commitHours 1, .runSessions 0 (some 0), .runSessions 1 (some 0)]

/-- The transaction of client `0` is taken, that of client `1` is run again. -/
def oneByOne : List Action :=
  [.commitSessions 0, .commitSessions 1, .runSessions 1 (some 1), .commitSessions 1]

/-- The stray write of client `1` lands before the write of client `0`. -/
def strayFirst : List Action := bothSubmit ++ [.land 1, .land 0] ++ oneByOne ++ [.land 0]

/-- The stray write of client `1` lands after the write of client `0`. -/
def strayLast : List Action := bothSubmit ++ [.land 0, .land 0] ++ oneByOne ++ [.land 0]

/-- A stray write that lands first does no harm. -/
theorem corresponds_strayFirst : ∃ u,
    Execution.run step (atRest (Hours.created "A") .closed) strayFirst = some u ∧
      Corresponds (Hours.created "A") 0 u := by
  obtain ⟨u, hu, hsettled⟩ : ∃ u,
      Execution.run step (atRest (Hours.created "A") .closed) strayFirst = some u ∧
        u.outbox = [] ∧ ∀ sub ∈ u.submissions, sub.Over := Execution.exists_run (by decide +kernel)
  exact ⟨u, hu, corresponds_of_keepsSlots (consistent_created "A") rfl (untouched_atRest _ _) rfl
    (by decide +kernel) (by decide +kernel) hu hsettled⟩

/-- **A stray write that lands last leaves the session of client `1` in both slots.** -/
theorem not_corresponds :
    ¬ ∀ (s u : Account) (acts : List Action) (n : ℤ), Consistent s.db n none →
      s.db.totalHours.isSome → Untouched s → s.outbox = [] →
      Execution.Along step (fun s a => NoIosUse a ∧ LocalValue s a) s acts →
      Execution.run step s acts = some u → Settled u → Corresponds s.db n u := by
  intro h
  obtain ⟨u, hu, hout, hover, hlength, hsession, hone, htwo⟩ : ∃ u,
      Execution.run step (atRest (Hours.created "A") .closed) strayLast = some u ∧
        u.outbox = [] ∧ (∀ sub ∈ u.submissions, sub.Over) ∧ u.submissions.length = 2 ∧
        (∀ sub ∈ u.submissions[0]?, sub.popup.session = ⟨0, 3600000⟩) ∧
        u.db.child 1 = some (.full 0 7200000) ∧ u.db.child 2 = some (.full 0 7200000) :=
    Execution.exists_run (by decide +kernel)
  obtain ⟨-, -, -, key, hkey, hchild⟩ := h _ u strayLast 0 (consistent_created "A") rfl
    (untouched_atRest _ _) rfl (by decide +kernel) hu ⟨hout, hover⟩
  have hget : u.submissions[0]? = some u.submissions[0] := List.getElem?_eq_getElem (by omega)
  have hfirst := hchild 0 _ hget
  rw [hsession _ hget] at hfirst
  have hmem := hkey.mapsTo (Finset.mem_coe.2 (Finset.mem_range.2 (by omega : 0 < _)))
  rw [Finset.coe_Ioc, Set.mem_Ioc, hlength] at hmem
  -- both slots hold the other session
  obtain hk | hk : key 0 = 1 ∨ key 0 = 2 := by omega
  · rw [hk, hone] at hfirst
    cases hfirst
  · rw [hk, htwo] at hfirst
    cases hfirst

end StudyHours
