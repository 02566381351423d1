/-
**The recorded sessions and the writes of the iOS client.**

Every write of an iOS device to a session child goes to the number after a value of `numSessions`
that the device has read.  It may find that child taken when it lands: another client has filled it
in the meantime, and nothing in the three functions of the record screen looks at the child again.
A recorded session is safe from the iOS client as long as no child is filled while a device is still
going by that number.

Main definitions:

* `StudyHours.Addresses` — a device goes by the number of a child, in a callback or in a write;
* `StudyHours.Undisturbed` — the condition on single steps;
* `StudyHours.KeepsHistory` — a step of an iOS device leaves the recorded sessions alone.

Main results:

* `StudyHours.AddressesInv.trans` — a child that a device goes by is not complete;
* `StudyHours.keepsHistory_of_undisturbed` — **undisturbed runs keep the recorded sessions**;
* `StudyHours.not_keepsHistory` — the answer `No` removes a session that somebody has submitted.
-/

import Mathlib
import StudyHours.Confirmations

set_option relaxedAutoImplicit false
set_option autoImplicit false

namespace StudyHours

open Account

/-! ### The children that devices go by -/

/-- Device `d` goes by the number `k`: a callback or a dialog has been given `k - 1` as
`numSessions`, or a write of the child is in flight. -/
def Addresses (s : Account) (d : ℕ) (k : ℤ) : Prop :=
  (∃ x ∈ (s.device d).captured, x.1 = some (k - 1)) ∨ ∃ w ∈ own d s.outbox, w.key? = some k

/-- A child is there, with both entries. -/
def Recorded (h : Hours) (k : ℤ) : Prop := ∃ c ∈ h.child k, c.Complete

instance (s : Account) (d : ℕ) (k : ℤ) : Decidable (Addresses s d k) := by
  unfold Addresses
  infer_instance

instance (h : Hours) (k : ℤ) : Decidable (Recorded h k) :=
  decidable_of_iff (∃ c, h.child k = some c ∧ c.Complete) (by rfl)

/-- The action does not disturb device `d`: a read of the record does not find the next child
complete already, and a landing that completes a child finds the device going by another number. -/
def UndisturbedOn (d : ℕ) (s : Account) : Action → Prop
  | .ios d' (.arriveOuter _) => d' = d → ∀ n ∈ (s.view d).numSessions, ¬ Recorded s.db (n + 1)
  | .land j => ∀ e ∈ s.outbox[j]?, ∀ k ∈ e.write.key?,
      ¬ Recorded s.db k → Recorded (s.db.apply e.write) k →
        ¬ Addresses { s with outbox := s.outbox.eraseIdx j } d k
  | _ => True

instance (d : ℕ) (s : Account) (a : Action) : Decidable (UndisturbedOn d s a) := by
  induction a using Action.casesOn with
  | ios d e =>
      induction e using RecordViewController.Event.casesOn <;> dsimp only [UndisturbedOn] <;>
        infer_instance
  | _ => dsimp only [UndisturbedOn]; infer_instance

/-- The action disturbs no device. -/
def Undisturbed (s : Account) (a : Action) : Prop := ∀ d, UndisturbedOn d s a

/-- The action is an event of an iOS device, or the landing of one of its writes. -/
def OfIos (s : Account) : Action → Prop
  | .ios _ _ => True
  | .land j => ∃ e ∈ s.outbox[j]?, ∃ d, e.sender = .ios d
  | _ => False

/-- **A step of an iOS device leaves the recorded sessions as they are.** -/
def KeepsHistory (s : Account) (a : Action) : Prop :=
  OfIos s a → ∀ t, step s a = some t → ∀ k, ∀ c ∈ s.db.child k, c.Complete → t.db.child k = some c

/-! ### What the condition keeps true -/

/-- The children that devices go by are not complete. -/
def AddressesInv (s : Account) : Prop := ∀ d k, Addresses s d k → ¬ Recorded s.db k

/-- An account whose devices have no callbacks, dialogs or writes outstanding. -/
def Rested (s : Account) : Prop := ∀ d, (s.device d).Idle ∧ own d s.outbox = []

theorem AddressesInv.of_rested {s : Account} (h : Rested s) : AddressesInv s := by
  intro d k haddr
  obtain ⟨hidle, hown⟩ := h d
  rw [Addresses, RecordViewController.captured_of_idle hidle, hown] at haddr
  simp at haddr

theorem recorded_congr {h h' : Hours} {k : ℤ} (hk : h'.child k = h.child k) :
    Recorded h' k ↔ Recorded h k := by
  rw [Recorded, Recorded, hk]

/-- The writes of a device that are left after a landing. -/
theorem mem_own_of_land {s : Account} {l₁ l₂ : List Entry} {e : Entry}
    (hout : s.outbox = l₁ ++ e :: l₂) {d : ℕ} {w : Write} (hw : w ∈ own d (l₁ ++ l₂)) :
    w ∈ own d s.outbox := by
  rw [hout]
  exact (own_sublist ((List.Sublist.refl l₁).append (List.sublist_cons_self e l₂))).subset hw

/-- **A child that a device goes by stays incomplete** as long as no device is disturbed. -/
theorem AddressesInv.trans {s t : Account} {a : Action} (h : AddressesInv s)
    (hG : Undisturbed s a) (hst : Trans s a t) : AddressesInv t := by
  intro d k haddr
  rcases hst.kinds with ⟨d', e, vc, ws, rfl, htr, rfl⟩ | ⟨l₁, e, l₂, rfl, hout, -, rfl⟩ |
    ⟨-, -, hframe⟩
  · -- an event of a screen goes by a number that was read before, or has just been read
    rcases eq_or_ne d d' with rfl | hne
    · rcases haddr with ⟨x, hx, hk⟩ | ⟨w, hw, hk⟩
      · rw [device_issue_self, RecordViewController.captured_notify] at hx
        rcases RecordViewController.captured_of_transition htr x hx with hx | ⟨⟨i, rfl⟩, rfl⟩
        · exact h d k (.inl ⟨x, hx, hk⟩)
        · have hread := hG d rfl (k - 1) hk
          rwa [sub_add_cancel] at hread
      · rw [outbox_issue, own_append, own_sendAll_self] at hw
        rcases List.mem_append.1 hw with hw | hw
        · exact h d k (.inr ⟨w, hw, hk⟩)
        · exact h d k (.inl (RecordViewController.key_of_transition htr hw hk))
    · refine h d k ?_
      rcases haddr with ⟨x, hx, hk⟩ | ⟨w, hw, hk⟩
      · rw [device_issue_of_ne _ _ _ hne] at hx
        exact .inl ⟨x, hx, hk⟩
      · rw [outbox_issue, own_append, own_sendAll_of_ne fun heq => hne (Sender.ios.inj heq).symm,
          List.append_nil] at hw
        exact .inr ⟨w, hw, hk⟩
  · -- a landing changes the child of its own number only
    have haddr' : Addresses { s with outbox := l₁ ++ l₂ } d k := by
      rcases haddr with ⟨x, hx, hk⟩ | hw
      · rw [captured_landed] at hx
        exact .inl ⟨x, hx, hk⟩
      · exact .inr hw
    have hold : Addresses s d k := by
      rcases haddr' with hx | ⟨w, hw, hk⟩
      · exact .inl hx
      · exact .inr ⟨w, mem_own_of_land hout hw, hk⟩
    by_cases hkey : e.write.key? = some k
    · intro hrec
      have hget : s.outbox[l₁.length]? = some e := by simp [hout]
      have herase : s.outbox.eraseIdx l₁.length = l₁ ++ l₂ := by
        rw [hout, List.eraseIdx_append_of_length_le le_rfl]
        simp
      have hfree := hG d e hget k hkey (h d k hold) hrec
      rw [herase] at hfree
      exact hfree haddr'
    · rw [db_landed, recorded_congr (Hours.child_apply_of_ne s.db hkey)]
      exact h d k hold
  · obtain ⟨l, hl, hmem⟩ := hframe.outbox
    have hown : own d t.outbox = own d s.outbox := by
      rw [hl, own_append, own_eq_nil (l := l), List.append_nil]
      intro e he
      obtain ⟨c, i, σ, n, rfl⟩ := hmem e he
      exact nofun
    have hchild : t.db.child k = s.db.child k := by rw [Hours.child, hframe.children]; rfl
    rw [recorded_congr hchild]
    refine h d k ?_
    rcases haddr with ⟨x, hx, hk⟩ | hw
    · obtain ⟨hs, heq⟩ := hframe.device d
      rw [heq, RecordViewController.captured_notify] at hx
      exact .inl ⟨x, hx, hk⟩
    · rw [hown] at hw
      exact .inr hw

/-- In a state in which no device goes by the number of a recorded session, an iOS step keeps the
recorded sessions. -/
theorem AddressesInv.keepsHistory {s : Account} (h : AddressesInv s) (a : Action) :
    KeepsHistory s a := by
  intro hios t ht k c hc hcomplete
  rcases (trans_of_step ht).kinds with ⟨d', e, vc, ws, rfl, -, rfl⟩ |
    ⟨l₁, e, l₂, rfl, hout, -, rfl⟩ | ⟨hios', hland', -⟩
  · exact hc
  · obtain ⟨e', he', d, hd⟩ := hios
    have hget : s.outbox[l₁.length]? = some e := by simp [hout]
    obtain rfl : e = e' := Option.some.inj (hget.symm.trans he')
    have hkey : e.write.key? ≠ some k := by
      intro hkey
      refine h d k (.inr ⟨e.write, ?_, hkey⟩) ⟨c, hc, hcomplete⟩
      rw [own, hout]
      exact List.mem_map.2 ⟨e, List.mem_filter.2 ⟨by simp, by simpa using hd⟩, rfl⟩
    rw [db_landed, Hours.child_apply_of_ne s.db hkey]
    exact hc
  · cases a with
    | ios d e => exact absurd rfl (hios' d e)
    | land j => exact absurd rfl (hland' j)
    | _ => exact hios.elim

/-- **Recorded sessions are kept by the iOS client** in every run in which a device that goes by a
number finds that child free, and nobody else completes it until the device is done with it. -/
theorem keepsHistory_of_undisturbed {s : Account} (h : Rested s) (acts : List Action)
    (hG : Execution.Along step Undisturbed s acts) : Execution.Along step KeepsHistory s acts :=
  Execution.along_of_invariant (fun _ _ _ hI hG hst => hI.trans hG (trans_of_step hst))
    (fun _ a hI _ => hI.keepsHistory a) (AddressesInv.of_rested h) hG

/-! ### Runs of one device -/

/-- The action is not an event of another device than `d`. -/
def OnlyDevice (d : ℕ) : Action → Prop
  | .ios d' _ => d' = d
  | _ => True

instance (d : ℕ) (a : Action) : Decidable (OnlyDevice d a) := by
  induction a using Action.casesOn <;> dsimp only [OnlyDevice] <;> infer_instance

/-- A device other than `d` holds nothing. -/
def OthersIdle (d : ℕ) (s : Account) : Prop :=
  ∀ d' ≠ d, (s.device d').captured = [] ∧ own d' s.outbox = []

/-- A device that does nothing holds nothing. -/
theorem OthersIdle.trans {d : ℕ} {s t : Account} {a : Action} (h : OthersIdle d s)
    (ha : OnlyDevice d a) (hst : Trans s a t) : OthersIdle d t := by
  intro d' hne
  obtain ⟨hcap, hown⟩ := h d' hne
  rcases hst.kinds with ⟨d₀, e, vc, ws, rfl, -, rfl⟩ | ⟨l₁, e, l₂, rfl, hout, -, rfl⟩ |
    ⟨-, -, hframe⟩
  · obtain rfl : d₀ = d := ha
    refine ⟨by rwa [device_issue_of_ne _ _ _ hne], ?_⟩
    rw [outbox_issue, own_append, hown, own_sendAll_of_ne fun heq => hne (Sender.ios.inj heq).symm]
    rfl
  · refine ⟨by rw [captured_landed, hcap], ?_⟩
    refine List.eq_nil_iff_forall_not_mem.2 fun w hw => ?_
    have hmem := mem_own_of_land hout hw
    rw [hown] at hmem
    cases hmem
  · obtain ⟨hs, heq⟩ := hframe.device d'
    obtain ⟨l, hl, hmem⟩ := hframe.outbox
    refine ⟨by rw [heq, RecordViewController.captured_notify, hcap], ?_⟩
    rw [hl, own_append, hown, List.nil_append]
    refine own_eq_nil fun e he => ?_
    obtain ⟨c, i, σ, n, rfl⟩ := hmem e he
    exact nofun

/-- A device that holds nothing goes by no number, so nothing disturbs it. -/
theorem undisturbed_of_others_idle {d : ℕ} {s : Account} {a : Action} (h : OthersIdle d s)
    (ha : OnlyDevice d a) (hG : UndisturbedOn d s a) : Undisturbed s a := by
  intro d'
  rcases eq_or_ne d' d with rfl | hne
  · exact hG
  · obtain ⟨hcap, hown⟩ := h d' hne
    cases a with
    | ios d₀ e =>
        obtain rfl : d₀ = d := ha
        cases e with
        | arriveOuter i => exact fun heq => absurd heq.symm hne
        | _ => trivial
    | land j =>
        rintro e he k - - - (⟨x, hx, -⟩ | ⟨w, hw, -⟩)
        · change x ∈ (s.device d').captured at hx
          rw [hcap] at hx
          cases hx
        · have hmem := (own_sublist (List.eraseIdx_sublist s.outbox j)).subset hw
          rw [hown] at hmem
          cases hmem
    | _ => trivial

/-- Device `0` records a session, and dismisses the next one. -/
def recordAndDismiss : List Action :=
  startAndStop ++ confirm ++ startAndStop ++ [.ios 0 (.no 0), .land 0]

theorem rested_atRest (h : Hours) (status : Status) : Rested (atRest h status) :=
  fun _ => ⟨RecordViewController.idle_initial status, rfl⟩

/-- A device that is alone keeps the session it has recorded. -/
theorem keepsHistory_recordAndDismiss :
    Execution.Along step KeepsHistory (atRest (Hours.created "A") .closed) recordAndDismiss := by
  refine keepsHistory_of_undisturbed (rested_atRest _ _) recordAndDismiss ?_
  refine Execution.along_of_invariant (I := OthersIdle 0)
    (G := fun s a => OnlyDevice 0 a ∧ UndisturbedOn 0 s a)
    (fun _ _ _ hI hG hst => hI.trans hG.1 (trans_of_step hst))
    (fun _ _ hI hG => undisturbed_of_others_idle hI hG.1 hG.2) (fun _ _ => ⟨rfl, rfl⟩) ?_
  decide

/-- **The answer `No` removes a session that an Android client has submitted** while the dialog was
open. -/
theorem not_keepsHistory : ¬ ∀ (s : Account) (acts : List Action), Rested s →
    Execution.Along step KeepsHistory s acts := by
  intro h
  obtain ⟨t, ht, hchild, hsender, hnone⟩ : ∃ t,
      Execution.run step (atRest (Hours.created "A") .closed)
          (startAndStop ++ androidSession ++ [.ios 0 (.no 0)]) = some t ∧
        t.db.child 1 = some (.full 0 3600000) ∧ (t.outbox[0]?.map Entry.sender) = some (.ios 0) ∧
        ((step t (.land 0)).map fun u => u.db.child 1) = some none :=
    Execution.exists_run (by decide)
  obtain ⟨u, hu, hu'⟩ := Option.map_eq_some_iff.1 hnone
  obtain ⟨e, he, hsender⟩ := Option.map_eq_some_iff.1 hsender
  have hlast := ((Execution.along_snoc ht (.land 0)).1
    (h _ (startAndStop ++ androidSession ++ [.ios 0 (.no 0)] ++ [.land 0]) (rested_atRest _ _))).2
  have hkept := hlast ⟨e, he, 0, hsender⟩ u hu 1 _ hchild trivial
  rw [hu'] at hkept
  cases hkept

end StudyHours
