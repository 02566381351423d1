/-
**What the counters of all accounts are made of.**

The users sign up, use their accounts on any number of clients, and may stop any app at any time.
A sign-up writes zeros; what an app that is stopped had under way is lost.  Neither makes anything
up: from the empty tree on, every counter of every account is made of the sessions that have been
accepted for that account, each of them taken at most once.

Main definitions:

* `StudyHours.Node.accepted` — the credits of the sessions that an action of an account accepts;
* `StudyHours.Counter.Resets` — a write of a sign-up that sets the counter to zero or leaves it;
* `StudyHours.Account.AsksLong` — only sessions of half an hour are put to the user;
* `StudyHours.Node.CreditInv` — every value under way is made of the credits spent so far.

Main results:

* `StudyHours.Node.CreditInv.trans` — **every action of an account preserves this**;
* `StudyHours.Tree.shownHours_madeOf` — **in every tree that can be reached the hours of an account
  are those of some of its accepted sessions**;
* `StudyHours.Tree.shownSessions_le` — and its number of sessions is at most theirs;
* `StudyHours.Tree.noneShort` — **none of them is shorter than half an hour**.
-/

import Mathlib
import StudyHours.Accuracy
import StudyHours.Credits
import StudyHours.Schema

set_option relaxedAutoImplicit false
set_option autoImplicit false

namespace StudyHours

open Account
open RecordViewController (Event Transition)

/-! ### Writes of a sign-up -/

section Resets

variable {α : Type} [AddCommGroup α] (K : Counter α)

/-- The write sets the counter to zero or leaves it alone. -/
def Counter.Resets (w : SignUpWrite) : Prop :=
  ∀ h : Hours, K.value (h.applySignUp w) = some 0 ∨ K.value (h.applySignUp w) = K.value h

variable {K}

/-- A sign-up makes no credits. -/
theorem madeOf_foldl_applySignUp {spent : Multiset ℚ} {ws : List SignUpWrite} {h : Hours}
    (hvalue : ∀ c ∈ K.value h, MadeOf K 0 spent c) (hws : ∀ w ∈ ws, K.Resets w) :
    ∀ c ∈ K.value (ws.foldl Hours.applySignUp h), MadeOf K 0 spent c := by
  induction ws generalizing h with
  | nil => exact hvalue
  | cons w ws ih =>
      refine ih (fun c hc => ?_) fun w' hw' => hws w' (List.mem_cons_of_mem w hw')
      rcases hws w List.mem_cons_self h with hzero | hsame
      · rw [hzero] at hc
        obtain rfl := Option.some.inj hc
        exact madeOf_initial spent
      · exact hvalue c (hsame ▸ hc)

end Resets

/-- What the completion handlers write. -/
theorem mem_onComplete {text name : String} {client : Client} {w : SignUpWrite}
    (hw : w ∈ (onComplete text name client).getD []) :
    w = .totalHours 0 ∨ w = .numSessions 0 ∨ w = .sisterName name ∨ w = .post name 0 0 := by
  cases client with
  | ios => exact .inr (.inr (.inr (List.mem_singleton.1 hw)))
  | android =>
      rw [onComplete] at hw
      cases hcreate : createAccount text name with
      | none =>
          rw [hcreate] at hw
          cases hw
      | some ws =>
          obtain ⟨code, -, rfl⟩ := Option.map_eq_some_iff.1 hcreate
          rw [hcreate] at hw
          rw [Option.getD_some] at hw
          simp only [List.mem_cons, List.not_mem_nil, or_false] at hw
          exact hw.imp_right fun hw => hw.imp_right .inl

theorem resets_hours {text name : String} {client : Client} :
    ∀ w ∈ (onComplete text name client).getD [], hoursCounter.Resets w := by
  intro w hw h
  rcases mem_onComplete hw with rfl | rfl | rfl | rfl
  · exact .inl rfl
  · exact .inr rfl
  · exact .inr rfl
  · exact .inl rfl

theorem resets_sessions {text name : String} {client : Client} :
    ∀ w ∈ (onComplete text name client).getD [], sessionsCounter.Resets w := by
  intro w hw h
  rcases mem_onComplete hw with rfl | rfl | rfl | rfl
  · exact .inr rfl
  · exact .inl rfl
  · exact .inr rfl
  · exact .inl rfl

/-! ### Apps that are stopped -/

section Stop

variable {s : Account}

theorem Account.Computed.stop (h : s.Computed) (x : App) : (s.stop x).Computed := by
  intro sub hsub
  obtain ⟨sub', hmem, rfl⟩ := List.mem_map.1 hsub
  split_ifs
  · exact ⟨fun hd => (by cases hd), fun _ _ heq => (by cases heq), fun _ _ heq => (by cases heq)⟩
  · exact h sub' hmem

/-- What a submission of a stopped app had still to add is lost. -/
theorem openCredits_stop_le {credits : Submission → Multiset ℚ}
    (hstopped : ∀ sub : Submission, credits sub.stopped = 0) (x : App) :
    openCredits credits (s.stop x) ≤ openCredits credits s := by
  rw [openCredits, openCredits, stop, List.map_map]
  refine List.sum_le_sum fun sub _ => ?_
  change credits (if x = .android sub.client then sub.stopped else sub) ≤ credits sub
  split_ifs
  · rw [hstopped]
    exact zero_le
  · exact le_rfl

end Stop

/-! ### Sessions of half an hour -/

/-- Only sessions of half an hour are put to the user. -/
structure Account.AsksLong (s : Account) : Prop where
  dialogs : ∀ d, ∀ dlg ∈ (s.device d).dialogs, 1800000 < dlg.interval
  popups : ∀ c, ∀ p ∈ (s.fragment c).popups, 1800000 ≤ p.diff

namespace Account.AsksLong

variable {s t : Account}

/-- One client has changed its fragment. -/
theorem popups_update (h : s.AsksLong) {c : ℕ} {f : HomeFragment}
    (hf : ∀ p ∈ f.popups, 1800000 ≤ p.diff) (c' : ℕ) :
    ∀ p ∈ (Function.update s.fragment c f c').popups, 1800000 ≤ p.diff := by
  rcases eq_or_ne c' c with rfl | hne
  · rwa [Function.update_self]
  · rw [Function.update_of_ne hne]
    exact h.popups c'

theorem trans (h : s.AsksLong) {a : Action} (hst : Trans s a t) : t.AsksLong where
  dialogs := by
    refine hst.forall_device (P := fun vc => ∀ dlg ∈ vc.dialogs, 1800000 < dlg.interval) ?_ ?_
      h.dialogs
    · intro vc hs hvc
      rwa [RecordViewController.dialogs_notify]
    · intro d e vc ws htr hvc
      exact RecordViewController.dialogs_of_transition htr hvc
  popups := by
    cases hst with
    | @toggle c _ _ f hf => exact h.popups_update (popups_of_toggle (h.popups c) hf)
    | @submit c i popup hi | @decline c i popup hi =>
        exact h.popups_update fun p hp => h.popups c p (List.mem_of_mem_eraseIdx hp)
    | _ => exact h.popups

theorem stop (h : s.AsksLong) (x : App) : (s.stop x).AsksLong where
  dialogs d dlg hdlg := by
    change dlg ∈ (if x = .ios d then RecordViewController.initial .closed
      else s.device d).dialogs at hdlg
    split_ifs at hdlg
    · cases hdlg
    · exact h.dialogs d dlg hdlg
  popups c p hp := by
    change p ∈ (if x = .android c then HomeFragment.initial else s.fragment c).popups at hp
    split_ifs at hp
    · cases hp
    · exact h.popups c p hp

/-- What is accepted is credited with half an hour at least. -/
theorem half_le (h : s.AsksLong) (a : Action) : ∀ credit ∈ accepted s a, 1 / 2 ≤ credit := by
  intro credit hcredit
  unfold accepted at hcredit
  split at hcredit
  · rw [Option.mem_toList, Option.map_eq_some_iff] at hcredit
    obtain ⟨dlg, hdlg, rfl⟩ := hcredit
    exact half_le_of_nearest (Rounding.nearest_halfEven _ (by decide))
      (h.dialogs _ dlg (List.mem_of_getElem? hdlg)).le
  · rw [Option.mem_toList, Option.map_eq_some_iff] at hcredit
    obtain ⟨p, hp, rfl⟩ := hcredit
    exact half_le_of_nearest (Rounding.nearest_halfUp _ (by decide))
      (h.popups _ p (List.mem_of_getElem? hp))
  · cases hcredit

end Account.AsksLong

/-! ### One account -/

namespace Node

/-- Every action of an account keeps this. -/
theorem asksLong_trans {s t : Node} {a : NodeAction} (h : s.account.AsksLong)
    (hst : Trans s a t) : t.account.AsksLong := by
  cases hst with
  | signUp _ => exact h
  | @landSignUp w ws hpending =>
      refine ⟨fun d dlg hdlg => ?_, h.popups⟩
      change dlg ∈ ((broadcast _ _).device d).dialogs at hdlg
      rw [device_broadcast] at hdlg
      split_ifs at hdlg
      · exact h.dialogs d dlg hdlg
      · rw [RecordViewController.dialogs_notify] at hdlg
        exact h.dialogs d dlg hdlg
  | @inApp x a t hactor hserver htr =>
      have hseen : (s.account.withDb (s.seen x)).AsksLong := ⟨h.dialogs, h.popups⟩
      obtain ⟨hdialogs, hpopups⟩ := hseen.trans htr
      exact ⟨hdialogs, hpopups⟩
  | atServer hactor hserver hlanded htr => exact h.trans htr
  | @stop x => exact h.stop x

/-- The credits of the sessions that an action of the account accepts. -/
def accepted (s : Node) : NodeAction → List ℚ
  | .use a => StudyHours.accepted s.account a
  | _ => []

variable {α : Type} [AddCommGroup α] {K : Counter α} {credits : Submission → Multiset ℚ}
  {s t : Node} {spent : Multiset ℚ}

/-- Every value under way is made of the credits that have been spent so far, and a sign-up under
way writes zeros. -/
structure CreditInv (K : Counter α) (s : Node) (spent : Multiset ℚ) : Prop where
  account : StudyHours.CreditInv K 0 s.account spent
  pending : ∀ w ∈ s.pending, K.Resets w

namespace CreditInv

theorem initial (hK : K.value Hours.absent = none) : CreditInv K Node.initial 0 where
  account := by
    refine ⟨fun sub hsub => absurd hsub List.not_mem_nil, fun c hc => ?_, fun d x hx => ?_,
      fun e he => absurd he List.not_mem_nil⟩
    · change c ∈ K.value Hours.absent at hc
      rw [hK] at hc
      cases hc
    · have hnone : (Node.initial.account.device d).captured = [] :=
        RecordViewController.captured_of_idle (RecordViewController.idle_initial .closed)
      rw [hnone] at hx
      cases hx
  pending w hw := absurd hw List.not_mem_nil

/-- What an app sees is made of the same credits. -/
theorem account_seen (h : CreditInv K s spent) (x : App) :
    StudyHours.CreditInv K 0 (s.account.withDb (s.seen x)) spent := by
  refine ⟨h.account.computed, ?_, h.account.captured, h.account.outbox⟩
  change ∀ c ∈ K.value (s.seen x), MadeOf K 0 spent c
  unfold seen
  split_ifs
  · exact madeOf_foldl_applySignUp h.account.value h.pending
  · exact h.account.value

variable [LinearOrder α]

/-- **Every action of an account preserves the invariant**: the credits spent and those still to be
spent are, together, some of the ones that have been accepted. -/
theorem trans (hK : K.Lawful) (h : CreditInv K s spent) {a : NodeAction} (hst : Trans s a t)
    (hresets : ∀ text name client, ∀ w ∈ (onComplete text name client).getD [], K.Resets w)
    (hstopped : ∀ sub : Submission, credits sub.stopped = 0)
    (heffect : ∀ {s' t' : Account} {a' : Action}, StudyHours.CreditInv K 0 s' spent →
      Account.Trans s' a' t' → (∀ d e, a' ≠ .ios d e) → (∀ j, a' ≠ .land j) →
      CreditEffect K credits s' t' a') :
    ∃ spent', CreditInv K t spent' ∧
      spent' + openCredits credits t.account ≤
        spent + openCredits credits s.account + ↑(s.accepted a) := by
  cases hst with
  | @signUp x text name hcreator =>
      exact ⟨spent, ⟨h.account, hresets text name x.client⟩, (add_zero _).symm.le⟩
  | @landSignUp w ws hpending =>
      have hw : w ∈ s.pending := by rw [hpending]; exact List.mem_cons_self
      have hvalue : ∀ c ∈ K.value (s.account.db.applySignUp w), MadeOf K 0 spent c :=
        madeOf_foldl_applySignUp h.account.value
          (List.forall_mem_singleton.2 (h.pending w hw))
      refine ⟨spent, ⟨⟨h.account.computed, hvalue, fun d y hy => ?_, h.account.outbox⟩,
        fun w' hw' => h.pending w' (by rw [hpending]; exact List.mem_cons_of_mem w hw')⟩,
        (add_zero _).symm.le⟩
      change y ∈ ((broadcast _ _).device d).captured at hy
      rw [device_broadcast] at hy
      split_ifs at hy
      · exact h.account.captured d y hy
      · rw [RecordViewController.captured_notify] at hy
        exact h.account.captured d y hy
  | @inApp x a t hactor hserver htr =>
      have hseen := h.account_seen x
      obtain ⟨spent', hspent, hinv, hle⟩ := hseen.trans hK htr (heffect hseen htr)
      -- the action has changed what the app holds only
      exact ⟨spent', ⟨⟨hinv.computed, fun c hc => (h.account.value c hc).mono hspent,
        hinv.captured, hinv.outbox⟩, h.pending⟩, hle⟩
  | @atServer x a t hactor hserver hlanded htr =>
      obtain ⟨spent', -, hinv, hle⟩ := h.account.trans hK htr (heffect h.account htr)
      exact ⟨spent', ⟨hinv, h.pending⟩, hle⟩
  | @stop x =>
      have hopen := add_le_add_right (openCredits_stop_le (s := s.account) hstopped x) spent
      refine ⟨spent, ⟨⟨h.account.computed.stop x, h.account.value, fun d y hy => ?_,
        fun e he => ?_⟩, fun w hw => ?_⟩, hopen.trans (add_zero _).symm.le⟩
      · change y ∈ (if x = .ios d then RecordViewController.initial .closed
          else s.account.device d).captured at hy
        split_ifs at hy
        · rw [RecordViewController.captured_of_idle (RecordViewController.idle_initial _)] at hy
          cases hy
        · exact h.account.captured d y hy
      · exact h.account.outbox e (List.mem_of_mem_filter he)
      · dsimp only at hw
        split_ifs at hw
        · cases hw
        · exact h.pending w hw

/-- The invariant in every state of a run, as long as no transaction fails at `N` credits or
less. -/
theorem run (hK : K.Lawful) (habsent : K.value Hours.absent = none)
    (hresets : ∀ text name client, ∀ w ∈ (onComplete text name client).getD [], K.Resets w)
    (hstopped : ∀ sub : Submission, credits sub.stopped = 0) {N : ℕ}
    (heffect : ∀ {s t : Account} {a : Action} {spent : Multiset ℚ},
      StudyHours.CreditInv K 0 s spent → Multiset.card spent ≤ N → Account.Trans s a t →
      (∀ d e, a ≠ .ios d e) → (∀ j, a ≠ .land j) → CreditEffect K credits s t a)
    {acts : List NodeAction} (hrun : Execution.run step Node.initial acts = some t)
    (hN : (Execution.collect step accepted Node.initial acts).length ≤ N) :
    ∃ spent, CreditInv K t spent ∧
      spent ≤ ↑(Execution.collect step accepted Node.initial acts) := by
  obtain ⟨spent, hinv, hspent⟩ := Execution.run_covered (initial habsent) rfl
    (fun s a t spent hinv hcard hst => hinv.trans hK (trans_of_step hst) hresets hstopped
      fun h htr hios hland => heffect h hcard htr hios hland) acts t hrun hN
  exact ⟨spent, hinv, (Multiset.le_add_right _ _).trans hspent⟩

/-- What an app sees is made of the credits that have been spent. -/
theorem view (hK : K.Lawful) (h : CreditInv K s spent) (x : App) :
    ∀ c ∈ K.value (s.view x), MadeOf K 0 spent c := by
  refine madeOf_applyAll hK (h.account_seen x).value fun w hw p hp => ?_
  obtain ⟨e, he, rfl⟩ := List.mem_map.1 hw
  exact h.account.outbox e (List.mem_of_mem_filter he) p hp

end CreditInv

end Node

/-! ### Every tree that can be reached -/

namespace Tree

variable {acts : List (String × NodeAction)} {T : Tree} {uid : String} {h : Hours}

/-- The credits of the sessions of an account that have been accepted in the course of a run. -/
def accepted (acts : List (String × NodeAction)) (uid : String) : List ℚ :=
  Execution.collect Node.step Node.accepted Node.initial (Execution.actionsOf uid acts)

/-- What is shown is made of the credits that have been spent. -/
theorem madeOf_of_shows {α : Type} [AddCommGroup α] [LinearOrder α] {K : Counter α}
    {spent : Multiset ℚ} (hK : K.Lawful) (hinv : Node.CreditInv K (T uid) spent)
    (hh : T.Shows uid h) : ∀ c ∈ K.value h, MadeOf K 0 spent c := by
  rcases hh with rfl | ⟨x, rfl⟩
  · exact hinv.account.value
  · exact hinv.view hK x

/-- The hours that have been spent are those of accepted sessions. -/
theorem exists_creditInv_hours (hrun : Execution.run step empty acts = some T) (uid : String) :
    ∃ spent, Node.CreditInv hoursCounter (T uid) spent ∧ spent ≤ ↑(accepted acts uid) :=
  Node.CreditInv.run hoursCounter_lawful rfl (fun _ _ _ => resets_hours) (fun _ => rfl)
    (fun hI _ hst hios hland => creditEffect_hours hI.computed hst hios hland)
    (Execution.run_actionsOf hrun uid) le_rfl

/-- **The hours of every account are those of some of its accepted sessions.**  In every tree that
can be reached, whoever signs up, whatever the clients do and wherever apps are stopped, the total
on the server and the one that any app sees is the sum of the credits of some of the sessions that
have been accepted for the account, none of them counted twice. -/
theorem shownHours_madeOf (hrun : Execution.run step empty acts = some T) (hh : T.Shows uid h)
    {q : ℚ} (hq : h.totalHours = some q) :
    ∃ credits : Multiset ℚ, credits ≤ ↑(accepted acts uid) ∧ q = credits.sum := by
  obtain ⟨spent, hinv, hspent⟩ := exists_creditInv_hours hrun uid
  obtain ⟨m, hm, rfl⟩ := madeOf_of_shows hoursCounter_lawful hinv hh q hq
  refine ⟨m, hm.trans hspent, ?_⟩
  rw [zero_add, show m.map hoursCounter.amount = m from Multiset.map_id m]

/-- The user signs up and records a session of an hour; the app is stopped when the first of the
three writes of the session has landed. -/
def stoppedRecording : List (String × NodeAction) :=
  [.signUp (.ios 0) "" "A", .landSignUp, .use (.ios 0 .launch), .use (.ios 0 .attach),
    .use (.ios 0 .observe), .use (.ios 0 .tap), .use (.ios 0 (.arriveOuter 0)),
    .use (.ios 0 (.outer 0 0)), .use (.ios 0 .observe), .use (.land 0), .use (.ios 0 .tap),
    .use (.ios 0 (.arriveOuter 0)), .use (.ios 0 (.outer 0 3600000)),
    .use (.ios 0 (.arriveInner 0)), .use (.ios 0 (.inner 0 3600000)), .use (.ios 0 (.yes 0)),
    .use (.land 0), .stop (.ios 0)].map fun a => ("u", a)

/-- The hour has been accepted, and the total has nothing of it. -/
theorem shownHours_madeOf_stoppedRecording : ∃ T,
    Execution.run step empty stoppedRecording = some T ∧ accepted stoppedRecording "u" = [1] ∧
      (T "u").account.db.totalHours = some 0 ∧
      ∃ credits : Multiset ℚ, credits ≤ ↑(accepted stoppedRecording "u") ∧ 0 = credits.sum := by
  have haccepted : accepted stoppedRecording "u" = [1] := by decide +kernel
  obtain ⟨T, hT, htotal⟩ : ∃ T, Execution.run step empty stoppedRecording = some T ∧
      (T "u").account.db.totalHours = some 0 := Execution.exists_run (by decide +kernel)
  exact ⟨T, hT, haccepted, htotal, shownHours_madeOf hT (.inl rfl) htotal⟩

/-- **No account counts more sessions than have been accepted for it**, on the server or as an app
sees it, as long as there are fewer than `2 ^ 31 - 1`. -/
theorem shownSessions_le (hrun : Execution.run step empty acts = some T) (hh : T.Shows uid h)
    (hmax : (accepted acts uid).length < 2 ^ 31 - 1) {n : ℤ} (hn : h.numSessions = some n) :
    0 ≤ n ∧ n ≤ (accepted acts uid).length := by
  obtain ⟨spent, hinv, hspent⟩ := Node.CreditInv.run sessionsCounter_lawful rfl
    (fun _ _ _ => resets_sessions) (fun _ => rfl)
    (fun {s t a spent} hI hN hst hios hland => by
      refine creditEffect_sessions hI.computed hst hios hland fun hlarge => ?_
      -- the number is at most one for each credit
      obtain ⟨m, hm, heq⟩ := hI.value _ hlarge
      have hcard := Multiset.card_le_card hm
      rw [sum_sessionsAmount] at heq
      omega)
    (Execution.run_actionsOf hrun uid) (le_refl (accepted acts uid).length)
  obtain ⟨m, hm, rfl⟩ := madeOf_of_shows sessionsCounter_lawful hinv hh n hn
  have hcard := Multiset.card_le_card (hm.trans hspent)
  rw [Multiset.coe_card] at hcard
  change Multiset.card m ≤ (accepted acts uid).length at hcard
  rw [sum_sessionsAmount]
  omega

/-- In the same run the session has been counted. -/
theorem shownSessions_le_stoppedRecording : ∃ T,
    Execution.run step empty stoppedRecording = some T ∧
      (T "u").account.db.numSessions = some 1 ∧
      0 ≤ (1 : ℤ) ∧ (1 : ℤ) ≤ (accepted stoppedRecording "u").length := by
  have hmax : (accepted stoppedRecording "u").length < 2 ^ 31 - 1 := by decide +kernel
  obtain ⟨T, hT, hnumber⟩ : ∃ T, Execution.run step empty stoppedRecording = some T ∧
      (T "u").account.db.numSessions = some 1 := Execution.exists_run (by decide +kernel)
  exact ⟨T, hT, hnumber, shownSessions_le hT (.inl rfl) hmax hnumber⟩

/-- **Nothing short is ever counted.**  Whoever signs up and wherever apps are stopped, every
session that is accepted is credited with half an hour at least, so that no total that is shown is
positive and less. -/
theorem noneShort (hrun : Execution.run step empty acts = some T) (uid : String) :
    (∀ credit ∈ accepted acts uid, 1 / 2 ≤ credit) ∧
      ∀ h, T.Shows uid h → ∀ q ∈ h.totalHours, q = 0 ∨ 1 / 2 ≤ q := by
  have hlong : ∀ credit ∈ accepted acts uid, 1 / 2 ≤ credit := by
    refine Execution.forall_mem_collect (I := fun s : Node => s.account.AsksLong)
      (fun s a t hs hst => Node.asksLong_trans hs (Node.trans_of_step hst)) (fun s a hs => ?_)
      ⟨fun _ _ hdlg => absurd hdlg List.not_mem_nil, fun _ _ hp => absurd hp List.not_mem_nil⟩
    cases a with
    | use a => exact hs.half_le a
    | _ => exact fun _ hcredit => absurd hcredit List.not_mem_nil
  refine ⟨hlong, fun h hh q hq => ?_⟩
  obtain ⟨spent, hinv, hspent⟩ := exists_creditInv_hours hrun uid
  obtain ⟨m, hm, rfl⟩ := madeOf_of_shows hoursCounter_lawful hinv hh q hq
  rw [zero_add, show m.map hoursCounter.amount = m from Multiset.map_id m]
  rcases Multiset.empty_or_exists_mem m with rfl | ⟨credit, hcredit⟩
  · exact .inl Multiset.sum_zero
  · have hhalf : ∀ c ∈ m, 1 / 2 ≤ c := fun c hc =>
      hlong c (Multiset.mem_coe.1 (Multiset.mem_of_le (hm.trans hspent) hc))
    have hle : credit ≤ m.sum :=
      Multiset.single_le_sum (fun c hc => (by norm_num : (0 : ℚ) ≤ 1 / 2).trans (hhalf c hc))
        credit hcredit
    exact .inr ((hhalf credit hcredit).trans hle)

/-- The hour of the same run is long enough, and so is the total of nothing. -/
theorem noneShort_stoppedRecording : ∃ T,
    Execution.run step empty stoppedRecording = some T ∧
      (∀ credit ∈ accepted stoppedRecording "u", 1 / 2 ≤ credit) ∧
      ∀ h, T.Shows "u" h → ∀ q ∈ h.totalHours, q = 0 ∨ 1 / 2 ≤ q := by
  have hT := Option.eq_some_of_isSome
    (show (Execution.run step empty stoppedRecording).isSome by decide)
  exact ⟨_, hT, noneShort hT "u"⟩

end Tree

end StudyHours
