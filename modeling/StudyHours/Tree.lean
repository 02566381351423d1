/-
**The tree of all records, `hours/`.**

Every account has its record in the tree, and none has one before its user has signed up.  The app
in which that is done goes on to create the record; its writes land in the order they were issued,
the app sees them from the moment it has issued them, and whatever it does next with the account
comes after them.  The other apps of the user see what has landed.  An app may be stopped at any
time: what it has not yet sent is lost then, in the middle of a sign-up as well.

An account is used by any number of apps in the way the module `Account` has it; what is added here
is how its record comes to be.

Main definitions:

* `StudyHours.App` — an installation of one of the two clients;
* `StudyHours.Node` — an account of the tree, with the writes of its sign-up that have not landed;
* `StudyHours.Node.seen`, `StudyHours.Node.view` — the record as an app sees it;
* `StudyHours.Node.step` — one action, `StudyHours.Tree` — all accounts, each with its own actions.

Main results:

* `StudyHours.Node.trans_of_step` — everything an action can do.
-/

import Mathlib
import StudyHours.SignUp

set_option relaxedAutoImplicit false
set_option autoImplicit false

namespace StudyHours

open Account

/-! ### Apps -/

/-- An installation of one of the two clients. -/
inductive App
  | ios (d : ℕ)
  | android (c : ℕ)
deriving DecidableEq

namespace App

/-- The client that is installed. -/
def client : App → Client
  | ios _ => .ios
  | android _ => .android

/-- The device of an iOS client. -/
def device? : App → Option ℕ
  | ios d => some d
  | android _ => none

end App

/-- The app a write comes from. -/
def Sender.app : Sender → App
  | ios d => .ios d
  | android c _ => .android c

/-- The app that takes an action; there is none if the action picks something that is not there. -/
def actor (s : Account) : Action → Option App
  | .ios d _ => some (.ios d)
  | .toggle c _ _ | .submit c _ | .decline c _ => some (.android c)
  | .deliver i | .runHours i _ | .commitHours i | .runSessions i _ | .commitSessions i =>
      s.submissions[i]?.map fun sub => .android sub.client
  | .land j => s.outbox[j]?.map fun e => e.sender.app

/-- The action reaches the server; every other one happens in an app. -/
def AtServer : Action → Prop
  | .commitHours _ | .commitSessions _ | .land _ => True
  | _ => False

instance (a : Action) : Decidable (AtServer a) := by
  induction a using Action.casesOn <;> dsimp only [AtServer] <;> infer_instance

/-! ### Accounts of the tree -/

/-- An account of the tree. -/
structure Node where
  account : Account
  /-- The app in which the user has signed up. -/
  creator : Option App
  /-- The writes of the sign-up that have been issued and have not landed. -/
  pending : List SignUpWrite

/-- The account with another record. -/
def Account.withDb (s : Account) (h : Hours) : Account := { s with db := h }

/-- What is left of a submission when its app is stopped. -/
def Submission.stopped (sub : Submission) : Submission :=
  { sub with delivered := true, totalHours := none, numSessions := none }

/-- The app is stopped: its writes, its callbacks and its submissions are gone. -/
def Account.stop (s : Account) (x : App) : Account :=
  { s with
    outbox := s.outbox.filter fun e => e.sender.app ≠ x
    device := fun d => if x = .ios d then RecordViewController.initial .closed else s.device d
    fragment := fun c => if x = .android c then HomeFragment.initial else s.fragment c
    submissions := s.submissions.map fun sub =>
      if x = .android sub.client then sub.stopped else sub }

/-- What can happen to an account of the tree. -/
inductive NodeAction
  /-- The user signs up in the app `x`, with a text in the admin-code field and a name. -/
  | signUp (x : App) (text name : String)
  /-- The next write of the sign-up lands. -/
  | landSignUp
  /-- The account is used. -/
  | use (a : Action)
  /-- The app `x` is stopped. -/
  | stop (x : App)
deriving DecidableEq

namespace Node

/-- An account that does not exist. -/
def initial : Node := ⟨atRest Hours.absent .closed, none, []⟩

/-- The record as the app sees it below its own uses of the account. -/
def seen (s : Node) (x : App) : Hours :=
  if s.creator = some x then s.pending.foldl Hours.applySignUp s.account.db else s.account.db

/-- The record as the app sees it. -/
def view (s : Node) (x : App) : Hours :=
  (s.seen x).applyAll ((s.account.outbox.filter fun e => e.sender.app = x).map Entry.write)

/-- The app `x` takes the action `a`.  In the app it is taken over what the app sees of the record;
at the server it has to wait for the writes of the sign-up. -/
def useBy (s : Node) (x : App) (a : Action) : Option Node :=
  if AtServer a then
    if s.creator = some x ∧ s.pending ≠ [] then none
    else (s.account.step a).map fun t => { s with account := t }
  else
    ((s.account.withDb (s.seen x)).step a).map fun t =>
      { s with account := t.withDb s.account.db }

/-- **One action.**  `none` if the action is not possible now: a user signs up once, and nobody uses
an account before. -/
def step (s : Node) : NodeAction → Option Node
  | .signUp x text name =>
      if s.creator = none then
        some { s with creator := some x, pending := (onComplete text name x.client).getD [] }
      else none
  | .landSignUp =>
      match s.pending with
      | [] => none
      | w :: ws =>
          some { s with
            account := broadcast (s.account.withDb (s.account.db.applySignUp w))
              (s.creator.bind App.device?)
            pending := ws }
  | .use a => if s.creator = none then none else (actor s.account a).bind fun x => s.useBy x a
  | .stop x =>
      some { s with
        account := s.account.stop x
        pending := if s.creator = some x then [] else s.pending }

/-- What an action does, case by case. -/
inductive Trans (s : Node) : NodeAction → Node → Prop
  | signUp {x : App} {text name : String} (hcreator : s.creator = none) :
      Trans s (.signUp x text name)
        { s with creator := some x, pending := (onComplete text name x.client).getD [] }
  | landSignUp {w : SignUpWrite} {ws : List SignUpWrite} (hpending : s.pending = w :: ws) :
      Trans s .landSignUp
        { s with
          account := broadcast (s.account.withDb (s.account.db.applySignUp w))
            (s.creator.bind App.device?)
          pending := ws }
  | inApp {x : App} {a : Action} {t : Account} (hactor : actor s.account a = some x)
      (hserver : ¬ AtServer a) (h : Account.Trans (s.account.withDb (s.seen x)) a t) :
      Trans s (.use a) { s with account := t.withDb s.account.db }
  | atServer {x : App} {a : Action} {t : Account} (hactor : actor s.account a = some x)
      (hserver : AtServer a) (hlanded : s.creator = some x → s.pending = [])
      (h : Account.Trans s.account a t) : Trans s (.use a) { s with account := t }
  | stop {x : App} : Trans s (.stop x)
      { s with
        account := s.account.stop x
        pending := if s.creator = some x then [] else s.pending }

/-- **Inversion of an action.** -/
theorem trans_of_step {s t : Node} {a : NodeAction} (h : step s a = some t) : Trans s a t := by
  cases a with
  | signUp x text name =>
      simp only [step, Option.ite_none_right_eq_some] at h
      obtain ⟨hcreator, h⟩ := h
      cases h
      exact .signUp hcreator
  | landSignUp =>
      simp only [step] at h
      split at h
      · cases h
      · next w ws hpending => cases h; exact .landSignUp hpending
  | use a =>
      simp only [step, Option.ite_none_left_eq_some, Option.bind_eq_some_iff] at h
      obtain ⟨-, x, hactor, h⟩ := h
      unfold useBy at h
      split_ifs at h with hserver hblocked
      · obtain ⟨t, ht, rfl⟩ := Option.map_eq_some_iff.1 h
        refine .atServer hactor hserver (fun hx => ?_) (Account.trans_of_step ht)
        by_contra hpending
        exact hblocked ⟨hx, hpending⟩
      · obtain ⟨t, ht, rfl⟩ := Option.map_eq_some_iff.1 h
        exact .inApp hactor hserver (Account.trans_of_step ht)
  | stop x =>
      cases h
      exact .stop

end Node

/-- All accounts, by the id of their user. -/
abbrev Tree := String → Node

namespace Tree

/-- The tree before anybody has signed up. -/
def empty : Tree := fun _ => Node.initial

/-- One action of one account. -/
def step : Tree → String × NodeAction → Option Tree := Execution.family Node.step

end Tree

end StudyHours
