/-
**Signing up, in and out on iOS.**

The screens of the iOS client lie on a navigation controller.  It begins with a login screen, which
goes on to the record screen when somebody is signed in; a record screen leads to the history and
back.  Signing out does not go back but opens another login screen on top, so nothing is ever taken
away but histories.  Each record screen and each history is that of the user who is signed in when
it is opened, and the client traps if there is none.

The login screens are kept, and so are the handlers of their requests.  A handler opens the record
screen on top of whatever there is by then.  Nobody is signed out but by the button, as `Firebase`
assumes.

Main definitions:

* `StudyHours.LoginViewController`, `StudyHours.Controller` — a login screen, and all screens;
* `StudyHours.NavigationController`, `StudyHours.NavigationController.step` — the client;
* `StudyHours.NavigationController.ShowsUser` — what is shown is that of the current user.

Main results:

* `StudyHours.NavigationController.trans_of_step` — what an action does;
* `StudyHours.NavigationController.showsUser_run` — **the screen is that of the user who is signed
  in**, unless a handler is about to open the next one;
* `StudyHours.NavigationController.neverTraps_iff` — **the client never traps exactly if somebody is
  signed in whenever a handler of a success is run**;
* `StudyHours.NavigationController.givesRecords_iff` — **every account gets its record exactly if
  every handler finds the user it was told of**;
* `StudyHours.NavigationController.spares_of_alone` — **one request at a time spares the accounts
  that there are**.
-/

import Mathlib
import StudyHours.Firebase

set_option relaxedAutoImplicit false
set_option autoImplicit false

namespace StudyHours

/-! ### Screens -/

/-- The texts of the fields of a login screen. -/
structure LoginViewController where
  emailField : String
  passwordField : String
  adminCode : String
  sisterName : String
deriving DecidableEq

/-- The fields. -/
inductive LoginField
  | emailField
  | passwordField
  | adminCode
  | sisterName
deriving DecidableEq

namespace LoginViewController

/-- A login screen that has just been opened. -/
def initial : LoginViewController := ⟨"", "", "", ""⟩

/-- The user edits a field. -/
def edit (vc : LoginViewController) (text : String) : LoginField → LoginViewController
  | .emailField => { vc with emailField := text }
  | .passwordField => { vc with passwordField := text }
  | .adminCode => { vc with adminCode := text }
  | .sisterName => { vc with sisterName := text }

/-- The request that `SignIn` or `SignUp` sends. -/
def request (vc : LoginViewController) (kind : RequestKind) (number : ℕ) : Request :=
  ⟨kind, vc.emailField, vc.passwordField, number, true⟩

end LoginViewController

/-- A screen on the navigation controller: a login screen by its number, a record screen and a
history with the account of their `user`. -/
inductive Controller
  | login (number : ℕ) (appeared : Bool)
  | record (uid : String)
  | history (uid : String)
deriving DecidableEq

/-- The client. -/
structure NavigationController where
  /-- The login screens by their number. -/
  logins : ℕ → LoginViewController
  nextLogin : ℕ
  /-- The screens, the one that is shown first. -/
  viewControllers : List Controller
  auth : Firebase
  trapped : Bool

namespace NavigationController

/-- What happens to the client. -/
inductive Action
  | edit (field : LoginField) (text : String)
  | signIn
  | signUp
  | respond (i : ℕ) (a : Answer)
  /-- The first handler of the main queue is run. -/
  | onComplete
  /-- The admin code is read for the sign-up of a number. -/
  | observe (i : ℕ) (adminCode : Option ℤ)
  | viewDidAppear
  | showHistory
  | back
  /-- The service may refuse to sign the user out. -/
  | logout (signedOut : Bool)
deriving DecidableEq

/-- The client has been launched; the user of the last time is still signed in. -/
def launch (auth : Firebase) : NavigationController where
  logins _ := .initial
  nextLogin := 1
  viewControllers := [.login 0 false]
  auth := auth
  trapped := false

def trap (s : NavigationController) : NavigationController :=
  { s with auth := s.auth.crash, trapped := true }

def push (s : NavigationController) (vc : Controller) : NavigationController :=
  { s with viewControllers := vc :: s.viewControllers }

/-- A screen is opened for the user who is signed in. -/
def pushFor (s : NavigationController) (vc : String → Controller) : NavigationController :=
  match s.auth.currentUser with
  | none => s.trap
  | some user => s.push (vc user.uid)

/-- The handler of a sign-up. -/
def signedUp (s : NavigationController) (number : ℕ) : NavigationController :=
  match s.auth.currentUser with
  | none => s.trap
  | some user =>
      { s with
        auth := s.auth.storeRecord user.uid (s.logins number).adminCode
          (signUp (s.logins number).sisterName) }.pushFor .record

/-- A handler.  An error is shown to the user. -/
def complete (s : NavigationController) (c : Callback) : NavigationController :=
  match c.user with
  | none => s
  | some _ =>
      match c.request.kind with
      | .signIn => s.pushFor .record
      | .createUser => s.signedUp c.request.screen

/-- **One action.**  `none` if the action is not possible now. -/
def step (s : NavigationController) (a : Action) : Option NavigationController :=
  if s.trapped then none else
  match a with
  | .edit field text =>
      match s.viewControllers with
      | .login number true :: _ =>
          some { s with
            logins := Function.update s.logins number ((s.logins number).edit text field) }
      | _ => none
  | .signIn =>
      match s.viewControllers with
      | .login number true :: _ =>
          some { s with auth := s.auth.send ((s.logins number).request .signIn number) }
      | _ => none
  | .signUp =>
      match s.viewControllers with
      | .login number true :: _ =>
          some { s with auth := s.auth.send ((s.logins number).request .createUser number) }
      | _ => none
  | .respond i a => (s.auth.respond i a).map fun auth => { s with auth }
  | .onComplete =>
      match s.auth.callbacks with
      | c :: _ => some (complete { s with auth := s.auth.next } c)
      | [] => none
  | .observe i adminCode =>
      s.auth.adminReads[i]?.map fun r =>
        { s with auth := s.auth.storeAdmin i r.uid (signUpAdmin r.text adminCode) }
  | .viewDidAppear =>
      match s.viewControllers with
      | .login number false :: rest =>
          let appeared := { s with viewControllers := .login number true :: rest }
          some (if s.auth.currentUser.isSome then appeared.pushFor .record else appeared)
      | _ => none
  | .showHistory =>
      match s.viewControllers with
      | .record _ :: _ => some (s.pushFor .history)
      | _ => none
  | .back =>
      match s.viewControllers with
      | .history _ :: rest => some { s with viewControllers := rest }
      | _ => none
  | .logout signedOut =>
      match s.viewControllers with
      | .record _ :: _ =>
          some { s with
            viewControllers := .login s.nextLogin false :: s.viewControllers
            nextLogin := s.nextLogin + 1
            auth := if signedOut then s.auth.signOut else s.auth }
      | _ => none

/-! ### What an action does -/

/-- What an action does to a client that has not trapped. -/
inductive Trans (s : NavigationController) : Action → NavigationController → Prop
  | edit {number : ℕ} {rest : List Controller} (field : LoginField) (text : String)
      (htop : s.viewControllers = .login number true :: rest) : Trans s (.edit field text)
        { s with logins := Function.update s.logins number ((s.logins number).edit text field) }
  | signIn {number : ℕ} {rest : List Controller}
      (htop : s.viewControllers = .login number true :: rest) : Trans s .signIn
        { s with auth := s.auth.send ((s.logins number).request .signIn number) }
  | signUp {number : ℕ} {rest : List Controller}
      (htop : s.viewControllers = .login number true :: rest) : Trans s .signUp
        { s with auth := s.auth.send ((s.logins number).request .createUser number) }
  | respond {i : ℕ} {a : Answer} {auth : Firebase} (h : s.auth.respond i a = some auth) :
      Trans s (.respond i a) { s with auth }
  | failed {c : Callback} {cs : List Callback} (hcs : s.auth.callbacks = c :: cs)
      (hc : c.user = none) : Trans s .onComplete { s with auth := s.auth.next }
  | noUser {c : Callback} {cs : List Callback} (hcs : s.auth.callbacks = c :: cs)
      (hc : c.user.isSome) (hnone : s.auth.currentUser = none) :
      Trans s .onComplete (trap { s with auth := s.auth.next })
  | signedIn {c : Callback} {cs : List Callback} {user : FirebaseUser}
      (hcs : s.auth.callbacks = c :: cs) (hc : c.user.isSome) (hkind : c.request.kind = .signIn)
      (huser : s.auth.currentUser = some user) :
      Trans s .onComplete (push { s with auth := s.auth.next } (.record user.uid))
  | signedUp {c : Callback} {cs : List Callback} {user : FirebaseUser}
      (hcs : s.auth.callbacks = c :: cs) (hc : c.user.isSome)
      (hkind : c.request.kind = .createUser) (huser : s.auth.currentUser = some user) :
      Trans s .onComplete (push
        { s with
          auth := s.auth.next.storeRecord user.uid (s.logins c.request.screen).adminCode
            (StudyHours.signUp (s.logins c.request.screen).sisterName) } (.record user.uid))
  | observe {i : ℕ} {r : AdminRead} (adminCode : Option ℤ)
      (hr : s.auth.adminReads[i]? = some r) : Trans s (.observe i adminCode)
        { s with auth := s.auth.storeAdmin i r.uid (signUpAdmin r.text adminCode) }
  | appeared {number : ℕ} {rest : List Controller}
      (htop : s.viewControllers = .login number false :: rest)
      (hnone : s.auth.currentUser = none) :
      Trans s .viewDidAppear { s with viewControllers := .login number true :: rest }
  | relogged {number : ℕ} {rest : List Controller} {user : FirebaseUser}
      (htop : s.viewControllers = .login number false :: rest)
      (huser : s.auth.currentUser = some user) : Trans s .viewDidAppear
        { s with viewControllers := .record user.uid :: .login number true :: rest }
  | showHistory {uid : String} {rest : List Controller} {user : FirebaseUser}
      (htop : s.viewControllers = .record uid :: rest) (huser : s.auth.currentUser = some user) :
      Trans s .showHistory (s.push (.history user.uid))
  | noHistory {uid : String} {rest : List Controller}
      (htop : s.viewControllers = .record uid :: rest) (hnone : s.auth.currentUser = none) :
      Trans s .showHistory s.trap
  | back {uid : String} {rest : List Controller}
      (htop : s.viewControllers = .history uid :: rest) :
      Trans s .back { s with viewControllers := rest }
  | logout {uid : String} {rest : List Controller} (signedOut : Bool)
      (htop : s.viewControllers = .record uid :: rest) : Trans s (.logout signedOut)
        { s with
          viewControllers := .login s.nextLogin false :: s.viewControllers
          nextLogin := s.nextLogin + 1
          auth := if signedOut then s.auth.signOut else s.auth }

variable {s t : NavigationController} {a : Action}

/-- What the first handler of the queue does. -/
theorem trans_complete {c : Callback} {cs : List Callback} (hcs : s.auth.callbacks = c :: cs) :
    Trans s .onComplete (complete { s with auth := s.auth.next } c) := by
  rw [complete]
  cases hc : c.user with
  | none => exact .failed hcs hc
  | some user =>
      have hsome : c.user.isSome := by rw [hc]; rfl
      cases hcurrent : s.auth.currentUser with
      | none =>
          have hnext : s.auth.next.currentUser = none := hcurrent
          cases hkind : c.request.kind with
          | signIn =>
              dsimp only
              rw [pushFor, hnext]
              exact .noUser hcs hsome hcurrent
          | createUser =>
              dsimp only
              rw [signedUp, hnext]
              exact .noUser hcs hsome hcurrent
      | some current =>
          have hnext : s.auth.next.currentUser = some current := hcurrent
          cases hkind : c.request.kind with
          | signIn =>
              dsimp only
              rw [pushFor, hnext]
              exact .signedIn hcs hsome hkind hcurrent
          | createUser =>
              dsimp only
              rw [signedUp, hnext]
              dsimp only
              rw [pushFor]
              split
              · next hnone => cases hcurrent.symm.trans hnone
              · next user' huser =>
                  obtain rfl := Option.some.inj (hcurrent.symm.trans huser)
                  exact .signedUp hcs hsome hkind hcurrent

/-- **Inversion of an action.** -/
theorem trans_of_step (h : step s a = some t) : s.trapped = false ∧ Trans s a t := by
  have htrapped : s.trapped = false := by
    by_contra htrapped
    simp [step, htrapped] at h
  refine ⟨htrapped, ?_⟩
  rw [step.eq_def, if_neg (by simp [htrapped])] at h
  cases a with
  | edit field text =>
      dsimp only at h
      split at h
      · cases h
        exact .edit field text ‹_›
      · cases h
  | signIn =>
      dsimp only at h
      split at h
      · cases h
        exact .signIn ‹_›
      · cases h
  | signUp =>
      dsimp only at h
      split at h
      · cases h
        exact .signUp ‹_›
      · cases h
  | respond i a =>
      obtain ⟨auth, hauth, rfl⟩ := Option.map_eq_some_iff.1 h
      exact .respond hauth
  | onComplete =>
      dsimp only at h
      split at h
      · next c cs hcs =>
          cases h
          exact trans_complete hcs
      · cases h
  | observe i adminCode =>
      obtain ⟨r, hr, rfl⟩ := Option.map_eq_some_iff.1 h
      exact .observe adminCode hr
  | viewDidAppear =>
      dsimp only at h
      split at h
      · next number rest htop =>
          obtain rfl := Option.some.inj h
          cases hcurrent : s.auth.currentUser with
          | none => exact .appeared htop hcurrent
          | some user =>
              rw [if_pos (by rfl), pushFor, hcurrent]
              exact .relogged htop hcurrent
      · cases h
  | showHistory =>
      dsimp only at h
      split at h
      · next uid rest htop =>
          obtain rfl := Option.some.inj h
          cases hcurrent : s.auth.currentUser with
          | none =>
              rw [pushFor, hcurrent]
              exact .noHistory htop hcurrent
          | some user =>
              rw [pushFor, hcurrent]
              exact .showHistory htop hcurrent
      · cases h
  | back =>
      dsimp only at h
      split at h
      · cases h
        exact .back ‹_›
      · cases h
  | logout signedOut =>
      dsimp only at h
      split at h
      · cases h
        exact .logout signedOut ‹_›
      · cases h

/-- What an action does to the service. -/
theorem change_of_trans (hst : Trans s a t) : Firebase.Change s.auth t.auth := by
  cases hst with
  | signIn htop | signUp htop => exact .send _
  | respond hauth => exact .respond hauth
  | @failed c cs hcs hc => exact .next hcs (Callback.created?_of_failed hc)
  | @signedIn c cs user hcs hc hkind huser => exact .next hcs (Callback.created?_of_signIn hkind)
  | @signedUp c cs user hcs hc hkind huser =>
      obtain ⟨uid, hcreated⟩ := Callback.exists_created? hkind hc
      have hwrites : onComplete (s.logins c.request.screen).adminCode
          (s.logins c.request.screen).sisterName .ios =
            some (StudyHours.signUp (s.logins c.request.screen).sisterName) := rfl
      exact .storeRecord hcs hcreated huser hwrites
  | noUser hcs hc hnone => exact .crashNext
  | noHistory htop hnone => exact .crash
  | observe adminCode hr => exact .storeAdmin hr _
  | logout signedOut htop =>
      cases signedOut
      · exact .same
      · exact .signOut
  | _ => exact .same

/-! ### What is shown -/

/-- What is shown is that of the current user; a login screen is shown to nobody who is signed
in. -/
def ShowsUser (s : NavigationController) : Prop :=
  match s.viewControllers with
  | .login _ appeared :: _ => appeared = true → s.auth.currentUser = none
  | .record uid :: _ => s.auth.currentUser.map FirebaseUser.uid = some uid
  | .history uid :: below :: _ =>
      s.auth.currentUser.map FirebaseUser.uid = some uid ∧ below = .record uid
  | _ => False

instance (s : NavigationController) : Decidable s.ShowsUser := by
  unfold ShowsUser
  split <;> infer_instance

theorem ShowsUser.congr (h : s.ShowsUser) (hvc : t.viewControllers = s.viewControllers)
    (hcurrent : t.auth.currentUser = s.auth.currentUser) : t.ShowsUser := by
  rwa [ShowsUser, hvc, hcurrent]

/-- A record screen has been opened for the current user. -/
theorem showsUser_record {uid : String} {rest : List Controller} {user : FirebaseUser}
    (hvc : t.viewControllers = .record uid :: rest) (hcurrent : t.auth.currentUser = some user)
    (huid : user.uid = uid) : t.ShowsUser := by
  rw [ShowsUser, hvc, hcurrent]
  exact congrArg some huid

/-- The first screen is a login screen. -/
def AtLogin (s : NavigationController) : Prop :=
  ∃ number appeared rest, s.viewControllers = .login number appeared :: rest

/-- No handler is removed, nobody is signed out but on a login screen, and what is shown is that of
the current user unless a handler is about to open the next screen. -/
structure Inv (s : NavigationController) : Prop where
  listening : ∀ r ∈ s.auth.requests, r.listening = true
  signedIn : s.auth.currentUser = none → s.AtLogin
  shows : ¬ s.auth.AwaitsUser → s.ShowsUser

theorem inv_launch {auth : Firebase} (hrequests : auth.requests = []) : (launch auth).Inv where
  listening r hr := by
    rw [show (launch auth).auth.requests = [] from hrequests] at hr
    cases hr
  signedIn _ := ⟨0, false, [], rfl⟩
  shows _ happeared := by cases happeared

/-- **Every action keeps the invariant**, unless the client traps. -/
theorem Inv.trans (h : s.Inv) (hst : Trans s a t) : t.trapped = true ∨ t.Inv := by
  cases hst with
  | edit field text htop => exact .inr ⟨h.listening, h.signedIn, h.shows⟩
  | @signIn number rest htop | @signUp number rest htop =>
      refine .inr ⟨fun r hr => ?_, h.signedIn, h.shows⟩
      rcases List.mem_append.1 hr with hr | hr
      · exact h.listening r hr
      · rw [List.mem_singleton.1 hr]
        rfl
  | @respond i a auth hauth =>
      obtain ⟨r, hr, -, rfl⟩ := Firebase.respond_eq_some hauth
      refine .inr ⟨fun r' hr' => h.listening r' (List.mem_of_mem_eraseIdx hr'), fun hnone => ?_,
        fun hwaits => ?_⟩
      · exact h.signedIn (Option.or_eq_none_iff.1 hnone).2
      · have hcallbacks :
            (s.auth.answered i r a).callbacks = s.auth.callbacks ++ [⟨r, a.user?⟩] := by
          rw [Firebase.answered, if_pos (h.listening r (List.mem_of_getElem? hr))]
        have hnone : a.user? = none := by
          by_contra hsome
          refine hwaits ⟨⟨r, a.user?⟩, ?_, Option.isSome_iff_ne_none.2 hsome⟩
          rw [hcallbacks]
          exact List.mem_append_right _ List.mem_cons_self
        have hbefore : ¬ s.auth.AwaitsUser := by
          rintro ⟨c, hc, hsome⟩
          refine hwaits ⟨c, ?_, hsome⟩
          rw [hcallbacks]
          exact List.mem_append_left _ hc
        refine (h.shows hbefore).congr rfl ?_
        change a.user?.or s.auth.currentUser = _
        rw [hnone, Option.none_or]
  | @failed c cs hcs hc =>
      refine .inr ⟨h.listening, h.signedIn, fun hwaits => ?_⟩
      refine (h.shows ?_).congr rfl rfl
      rintro ⟨c', hc', hsome⟩
      rw [hcs, List.mem_cons] at hc'
      rcases hc' with rfl | hc'
      · rw [hc] at hsome
        cases hsome
      · refine hwaits ⟨c', ?_, hsome⟩
        change c' ∈ s.auth.callbacks.tail
        rwa [hcs]
  | noUser hcs hc hnone => exact .inl rfl
  | signedIn hcs hc hkind huser | signedUp hcs hc hkind huser =>
      refine .inr ⟨h.listening, fun hnone => ?_, fun _ => showsUser_record rfl huser rfl⟩
      cases huser.symm.trans hnone
  | observe adminCode hr => exact .inr ⟨h.listening, h.signedIn, h.shows⟩
  | appeared htop hnone => exact .inr ⟨h.listening, fun _ => ⟨_, _, _, rfl⟩, fun _ _ => hnone⟩
  | relogged htop huser =>
      refine .inr ⟨h.listening, fun hnone => ?_, fun _ => showsUser_record rfl huser rfl⟩
      cases huser.symm.trans hnone
  | @showHistory uid rest user htop huser =>
      refine .inr ⟨h.listening, fun hnone => ?_, fun hwaits => ?_⟩
      · cases huser.symm.trans hnone
      · have hshows := h.shows hwaits
        rw [ShowsUser, htop] at hshows
        have huid : user.uid = uid := by
          rw [huser] at hshows
          exact Option.some.inj hshows
        rw [ShowsUser, push, htop, huid]
        exact ⟨hshows, rfl⟩
  | noHistory htop hnone => exact .inl rfl
  | @back uid rest htop =>
      refine .inr ⟨h.listening, fun hnone => ?_, fun hwaits => ?_⟩
      · obtain ⟨number, appeared, rest', heq⟩ := h.signedIn hnone
        cases htop.symm.trans heq
      · have hshows := h.shows hwaits
        rw [ShowsUser, htop] at hshows
        cases rest with
        | nil => exact hshows.elim
        | cons below rest =>
            obtain ⟨hcurrent, rfl⟩ := hshows
            exact hcurrent
  | logout signedOut htop =>
      refine .inr ⟨?_, fun _ => ⟨_, _, _, rfl⟩, fun _ happeared => ?_⟩
      · cases signedOut <;> exact h.listening
      · cases happeared

/-- **What is shown is that of the user who is signed in**, in every state of every run of the
client in which it has not trapped and no handler is about to open the next screen: whoever has
signed up, in and out, and in whatever order the service has answered. -/
theorem showsUser_run {auth : Firebase} {acts : List Action} (hrequests : auth.requests = [])
    (hrun : Execution.run step (launch auth) acts = some t) (htrapped : t.trapped = false)
    (hwaits : ¬ t.auth.AwaitsUser) : t.ShowsUser := by
  have hinv : t.trapped = true ∨ t.Inv := by
    refine Execution.run_invariant (I := fun t : NavigationController => t.trapped = true ∨ t.Inv)
      ?_ (.inr (inv_launch hrequests)) hrun
    intro s a t hs hst
    obtain ⟨hfalse, htrans⟩ := trans_of_step hst
    exact (hs.resolve_left (by simp [hfalse])).trans htrans
  exact (hinv.resolve_left (by simp [htrapped])).shows hwaits

/-- Two accounts, and nobody is signed in. -/
def twoAccounts : Firebase where
  currentUser := none
  accounts := ["a", "b"]
  requests := []
  callbacks := []
  hours uid := if uid ∈ ["a", "b"] then Hours.created uid else Hours.absent
  adminReads := []
  admin _ := none

/-- Two requests are under way at once, and the second one is answered after the handler of the
first one has been run; meanwhile the history is opened. -/
def twoSignIns : List Action :=
  [.viewDidAppear, .edit .emailField "a@x", .signIn, .edit .emailField "b@x", .signIn,
    .respond 0 (.success ⟨"a", "a@x", true⟩), .onComplete, .showHistory,
    .respond 0 (.success ⟨"b", "b@x", true⟩), .back, .onComplete]

theorem showsUser_twoSignIns :
    ∃ t, Execution.run step (launch twoAccounts) twoSignIns = some t ∧ t.ShowsUser := by
  obtain ⟨t, ht, hfalse, hawaits⟩ : ∃ t,
      Execution.run step (launch twoAccounts) twoSignIns = some t ∧
        t.trapped = false ∧ ¬ t.auth.AwaitsUser := Execution.exists_run (by decide)
  exact ⟨t, ht, showsUser_run rfl ht hfalse hawaits⟩

/-! ### Traps -/

/-- The action does not make the client trap. -/
def NeverTraps (s : NavigationController) (a : Action) : Prop :=
  ∀ t ∈ step s a, t.trapped = false

/-- Somebody is signed in when a handler of a success is run. -/
def FindsUser (s : NavigationController) : Action → Prop
  | .onComplete => ∀ c ∈ s.auth.callbacks.head?, c.user.isSome → s.auth.currentUser.isSome
  | _ => True

instance (s : NavigationController) (a : Action) : Decidable (s.FindsUser a) := by
  cases a <;> dsimp only [FindsUser] <;> infer_instance

/-- Only the handler of a success can trap. -/
theorem trapped_eq_false_iff (h : s.Inv) (hfalse : s.trapped = false) (hst : Trans s a t) :
    t.trapped = false ↔ s.FindsUser a := by
  cases hst with
  | failed hcs hc => exact iff_of_true hfalse (by simp [FindsUser, hcs, hc])
  | noUser hcs hc hnone =>
      refine iff_of_false (by simp [trap]) fun hfinds => ?_
      rw [FindsUser, hcs, hnone] at hfinds
      cases hfinds _ rfl hc
  | signedIn hcs hc hkind huser | signedUp hcs hc hkind huser =>
      exact iff_of_true hfalse fun _ _ _ => by rw [huser]; rfl
  | noHistory htop hnone =>
      obtain ⟨number, appeared, rest, heq⟩ := h.signedIn hnone
      cases htop.symm.trans heq
  | _ => exact iff_of_true hfalse trivial

/-- **The client never traps along a run exactly if somebody is signed in whenever the handler of a
success is run**: opening the history, or a screen for who is signed in already, never traps. -/
theorem neverTraps_iff {auth : Firebase} {acts : List Action} (hrequests : auth.requests = [])
    (hrun : Execution.run step (launch auth) acts = some t) :
    Execution.Along step NeverTraps (launch auth) acts ↔
      Execution.Along step FindsUser (launch auth) acts := by
  refine Execution.along_after_iff (P := fun t => t.trapped = false) ?_ ?_ (inv_launch hrequests)
    hrun
  · intro s a t hs hst
    obtain ⟨hfalse, htrans⟩ := trans_of_step hst
    exact trapped_eq_false_iff hs hfalse htrans
  · intro s a t hs ht hst
    exact (hs.trans (trans_of_step hst).2).resolve_left (by simp [ht])

theorem neverTraps_twoSignIns :
    Execution.Along step NeverTraps (launch twoAccounts) twoSignIns :=
  (neverTraps_iff rfl (Option.eq_some_of_isSome (by decide))).2 (by decide)

/-- Signing out between the answer to another request and its handler is a trap. -/
example : ¬ Execution.Along step FindsUser (launch twoAccounts)
    [.viewDidAppear, .signIn, .signIn, .respond 0 (.success ⟨"a", "a@x", true⟩), .onComplete,
      .respond 0 (.success ⟨"b", "b@x", true⟩), .logout true, .onComplete] := by decide

/-! ### Records -/

/-- No account is left without a record after the action. -/
def GivesRecords (s : NavigationController) (a : Action) : Prop :=
  ∀ t ∈ step s a, t.auth.HasRecords

/-- The client is told of every account that is created, and the handler of a sign-up finds the user
that it was told of; and nobody is missing when another handler of a success is run, as long as a
sign-up waits. -/
def Completes (s : NavigationController) : Action → Prop
  | .respond i a => s.auth.Heard i a
  | .onComplete => ∀ c ∈ s.auth.callbacks.head?,
      (∀ uid ∈ c.created?, s.auth.currentUser.map FirebaseUser.uid = some uid) ∧
        (c.user.isSome → s.auth.currentUser.isSome ∨ s.auth.awaited = [])
  | _ => True

instance (s : NavigationController) (a : Action) : Decidable (s.Completes a) := by
  cases a <;> dsimp only [Completes] <;> infer_instance

theorem hasRecords_iff_completes (hinv : s.Inv) (hs : s.auth.Sound) (h : s.auth.HasRecords)
    (hst : Trans s a t) : t.auth.HasRecords ↔ s.Completes a := by
  cases hst with
  | signIn htop | signUp htop =>
      exact iff_of_true ((Firebase.alike_send _ _).hasRecords_iff.2 h) trivial
  | respond hauth => exact Firebase.hasRecords_respond_iff hs h hauth
  | @failed c cs hcs hc =>
      have hcreated := Callback.created?_of_failed hc
      refine iff_of_true ((Firebase.alike_next hcs hcreated).hasRecords_iff.2 h) ?_
      simp [Completes, hcs, hcreated, hc]
  | @noUser c cs hcs hc hnone =>
      have hdrop : s.auth.next.crash.HasRecords ↔ s.auth.awaited = [] :=
        Firebase.hasRecords_drop_iff hs h rfl rfl rfl
      refine hdrop.trans ?_
      rw [Completes, hcs, hnone]
      constructor
      · rintro hawaited c' ⟨⟩
        refine ⟨fun uid huid => ?_, fun _ => .inr hawaited⟩
        rw [Firebase.awaited_next hcs huid] at hawaited
        cases hawaited
      · intro hcompletes
        exact ((hcompletes c rfl).2 hc).resolve_left Bool.false_ne_true
  | @signedIn c cs user hcs hc hkind huser =>
      have hcreated := Callback.created?_of_signIn hkind
      refine iff_of_true ((Firebase.alike_next hcs hcreated).hasRecords_iff.2 h) ?_
      simp [Completes, hcs, hcreated, huser]
  | @signedUp c cs user hcs hc hkind huser =>
      obtain ⟨uid, hcreated⟩ := Callback.exists_created? hkind hc
      have hwrites : onComplete (s.logins c.request.screen).adminCode
          (s.logins c.request.screen).sisterName .ios =
            some (StudyHours.signUp (s.logins c.request.screen).sisterName) := rfl
      refine (Firebase.hasRecords_storeRecord_iff hs h hcs hcreated hwrites _).trans ?_
      simp [Completes, hcs, hcreated, huser]
  | observe adminCode hr =>
      exact iff_of_true ((Firebase.alike_storeAdmin _ _ _ _).hasRecords_iff.2 h) trivial
  | noHistory htop hnone =>
      obtain ⟨number, appeared, rest, heq⟩ := hinv.signedIn hnone
      cases htop.symm.trans heq
  | logout signedOut htop =>
      refine iff_of_true ?_ trivial
      cases signedOut
      · exact h
      · exact (Firebase.alike_signOut _).hasRecords_iff.2 h
  | _ => exact iff_of_true h trivial

/-- **Every account has its record, or a handler that waits is going to store it, throughout a run
exactly if the client is told of every account that is created and every handler of a sign-up finds
the user it was told of.** -/
theorem givesRecords_iff {auth : Firebase} {acts : List Action} (hrequests : auth.requests = [])
    (hsound : auth.Sound) (hrecords : auth.HasRecords)
    (hrun : Execution.run step (launch auth) acts = some t) :
    Execution.Along step GivesRecords (launch auth) acts ↔
      Execution.Along step Completes (launch auth) acts := by
  have hiff : ∀ s a t, ((s.trapped = true ∨ s.Inv) ∧ s.auth.Sound ∧ s.auth.HasRecords) →
      step s a = some t → (t.auth.HasRecords ↔ s.Completes a) := by
    rintro s a t ⟨hinv, hs, h⟩ hst
    obtain ⟨hfalse, htrans⟩ := trans_of_step hst
    exact hasRecords_iff_completes (hinv.resolve_left (by simp [hfalse])) hs h htrans
  refine Execution.along_after_iff hiff ?_ ⟨.inr (inv_launch hrequests), hsound, hrecords⟩ hrun
  rintro s a t ⟨hinv, hs, h⟩ ht hst
  obtain ⟨hfalse, htrans⟩ := trans_of_step hst
  exact ⟨(hinv.resolve_left (by simp [hfalse])).trans htrans,
    hs.change h (change_of_trans htrans) ht, ht⟩

/-- An account is created. -/
def oneSignUp : List Action :=
  [.viewDidAppear, .edit .emailField "c@x", .edit .sisterName "C", .signUp,
    .respond 0 (.success ⟨"c", "c@x", false⟩), .onComplete, .observe 0 (some 7)]

theorem sound_twoAccounts : twoAccounts.Sound where
  nodup := List.nodup_nil
  accounts _ huid := by cases huid
  absent uid huid := if_neg (huid.resolve_right List.not_mem_nil)

theorem givesRecords_oneSignUp :
    Execution.Along step GivesRecords (launch twoAccounts) oneSignUp :=
  (givesRecords_iff rfl sound_twoAccounts (by decide)
    (Option.eq_some_of_isSome (by decide))).2 (by decide)

/-- Two accounts are created at once, and the first one is left without a record. -/
example : ¬ Execution.Along step Completes (launch twoAccounts)
    [.viewDidAppear, .signUp, .signUp, .respond 0 (.success ⟨"c", "c@x", false⟩),
      .respond 0 (.success ⟨"d", "d@x", false⟩), .onComplete] := by decide

/-! ### One request at a time -/

/-- A request is sent when none is under way, and nobody signs out while a handler waits. -/
def Alone (s : NavigationController) : Action → Prop
  | .signIn | .signUp => s.auth.requests = [] ∧ s.auth.callbacks = []
  | .logout _ => s.auth.callbacks = []
  | _ => True

instance (s : NavigationController) (a : Action) : Decidable (s.Alone a) := by
  cases a <;> dsimp only [Alone] <;> infer_instance

theorem findsUser_of_single (h : s.auth.Single) (a : Action) : s.FindsUser a := by
  cases a with
  | onComplete =>
      intro c hc hsome
      obtain ⟨user, huser⟩ := Option.isSome_iff_exists.1 hsome
      rw [h.current c (List.mem_of_mem_head? hc) user huser]
      rfl
  | _ => trivial

theorem single_trans (h : s.auth.Single) (hst : Trans s a t) (halone : s.Alone a) :
    t.auth.Single := by
  cases hst with
  | signIn htop | signUp htop => exact .send halone.1 halone.2 _
  | respond hauth => exact h.respond hauth
  | failed hcs hc | signedIn hcs hc hkind huser => exact h.next
  | signedUp hcs hc hkind huser => exact ⟨h.next.length, h.next.current⟩
  | noUser hcs hc hnone | noHistory htop hnone => exact .crash _
  | observe adminCode hr => exact ⟨h.length, h.current⟩
  | logout signedOut htop =>
      cases signedOut
      · exact h
      · exact h.signOut halone
  | _ => exact h

/-- **One request at a time spares the accounts that there are**: along a run in which a request is
sent only when none is under way and nobody signs out while a handler waits, the client does not
trap, and the record and the flag of every account that there was at first are as they were. -/
theorem spares_of_alone {auth : Firebase} {acts : List Action} (hrequests : auth.requests = [])
    (hcallbacks : auth.callbacks = []) (hreads : auth.adminReads = [])
    (halone : Execution.Along step Alone (launch auth) acts)
    (hrun : Execution.run step (launch auth) acts = some t) :
    t.trapped = false ∧ ∀ uid ∈ auth.accounts,
      t.auth.hours uid = auth.hours uid ∧ t.auth.admin uid = auth.admin uid := by
  have hstart : auth.Single := by
    refine ⟨by simp [hrequests, hcallbacks], fun c hc => ?_⟩
    rw [hcallbacks] at hc
    cases hc
  have hawaited : auth.awaited = [] := by rw [Firebase.awaited, hcallbacks]; rfl
  have hinv : t.trapped = false ∧ t.Inv ∧ t.auth.Single ∧ Firebase.Apart auth t.auth := by
    refine Execution.run_invariant_along (I := fun t : NavigationController => t.trapped = false ∧
      t.Inv ∧ t.auth.Single ∧ Firebase.Apart auth t.auth) ?_
      ⟨rfl, inv_launch hrequests, hstart, .refl hawaited hreads⟩ halone hrun
    rintro s a t ⟨-, hs, hsingle, hapart⟩ ha hst
    obtain ⟨hfalse, htrans⟩ := trans_of_step hst
    have hnever : t.trapped = false :=
      (trapped_eq_false_iff hs hfalse htrans).2 (findsUser_of_single hsingle a)
    exact ⟨hnever, (hs.trans htrans).resolve_left (by simp [hnever]),
      single_trans hsingle htrans ha, hapart.change hsingle (change_of_trans htrans)⟩
  exact ⟨hinv.1, fun uid huid => ⟨hinv.2.2.2.hours uid huid, hinv.2.2.2.admin uid huid⟩⟩

theorem spares_oneSignUp : ∃ t, Execution.run step (launch twoAccounts) oneSignUp = some t ∧
    t.trapped = false ∧ ∀ uid ∈ twoAccounts.accounts,
      t.auth.hours uid = twoAccounts.hours uid ∧ t.auth.admin uid = twoAccounts.admin uid := by
  have ht := Option.eq_some_of_isSome
    (show (Execution.run step (launch twoAccounts) oneSignUp).isSome by decide)
  exact ⟨_, ht, spares_of_alone rfl rfl rfl (by decide) ht⟩

end NavigationController

end StudyHours
