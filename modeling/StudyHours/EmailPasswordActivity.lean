/-
**Signing up, in and out on Android.**

The main activity of the Android client leads to this one when nobody is signed in.  It shows a
form, or, to somebody who is signed in, a button to sign out.  Its buttons check the form and send a
request; the handler of a success starts the main activity and finishes this one.  When the activity
is stopped its handlers are removed, though the requests are answered all the same; when it is
started again it shows what the current user is by then.

The handlers are run while the form is shown, so nobody can sign out before they are: the current
user that they look up is never `null`, as long as the service does not sign the user out by itself,
as `Firebase` assumes.

Main definitions:

* `StudyHours.EmailPasswordActivity`, `StudyHours.EmailPasswordActivity.step` — the activity;
* `StudyHours.EmailPasswordActivity.Inv` — what is shown and what is under way;
* `StudyHours.EmailPasswordActivity.InProgress` — a request is under way that is waited for.

Main results:

* `StudyHours.EmailPasswordActivity.trans_of_step` — what an action does;
* `StudyHours.EmailPasswordActivity.neverCrashes_iff` — **an exception ends the app exactly where an
  admin code cannot be read**;
* `StudyHours.EmailPasswordActivity.showsProgress_iff` — **the progress bar is right exactly if no
  short password is tried while nothing is in progress**;
* `StudyHours.EmailPasswordActivity.storesRecords_iff` — **every account gets its record exactly if
  its handler is run, finds its own user, and can read the admin code**;
* `StudyHours.EmailPasswordActivity.leavesAlone_of_oneAtATime` — **one request at a time leaves the
  accounts that there are alone**.
-/

import Mathlib
import StudyHours.Firebase

set_option relaxedAutoImplicit false
set_option autoImplicit false

namespace StudyHours

/-! ### The activity -/

/-- The text of `mStatusTextView`. -/
inductive StatusText
  | empty
  | signedOut
  | emailpasswordStatus (email : String) (isEmailVerified : Bool)
  | authFailed
deriving DecidableEq

/-- The text fields. -/
inductive EditText
  | mEmailField
  | mPasswordField
  | mDisplayName
  | mAdminCode
deriving DecidableEq

/-- The buttons. -/
inductive EmailPasswordButton
  | emailCreateAccountButton
  | emailSignInButton
  | signOutButton
  | verifyEmailButton
deriving DecidableEq

/-- `length()` of a string: its UTF-16 code units. -/
def javaLength (text : String) : ℕ :=
  (text.toList.map fun c => if c.toNat < 0x10000 then 1 else 2).sum

/-- The activity. -/
structure EmailPasswordActivity where
  mEmailField : String
  mPasswordField : String
  mDisplayName : String
  mAdminCode : String
  emailError : Option String
  passwordError : Option String
  mStatusTextView : StatusText
  /-- The account id in `mDetailTextView`. -/
  mDetailTextView : Option String
  /-- The views of these names are visible. -/
  emailPasswordButtons : Bool
  emailPasswordFields : Bool
  signedInButtons : Bool
  mProgressBar : Bool
  /-- The button is enabled. -/
  verifyEmailButton : Bool
  /-- The toast that has been shown last. -/
  toast : Option String
  /-- The verification mails whose listeners wait, by the address. -/
  verifications : List String
  started : Bool
  finished : Bool
  crashed : Bool
  auth : Firebase

namespace EmailPasswordActivity

/-- What happens to the activity. -/
inductive Action
  | edit (field : EditText) (text : String)
  | onClick (button : EmailPasswordButton)
  | respond (i : ℕ) (a : Answer)
  /-- The first handler of the main queue is run. -/
  | onComplete
  /-- The listener of a verification mail is run. -/
  | onVerification (i : ℕ) (isSuccessful : Bool)
  /-- The admin code is read for the sign-up of a number. -/
  | onDataChange (i : ℕ) (adminCode : Option ℤ)
  | onStart
  | onStop
deriving DecidableEq

/-- `onCreate`, with the visibilities of the layout. -/
def onCreate (auth : Firebase) : EmailPasswordActivity where
  mEmailField := ""
  mPasswordField := ""
  mDisplayName := ""
  mAdminCode := ""
  emailError := none
  passwordError := none
  mStatusTextView := .empty
  mDetailTextView := none
  emailPasswordButtons := true
  emailPasswordFields := true
  signedInButtons := false
  mProgressBar := false
  verifyEmailButton := true
  toast := none
  verifications := []
  started := false
  finished := false
  crashed := false
  auth := auth

def showProgressBar (s : EmailPasswordActivity) : EmailPasswordActivity :=
  { s with mProgressBar := true }

def hideProgressBar (s : EmailPasswordActivity) : EmailPasswordActivity :=
  { s with mProgressBar := false }

/-- An exception ends the app. -/
def crash (s : EmailPasswordActivity) : EmailPasswordActivity :=
  { s with verifications := [], crashed := true, auth := s.auth.crash }

def makeText (s : EmailPasswordActivity) (text : String) : EmailPasswordActivity :=
  { s with toast := some text }

def finish (s : EmailPasswordActivity) : EmailPasswordActivity := { s with finished := true }

/-- `updateUI`. -/
def updateUI (s : EmailPasswordActivity) (user : Option FirebaseUser) : EmailPasswordActivity :=
  match user with
  | some user =>
      { s.hideProgressBar with
        mStatusTextView := .emailpasswordStatus user.email user.isEmailVerified
        mDetailTextView := some user.uid
        emailPasswordButtons := false
        emailPasswordFields := false
        signedInButtons := true
        verifyEmailButton := !user.isEmailVerified }
  | none =>
      { s.hideProgressBar with
        mStatusTextView := .signedOut
        mDetailTextView := none
        emailPasswordButtons := true
        emailPasswordFields := true
        signedInButtons := false }

/-- `validateForm`: the errors that it sets. -/
def validateForm (s : EmailPasswordActivity) : EmailPasswordActivity :=
  { s with
    emailError := if s.mEmailField = "" then some "Required." else none
    passwordError := if s.mPasswordField = "" then some "Required." else none }

/-- `validateForm`: what it returns. -/
def Valid (s : EmailPasswordActivity) : Prop := s.mEmailField ≠ "" ∧ s.mPasswordField ≠ ""

instance (s : EmailPasswordActivity) : Decidable s.Valid := by
  unfold Valid
  infer_instance

/-- The request that the form sends. -/
def request (s : EmailPasswordActivity) (kind : RequestKind) : Request :=
  ⟨kind, s.mEmailField, s.mPasswordField, 0, true⟩

/-- `createAccount`. -/
def createAccount (s : EmailPasswordActivity) : EmailPasswordActivity :=
  if s.Valid then
    if javaLength s.mPasswordField < 6 then
      s.validateForm.showProgressBar.makeText "Password needs to be at least 6 characters"
    else
      { s.validateForm.showProgressBar with auth := s.auth.send (s.request .createUser) }
  else s.validateForm

/-- `signIn`. -/
def signIn (s : EmailPasswordActivity) : EmailPasswordActivity :=
  if s.Valid then
    { s.validateForm.showProgressBar with auth := s.auth.send (s.request .signIn) }
  else s.validateForm

/-- `signOut`. -/
def signOut (s : EmailPasswordActivity) : EmailPasswordActivity :=
  updateUI { s with auth := s.auth.signOut } none

/-- `sendEmailVerification`; it calls a method of the current user. -/
def sendEmailVerification (s : EmailPasswordActivity) : EmailPasswordActivity :=
  match s.auth.currentUser with
  | none => s.crash
  | some user =>
      { s with verifyEmailButton := false, verifications := s.verifications ++ [user.email] }

/-- `onClick`. -/
def onClick (s : EmailPasswordActivity) : EmailPasswordButton → EmailPasswordActivity
  | .emailCreateAccountButton => s.createAccount
  | .emailSignInButton => s.signIn
  | .signOutButton => s.signOut
  | .verifyEmailButton => s.sendEmailVerification

/-- The handler of a request whose account has been created: it calls methods of the current user
and reads the admin code as a number. -/
def onCreated (s : EmailPasswordActivity) : EmailPasswordActivity :=
  match s.auth.currentUser, StudyHours.createAccount s.mAdminCode s.mDisplayName with
  | some user, some writes =>
      ((updateUI { s with auth := s.auth.storeRecord user.uid s.mAdminCode writes }
        (some user)).finish).hideProgressBar
  | _, _ => s.crash

/-- The handler of a request that has failed. -/
def onFailed (s : EmailPasswordActivity) (kind : RequestKind) : EmailPasswordActivity :=
  let s := (s.makeText "Authentication failed.").updateUI none
  match kind with
  | .createUser => s.hideProgressBar
  | .signIn => { s with mStatusTextView := .authFailed }.hideProgressBar

/-- A handler. -/
def complete (s : EmailPasswordActivity) (c : Callback) : EmailPasswordActivity :=
  match c.user with
  | none => s.onFailed c.request.kind
  | some _ =>
      match c.request.kind with
      | .createUser => s.onCreated
      | .signIn => ((s.updateUI s.auth.currentUser).finish).hideProgressBar

/-- The user edits a field; an error that was set is cleared then. -/
def edit (s : EmailPasswordActivity) (text : String) : EditText → EmailPasswordActivity
  | .mEmailField => { s with mEmailField := text, emailError := none }
  | .mPasswordField => { s with mPasswordField := text, passwordError := none }
  | .mDisplayName => { s with mDisplayName := text }
  | .mAdminCode => { s with mAdminCode := text }

/-- The field can be edited. -/
def Editable (s : EmailPasswordActivity) : EditText → Prop
  | .mEmailField | .mPasswordField => s.emailPasswordFields = true
  | .mDisplayName | .mAdminCode => True

/-- The button can be tapped. -/
def Clickable (s : EmailPasswordActivity) : EmailPasswordButton → Prop
  | .emailCreateAccountButton | .emailSignInButton => s.emailPasswordButtons = true
  | .signOutButton => s.signedInButtons = true
  | .verifyEmailButton => s.signedInButtons = true ∧ s.verifyEmailButton = true

/-- The user can do something. -/
def Resumed (s : EmailPasswordActivity) : Prop := s.started = true ∧ s.finished = false

instance (s : EmailPasswordActivity) : Decidable s.Resumed := by
  unfold Resumed
  infer_instance

instance (s : EmailPasswordActivity) (field : EditText) : Decidable (s.Editable field) := by
  cases field <;> dsimp only [Editable] <;> infer_instance

instance (s : EmailPasswordActivity) (button : EmailPasswordButton) :
    Decidable (s.Clickable button) := by
  cases button <;> dsimp only [Clickable] <;> infer_instance

/-- **One action.**  `none` if the action is not possible now. -/
def step (s : EmailPasswordActivity) (a : Action) : Option EmailPasswordActivity :=
  if s.crashed then none else
  match a with
  | .edit field text => if s.Resumed ∧ s.Editable field then some (s.edit text field) else none
  | .onClick button => if s.Resumed ∧ s.Clickable button then some (s.onClick button) else none
  | .respond i a => (s.auth.respond i a).map fun auth => { s with auth }
  | .onComplete =>
      match s.auth.callbacks with
      | c :: _ => some (complete { s with auth := s.auth.next } c)
      | [] => none
  | .onVerification i isSuccessful =>
      s.verifications[i]?.map fun email =>
        makeText { s with verifyEmailButton := true, verifications := s.verifications.eraseIdx i }
          (if isSuccessful then "Verification email sent to " ++ email else
            "Failed to send verification email.")
  | .onDataChange i adminCode =>
      s.auth.adminReads[i]?.map fun r =>
        match createAccountAdmin r.text adminCode with
        | some flag => { s with auth := s.auth.storeAdmin i r.uid flag }
        | none => s.crash
  | .onStart =>
      if s.started = false ∧ s.finished = false then
        some ({ s with started := true }.updateUI s.auth.currentUser)
      else none
  | .onStop =>
      if s.started then
        some { s.hideProgressBar with
          started := false
          verifications := []
          auth := s.auth.removeListeners }
      else none

/-! ### What an action does -/

section UpdateUI

variable (s : EmailPasswordActivity) (user : Option FirebaseUser)

@[simp] theorem auth_updateUI : (s.updateUI user).auth = s.auth := by cases user <;> rfl

@[simp] theorem mProgressBar_updateUI : (s.updateUI user).mProgressBar = false := by
  cases user <;> rfl

@[simp] theorem emailPasswordButtons_updateUI :
    (s.updateUI user).emailPasswordButtons = user.isNone := by
  cases user <;> rfl

@[simp] theorem signedInButtons_updateUI : (s.updateUI user).signedInButtons = user.isSome := by
  cases user <;> rfl

@[simp] theorem started_updateUI : (s.updateUI user).started = s.started := by cases user <;> rfl

@[simp] theorem crashed_updateUI : (s.updateUI user).crashed = s.crashed := by cases user <;> rfl

end UpdateUI

section OnFailed

variable (s : EmailPasswordActivity) (kind : RequestKind)

@[simp] theorem auth_onFailed : (s.onFailed kind).auth = s.auth := by cases kind <;> rfl

@[simp] theorem mProgressBar_onFailed : (s.onFailed kind).mProgressBar = false := by
  cases kind <;> rfl

@[simp] theorem emailPasswordButtons_onFailed : (s.onFailed kind).emailPasswordButtons = true := by
  cases kind <;> rfl

@[simp] theorem signedInButtons_onFailed : (s.onFailed kind).signedInButtons = false := by
  cases kind <;> rfl

@[simp] theorem started_onFailed : (s.onFailed kind).started = s.started := by cases kind <;> rfl

end OnFailed

/-- What an action does to an activity whose app has not crashed. -/
inductive Trans (s : EmailPasswordActivity) : Action → EmailPasswordActivity → Prop
  | edit {field : EditText} (text : String) (hresumed : s.Resumed) (hedit : s.Editable field) :
      Trans s (.edit field text) (s.edit text field)
  | invalidAccount (hresumed : s.Resumed) (hform : s.emailPasswordButtons = true)
      (hvalid : ¬ s.Valid) : Trans s (.onClick .emailCreateAccountButton) s.validateForm
  | shortPassword (hresumed : s.Resumed) (hform : s.emailPasswordButtons = true)
      (hvalid : s.Valid) (hshort : javaLength s.mPasswordField < 6) :
      Trans s (.onClick .emailCreateAccountButton)
        (s.validateForm.showProgressBar.makeText "Password needs to be at least 6 characters")
  | createAccount (hresumed : s.Resumed) (hform : s.emailPasswordButtons = true)
      (hvalid : s.Valid) (hlong : ¬ javaLength s.mPasswordField < 6) :
      Trans s (.onClick .emailCreateAccountButton)
        { s.validateForm.showProgressBar with auth := s.auth.send (s.request .createUser) }
  | invalidSignIn (hresumed : s.Resumed) (hform : s.emailPasswordButtons = true)
      (hvalid : ¬ s.Valid) : Trans s (.onClick .emailSignInButton) s.validateForm
  | signIn (hresumed : s.Resumed) (hform : s.emailPasswordButtons = true) (hvalid : s.Valid) :
      Trans s (.onClick .emailSignInButton)
        { s.validateForm.showProgressBar with auth := s.auth.send (s.request .signIn) }
  | signOut (hresumed : s.Resumed) (hin : s.signedInButtons = true) :
      Trans s (.onClick .signOutButton) s.signOut
  | verify {user : FirebaseUser} (hresumed : s.Resumed) (hin : s.signedInButtons = true)
      (huser : s.auth.currentUser = some user) : Trans s (.onClick .verifyEmailButton)
        { s with verifyEmailButton := false, verifications := s.verifications ++ [user.email] }
  | verifyNobody (hresumed : s.Resumed) (hin : s.signedInButtons = true)
      (hnone : s.auth.currentUser = none) : Trans s (.onClick .verifyEmailButton) s.crash
  | respond {i : ℕ} {a : Answer} {auth : Firebase} (h : s.auth.respond i a = some auth) :
      Trans s (.respond i a) { s with auth }
  | failed {c : Callback} {cs : List Callback} (hcs : s.auth.callbacks = c :: cs)
      (hc : c.user = none) :
      Trans s .onComplete (onFailed { s with auth := s.auth.next } c.request.kind)
  | created {c : Callback} {cs : List Callback} {user : FirebaseUser} {writes : List SignUpWrite}
      (hcs : s.auth.callbacks = c :: cs) (hc : c.user.isSome)
      (hkind : c.request.kind = .createUser) (huser : s.auth.currentUser = some user)
      (hwrites : StudyHours.createAccount s.mAdminCode s.mDisplayName = some writes) :
      Trans s .onComplete ((updateUI
        { s with auth := s.auth.next.storeRecord user.uid s.mAdminCode writes }
        (some user)).finish).hideProgressBar
  | unreadable {c : Callback} {cs : List Callback} (hcs : s.auth.callbacks = c :: cs)
      (hc : c.user.isSome) (hkind : c.request.kind = .createUser)
      (hnone : s.auth.currentUser = none ∨
        StudyHours.createAccount s.mAdminCode s.mDisplayName = none) :
      Trans s .onComplete (crash { s with auth := s.auth.next })
  | signedIn {c : Callback} {cs : List Callback} (hcs : s.auth.callbacks = c :: cs)
      (hc : c.user.isSome) (hkind : c.request.kind = .signIn) : Trans s .onComplete
        ((updateUI { s with auth := s.auth.next } s.auth.currentUser).finish).hideProgressBar
  | onVerification {i : ℕ} {email : String} (isSuccessful : Bool)
      (h : s.verifications[i]? = some email) : Trans s (.onVerification i isSuccessful)
        (makeText { s with verifyEmailButton := true, verifications := s.verifications.eraseIdx i }
          (if isSuccessful then "Verification email sent to " ++ email else
            "Failed to send verification email."))
  | onDataChange {i : ℕ} {r : AdminRead} {adminCode : Option ℤ} {flag : Bool}
      (hr : s.auth.adminReads[i]? = some r)
      (hflag : createAccountAdmin r.text adminCode = some flag) :
      Trans s (.onDataChange i adminCode) { s with auth := s.auth.storeAdmin i r.uid flag }
  | noAdminCode {i : ℕ} {r : AdminRead} {adminCode : Option ℤ}
      (hr : s.auth.adminReads[i]? = some r)
      (hnone : createAccountAdmin r.text adminCode = none) :
      Trans s (.onDataChange i adminCode) s.crash
  | onStart (hstarted : s.started = false) (hfinished : s.finished = false) :
      Trans s .onStart ({ s with started := true }.updateUI s.auth.currentUser)
  | onStop (hstarted : s.started = true) : Trans s .onStop
      { s.hideProgressBar with
        started := false
        verifications := []
        auth := s.auth.removeListeners }

variable {s t : EmailPasswordActivity} {a : Action}

/-- What a tap on a button does. -/
theorem trans_onClick {button : EmailPasswordButton} (hresumed : s.Resumed)
    (hclick : s.Clickable button) : Trans s (.onClick button) (s.onClick button) := by
  cases button with
  | emailCreateAccountButton =>
      rw [onClick, createAccount]
      split_ifs with hvalid hshort
      · exact .shortPassword hresumed hclick hvalid hshort
      · exact .createAccount hresumed hclick hvalid hshort
      · exact .invalidAccount hresumed hclick hvalid
  | emailSignInButton =>
      rw [onClick, signIn]
      split_ifs with hvalid
      · exact .signIn hresumed hclick hvalid
      · exact .invalidSignIn hresumed hclick hvalid
  | signOutButton => exact .signOut hresumed hclick
  | verifyEmailButton =>
      rw [onClick, sendEmailVerification]
      split
      · exact .verifyNobody hresumed hclick.1 ‹_›
      · exact .verify hresumed hclick.1 ‹_›

/-- What the first handler of the queue does. -/
theorem trans_complete {c : Callback} {cs : List Callback} (hcs : s.auth.callbacks = c :: cs) :
    Trans s .onComplete (complete { s with auth := s.auth.next } c) := by
  rw [complete]
  cases hc : c.user with
  | none => exact .failed hcs hc
  | some u =>
      have hsome : c.user.isSome := by rw [hc]; rfl
      cases hkind : c.request.kind with
      | createUser =>
          dsimp only
          rw [onCreated]
          split
          · exact .created hcs hsome hkind ‹_› ‹_›
          · next hnone =>
              refine .unreadable hcs hsome hkind ?_
              by_contra hsomes
              rw [not_or] at hsomes
              obtain ⟨user, huser⟩ := Option.ne_none_iff_exists'.1 hsomes.1
              obtain ⟨writes, hwrites⟩ := Option.ne_none_iff_exists'.1 hsomes.2
              exact hnone user writes huser hwrites
      | signIn => exact .signedIn hcs hsome hkind

/-- **Inversion of an action.** -/
theorem trans_of_step (h : step s a = some t) : s.crashed = false ∧ Trans s a t := by
  have hcrashed : s.crashed = false := by
    by_contra hcrashed
    simp [step, hcrashed] at h
  refine ⟨hcrashed, ?_⟩
  rw [step.eq_def, if_neg (by simp [hcrashed])] at h
  cases a with
  | edit field text =>
      dsimp only at h
      split_ifs at h with hpossible
      cases h
      exact .edit text hpossible.1 hpossible.2
  | onClick button =>
      dsimp only at h
      split_ifs at h with hpossible
      cases h
      exact trans_onClick hpossible.1 hpossible.2
  | respond i a =>
      obtain ⟨auth, hauth, rfl⟩ := Option.map_eq_some_iff.1 h
      exact .respond hauth
  | onComplete =>
      dsimp only at h
      split at h
      · next c cs hcs =>
          cases h
          exact trans_complete hcs
      · cases h
  | onVerification i isSuccessful =>
      obtain ⟨email, hemail, rfl⟩ := Option.map_eq_some_iff.1 h
      exact .onVerification isSuccessful hemail
  | onDataChange i adminCode =>
      obtain ⟨r, hr, rfl⟩ := Option.map_eq_some_iff.1 h
      split
      · exact .onDataChange hr ‹_›
      · exact .noAdminCode hr ‹_›
  | onStart =>
      dsimp only at h
      split_ifs at h with hpossible
      cases h
      exact .onStart hpossible.1 hpossible.2
  | onStop =>
      dsimp only at h
      split_ifs at h with hpossible
      cases h
      exact .onStop hpossible

/-- What an action does to the service. -/
theorem change_of_trans (hst : Trans s a t) : Firebase.Change s.auth t.auth := by
  cases hst with
  | @edit field text hresumed hedit => cases field <;> exact .same
  | createAccount hresumed hform hvalid hlong => exact .send _
  | signIn hresumed hform hvalid => exact .send _
  | signOut hresumed hin => exact .signOut
  | respond hauth => exact .respond hauth
  | @failed c cs hcs hc =>
      rw [auth_onFailed]
      exact .next hcs (Callback.created?_of_failed hc)
  | @created c cs user writes hcs hc hkind huser hwrites =>
      obtain ⟨uid, hcreated⟩ := Callback.exists_created? hkind hc
      have hwrites' : onComplete s.mAdminCode s.mDisplayName .android = some writes := hwrites
      exact .storeRecord hcs hcreated huser hwrites'
  | @signedIn c cs hcs hc hkind =>
      simp only [finish, hideProgressBar, auth_updateUI]
      exact .next hcs (Callback.created?_of_signIn hkind)
  | verifyNobody hresumed hin hnone | noAdminCode hr hnone => exact .crash
  | unreadable hcs hc hkind hnone => exact .crashNext
  | onDataChange hr hflag => exact .storeAdmin hr _
  | onStart hstarted hfinished =>
      rw [auth_updateUI]
      exact .same
  | onStop hstarted => exact .removeListeners
  | invalidAccount hresumed hform hvalid | invalidSignIn hresumed hform hvalid
  | shortPassword hresumed hform hvalid hshort | verify hresumed hin huser
  | onVerification isSuccessful hmail => exact .same

/-! ### What is shown and what is under way -/

/-- The form or the other buttons are visible; while these are, or the activity is stopped, no
handler waits or will wait; and somebody is signed in whom a handler that waits has been told of. -/
structure Inv (s : EmailPasswordActivity) : Prop where
  buttons : s.signedInButtons = !s.emailPasswordButtons
  signedIn : s.Resumed → s.signedInButtons = true → s.auth.currentUser.isSome ∧ s.auth.Deaf
  stopped : s.started = false → s.auth.Deaf
  current : s.auth.AwaitsUser → s.auth.currentUser.isSome
  readable : ∀ r ∈ s.auth.adminReads, r.text = "" ∨ (longValueOf r.text).isSome

theorem inv_onCreate {auth : Firebase} (hdeaf : auth.Deaf) (hreads : auth.adminReads = []) :
    (onCreate auth).Inv where
  buttons := rfl
  signedIn _ hin := by cases hin
  stopped _ := hdeaf
  current hwaits := absurd hwaits hdeaf.not_awaitsUser
  readable r hr := by
    rw [show (onCreate auth).auth.adminReads = [] from hreads] at hr
    cases hr

/-- While the form is shown, a request can be sent. -/
theorem Inv.send (h : s.Inv) (hform : s.emailPasswordButtons = true) (hresumed : s.Resumed)
    (r : Request) : Inv { s.validateForm.showProgressBar with auth := s.auth.send r } where
  buttons := h.buttons
  signedIn _ hin := by
    have hin' : s.signedInButtons = true := hin
    rw [h.buttons, hform] at hin'
    cases hin'
  stopped hstopped := by cases hresumed.1.symm.trans hstopped
  current := h.current
  readable := h.readable

/-- While a handler waits, the activity has not been stopped. -/
theorem Inv.started (h : s.Inv) {c : Callback} {cs : List Callback}
    (hcs : s.auth.callbacks = c :: cs) : s.started = true := by
  by_contra hstopped
  rw [(h.stopped (by simpa using hstopped)).callbacks] at hcs
  cases hcs

/-- **Every action keeps the invariant**, unless the app crashes. -/
theorem Inv.trans (h : s.Inv) (hst : Trans s a t) : t.crashed = true ∨ t.Inv := by
  cases hst with
  | @edit field text hresumed hedit =>
      cases field <;> exact .inr ⟨h.buttons, h.signedIn, h.stopped, h.current, h.readable⟩
  | invalidAccount hresumed hform hvalid | invalidSignIn hresumed hform hvalid
  | shortPassword hresumed hform hvalid hshort =>
      exact .inr ⟨h.buttons, h.signedIn, h.stopped, h.current, h.readable⟩
  | createAccount hresumed hform hvalid hlong => exact .inr (h.send hform hresumed _)
  | signIn hresumed hform hvalid => exact .inr (h.send hform hresumed _)
  | signOut hresumed hin =>
      have hdeaf : s.auth.signOut.Deaf := (h.signedIn hresumed hin).2.signOut
      refine .inr ⟨rfl, nofun, fun _ => hdeaf, fun hwaits => ?_, h.readable⟩
      exact absurd hwaits hdeaf.not_awaitsUser
  | verify hresumed hin huser =>
      exact .inr ⟨h.buttons, h.signedIn, h.stopped, h.current, h.readable⟩
  | verifyNobody hresumed hin hnone => exact .inl rfl
  | @respond i a auth hauth =>
      obtain ⟨r, -, -, heq⟩ := Firebase.respond_eq_some hauth
      refine .inr ⟨h.buttons, fun hresumed hin => ?_,
        fun hstopped => (Firebase.deaf_respond_iff hauth).2 (h.stopped hstopped),
        Firebase.AwaitsUser.isSome_respond h.current hauth, ?_⟩
      · obtain ⟨hsome, hdeaf⟩ := h.signedIn hresumed hin
        exact ⟨Firebase.isSome_currentUser_respond hsome hauth,
          (Firebase.deaf_respond_iff hauth).2 hdeaf⟩
      · rw [heq]
        exact h.readable
  | @failed c cs hcs hc =>
      refine .inr ⟨by simp, fun _ hin => ?_, fun hstopped => ?_, fun hwaits => ?_, ?_⟩
      · simp at hin
      · rw [started_onFailed] at hstopped
        cases (h.started hcs).symm.trans hstopped
      · rw [auth_onFailed] at hwaits ⊢
        exact h.current hwaits.of_next
      · rw [auth_onFailed]
        exact h.readable
  | created hcs hc hkind huser hwrites =>
      refine .inr ⟨rfl, fun hresumed => ?_, fun hstopped => ?_, fun _ => ?_, fun r hr => ?_⟩
      · cases hresumed.2
      · cases (h.started hcs).symm.trans hstopped
      · exact Option.isSome_iff_exists.2 ⟨_, huser⟩
      · rcases List.mem_append.1 hr with hr | hr
        · exact h.readable r hr
        · rw [List.mem_singleton.1 hr, ← isSome_createAccount _ s.mDisplayName, hwrites]
          rfl
  | unreadable hcs hc hkind hnone => exact .inl rfl
  | @signedIn c cs hcs hc hkind =>
      refine .inr ⟨?_, fun hresumed => ?_, fun hstopped => ?_, fun hwaits => ?_, ?_⟩
      · simp [finish, hideProgressBar]
      · cases hresumed.2
      · simp only [finish, hideProgressBar, started_updateUI] at hstopped
        cases (h.started hcs).symm.trans hstopped
      · simp only [finish, hideProgressBar, auth_updateUI] at hwaits ⊢
        exact h.current hwaits.of_next
      · simp only [finish, hideProgressBar, auth_updateUI]
        exact h.readable
  | onVerification isSuccessful hmail =>
      exact .inr ⟨h.buttons, h.signedIn, h.stopped, h.current, h.readable⟩
  | onDataChange hr hflag =>
      refine .inr ⟨h.buttons, fun hresumed hin => ?_,
        fun hstopped => (h.stopped hstopped).storeAdmin _ _ _, h.current,
        fun r' hr' => h.readable r' (List.mem_of_mem_eraseIdx hr')⟩
      obtain ⟨hsome, hdeaf⟩ := h.signedIn hresumed hin
      exact ⟨hsome, hdeaf.storeAdmin _ _ _⟩
  | noAdminCode hr hnone => exact .inl rfl
  | onStart hstarted hfinished =>
      refine .inr ⟨by simp, fun _ hin => ?_, fun hstopped => ?_, ?_, ?_⟩
      · rw [signedInButtons_updateUI] at hin
        rw [auth_updateUI]
        exact ⟨hin, h.stopped hstarted⟩
      · rw [started_updateUI] at hstopped
        cases hstopped
      · rw [auth_updateUI]
        exact h.current
      · rw [auth_updateUI]
        exact h.readable
  | onStop hstarted =>
      have hdeaf : s.auth.removeListeners.Deaf := Firebase.deaf_removeListeners _
      refine .inr ⟨h.buttons, fun hresumed => ?_, fun _ => hdeaf, fun hwaits => ?_, h.readable⟩
      · cases hresumed.1
      · exact absurd hwaits hdeaf.not_awaitsUser

/-- The invariant in every state of a run. -/
theorem inv_step (h : s.crashed = true ∨ s.Inv) (hst : step s a = some t) :
    s.Inv ∧ (t.crashed = true ∨ t.Inv) := by
  obtain ⟨hcrashed, htrans⟩ := trans_of_step hst
  have hinv := h.resolve_left (by simp [hcrashed])
  exact ⟨hinv, hinv.trans htrans⟩

/-! ### Exceptions -/

/-- No exception ends the app. -/
def NeverCrashes (s : EmailPasswordActivity) (a : Action) : Prop :=
  ∀ t ∈ step s a, t.crashed = false

/-- The text of the admin-code field is empty or a number when the handler of a sign-up is run, and
the entry `adminCode` exists when it is read. -/
def ReadsCode (s : EmailPasswordActivity) : Action → Prop
  | .onComplete => ∀ c ∈ s.auth.callbacks.head?, c.created?.isSome →
      s.mAdminCode = "" ∨ (longValueOf s.mAdminCode).isSome
  | .onDataChange _ adminCode => adminCode.isSome
  | _ => True

instance (s : EmailPasswordActivity) (a : Action) : Decidable (s.ReadsCode a) := by
  cases a <;> dsimp only [ReadsCode] <;> infer_instance

/-- Where the text could be read, only the entry can be missing. -/
theorem createAccountAdmin_eq_none_iff {text : String} {adminCode : Option ℤ}
    (h : text = "" ∨ (longValueOf text).isSome) :
    createAccountAdmin text adminCode = none ↔ adminCode = none := by
  obtain ⟨temp, htemp⟩ : ∃ temp, (if text = "" then some 0 else longValueOf text) = some temp := by
    split_ifs with htext
    · exact ⟨0, rfl⟩
    · exact Option.isSome_iff_exists.1 (h.resolve_left htext)
  rw [createAccountAdmin, htemp, Option.bind_some, Option.map_eq_none_iff]

theorem crashed_eq_false_iff (h : s.Inv) (hfalse : s.crashed = false) (hst : Trans s a t) :
    t.crashed = false ↔ s.ReadsCode a := by
  cases hst with
  | @edit field text hresumed hedit => cases field <;> exact iff_of_true hfalse trivial
  | verifyNobody hresumed hin hnone =>
      have hsome := (h.signedIn hresumed hin).1
      rw [hnone] at hsome
      cases hsome
  | @failed c cs hcs hc =>
      refine iff_of_true ?_ (by simp [ReadsCode, hcs, Callback.created?_of_failed hc])
      cases c.request.kind <;> exact hfalse
  | created hcs hc hkind huser hwrites =>
      refine iff_of_true hfalse fun _ _ _ => ?_
      rw [← isSome_createAccount _ s.mDisplayName, hwrites]
      rfl
  | @unreadable c cs hcs hc hkind hnone =>
      -- the user that the handler has been told of is still there
      have hsome := h.current ⟨c, by rw [hcs]; exact List.mem_cons_self, hc⟩
      obtain ⟨uid, huid⟩ := Callback.exists_created? hkind hc
      refine iff_of_false (by simp [crash]) fun hreads => ?_
      rw [ReadsCode, hcs] at hreads
      have hread := (isSome_createAccount _ s.mDisplayName).2 (hreads c rfl (by rw [huid]; rfl))
      rcases hnone with hnone | hnone
      · rw [hnone] at hsome
        cases hsome
      · rw [hnone] at hread
        cases hread
  | @signedIn c cs hcs hc hkind =>
      refine iff_of_true (by simpa [finish, hideProgressBar] using hfalse) ?_
      simp [ReadsCode, hcs, Callback.created?_of_signIn hkind]
  | @onDataChange i r adminCode flag hr hflag =>
      refine iff_of_true hfalse ?_
      rw [ReadsCode, Option.isSome_iff_ne_none, ne_eq, ← createAccountAdmin_eq_none_iff
        (h.readable r (List.mem_of_getElem? hr)), hflag]
      simp
  | @noAdminCode i r adminCode hr hnone =>
      refine iff_of_false (by simp [crash]) ?_
      rw [createAccountAdmin_eq_none_iff (h.readable r (List.mem_of_getElem? hr))] at hnone
      simp [ReadsCode, hnone]
  | onStart hstarted hfinished => exact iff_of_true (by simpa using hfalse) trivial
  | _ => exact iff_of_true hfalse trivial

/-- **An exception ends the app exactly where an admin code cannot be read**: along any run, no
other text, answer or order of events does it, and the current user is never missed. -/
theorem neverCrashes_iff {auth : Firebase} {acts : List Action} (hdeaf : auth.Deaf)
    (hreads : auth.adminReads = []) (hrun : Execution.run step (onCreate auth) acts = some t) :
    Execution.Along step NeverCrashes (onCreate auth) acts ↔
      Execution.Along step ReadsCode (onCreate auth) acts := by
  refine Execution.along_after_iff (P := fun t => t.crashed = false) ?_
    (fun s a t hs _ hst => (inv_step hs hst).2) (.inr (inv_onCreate hdeaf hreads)) hrun
  intro s a t hs hst
  obtain ⟨hfalse, htrans⟩ := trans_of_step hst
  exact crashed_eq_false_iff (inv_step hs hst).1 hfalse htrans

/-- The request to create an account is answered while the activity is stopped, and the user signs
out and in again. -/
def stopWhileCreating : List Action :=
  [.onStart, .edit .mEmailField "c@x", .edit .mPasswordField "secret",
    .onClick .emailCreateAccountButton, .onStop, .respond 0 (.success ⟨"c", "c@x", false⟩),
    .onStart, .onClick .verifyEmailButton, .onVerification 0 true, .onClick .signOutButton,
    .onClick .emailSignInButton, .respond 0 (.success ⟨"c", "c@x", false⟩), .onComplete]

theorem neverCrashes_stopWhileCreating :
    Execution.Along step NeverCrashes (onCreate .empty) stopWhileCreating :=
  (neverCrashes_iff (by decide) rfl (Option.eq_some_of_isSome (by decide))).2 (by decide)

/-! ### The progress bar -/

/-- A handler waits, or is left for a request that has not been answered. -/
def InProgress (s : EmailPasswordActivity) : Prop := ¬ s.auth.Deaf

instance (s : EmailPasswordActivity) : Decidable s.InProgress := by
  unfold InProgress
  infer_instance

/-- The progress bar is visible only while something is in progress. -/
def ProgressRight (s : EmailPasswordActivity) : Prop :=
  s.crashed = false → s.mProgressBar = true → s.InProgress

/-- The progress bar is right after the action. -/
def ShowsProgress (s : EmailPasswordActivity) (a : Action) : Prop :=
  ∀ t ∈ step s a, t.ProgressRight

/-- No password that is too short is tried while nothing is in progress. -/
def LongEnough (s : EmailPasswordActivity) : Action → Prop
  | .onClick .emailCreateAccountButton =>
      s.Valid → javaLength s.mPasswordField < 6 → s.InProgress
  | _ => True

instance (s : EmailPasswordActivity) (a : Action) : Decidable (s.LongEnough a) := by
  unfold LongEnough
  split <;> infer_instance

/-- Something is in progress when a request has been sent. -/
theorem inProgress_send (r : Request) (hr : r.listening = true)
    (hauth : t.auth = s.auth.send r) : t.InProgress := by
  intro hdeaf
  rw [hauth] at hdeaf
  have hfalse := hdeaf.requests r (List.mem_append_right _ List.mem_cons_self)
  rw [hr] at hfalse
  cases hfalse

theorem progressRight_iff_longEnough (h : s.ProgressRight) (hfalse : s.crashed = false)
    (hst : Trans s a t) : t.ProgressRight ↔ s.LongEnough a := by
  cases hst with
  | @edit field text hresumed hedit => cases field <;> exact iff_of_true h trivial
  | invalidAccount hresumed hform hvalid =>
      exact iff_of_true h fun hvalid' => absurd hvalid' hvalid
  | shortPassword hresumed hform hvalid hshort =>
      constructor
      · exact fun hright _ _ => hright hfalse rfl
      · exact fun hlong _ _ => hlong hvalid hshort
  | createAccount hresumed hform hvalid hlong =>
      exact iff_of_true (fun _ _ => inProgress_send (s := s) _ rfl rfl)
        fun _ hshort => absurd hshort hlong
  | signIn hresumed hform hvalid =>
      exact iff_of_true (fun _ _ => inProgress_send (s := s) _ rfl rfl) trivial
  | respond hauth =>
      refine iff_of_true (fun _ hbar hdeaf => ?_) trivial
      exact h hfalse hbar ((Firebase.deaf_respond_iff hauth).1 hdeaf)
  | failed hcs hc => exact iff_of_true (fun _ hbar => by simp at hbar) trivial
  | verifyNobody hresumed hin hnone | unreadable hcs hc hkind hnone | noAdminCode hr hnone =>
      exact iff_of_true (fun hcrashed => by simp [crash] at hcrashed) trivial
  | onDataChange hr hflag =>
      refine iff_of_true (fun _ hbar hdeaf => ?_) trivial
      exact h hfalse hbar ⟨hdeaf.callbacks, hdeaf.requests⟩
  | onStart hstarted hfinished => exact iff_of_true (fun _ hbar => by simp at hbar) trivial
  | signOut hresumed hin | created hcs hc hkind huser hwrites | signedIn hcs hc hkind
  | onStop hstarted => exact iff_of_true (fun _ hbar => by cases hbar) trivial
  | invalidSignIn hresumed hform hvalid | verify hresumed hin huser
  | onVerification isSuccessful hmail => exact iff_of_true h trivial

/-- **The progress bar is right along a run exactly if no password that is too short is tried while
nothing is in progress**: then it is shown, and nothing hides it. -/
theorem showsProgress_iff {auth : Firebase} {acts : List Action}
    (hrun : Execution.run step (onCreate auth) acts = some t) :
    Execution.Along step ShowsProgress (onCreate auth) acts ↔
      Execution.Along step LongEnough (onCreate auth) acts := by
  refine Execution.along_after_iff ?_ (fun _ _ _ _ ht _ => ht) (fun _ hbar => by cases hbar) hrun
  intro s a t hs hst
  obtain ⟨hfalse, htrans⟩ := trans_of_step hst
  exact progressRight_iff_longEnough hs hfalse htrans

theorem showsProgress_stopWhileCreating :
    Execution.Along step ShowsProgress (onCreate .empty) stopWhileCreating :=
  (showsProgress_iff (Option.eq_some_of_isSome (by decide))).2 (by decide)

/-! ### Records -/

/-- No account is left without a record after the action. -/
def StoresRecords (s : EmailPasswordActivity) (a : Action) : Prop :=
  ∀ t ∈ step s a, t.auth.HasRecords

/-- A handler is left for every account that is created; the handler of a sign-up finds the user
that it was told of, and can read the admin code; and no handler of a sign-up waits when the
activity is stopped or the entry `adminCode` is found missing. -/
def Stores (s : EmailPasswordActivity) : Action → Prop
  | .respond i a => s.auth.Heard i a
  | .onComplete => ∀ c ∈ s.auth.callbacks.head?, ∀ uid ∈ c.created?,
      s.auth.currentUser.map FirebaseUser.uid = some uid ∧
        (s.mAdminCode = "" ∨ (longValueOf s.mAdminCode).isSome)
  | .onDataChange _ adminCode => adminCode.isSome ∨ s.auth.awaited = []
  | .onStop => s.auth.awaited = []
  | _ => True

instance (s : EmailPasswordActivity) (a : Action) : Decidable (s.Stores a) := by
  cases a <;> dsimp only [Stores] <;> infer_instance

theorem hasRecords_iff_stores (hinv : s.Inv) (hs : s.auth.Sound) (h : s.auth.HasRecords)
    (hst : Trans s a t) : t.auth.HasRecords ↔ s.Stores a := by
  cases hst with
  | @edit field text hresumed hedit => cases field <;> exact iff_of_true h trivial
  | createAccount hresumed hform hvalid hlong =>
      exact iff_of_true ((Firebase.alike_send _ _).hasRecords_iff.2 h) trivial
  | signIn hresumed hform hvalid =>
      exact iff_of_true ((Firebase.alike_send _ _).hasRecords_iff.2 h) trivial
  | signOut hresumed hin =>
      exact iff_of_true ((Firebase.alike_signOut _).hasRecords_iff.2 h) trivial
  | verifyNobody hresumed hin hnone =>
      have hsome := (hinv.signedIn hresumed hin).1
      rw [hnone] at hsome
      cases hsome
  | respond hauth => exact Firebase.hasRecords_respond_iff hs h hauth
  | @failed c cs hcs hc =>
      have hcreated := Callback.created?_of_failed hc
      refine iff_of_true ?_ (by simp [Stores, hcs, hcreated])
      rw [auth_onFailed]
      exact (Firebase.alike_next hcs hcreated).hasRecords_iff.2 h
  | @created c cs user writes hcs hc hkind huser hwrites =>
      obtain ⟨uid, hcreated⟩ := Callback.exists_created? hkind hc
      have hread : s.mAdminCode = "" ∨ (longValueOf s.mAdminCode).isSome := by
        rw [← isSome_createAccount _ s.mDisplayName, hwrites]
        rfl
      have hwrites' : onComplete s.mAdminCode s.mDisplayName .android = some writes := hwrites
      refine (Firebase.hasRecords_storeRecord_iff hs h hcs hcreated hwrites' _).trans ?_
      simp [Stores, hcs, hcreated, huser, hread]
  | @unreadable c cs hcs hc hkind hnone =>
      obtain ⟨uid, hcreated⟩ := Callback.exists_created? hkind hc
      have hdrop : s.auth.next.crash.HasRecords ↔ s.auth.awaited = [] :=
        Firebase.hasRecords_drop_iff hs h rfl rfl rfl
      refine iff_of_false (fun hall => ?_) fun hstores => ?_
      · have hempty := hdrop.1 hall
        rw [Firebase.awaited_next hcs hcreated] at hempty
        cases hempty
      · rw [Stores, hcs] at hstores
        obtain ⟨hown, hread⟩ := hstores c rfl uid hcreated
        rcases hnone with hnone | hnone
        · rw [hnone] at hown
          cases hown
        · rw [← isSome_createAccount _ s.mDisplayName, hnone] at hread
          cases hread
  | @signedIn c cs hcs hc hkind =>
      have hcreated := Callback.created?_of_signIn hkind
      refine iff_of_true ?_ (by simp [Stores, hcs, hcreated])
      simp only [finish, hideProgressBar, auth_updateUI]
      exact (Firebase.alike_next hcs hcreated).hasRecords_iff.2 h
  | @onDataChange i r adminCode flag hr hflag =>
      refine iff_of_true ((Firebase.alike_storeAdmin _ _ _ _).hasRecords_iff.2 h) (.inl ?_)
      rw [Option.isSome_iff_ne_none, ne_eq, ← createAccountAdmin_eq_none_iff
        (hinv.readable r (List.mem_of_getElem? hr)), hflag]
      simp
  | @noAdminCode i r adminCode hr hnone =>
      rw [createAccountAdmin_eq_none_iff (hinv.readable r (List.mem_of_getElem? hr))] at hnone
      have hdrop : s.auth.crash.HasRecords ↔ s.auth.awaited = [] :=
        Firebase.hasRecords_drop_iff hs h rfl rfl rfl
      refine hdrop.trans ?_
      simp [Stores, hnone]
  | onStart hstarted hfinished => exact iff_of_true (by simpa using h) trivial
  | onStop hstarted =>
      have hdrop : s.auth.removeListeners.HasRecords ↔ s.auth.awaited = [] :=
        Firebase.hasRecords_drop_iff hs h rfl rfl rfl
      exact hdrop
  | invalidAccount hresumed hform hvalid | invalidSignIn hresumed hform hvalid
  | shortPassword hresumed hform hvalid hshort | verify hresumed hin huser
  | onVerification isSuccessful hmail => exact iff_of_true h trivial

/-- **Every account has its record, or a handler that waits is going to store it, throughout a run
exactly if a handler is left for every account that is created, finds its own user, can read the
admin code, and is run before the activity is stopped.** -/
theorem storesRecords_iff {auth : Firebase} {acts : List Action} (hdeaf : auth.Deaf)
    (hreads : auth.adminReads = []) (hsound : auth.Sound) (hrecords : auth.HasRecords)
    (hrun : Execution.run step (onCreate auth) acts = some t) :
    Execution.Along step StoresRecords (onCreate auth) acts ↔
      Execution.Along step Stores (onCreate auth) acts := by
  have hiff : ∀ s a t, ((s.crashed = true ∨ s.Inv) ∧ s.auth.Sound ∧ s.auth.HasRecords) →
      step s a = some t → (t.auth.HasRecords ↔ s.Stores a) := by
    rintro s a t ⟨hinv, hs, h⟩ hst
    exact hasRecords_iff_stores (inv_step hinv hst).1 hs h (trans_of_step hst).2
  refine Execution.along_after_iff hiff ?_ ⟨.inr (inv_onCreate hdeaf hreads), hsound, hrecords⟩ hrun
  rintro s a t ⟨hinv, hs, h⟩ ht hst
  exact ⟨(inv_step hinv hst).2,
    hs.change h (change_of_trans (trans_of_step hst).2) ht, ht⟩

/-- An account is created, and the admin code is read after the main activity has been started. -/
def oneSignUp : List Action :=
  [.onStart, .edit .mEmailField "c@x", .edit .mPasswordField "secret", .edit .mDisplayName "C",
    .onClick .emailCreateAccountButton, .respond 0 (.success ⟨"c", "c@x", false⟩), .onComplete,
    .onStop, .onDataChange 0 (some 7)]

theorem sound_empty : Firebase.empty.Sound := ⟨List.nodup_nil, nofun, fun _ _ => rfl⟩

theorem storesRecords_oneSignUp :
    Execution.Along step StoresRecords (onCreate .empty) oneSignUp :=
  (storesRecords_iff (by decide) rfl sound_empty (by decide)
    (Option.eq_some_of_isSome (by decide))).2 (by decide)

/-- If the activity is stopped before the answer comes, the account is left without a record. -/
example : ¬ Execution.Along step Stores (onCreate .empty) stopWhileCreating := by decide

/-! ### One request at a time -/

/-- A request is sent when none is under way. -/
def OneAtATime (s : EmailPasswordActivity) : Action → Prop
  | .onClick .emailCreateAccountButton | .onClick .emailSignInButton =>
      s.auth.requests = [] ∧ s.auth.callbacks = []
  | _ => True

instance (s : EmailPasswordActivity) (a : Action) : Decidable (s.OneAtATime a) := by
  unfold OneAtATime
  split <;> infer_instance

theorem single_trans (hinv : s.Inv) (h : s.auth.Single) (hst : Trans s a t)
    (hone : s.OneAtATime a) : t.auth.Single := by
  cases hst with
  | @edit field text hresumed hedit => cases field <;> exact h
  | createAccount hresumed hform hvalid hlong => exact .send hone.1 hone.2 _
  | signIn hresumed hform hvalid => exact .send hone.1 hone.2 _
  | signOut hresumed hin => exact h.signOut (hinv.signedIn hresumed hin).2.callbacks
  | respond hauth => exact h.respond hauth
  | failed hcs hc =>
      rw [auth_onFailed]
      exact h.next
  | created hcs hc hkind huser hwrites => exact ⟨h.next.length, h.next.current⟩
  | signedIn hcs hc hkind =>
      simp only [finish, hideProgressBar, auth_updateUI]
      exact h.next
  | verifyNobody hresumed hin hnone | unreadable hcs hc hkind hnone | noAdminCode hr hnone =>
      exact .crash _
  | onDataChange hr hflag => exact ⟨h.length, h.current⟩
  | onStart hstarted hfinished => simpa using h
  | onStop hstarted => exact h.removeListeners
  | invalidAccount hresumed hform hvalid | invalidSignIn hresumed hform hvalid
  | shortPassword hresumed hform hvalid hshort | verify hresumed hin huser
  | onVerification isSuccessful hmail => exact h

/-- **One request at a time leaves the accounts that there are alone**: along a run in which a
request is sent only when none is under way, however often the activity is stopped and started, the
record and the flag of every account that there was at first are as they were. -/
theorem leavesAlone_of_oneAtATime {auth : Firebase} {acts : List Action}
    (hrequests : auth.requests = []) (hcallbacks : auth.callbacks = [])
    (hreads : auth.adminReads = [])
    (hone : Execution.Along step OneAtATime (onCreate auth) acts)
    (hrun : Execution.run step (onCreate auth) acts = some t) :
    ∀ uid ∈ auth.accounts,
      t.auth.hours uid = auth.hours uid ∧ t.auth.admin uid = auth.admin uid := by
  have hdeaf : auth.Deaf := by
    refine ⟨hcallbacks, fun r hr => ?_⟩
    rw [hrequests] at hr
    cases hr
  have hstart : auth.Single := by
    refine ⟨by simp [hrequests, hcallbacks], fun c hc => ?_⟩
    rw [hcallbacks] at hc
    cases hc
  have hawaited : auth.awaited = [] := by rw [Firebase.awaited, hcallbacks]; rfl
  have hinv : (t.crashed = true ∨ t.Inv) ∧ t.auth.Single ∧ Firebase.Apart auth t.auth := by
    refine Execution.run_invariant_along (I := fun t : EmailPasswordActivity =>
      (t.crashed = true ∨ t.Inv) ∧ t.auth.Single ∧ Firebase.Apart auth t.auth) ?_
      ⟨.inr (inv_onCreate hdeaf hreads), hstart, .refl hawaited hreads⟩ hone hrun
    rintro s a t ⟨hs, hsingle, hapart⟩ ha hst
    obtain ⟨hinv, ht⟩ := inv_step hs hst
    have htrans := (trans_of_step hst).2
    exact ⟨ht, single_trans hinv hsingle htrans ha, hapart.change hsingle (change_of_trans htrans)⟩
  exact fun uid huid => ⟨hinv.2.2.hours uid huid, hinv.2.2.admin uid huid⟩

/-- There is another account already. -/
def oneAccount : Firebase :=
  { Firebase.empty with accounts := ["a"], hours := fun _ => Hours.created "A" }

theorem leavesAlone_oneSignUp : ∃ t, Execution.run step (onCreate oneAccount) oneSignUp = some t ∧
    ∀ uid ∈ ["a"], t.auth.hours uid = Hours.created "A" ∧ t.auth.admin uid = none := by
  have ht := Option.eq_some_of_isSome
    (show (Execution.run step (onCreate oneAccount) oneSignUp).isSome by decide)
  exact ⟨_, ht, leavesAlone_of_oneAtATime rfl rfl rfl (by decide) ht⟩

end EmailPasswordActivity

end StudyHours
