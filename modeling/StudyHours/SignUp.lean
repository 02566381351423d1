/-
**The record of a new account.**

When the authentication service has created a user, both clients go on to store the record of the
account.  iOS stores the whole record with one `setValue`.  Android first reads the text of the
admin-code field as a number, and then stores the three entries with one `setValue` each; where the
text is no number, an exception ends the handler before the first of them.  The user exists all the
same, and can sign in; but a submission looks for the two counters in the record, starts a
transaction for each that it finds, and says nothing if there is none.

Main definitions:

* `StudyHours.SignUpWrite` — the writes that create a record;
* `StudyHours.signUp`, `StudyHours.createAccount` — the writes of the two completion handlers;
* `StudyHours.Usable` — the record is created, and no submission to it is dropped.

Main results:

* `StudyHours.dropped_of_absent` — without a record every submission is dropped;
* `StudyHours.usable_iff` — **the account is usable exactly if the text can be read**.
-/

import Mathlib
import StudyHours.AdminCode
import StudyHours.Ledger

set_option relaxedAutoImplicit false
set_option autoImplicit false

namespace StudyHours

open Account
open RecordViewController (Event Transition mem_captured)

/-! ### The writes of a sign-up -/

/-- A write that creates the record of an account, or a part of it. -/
inductive SignUpWrite
  /-- `totalHours` is set to a value. -/
  | totalHours (value : ℚ)
  /-- `numSessions` is set to a value. -/
  | numSessions (value : ℤ)
  /-- `sisterName` is set to a value. -/
  | sisterName (value : String)
  /-- The record is set to one that has these three entries only. -/
  | post (sisterName : String) (numSessions : ℤ) (totalHours : ℚ)
deriving DecidableEq

namespace Hours

/-- A record that does not exist. -/
def absent : Hours := ⟨none, none, none, ∅⟩

/-- The effect of a write of a sign-up. -/
def applySignUp (h : Hours) : SignUpWrite → Hours
  | .totalHours value => { h with totalHours := some value }
  | .numSessions value => { h with numSessions := some value }
  | .sisterName value => { h with sisterName := some value }
  | .post sisterName numSessions totalHours =>
      ⟨some totalHours, some numSessions, some sisterName, ∅⟩

end Hours

/-- `SignUp`: the dictionary `post` is stored under `hours/<uid>`. -/
def signUp (sisterName : String) : List SignUpWrite := [.post sisterName 0 0]

/-- `createAccount`: the writes to `hours/<uid>`, in the order they are issued; `none` if
`Long.valueOf` throws. -/
def createAccount (text displayName : String) : Option (List SignUpWrite) :=
  (if text = "" then some 0 else longValueOf text).map fun _ =>
    [.totalHours 0, .numSessions 0, .sisterName displayName]

/-- The completion handler of either client, given the text of the admin-code field and the name. -/
def onComplete (text name : String) : Client → Option (List SignUpWrite)
  | .ios => some (signUp name)
  | .android => createAccount text name

/-- The record once everything that the completion handler has issued has landed. -/
def recordOf (client : Client) (text name : String) : Hours :=
  ((onComplete text name client).getD []).foldl Hours.applySignUp Hours.absent

theorem isSome_createAccount (text name : String) :
    (createAccount text name).isSome ↔ text = "" ∨ (longValueOf text).isSome := by
  rw [createAccount, Option.isSome_map]
  split_ifs with h <;> simp [h]

/-- Where the handler does not throw, the record is complete. -/
theorem recordOf_of_isSome {client : Client} {text name : String}
    (h : (onComplete text name client).isSome) :
    recordOf client text name = Hours.created name := by
  cases client with
  | ios => rfl
  | android =>
      obtain ⟨ws, hws⟩ := Option.isSome_iff_exists.1 h
      obtain ⟨code, -, rfl⟩ := Option.map_eq_some_iff.1 hws
      rw [recordOf, hws]
      rfl

/-! ### Accounts without a record -/

/-- An account without a record: nobody has read a counter, nothing is in flight, and no submission
has started a transaction. -/
structure Recordless (s : Account) : Prop where
  db : s.db = Hours.absent
  outbox : s.outbox = []
  captured : ∀ d, ∀ x ∈ (s.device d).captured, x.1 = none
  submissions : ∀ sub ∈ s.submissions, sub.totalHours = none ∧ sub.numSessions = none

namespace Recordless

variable {s t : Account}

theorem atRest (status : Status) : Recordless (atRest Hours.absent status) where
  db := rfl
  outbox := rfl
  captured d x hx := by
    have hidle : ((Account.atRest Hours.absent status).device d).Idle :=
      RecordViewController.idle_initial status
    rw [RecordViewController.captured_of_idle hidle] at hx
    cases hx
  submissions sub hsub := by cases hsub

/-- Where no counter has been read, a device has nothing to write. -/
theorem writes_eq_nil {view : Hours} {vc vc' : RecordViewController} {e : Event} {ws : List Write}
    (hvc : ∀ x ∈ vc.captured, x.1 = none) (h : Transition view vc e vc' ws) : ws = [] := by
  cases h with
  | @start i now snapshot n hi hn _ =>
      have hnone := hvc _ (mem_captured.2 (.inl ⟨snapshot, List.mem_of_getElem? hi, rfl⟩))
      rw [hn] at hnone
      cases hnone
  | @tooShort i now n inTime t child hi _ _ =>
      have hnone := hvc _ (mem_captured.2 (.inr (.inl ⟨_, List.mem_of_getElem? hi, rfl⟩)))
      cases hnone
  | @yes i dlg t hi _ | @no i dlg hi =>
      have hnone := hvc _ (mem_captured.2 (.inr (.inr ⟨_, List.mem_of_getElem? hi, rfl⟩)))
      cases hnone
  | _ => rfl

/-- One submission goes on without a transaction. -/
theorem submissions_set (h : Recordless s) (i : ℕ) {sub : Submission}
    (hsub : sub.totalHours = none ∧ sub.numSessions = none) :
    ∀ sub' ∈ s.submissions.set i sub, sub'.totalHours = none ∧ sub'.numSessions = none := by
  intro sub' hmem
  rcases List.mem_or_eq_of_mem_set hmem with hmem | rfl
  · exact h.submissions sub' hmem
  · exact hsub

/-- **Nobody creates the record later.** -/
theorem trans (h : Recordless s) {a : Action} (hst : Trans s a t) : Recordless t := by
  have hview : ∀ d, s.view d = Hours.absent := fun d => by
    rw [view_eq_db (by rw [h.outbox]; rfl), h.db]
  have hcaptured : ∀ d, ∀ x ∈ (t.device d).captured, x.1 = none := by
    refine hst.forall_device (P := fun vc => ∀ x ∈ vc.captured, x.1 = none) ?_ ?_ h.captured
    · intro vc hs hvc
      rwa [RecordViewController.captured_notify]
    · intro d e vc ws htr hvc x hx
      rcases RecordViewController.captured_of_transition htr x hx with hx | ⟨-, rfl⟩
      · exact hvc x hx
      · rw [hview]
        rfl
  have hnone : ∀ {i : ℕ} {sub : Submission}, s.submissions[i]? = some sub →
      sub.totalHours = none ∧ sub.numSessions = none :=
    fun hsub => h.submissions _ (List.mem_of_getElem? hsub)
  cases hst with
  | @ios d e vc ws htr =>
      obtain rfl := writes_eq_nil (h.captured d) htr
      exact ⟨h.db, by simp [sendAll, h.outbox], hcaptured, h.submissions⟩
  | toggle _ | decline _ => exact ⟨h.db, h.outbox, hcaptured, h.submissions⟩
  | submit _ =>
      refine ⟨h.db, h.outbox, hcaptured, fun sub hsub => ?_⟩
      rcases List.mem_append.1 hsub with hsub | hsub
      · exact h.submissions sub hsub
      · obtain rfl := List.mem_singleton.1 hsub
        exact ⟨rfl, rfl⟩
  | deliver _ _ =>
      -- the snapshot has no children to start a transaction for
      exact ⟨h.db, h.outbox, hcaptured, h.submissions_set _
        ⟨by simp [Submission.onDataChange, h.db, Hours.absent],
          by simp [Submission.onDataChange, h.db, Hours.absent]⟩⟩
  | runHours hsub hq =>
      rw [(hnone hsub).1] at hq
      cases hq
  | hoursCommit hsub htr _ | hoursRetry hsub htr _ =>
      rw [(hnone hsub).1] at htr
      cases htr
  | runSessions hsub hq _ | sessionsAbort hsub hq _ =>
      rw [(hnone hsub).2] at hq
      cases hq
  | sessionsCommit hsub htr _ | sessionsRetry hsub htr _ =>
      rw [(hnone hsub).2] at htr
      cases htr
  | land hout _ _ =>
      rw [h.outbox] at hout
      exact absurd hout (by simp)

end Recordless

/-- **Without a record every submission is dropped**, however long the account is used. -/
theorem dropped_of_absent {status : Status} {acts : List Action} {u : Account}
    (hrun : Execution.run step (atRest Hours.absent status) acts = some u) {sub : Submission}
    (hsub : sub ∈ u.submissions) : sub.totalHours = none ∧ sub.numSessions = none :=
  (Execution.run_invariant (fun _ _ _ hI hst => hI.trans (trans_of_step hst))
    (Recordless.atRest status) hrun).submissions sub hsub

/-! ### Usable accounts -/

/-- The completion handler writes the three entries; and in every use of the account each submission
that has been delivered has found both counters. -/
structure Usable (client : Client) (text name : String) : Prop where
  record : recordOf client text name = Hours.created name
  recorded : ∀ (status : Status) (acts : List Action) (u : Account),
    Execution.run step (atRest (recordOf client text name) status) acts = some u →
      ∀ sub ∈ u.submissions, sub.delivered = true →
        sub.totalHours.isSome ∧ sub.numSessions.isSome

theorem submissionsInv_created (name : String) (status : Status) :
    SubmissionsInv (atRest (Hours.created name) status) where
  numSessions := rfl
  totalHours := rfl
  popups _ _ hp := absurd hp List.not_mem_nil
  sound _ hsub := absurd hsub List.not_mem_nil

/-- **An account that has been created is usable if and only if its user signed up on iOS, or the
text of the admin-code field is empty or a number.** -/
theorem usable_iff (client : Client) (text name : String) :
    Usable client text name ↔ client = .ios ∨ text = "" ∨ (longValueOf text).isSome := by
  have hcond : (onComplete text name client).isSome ↔
      client = .ios ∨ text = "" ∨ (longValueOf text).isSome := by
    cases client with
    | ios => simp [onComplete]
    | android => simp [onComplete, isSome_createAccount]
  rw [← hcond]
  constructor
  · rintro ⟨hrecord, -⟩
    by_contra hnone
    rw [recordOf, Option.not_isSome_iff_eq_none.1 hnone] at hrecord
    exact absurd (congrArg Hours.numSessions hrecord) (by simp [Hours.absent, Hours.created])
  · intro hsome
    have hrecord := recordOf_of_isSome hsome
    refine ⟨hrecord, fun status acts u hrun sub hsub hd => ?_⟩
    rw [hrecord] at hrun
    have hinv : SubmissionsInv u := Execution.run_invariant
      (fun _ _ _ hI hst => hI.trans (trans_of_step hst)) (submissionsInv_created name status) hrun
    exact (hinv.sound sub hsub).started hd

/-- **A text that is no number leaves an account without a record**: on Android the handler throws
before the first write. -/
theorem not_usable : ¬ ∀ (client : Client) (text name : String), Usable client text name := by
  intro h
  have hrecord := (h .android "abc" "A").record
  have hnumber : (recordOf .android "abc" "A").numSessions = none := by decide
  rw [hrecord] at hnumber
  cases hnumber

end StudyHours
