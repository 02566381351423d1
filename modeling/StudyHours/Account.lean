/-
**The clients of an account and its record.**

An account is used by any number of iOS devices and Android clients at the same time.  This module
puts the two screens together with the record they share.  A `setValue` is sent to the server and
lands there at some later time; the writes of one client land in the order they were issued.  Until
its own writes have landed, an iOS device sees the record with them applied.  The transactions of
the Android client are compare-and-set: the server takes a new value only if it still holds the
value the handler was run on.  Whenever the record changes, the observer of every device that
listens is given a snapshot.

Main definitions:

* `StudyHours.Account` — the record, the writes in flight, the screens and the submissions;
* `StudyHours.Account.view` — the record as a device sees it;
* `StudyHours.Account.step` — one action of a user, of a client or of the network.

Main results:

* `StudyHours.Account.trans_of_step` — **everything an action can do**;
* `StudyHours.Account.view_land_self` — a landing changes nothing for the device it comes from;
* `StudyHours.Account.view_issue_self`, `view_issue_of_ne` — what issuing writes does to them.
-/

import Mathlib
import StudyHours.Execution
import StudyHours.HomeFragment
import StudyHours.RecordViewController

set_option relaxedAutoImplicit false
set_option autoImplicit false

namespace StudyHours

open RecordViewController (Event Transition)

/-! ### Writes in flight -/

/-- The origin of a write: a device, or a submission `i` of an Android client `c`. -/
inductive Sender
  | ios (d : ℕ)
  | android (c i : ℕ)
deriving DecidableEq

namespace Sender

/-- The two writes come from the same client. -/
def sameClient : Sender → Sender → Bool
  | ios d, ios d' => d = d'
  | android c _, android c' _ => c = c'
  | _, _ => false

/-- The device a write comes from, if it comes from one. -/
def device? : Sender → Option ℕ
  | ios d => some d
  | android _ _ => none

@[simp] theorem sameClient_ios (x : Sender) (d : ℕ) : x.sameClient (ios d) = true ↔ x = ios d := by
  cases x <;> simp [sameClient]

end Sender

/-- A write that has been issued and has not landed. -/
structure Entry where
  sender : Sender
  write : Write
deriving DecidableEq

/-- The writes of device `d` in a row of writes in flight. -/
def own (d : ℕ) (l : List Entry) : List Write :=
  (l.filter fun e => e.sender = .ios d).map Entry.write

@[simp] theorem own_nil (d : ℕ) : own d [] = [] := rfl

@[simp] theorem own_append (d : ℕ) (l l' : List Entry) : own d (l ++ l') = own d l ++ own d l' := by
  simp [own]

@[simp] theorem own_cons_self (d : ℕ) (w : Write) (l : List Entry) :
    own d (⟨.ios d, w⟩ :: l) = w :: own d l := by
  simp [own]

theorem own_cons_of_ne {d : ℕ} {e : Entry} (h : e.sender ≠ .ios d) (l : List Entry) :
    own d (e :: l) = own d l := by
  simp [own, h]

theorem own_eq_nil {d : ℕ} {l : List Entry} (h : ∀ e ∈ l, e.sender ≠ .ios d) : own d l = [] := by
  simpa [own] using h

theorem own_sublist {d : ℕ} {l l' : List Entry} (h : l.Sublist l') :
    (own d l).Sublist (own d l') := (h.filter _).map _

/-- The first write of a device has landed. -/
theorem own_land_self {d : ℕ} {l₁ l₂ : List Entry} {e : Entry} (he : e.sender = .ios d)
    (hfirst : ∀ e' ∈ l₁, e'.sender.sameClient e.sender = false) :
    own d (l₁ ++ e :: l₂) = e.write :: own d (l₁ ++ l₂) := by
  have hl₁ : own d l₁ = [] := by
    refine own_eq_nil fun e' he' heq => ?_
    have := hfirst e' he'
    rw [heq, he] at this
    simp [Sender.sameClient] at this
  obtain ⟨x, w⟩ := e
  obtain rfl : x = .ios d := he
  simp [hl₁]

/-- A write of another client has landed. -/
theorem own_land_of_ne {d : ℕ} {e : Entry} (he : e.sender ≠ .ios d) (l₁ l₂ : List Entry) :
    own d (l₁ ++ e :: l₂) = own d (l₁ ++ l₂) := by
  simp [own_cons_of_ne he]

/-- The writes a device issues, as entries. -/
def sendAll (x : Sender) (ws : List Write) : List Entry := ws.map (Entry.mk x)

@[simp] theorem own_sendAll_self (d : ℕ) (ws : List Write) : own d (sendAll (.ios d) ws) = ws := by
  induction ws with
  | nil => rfl
  | cons w ws ih => rw [sendAll, List.map_cons, own_cons_self, ← sendAll, ih]

theorem own_sendAll_of_ne {d : ℕ} {x : Sender} (h : x ≠ .ios d) (ws : List Write) :
    own d (sendAll x ws) = [] := by
  refine own_eq_nil fun e he => ?_
  obtain ⟨w, -, rfl⟩ := List.mem_map.1 he
  exact h

/-- The place of an element in a row that has been put together. -/
theorem append_eq_append_cons {β : Type*} {a b l₁ l₂ : List β} {x : β}
    (h : a ++ b = l₁ ++ x :: l₂) :
    (∃ l, a = l₁ ++ x :: l) ∨ ∃ l, l₁ = a ++ l ∧ b = l ++ x :: l₂ := by
  rcases List.append_eq_append_iff.1 h with ⟨l, rfl, rfl⟩ | ⟨l, rfl, hl⟩
  · exact .inr ⟨l, rfl, rfl⟩
  · cases l with
    | nil => exact .inr ⟨[], by simp, hl.symm⟩
    | cons y l =>
        obtain ⟨rfl, rfl⟩ := List.cons.inj hl
        exact .inl ⟨l, rfl⟩

/-- The snapshots a device sees while it issues writes, one for each of them. -/
def snapshots (h : Hours) : List Write → List Hours
  | [] => []
  | w :: ws => h.apply w :: snapshots (h.apply w) ws

/-! ### States and actions -/

/-- The clients of one account, its record, and what is under way between them. -/
structure Account where
  /-- The record on the server. -/
  db : Hours
  /-- The writes in flight, in the order in which they were issued. -/
  outbox : List Entry
  device : ℕ → RecordViewController
  fragment : ℕ → HomeFragment
  submissions : List Submission

/-- What can happen next. -/
inductive Action
  /-- An event of the record screen of device `d`. -/
  | ios (d : ℕ) (e : Event)
  /-- The user of client `c` taps the toggle. -/
  | toggle (c : ℕ) (elapsedRealtime currentTimeMillis : ℤ)
  /-- The user of client `c` answers the `i`-th open popup with `submit_hour`. -/
  | submit (c i : ℕ)
  /-- The user of client `c` answers the `i`-th open popup with `do_not_submit_hour`. -/
  | decline (c i : ℕ)
  /-- `onDataChange` of the `i`-th submission is run. -/
  | deliver (i : ℕ)
  /-- The handler of `totalHours` of the `i`-th submission is run on the value `v`. -/
  | runHours (i : ℕ) (v : Option ℚ)
  /-- The result of that run reaches the server. -/
  | commitHours (i : ℕ)
  /-- The handler of `numSessions` of the `i`-th submission is run on the value `v`. -/
  | runSessions (i : ℕ) (v : Option ℤ)
  /-- The result of that run reaches the server. -/
  | commitSessions (i : ℕ)
  /-- The `j`-th write in flight lands. -/
  | land (j : ℕ)
deriving DecidableEq

namespace Account

/-- An account that nobody has used since its record was `h` and its devices were in `status`. -/
def atRest (h : Hours) (status : Status) : Account where
  db := h
  outbox := []
  device _ := RecordViewController.initial status
  fragment _ := HomeFragment.initial
  submissions := []

/-- The record as device `d` sees it: its own writes count from the moment they are issued. -/
def view (s : Account) (d : ℕ) : Hours := s.db.applyAll (own d s.outbox)

/-- Every device that listens is given a snapshot, except the one named. -/
def broadcast (s : Account) (skip : Option ℕ) : Account :=
  { s with
    device := fun d => if skip = some d then s.device d else (s.device d).notify [s.view d] }

/-- An event of device `d` has left its screen in the state `vc` and issued the writes `ws`. -/
def issue (s : Account) (d : ℕ) (vc : RecordViewController) (ws : List Write) : Account :=
  { s with
    outbox := s.outbox ++ sendAll (.ios d) ws
    device := Function.update s.device d (vc.notify (snapshots (s.view d) ws)) }

/-- The entry `e` between `l₁` and `l₂` has landed. -/
def landed (s : Account) (l₁ : List Entry) (e : Entry) (l₂ : List Entry) : Account :=
  broadcast { s with db := s.db.apply e.write, outbox := l₁ ++ l₂ } e.sender.device?

/-- The submission `i` has become `sub`. -/
def setSubmission (s : Account) (i : ℕ) (sub : Submission) : Account :=
  { s with submissions := s.submissions.set i sub }

/-- The entries that a run of the handler of `numSessions` sends when it has computed `new`. -/
def handlerWrites (s : Account) (i : ℕ) (sub : Submission) (new : Option ℤ) : List Entry :=
  sendAll (.android sub.client i)
    (new.toList.map fun n => sessionWrite (s.fragment sub.client).studySession n)

/-- **One action.**  `none` if the action is not possible now. -/
def step (s : Account) : Action → Option Account
  | .ios d e =>
      (RecordViewController.step (s.view d) (s.device d) e).map fun r => s.issue d r.1 r.2
  | .toggle c elapsedRealtime currentTimeMillis =>
      ((s.fragment c).toggle elapsedRealtime currentTimeMillis).map fun f =>
        { s with fragment := Function.update s.fragment c f }
  | .submit c i =>
      (s.fragment c).popups[i]?.map fun popup =>
        { s with
          fragment := Function.update s.fragment c
            { s.fragment c with popups := (s.fragment c).popups.eraseIdx i }
          submissions := s.submissions ++ [Submission.start c popup] }
  | .decline c i =>
      (s.fragment c).popups[i]?.map fun _ =>
        { s with
          fragment := Function.update s.fragment c
            { s.fragment c with popups := (s.fragment c).popups.eraseIdx i } }
  | .deliver i =>
      s.submissions[i]?.bind fun sub =>
        if sub.delivered then none else some (s.setSubmission i (sub.onDataChange s.db))
  | .runHours i v =>
      s.submissions[i]?.bind fun sub =>
        match sub.totalHours with
        | some .queued =>
            some (s.setSubmission i
              { sub with totalHours := some (.sent v (totalHoursTransaction sub.popup.diff v)) })
        | _ => none
  | .commitHours i =>
      s.submissions[i]?.bind fun sub =>
        match sub.totalHours with
        | some (.sent base new) =>
            if s.db.totalHours = base then
              some (broadcast ({ s with db := { s.db with totalHours := new } }.setSubmission i
                { sub with totalHours := some (.committed base) }) none)
            else
              some (s.setSubmission i { sub with totalHours := some .queued })
        | _ => none
  | .runSessions i v =>
      s.submissions[i]?.bind fun sub =>
        match sub.numSessions with
        | some .queued =>
            match numSessionsTransaction v with
            | none => some (s.setSubmission i { sub with numSessions := some .aborted })
            | some new =>
                some ({ s with outbox := s.outbox ++ s.handlerWrites i sub new }.setSubmission i
                  { sub with numSessions := some (.sent v new) })
        | _ => none
  | .commitSessions i =>
      s.submissions[i]?.bind fun sub =>
        match sub.numSessions with
        | some (.sent base new) =>
            if s.db.numSessions = base then
              some (broadcast ({ s with db := { s.db with numSessions := new } }.setSubmission i
                { sub with numSessions := some (.committed base) }) none)
            else
              some (s.setSubmission i { sub with numSessions := some .queued })
        | _ => none
  | .land j =>
      s.outbox[j]?.bind fun e =>
        if (s.outbox.take j).all fun e' => !e'.sender.sameClient e.sender then
          some (s.landed (s.outbox.take j) e (s.outbox.drop (j + 1)))
        else none

/-! ### The fields after an action -/

section Fields

variable (s : Account) (skip : Option ℕ) (d d' : ℕ) (vc : RecordViewController) (ws : List Write)
  (l₁ l₂ : List Entry) (e : Entry) (i : ℕ) (sub : Submission)

@[simp] theorem db_broadcast : (s.broadcast skip).db = s.db := rfl

@[simp] theorem outbox_broadcast : (s.broadcast skip).outbox = s.outbox := rfl

@[simp] theorem fragment_broadcast : (s.broadcast skip).fragment = s.fragment := rfl

@[simp] theorem submissions_broadcast : (s.broadcast skip).submissions = s.submissions := rfl

@[simp] theorem view_broadcast : (s.broadcast skip).view d = s.view d := rfl

theorem device_broadcast : (s.broadcast skip).device d =
    if skip = some d then s.device d else (s.device d).notify [s.view d] := rfl

@[simp] theorem idle_broadcast : ((s.broadcast skip).device d).Idle ↔ (s.device d).Idle := by
  rw [device_broadcast]
  split_ifs
  · rfl
  · exact RecordViewController.idle_notify _ _

@[simp] theorem captured_broadcast :
    ((s.broadcast skip).device d).captured = (s.device d).captured := by
  rw [device_broadcast]
  split_ifs
  · rfl
  · exact RecordViewController.captured_notify _ _

@[simp] theorem db_issue : (s.issue d vc ws).db = s.db := rfl

@[simp] theorem outbox_issue : (s.issue d vc ws).outbox = s.outbox ++ sendAll (.ios d) ws := rfl

@[simp] theorem fragment_issue : (s.issue d vc ws).fragment = s.fragment := rfl

@[simp] theorem submissions_issue : (s.issue d vc ws).submissions = s.submissions := rfl

@[simp] theorem device_issue_self :
    (s.issue d vc ws).device d = vc.notify (snapshots (s.view d) ws) := by
  simp [issue]

theorem device_issue_of_ne {d d' : ℕ} (h : d' ≠ d) :
    (s.issue d vc ws).device d' = s.device d' := Function.update_of_ne h _ _

@[simp] theorem idle_issue_self : ((s.issue d vc ws).device d).Idle ↔ vc.Idle := by
  rw [device_issue_self, RecordViewController.idle_notify]

@[simp] theorem db_landed : (s.landed l₁ e l₂).db = s.db.apply e.write := rfl

@[simp] theorem outbox_landed : (s.landed l₁ e l₂).outbox = l₁ ++ l₂ := rfl

@[simp] theorem fragment_landed : (s.landed l₁ e l₂).fragment = s.fragment := rfl

@[simp] theorem submissions_landed : (s.landed l₁ e l₂).submissions = s.submissions := rfl

@[simp] theorem idle_landed : ((s.landed l₁ e l₂).device d).Idle ↔ (s.device d).Idle :=
  idle_broadcast _ _ _

@[simp] theorem captured_landed :
    ((s.landed l₁ e l₂).device d).captured = (s.device d).captured := captured_broadcast _ _ _

/-- A device is not told of its own writes when they land. -/
theorem device_landed_self {s : Account} {d : ℕ} {l₁ l₂ : List Entry} {e : Entry}
    (he : e.sender = .ios d) : (s.landed l₁ e l₂).device d = s.device d := by
  rw [landed, device_broadcast, he]
  exact if_pos rfl

theorem device_landed_of_ne {s : Account} {d : ℕ} {l₁ l₂ : List Entry} {e : Entry}
    (he : e.sender ≠ .ios d) :
    (s.landed l₁ e l₂).device d = (s.device d).notify [(s.landed l₁ e l₂).view d] := by
  rw [landed, device_broadcast, if_neg]
  · rfl
  · cases hs : e.sender with
    | ios d' => simpa [hs, Sender.device?] using he
    | android c i => simp [Sender.device?]

@[simp] theorem db_setSubmission : (s.setSubmission i sub).db = s.db := rfl

@[simp] theorem outbox_setSubmission : (s.setSubmission i sub).outbox = s.outbox := rfl

@[simp] theorem device_setSubmission : (s.setSubmission i sub).device = s.device := rfl

@[simp] theorem fragment_setSubmission : (s.setSubmission i sub).fragment = s.fragment := rfl

@[simp] theorem submissions_setSubmission :
    (s.setSubmission i sub).submissions = s.submissions.set i sub := rfl

end Fields

/-! ### The views -/

/-- A device without writes in flight sees the record as it is. -/
theorem view_eq_db {s : Account} {d : ℕ} (h : own d s.outbox = []) : s.view d = s.db := by
  rw [view, h, Hours.applyAll_nil]

/-- The writes a device issues take effect in its own view. -/
theorem view_issue_self (s : Account) (d : ℕ) (vc : RecordViewController) (ws : List Write) :
    (s.issue d vc ws).view d = (s.view d).applyAll ws := by
  simp [view]

/-- The writes a device issues do not show on another device before they land. -/
theorem view_issue_of_ne (s : Account) {d d' : ℕ} (h : d' ≠ d) (vc : RecordViewController)
    (ws : List Write) : (s.issue d vc ws).view d' = s.view d' := by
  have hne : Sender.ios d ≠ .ios d' := fun he => h (Sender.ios.inj he).symm
  simp [view, own_sendAll_of_ne hne]

section Landing

variable {s : Account} {d : ℕ} {l₁ l₂ : List Entry} {e : Entry}

/-- When a write of a device lands, nothing changes for that device. -/
theorem view_land_self (hout : s.outbox = l₁ ++ e :: l₂) (he : e.sender = .ios d)
    (hfirst : ∀ e' ∈ l₁, e'.sender.sameClient e.sender = false) :
    (s.landed l₁ e l₂).view d = s.view d := by
  simp [view, hout, own_land_self he hfirst]

end Landing

/-! ### Everything an action can do -/

/-- What an action does, case by case. -/
inductive Trans (s : Account) : Action → Account → Prop
  | ios {d : ℕ} {e : Event} {vc : RecordViewController} {ws : List Write}
      (h : Transition (s.view d) (s.device d) e vc ws) : Trans s (.ios d e) (s.issue d vc ws)
  | toggle {c : ℕ} {elapsedRealtime currentTimeMillis : ℤ} {f : HomeFragment}
      (hf : (s.fragment c).toggle elapsedRealtime currentTimeMillis = some f) :
      Trans s (.toggle c elapsedRealtime currentTimeMillis)
        { s with fragment := Function.update s.fragment c f }
  | submit {c i : ℕ} {popup : Popup} (hi : (s.fragment c).popups[i]? = some popup) :
      Trans s (.submit c i)
        { s with
          fragment := Function.update s.fragment c
            { s.fragment c with popups := (s.fragment c).popups.eraseIdx i }
          submissions := s.submissions ++ [Submission.start c popup] }
  | decline {c i : ℕ} {popup : Popup} (hi : (s.fragment c).popups[i]? = some popup) :
      Trans s (.decline c i)
        { s with
          fragment := Function.update s.fragment c
            { s.fragment c with popups := (s.fragment c).popups.eraseIdx i } }
  | deliver {i : ℕ} {sub : Submission} (hsub : s.submissions[i]? = some sub)
      (hd : sub.delivered = false) :
      Trans s (.deliver i) (s.setSubmission i (sub.onDataChange s.db))
  | runHours {i : ℕ} {v : Option ℚ} {sub : Submission} (hsub : s.submissions[i]? = some sub)
      (hq : sub.totalHours = some .queued) :
      Trans s (.runHours i v) (s.setSubmission i
        { sub with totalHours := some (.sent v (totalHoursTransaction sub.popup.diff v)) })
  | hoursCommit {i : ℕ} {sub : Submission} {base new : Option ℚ}
      (hsub : s.submissions[i]? = some sub) (ht : sub.totalHours = some (.sent base new))
      (hb : s.db.totalHours = base) :
      Trans s (.commitHours i)
        (broadcast ({ s with db := { s.db with totalHours := new } }.setSubmission i
          { sub with totalHours := some (.committed base) }) none)
  | hoursRetry {i : ℕ} {sub : Submission} {base new : Option ℚ}
      (hsub : s.submissions[i]? = some sub) (ht : sub.totalHours = some (.sent base new))
      (hb : s.db.totalHours ≠ base) :
      Trans s (.commitHours i) (s.setSubmission i { sub with totalHours := some .queued })
  | runSessions {i : ℕ} {v new : Option ℤ} {sub : Submission}
      (hsub : s.submissions[i]? = some sub) (hq : sub.numSessions = some .queued)
      (hv : numSessionsTransaction v = some new) :
      Trans s (.runSessions i v)
        ({ s with outbox := s.outbox ++ s.handlerWrites i sub new }.setSubmission i
          { sub with numSessions := some (.sent v new) })
  | sessionsAbort {i : ℕ} {v : Option ℤ} {sub : Submission}
      (hsub : s.submissions[i]? = some sub) (hq : sub.numSessions = some .queued)
      (hv : numSessionsTransaction v = none) :
      Trans s (.runSessions i v) (s.setSubmission i { sub with numSessions := some .aborted })
  | sessionsCommit {i : ℕ} {sub : Submission} {base new : Option ℤ}
      (hsub : s.submissions[i]? = some sub) (ht : sub.numSessions = some (.sent base new))
      (hb : s.db.numSessions = base) :
      Trans s (.commitSessions i)
        (broadcast ({ s with db := { s.db with numSessions := new } }.setSubmission i
          { sub with numSessions := some (.committed base) }) none)
  | sessionsRetry {i : ℕ} {sub : Submission} {base new : Option ℤ}
      (hsub : s.submissions[i]? = some sub) (ht : sub.numSessions = some (.sent base new))
      (hb : s.db.numSessions ≠ base) :
      Trans s (.commitSessions i) (s.setSubmission i { sub with numSessions := some .queued })
  | land {j : ℕ} {l₁ l₂ : List Entry} {e : Entry} (hout : s.outbox = l₁ ++ e :: l₂)
      (hj : l₁.length = j) (hfirst : ∀ e' ∈ l₁, e'.sender.sameClient e.sender = false) :
      Trans s (.land j) (s.landed l₁ e l₂)

/-- **Inversion of an action.** -/
theorem trans_of_step {s t : Account} {a : Action} (h : step s a = some t) : Trans s a t := by
  cases a with
  | ios d e =>
      obtain ⟨⟨vc, ws⟩, hstep, rfl⟩ := Option.map_eq_some_iff.1 h
      exact .ios (RecordViewController.transition_of_step hstep)
  | toggle c elapsedRealtime currentTimeMillis =>
      obtain ⟨f, hf, rfl⟩ := Option.map_eq_some_iff.1 h
      exact .toggle hf
  | submit c i =>
      obtain ⟨popup, hi, rfl⟩ := Option.map_eq_some_iff.1 h
      exact .submit hi
  | decline c i =>
      obtain ⟨popup, hi, rfl⟩ := Option.map_eq_some_iff.1 h
      exact .decline hi
  | deliver i =>
      obtain ⟨sub, hsub, h⟩ := Option.bind_eq_some_iff.1 h
      split_ifs at h with hd
      cases h
      exact .deliver hsub (by simpa using hd)
  | runHours i v =>
      obtain ⟨sub, hsub, h⟩ := Option.bind_eq_some_iff.1 h
      split at h
      · next hq => cases h; exact .runHours hsub hq
      · cases h
  | commitHours i =>
      obtain ⟨sub, hsub, h⟩ := Option.bind_eq_some_iff.1 h
      split at h
      · next base new ht =>
          split_ifs at h with hb
          · cases h
            exact .hoursCommit hsub ht hb
          · cases h
            exact .hoursRetry hsub ht hb
      · cases h
  | runSessions i v =>
      obtain ⟨sub, hsub, h⟩ := Option.bind_eq_some_iff.1 h
      split at h
      · next hq =>
          split at h
          · next hv => cases h; exact .sessionsAbort hsub hq hv
          · next new hv => cases h; exact .runSessions hsub hq hv
      · cases h
  | commitSessions i =>
      obtain ⟨sub, hsub, h⟩ := Option.bind_eq_some_iff.1 h
      split at h
      · next base new ht =>
          split_ifs at h with hb
          · cases h
            exact .sessionsCommit hsub ht hb
          · cases h
            exact .sessionsRetry hsub ht hb
      · cases h
  | land j =>
      obtain ⟨e, he, h⟩ := Option.bind_eq_some_iff.1 h
      split_ifs at h with hfirst
      cases h
      obtain ⟨hj, rfl⟩ := List.getElem?_eq_some_iff.1 he
      refine .land ?_ (List.length_take_of_le hj.le) ?_
      · rw [← List.drop_eq_getElem_cons hj, List.take_append_drop]
      · simpa using hfirst

/-! ### Who submitted what -/

/-- The client and the popup of every submission; they never change. -/
def tickets (s : Account) : List (ℕ × Popup) := s.submissions.map fun sub => (sub.client, sub.popup)

theorem mem_tickets {s : Account} {i : ℕ} {sub : Submission} (h : s.submissions[i]? = some sub) :
    (sub.client, sub.popup) ∈ s.tickets :=
  List.mem_map.2 ⟨sub, List.mem_of_getElem? h, rfl⟩

/-- The handlers and callbacks of a submission leave its client and its popup alone. -/
theorem tickets_setSubmission {s : Account} {i : ℕ} {sub sub' : Submission}
    (hsub : s.submissions[i]? = some sub) (hc : sub'.client = sub.client)
    (hp : sub'.popup = sub.popup) : (s.setSubmission i sub').tickets = s.tickets := by
  obtain ⟨hi, rfl⟩ := List.getElem?_eq_some_iff.1 hsub
  have hlen : i < (s.submissions.map fun sub => (sub.client, sub.popup)).length := by simpa using hi
  rw [tickets, submissions_setSubmission, List.map_set, hc, hp, tickets]
  conv_rhs => rw [← List.set_getElem_self hlen]
  rw [List.getElem_map]

/-- **Only the user of a client changes its fragment**, by tapping the toggle or answering a popup,
and only an answer submits. -/
theorem Trans.fragment_cases {s t : Account} {a : Action} (h : Trans s a t) :
    (t.fragment = s.fragment ∧ t.tickets = s.tickets) ∨
    (∃ c elapsedRealtime now f, (s.fragment c).toggle elapsedRealtime now = some f ∧
      t.fragment = Function.update s.fragment c f ∧ t.tickets = s.tickets) ∨
    ∃ c i popup, (s.fragment c).popups[i]? = some popup ∧
      t.fragment = Function.update s.fragment c
        { s.fragment c with popups := (s.fragment c).popups.eraseIdx i } ∧
      (t.tickets = s.tickets ∨ t.tickets = s.tickets ++ [(c, popup)]) := by
  cases h with
  | ios _ => exact .inl ⟨rfl, rfl⟩
  | land _ _ _ => exact .inl ⟨rfl, rfl⟩
  | toggle hf => exact .inr (.inl ⟨_, _, _, _, hf, rfl, rfl⟩)
  | submit hi => exact .inr (.inr ⟨_, _, _, hi, rfl, .inr (by simp [tickets, Submission.start])⟩)
  | decline hi => exact .inr (.inr ⟨_, _, _, hi, rfl, .inl rfl⟩)
  | deliver hsub _ => exact .inl ⟨rfl, tickets_setSubmission hsub rfl rfl⟩
  | runHours hsub _ => exact .inl ⟨rfl, tickets_setSubmission hsub rfl rfl⟩
  | hoursCommit hsub _ _ => exact .inl ⟨rfl, tickets_setSubmission hsub rfl rfl⟩
  | hoursRetry hsub _ _ => exact .inl ⟨rfl, tickets_setSubmission hsub rfl rfl⟩
  | runSessions hsub _ _ => exact .inl ⟨rfl, tickets_setSubmission hsub rfl rfl⟩
  | sessionsAbort hsub _ _ => exact .inl ⟨rfl, tickets_setSubmission hsub rfl rfl⟩
  | sessionsCommit hsub _ _ => exact .inl ⟨rfl, tickets_setSubmission hsub rfl rfl⟩
  | sessionsRetry hsub _ _ => exact .inl ⟨rfl, tickets_setSubmission hsub rfl rfl⟩

end Account

end StudyHours
