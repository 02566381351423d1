/-
**Firebase, as far as the login screens use it.**

A login screen asks the service to create an account or to sign in, and leaves a handler for the
answer.  A favourable answer changes the current user at once, whether or not anybody still waits
for it; the handler is run later, on the main queue and in its turn, and finds the user who is
signed in then.  The handler of a sign-up stores the record of that user, and reads the admin code
to store whether the user is an administrator.  Nothing ties the user it finds to the account that
its own request has created.

A user is signed out by the app only.  The service can do so by itself, where the server no longer
accepts the user's token; it is assumed here that it does not.

Main definitions:

* `StudyHours.Request`, `StudyHours.Answer`, `StudyHours.Callback` — what goes to and fro;
* `StudyHours.Firebase` — the service, the handlers to be run, and what they have stored;
* `StudyHours.Firebase.HasRecords` — no account is left without a record;
* `StudyHours.Firebase.Apart` — some accounts are left alone.

Main results:

* `StudyHours.Firebase.hasRecords_respond_iff`, `hasRecords_storeRecord_iff`, `hasRecords_drop_iff`
  — what an answer, a handler and the loss of all handlers do to the accounts without a record;
* `StudyHours.Firebase.Single.own` — **a request that is under way alone is completed for the
  account it has created**.
-/

import Mathlib
import StudyHours.SignUp

set_option relaxedAutoImplicit false
set_option autoImplicit false

namespace StudyHours

/-! ### Requests and answers -/

/-- A user who is signed in. -/
structure FirebaseUser where
  uid : String
  email : String
  isEmailVerified : Bool
deriving DecidableEq

/-- What is asked of the authentication service. -/
inductive RequestKind
  | createUser
  | signIn
deriving DecidableEq

/-- A request that has been sent. -/
structure Request where
  kind : RequestKind
  email : String
  password : String
  /-- The number of the screen that has sent it. -/
  screen : ℕ
  /-- Its handler has not been removed. -/
  listening : Bool
deriving DecidableEq

/-- The answer to a request. -/
inductive Answer
  | success (user : FirebaseUser)
  | failure
  /-- The account has been created, but the client is told of an error. -/
  | lost (uid : String)
deriving DecidableEq

namespace Answer

/-- The user that the client is told of. -/
def user? : Answer → Option FirebaseUser
  | success user => some user
  | failure | lost _ => none

/-- The account that has been created. -/
def created? : RequestKind → Answer → Option String
  | .createUser, success user => some user.uid
  | .createUser, lost uid => some uid
  | .createUser, failure | .signIn, _ => none

/-- A new account gets a new id, and only those who have an account can sign in. -/
def Possible (accounts : List String) : RequestKind → Answer → Prop
  | .createUser, success user => user.uid ∉ accounts
  | .createUser, lost uid => uid ∉ accounts
  | .signIn, success user => user.uid ∈ accounts
  | .signIn, lost _ => False
  | _, failure => True

instance (accounts : List String) (kind : RequestKind) (a : Answer) :
    Decidable (a.Possible accounts kind) := by
  cases kind <;> cases a <;> dsimp only [Possible] <;> infer_instance

theorem Possible.notMem {accounts : List String} {kind : RequestKind} {a : Answer}
    (h : a.Possible accounts kind) {uid : String} (huid : a.created? kind = some uid) :
    uid ∉ accounts := by
  cases kind with
  | signIn => cases huid
  | createUser =>
      cases a with
      | failure => cases huid
      | success user => cases huid; exact h
      | lost uid => cases huid; exact h

end Answer

/-- A handler that waits on the main queue, with the user that it is told of; `none` is an error. -/
structure Callback where
  request : Request
  user : Option FirebaseUser
deriving DecidableEq

/-- The account whose sign-up the handler completes. -/
def Callback.created? (c : Callback) : Option String :=
  match c.request.kind with
  | .createUser => c.user.map FirebaseUser.uid
  | .signIn => none

/-- The handler of an answer completes a sign-up if the client is told of the account. -/
theorem Callback.created?_mk (r : Request) (a : Answer) :
    (Callback.mk r a.user?).created? = if a.user?.isSome then a.created? r.kind else none := by
  obtain ⟨kind, email, password, screen, listening⟩ := r
  cases kind <;> cases a <;> rfl

namespace Callback

variable {c : Callback}

theorem created?_of_failed (hc : c.user = none) : c.created? = none := by
  rw [created?, hc]
  cases c.request.kind <;> rfl

theorem created?_of_signIn (hkind : c.request.kind = .signIn) : c.created? = none := by
  rw [created?, hkind]

theorem exists_created? (hkind : c.request.kind = .createUser) (hc : c.user.isSome) :
    ∃ uid, c.created? = some uid := by
  obtain ⟨user, huser⟩ := Option.isSome_iff_exists.1 hc
  exact ⟨user.uid, by rw [created?, hkind, huser]; rfl⟩

end Callback

/-- The entry `adminCode` is read for the sign-up of an account, with the text of the admin-code
field. -/
structure AdminRead where
  uid : String
  text : String
deriving DecidableEq

/-- The record has its total, its number of sessions and its name. -/
def Hours.Complete (h : Hours) : Prop :=
  h.totalHours.isSome ∧ h.numSessions.isSome ∧ h.sisterName.isSome

instance (h : Hours) : Decidable h.Complete := by
  unfold Hours.Complete
  infer_instance

theorem Hours.not_complete_absent : ¬ Hours.absent.Complete := by decide

theorem Hours.complete_created (name : String) : (Hours.created name).Complete := ⟨rfl, rfl, rfl⟩

/-! ### The service -/

/-- The service, the handlers to be run, and what the handlers have stored once it has landed. -/
structure Firebase where
  currentUser : Option FirebaseUser
  /-- The ids of all accounts. -/
  accounts : List String
  /-- The requests that have not been answered. -/
  requests : List Request
  /-- The handlers to be run, in their order. -/
  callbacks : List Callback
  /-- The records, `hours/<uid>`. -/
  hours : String → Hours
  adminReads : List AdminRead
  /-- The flags, `users/<uid>/admin`. -/
  admin : String → Option Bool

namespace Firebase

/-- The service before anybody has signed up. -/
def empty : Firebase := ⟨none, [], [], [], fun _ => Hours.absent, [], fun _ => none⟩

/-- A request is sent. -/
def send (s : Firebase) (r : Request) : Firebase := { s with requests := s.requests ++ [r] }

/-- The request `r`, which has the number `i`, has been answered. -/
def answered (s : Firebase) (i : ℕ) (r : Request) (a : Answer) : Firebase :=
  { s with
    currentUser := a.user?.or s.currentUser
    accounts := (a.created? r.kind).toList ++ s.accounts
    requests := s.requests.eraseIdx i
    callbacks := s.callbacks ++ if r.listening then [⟨r, a.user?⟩] else [] }

/-- The request of a number is answered. -/
def respond (s : Firebase) (i : ℕ) (a : Answer) : Option Firebase :=
  s.requests[i]?.bind fun r =>
    if a.Possible s.accounts r.kind then some (s.answered i r a) else none

/-- `signOut`. -/
def signOut (s : Firebase) : Firebase := { s with currentUser := none }

/-- The first handler is taken from the queue. -/
def next (s : Firebase) : Firebase := { s with callbacks := s.callbacks.tail }

/-- The writes of a sign-up to the record of an account, and the read of the admin code. -/
def storeRecord (s : Firebase) (uid text : String) (writes : List SignUpWrite) : Firebase :=
  { s with
    hours := Function.update s.hours uid (writes.foldl Hours.applySignUp (s.hours uid))
    adminReads := s.adminReads ++ [⟨uid, text⟩] }

/-- The read of a number has been answered, and the flag is stored. -/
def storeAdmin (s : Firebase) (i : ℕ) (uid : String) (flag : Bool) : Firebase :=
  { s with
    adminReads := s.adminReads.eraseIdx i
    admin := Function.update s.admin uid (some flag) }

/-- The handlers are removed; the requests are answered all the same. -/
def removeListeners (s : Firebase) : Firebase :=
  { s with
    requests := s.requests.map fun r => { r with listening := false }
    callbacks := [] }

/-- The process of the client has ended. -/
def crash (s : Firebase) : Firebase := { s with requests := [], callbacks := [], adminReads := [] }

/-- The accounts whose sign-up is to be completed by a handler that waits. -/
def awaited (s : Firebase) : List String := s.callbacks.filterMap Callback.created?

/-- A handler waits that is told of a user. -/
def AwaitsUser (s : Firebase) : Prop := ∃ c ∈ s.callbacks, c.user.isSome

instance (s : Firebase) : Decidable s.AwaitsUser := by
  unfold AwaitsUser
  infer_instance

variable {s t : Firebase} {i : ℕ} {r : Request} {a : Answer}

/-- **Inversion of an answer.** -/
theorem respond_eq_some (h : s.respond i a = some t) : ∃ r, s.requests[i]? = some r ∧
    a.Possible s.accounts r.kind ∧ t = s.answered i r a := by
  obtain ⟨r, hr, h⟩ := Option.bind_eq_some_iff.1 h
  split_ifs at h with hpossible
  exact ⟨r, hr, hpossible, (Option.some.inj h).symm⟩

theorem awaited_answered : (s.answered i r a).awaited = s.awaited ++
    if r.listening ∧ a.user?.isSome then (a.created? r.kind).toList else [] := by
  rw [awaited, answered, List.filterMap_append, ← awaited]
  congr 1
  by_cases hr : r.listening
  · by_cases ha : a.user?.isSome
    · cases hc : a.created? r.kind <;> simp [hr, ha, hc, Callback.created?_mk]
    · simp [hr, ha, Callback.created?_mk]
  · simp [hr]

/-! ### Handlers that wait -/

/-- No handler waits, and none is left for what is answered. -/
structure Deaf (s : Firebase) : Prop where
  callbacks : s.callbacks = []
  requests : ∀ r ∈ s.requests, r.listening = false

instance (s : Firebase) : Decidable s.Deaf :=
  decidable_of_iff (s.callbacks = [] ∧ ∀ r ∈ s.requests, r.listening = false)
    ⟨fun h => ⟨h.1, h.2⟩, fun h => ⟨h.callbacks, h.requests⟩⟩

/-- An answer leaves a handler if there was one for it. -/
theorem deaf_respond_iff (ht : s.respond i a = some t) : t.Deaf ↔ s.Deaf := by
  obtain ⟨r, hr, -, rfl⟩ := respond_eq_some ht
  constructor
  · intro h
    have hcallbacks := h.callbacks
    rw [answered, List.append_eq_nil_iff] at hcallbacks
    have hr' : r.listening = false := by
      by_contra hlistening
      simp [hlistening] at hcallbacks
    refine ⟨hcallbacks.1, fun r' hmem => ?_⟩
    obtain ⟨j, hj⟩ := List.mem_iff_getElem?.1 hmem
    rcases eq_or_ne j i with rfl | hji
    · rwa [← Option.some.inj (hr.symm.trans hj)]
    · exact h.requests r' (List.mem_eraseIdx_iff_getElem?.2 ⟨j, hji, hj⟩)
  · intro h
    refine ⟨?_, fun r' hr' => h.requests r' (List.mem_of_mem_eraseIdx hr')⟩
    rw [answered, h.callbacks, h.requests r (List.mem_of_getElem? hr)]
    rfl

theorem Deaf.signOut (h : s.Deaf) : s.signOut.Deaf := ⟨h.callbacks, h.requests⟩

theorem Deaf.storeAdmin (h : s.Deaf) (i : ℕ) (uid : String) (flag : Bool) :
    (s.storeAdmin i uid flag).Deaf := ⟨h.callbacks, h.requests⟩

theorem Deaf.not_awaitsUser (h : s.Deaf) : ¬ s.AwaitsUser := by
  rintro ⟨c, hc, -⟩
  rw [h.callbacks] at hc
  cases hc

theorem deaf_removeListeners (s : Firebase) : s.removeListeners.Deaf where
  callbacks := rfl
  requests r hr := by
    obtain ⟨r', -, rfl⟩ := List.mem_map.1 hr
    rfl

theorem AwaitsUser.of_next (h : s.next.AwaitsUser) : s.AwaitsUser := by
  obtain ⟨c, hc, hsome⟩ := h
  exact ⟨c, List.mem_of_mem_tail hc, hsome⟩

/-- No answer signs the current user out. -/
theorem isSome_currentUser_respond (h : s.currentUser.isSome) (ht : s.respond i a = some t) :
    t.currentUser.isSome := by
  obtain ⟨r, -, -, rfl⟩ := respond_eq_some ht
  rw [answered, Option.isSome_or, h, Bool.or_true]

/-- Somebody is signed in when a handler begins to wait that is told of a user. -/
theorem AwaitsUser.isSome_respond (h : s.AwaitsUser → s.currentUser.isSome)
    (ht : s.respond i a = some t) (hwaits : t.AwaitsUser) : t.currentUser.isSome := by
  obtain ⟨r, hr, -, rfl⟩ := respond_eq_some ht
  obtain ⟨c, hc, hsome⟩ := hwaits
  rw [answered, Option.isSome_or, Bool.or_eq_true]
  rcases List.mem_append.1 hc with hc | hc
  · exact .inr (h ⟨c, hc, hsome⟩)
  · split_ifs at hc
    · rw [List.mem_singleton.1 hc] at hsome
      exact .inl hsome
    · cases hc

/-! ### Accounts without a record -/

/-- **No account is left without a record**: it has one, or its sign-up is to be completed by a
handler that waits. -/
def HasRecords (s : Firebase) : Prop :=
  ∀ uid ∈ s.accounts, uid ∈ s.awaited ∨ (s.hours uid).Complete

instance (s : Firebase) : Decidable s.HasRecords := by
  unfold HasRecords
  infer_instance

/-- No two handlers complete the same sign-up, and only those of accounts that exist; and nobody
stores a record before. -/
structure Sound (s : Firebase) : Prop where
  nodup : s.awaited.Nodup
  accounts : ∀ uid ∈ s.awaited, uid ∈ s.accounts
  absent : ∀ uid, uid ∉ s.accounts ∨ uid ∈ s.awaited → s.hours uid = Hours.absent

/-- The same accounts, handlers that complete sign-ups, and records. -/
structure Alike (s t : Firebase) : Prop where
  accounts : t.accounts = s.accounts
  awaited : t.awaited = s.awaited
  hours : t.hours = s.hours

theorem Alike.hasRecords_iff (h : Alike s t) : t.HasRecords ↔ s.HasRecords := by
  rw [HasRecords, HasRecords, h.accounts, h.awaited, h.hours]

theorem Sound.of_alike (hs : s.Sound) (h : Alike s t) : t.Sound where
  nodup := by rw [h.awaited]; exact hs.nodup
  accounts := by rw [h.awaited, h.accounts]; exact hs.accounts
  absent := by rw [h.awaited, h.accounts, h.hours]; exact hs.absent

theorem alike_send (s : Firebase) (r : Request) : Alike s (s.send r) := ⟨rfl, rfl, rfl⟩

theorem alike_signOut (s : Firebase) : Alike s s.signOut := ⟨rfl, rfl, rfl⟩

theorem alike_storeAdmin (s : Firebase) (i : ℕ) (uid : String) (flag : Bool) :
    Alike s (s.storeAdmin i uid flag) := ⟨rfl, rfl, rfl⟩

/-- A handler that completes no sign-up. -/
theorem alike_next {c : Callback} {cs : List Callback} (hcs : s.callbacks = c :: cs)
    (hc : c.created? = none) : Alike s s.next := by
  refine ⟨rfl, ?_, rfl⟩
  rw [awaited, awaited, next, hcs, List.tail_cons, List.filterMap_cons_none hc]

/-- The answer does not create an account that no handler is told of. -/
def Heard (s : Firebase) (i : ℕ) (a : Answer) : Prop :=
  ∀ r ∈ s.requests[i]?, (a.created? r.kind).isSome → r.listening = true ∧ a.user?.isSome = true

instance (s : Firebase) (i : ℕ) (a : Answer) : Decidable (s.Heard i a) := by
  unfold Heard
  infer_instance

theorem Sound.respond (hs : s.Sound) (ht : s.respond i a = some t) : t.Sound := by
  obtain ⟨r, hr, hpossible, rfl⟩ := respond_eq_some ht
  cases hcreated : a.created? r.kind with
  | none =>
      refine hs.of_alike ⟨by simp [answered, hcreated], ?_, rfl⟩
      rw [awaited_answered, hcreated]
      simp
  | some uid =>
      have hfresh : uid ∉ s.accounts := hpossible.notMem hcreated
      have hnot : uid ∉ s.awaited := fun huid => hfresh (hs.accounts uid huid)
      have haccounts : (s.answered i r a).accounts = uid :: s.accounts := by
        rw [answered, hcreated]
        rfl
      have hawaited : ∀ v ∈ (s.answered i r a).awaited, v ∈ s.awaited ∨ v = uid := by
        intro v hv
        rw [awaited_answered, hcreated, List.mem_append] at hv
        refine hv.imp_right fun hv => ?_
        split_ifs at hv
        · simpa using hv
        · cases hv
      refine ⟨?_, fun v hv => ?_, fun v hv => ?_⟩
      · rw [awaited_answered, hcreated]
        split_ifs
        · rw [Option.toList_some, ← List.concat_eq_append]
          exact hs.nodup.concat hnot
        · simpa using hs.nodup
      · rw [haccounts, List.mem_cons]
        exact (hawaited v hv).symm.imp_right (hs.accounts v)
      · change s.hours v = _
        rw [haccounts, List.mem_cons, not_or] at hv
        rcases hv with ⟨-, hv⟩ | hv
        · exact hs.absent v (.inl hv)
        · rcases hawaited v hv with hv | rfl
          · exact hs.absent v (.inr hv)
          · exact hs.absent v (.inl hfresh)

/-- **An answer leaves an account without a record exactly if no handler is told of it.** -/
theorem hasRecords_respond_iff (hs : s.Sound) (h : s.HasRecords) (ht : s.respond i a = some t) :
    t.HasRecords ↔ s.Heard i a := by
  obtain ⟨r, hr, hpossible, rfl⟩ := respond_eq_some ht
  have hheard : s.Heard i a ↔ ((a.created? r.kind).isSome →
      r.listening = true ∧ a.user?.isSome = true) := by
    simp only [Heard, hr, Option.mem_def, Option.some.injEq, forall_eq']
  rw [hheard]
  cases hcreated : a.created? r.kind with
  | none =>
      have halike : Alike s (s.answered i r a) := by
        refine ⟨by simp [answered, hcreated], ?_, rfl⟩
        rw [awaited_answered, hcreated]
        simp
      exact iff_of_true (halike.hasRecords_iff.2 h) nofun
  | some uid =>
      have hfresh : uid ∉ s.accounts := hpossible.notMem hcreated
      have haccounts : (s.answered i r a).accounts = uid :: s.accounts := by
        rw [answered, hcreated]
        rfl
      simp only [Option.isSome_some, forall_const]
      constructor
      · intro hall
        by_contra hnot
        -- nobody is told of the account, so it is not awaited, and has no record either
        have hsame : (s.answered i r a).awaited = s.awaited := by
          rw [awaited_answered, if_neg hnot, List.append_nil]
        rcases hall uid (by rw [haccounts]; exact List.mem_cons_self) with huid | hcomplete
        · rw [hsame] at huid
          exact hfresh (hs.accounts uid huid)
        · change (s.hours uid).Complete at hcomplete
          rw [hs.absent uid (.inl hfresh)] at hcomplete
          exact Hours.not_complete_absent hcomplete
      · intro hheard v hv
        have hawaited : (s.answered i r a).awaited = s.awaited ++ [uid] := by
          rw [awaited_answered, if_pos hheard, hcreated]
          rfl
        rw [haccounts, List.mem_cons] at hv
        rw [hawaited, List.mem_append, List.mem_singleton]
        rcases hv with rfl | hv
        · exact .inl (.inr rfl)
        · exact (h v hv).imp_left Or.inl

/-- The handler of a sign-up has been taken from the queue. -/
theorem awaited_next {c : Callback} {cs : List Callback} {uid : String}
    (hcs : s.callbacks = c :: cs) (hc : c.created? = some uid) :
    s.awaited = uid :: s.next.awaited := by
  rw [awaited, awaited, next, hcs, List.tail_cons, List.filterMap_cons_some hc]

section StoreRecord

variable {client : Client} {text name : String} {writes : List SignUpWrite} {c : Callback}
  {cs : List Callback} {uid : String}

/-- A sign-up is completed for its own account. -/
theorem Sound.storeRecord (hs : s.Sound) (hcs : s.callbacks = c :: cs)
    (hc : c.created? = some uid) : (s.next.storeRecord uid text writes).Sound := by
  have hawaited := awaited_next hcs hc
  have hnodup := hs.nodup
  rw [hawaited, List.nodup_cons] at hnodup
  have hmem : ∀ v ∈ s.next.awaited, v ∈ s.awaited := fun v hv => by
    rw [hawaited]
    exact List.mem_cons_of_mem uid hv
  have huid : uid ∈ s.accounts := hs.accounts uid (by rw [hawaited]; exact List.mem_cons_self)
  refine ⟨hnodup.2, fun v hv => hs.accounts v (hmem v hv), fun v hv => ?_⟩
  have hne : v ≠ uid := by
    rintro rfl
    exact hv.elim (fun hv => hv huid) fun hv => hnodup.1 hv
  change Function.update s.hours uid _ v = _
  rw [Function.update_of_ne hne]
  exact hs.absent v (hv.imp_right (hmem v))

/-- **A sign-up that is completed for an account leaves no account without a record exactly if it
is its own.** -/
theorem hasRecords_storeRecord_iff (hs : s.Sound) (h : s.HasRecords) (hcs : s.callbacks = c :: cs)
    (hc : c.created? = some uid) (hwrites : onComplete text name client = some writes)
    (v : String) : (s.next.storeRecord v text writes).HasRecords ↔ v = uid := by
  have hawaited := awaited_next hcs hc
  have hnodup := hs.nodup
  rw [hawaited, List.nodup_cons] at hnodup
  have huid : uid ∈ s.awaited := by rw [hawaited]; exact List.mem_cons_self
  have habsent := hs.absent uid (.inr huid)
  have hother : ∀ w, w ≠ v → (s.next.storeRecord v text writes).hours w = s.hours w :=
    fun w hw => Function.update_of_ne hw _ _
  constructor
  · intro hall
    by_contra hne
    rcases hall uid (hs.accounts uid huid) with hmem | hcomplete
    · exact hnodup.1 hmem
    · rw [hother uid (Ne.symm hne), habsent] at hcomplete
      exact Hours.not_complete_absent hcomplete
  · rintro rfl w hw
    by_cases hne : w = v
    · subst hne
      have hrecord : (s.next.storeRecord w text writes).hours w = Hours.created name := by
        have hsome : (onComplete text name client).isSome := by rw [hwrites]; rfl
        rw [← recordOf_of_isSome hsome, recordOf, hwrites, Option.getD_some, ← habsent]
        exact Function.update_self w _ _
      rw [hrecord]
      exact .inr (Hours.complete_created name)
    · rw [hother w hne]
      refine (h w hw).imp_left fun hmem => ?_
      rw [hawaited] at hmem
      exact (List.mem_cons.1 hmem).resolve_left hne

end StoreRecord

/-- **When all handlers are lost, no account is left without a record exactly if none of them was to
complete a sign-up.** -/
theorem hasRecords_drop_iff (hs : s.Sound) (h : s.HasRecords) (haccounts : t.accounts = s.accounts)
    (hhours : t.hours = s.hours) (hcallbacks : t.callbacks = []) :
    t.HasRecords ↔ s.awaited = [] := by
  have hnone : t.awaited = [] := by rw [awaited, hcallbacks]; rfl
  rw [HasRecords, haccounts, hhours, hnone]
  constructor
  · intro hall
    refine List.eq_nil_iff_forall_not_mem.2 fun uid huid => ?_
    rcases hall uid (hs.accounts uid huid) with hmem | hcomplete
    · cases hmem
    · rw [hs.absent uid (.inr huid)] at hcomplete
      exact Hours.not_complete_absent hcomplete
  · intro hawaited uid huid
    refine (h uid huid).imp_left fun hmem => ?_
    rwa [hawaited] at hmem

theorem Sound.drop (hs : s.Sound) (haccounts : t.accounts = s.accounts)
    (hhours : t.hours = s.hours) (hcallbacks : t.callbacks = []) : t.Sound := by
  have hnone : t.awaited = [] := by rw [awaited, hcallbacks]; rfl
  refine ⟨by rw [hnone]; exact List.nodup_nil, by simp [hnone], fun uid huid => ?_⟩
  rw [hhours]
  rw [haccounts, hnone] at huid
  exact hs.absent uid (.inl (huid.resolve_right List.not_mem_nil))

/-! ### One request at a time -/

/-- At most one request is under way, and the user that its handler is told of is the current
user. -/
structure Single (s : Firebase) : Prop where
  length : s.requests.length + s.callbacks.length ≤ 1
  current : ∀ c ∈ s.callbacks, ∀ user ∈ c.user, s.currentUser = some user

namespace Single

theorem send (hrequests : s.requests = []) (hcallbacks : s.callbacks = []) (r : Request) :
    (s.send r).Single where
  length := by simp [Firebase.send, hrequests, hcallbacks]
  current c hc := by
    rw [show (s.send r).callbacks = [] from hcallbacks] at hc
    cases hc

theorem respond (h : s.Single) (ht : s.respond i a = some t) : t.Single := by
  obtain ⟨r, hr, -, rfl⟩ := respond_eq_some ht
  obtain ⟨hi, -⟩ := List.getElem?_eq_some_iff.1 hr
  have hlength := h.length
  have hcallbacks : s.callbacks = [] := List.eq_nil_of_length_eq_zero (by omega)
  have herase : (s.requests.eraseIdx i).length = s.requests.length - 1 :=
    List.length_eraseIdx_of_lt hi
  refine ⟨?_, fun c hc user huser => ?_⟩
  · simp only [answered, hcallbacks, List.nil_append, herase]
    split_ifs <;> simp <;> omega
  · simp only [answered, hcallbacks, List.nil_append] at hc ⊢
    split_ifs at hc with hlistening
    · obtain rfl := List.mem_singleton.1 hc
      rw [show a.user? = some user from huser]
      rfl
    · cases hc

theorem next (h : s.Single) : s.next.Single where
  length := by
    have hlength := h.length
    simp only [Firebase.next, List.length_tail]
    omega
  current c hc := h.current c (List.mem_of_mem_tail hc)

theorem signOut (h : s.Single) (hcallbacks : s.callbacks = []) : s.signOut.Single where
  length := h.length
  current c hc := by
    rw [show s.signOut.callbacks = [] from hcallbacks] at hc
    cases hc

theorem removeListeners (h : s.Single) : s.removeListeners.Single where
  length := by
    have hlength := h.length
    simp only [Firebase.removeListeners, List.length_map, List.length_nil]
    omega
  current c hc := by cases hc

theorem crash (s : Firebase) : s.crash.Single := ⟨Nat.zero_le 1, nofun⟩

/-- **A request that is under way alone is completed for the account it has created.** -/
theorem own (h : s.Single) {c : Callback} {cs : List Callback} {uid : String}
    (hcs : s.callbacks = c :: cs) (hc : c.created? = some uid) :
    s.currentUser.map FirebaseUser.uid = some uid := by
  obtain ⟨⟨kind, email, password, screen, listening⟩, user⟩ := c
  cases kind with
  | signIn => cases hc
  | createUser =>
      obtain ⟨u, hu, rfl⟩ := Option.map_eq_some_iff.1 hc
      rw [h.current _ (by rw [hcs]; exact List.mem_cons_self) u hu]
      rfl

end Single

/-! ### Accounts that are left alone -/

/-- The accounts that there were in `s₀` have the records and flags they had, and no sign-up of
theirs is under way. -/
structure Apart (s₀ s : Firebase) : Prop where
  accounts : ∀ uid ∈ s₀.accounts, uid ∈ s.accounts
  awaited : ∀ uid ∈ s₀.accounts, uid ∉ s.awaited
  adminReads : ∀ r ∈ s.adminReads, r.uid ∉ s₀.accounts
  hours : ∀ uid ∈ s₀.accounts, s.hours uid = s₀.hours uid
  admin : ∀ uid ∈ s₀.accounts, s.admin uid = s₀.admin uid

namespace Apart

variable {s₀ : Firebase}

theorem refl (hawaited : s₀.awaited = []) (hreads : s₀.adminReads = []) : Apart s₀ s₀ where
  accounts _ huid := huid
  awaited := by simp [hawaited]
  adminReads := by simp [hreads]
  hours _ _ := rfl
  admin _ _ := rfl

theorem send (h : Apart s₀ s) (r : Request) : Apart s₀ (s.send r) :=
  ⟨h.accounts, h.awaited, h.adminReads, h.hours, h.admin⟩

theorem signOut (h : Apart s₀ s) : Apart s₀ s.signOut :=
  ⟨h.accounts, h.awaited, h.adminReads, h.hours, h.admin⟩

theorem respond (h : Apart s₀ s) (ht : s.respond i a = some t) : Apart s₀ t := by
  obtain ⟨r, hr, hpossible, rfl⟩ := respond_eq_some ht
  refine ⟨fun uid huid => List.mem_append_right _ (h.accounts uid huid), fun uid huid hmem => ?_,
    h.adminReads, h.hours, h.admin⟩
  rw [awaited_answered, List.mem_append] at hmem
  rcases hmem with hmem | hmem
  · exact h.awaited uid huid hmem
  · split_ifs at hmem
    · exact hpossible.notMem (Option.mem_toList.1 hmem) (h.accounts uid huid)
    · cases hmem

theorem next (h : Apart s₀ s) : Apart s₀ s.next where
  accounts := h.accounts
  awaited uid huid hmem :=
    h.awaited uid huid (((List.tail_sublist s.callbacks).filterMap _).subset hmem)
  adminReads := h.adminReads
  hours := h.hours
  admin := h.admin

/-- A sign-up is completed for an account that is being created. -/
theorem storeRecord (h : Apart s₀ s) {uid : String} (huid : uid ∉ s₀.accounts) (text : String)
    (writes : List SignUpWrite) : Apart s₀ (s.storeRecord uid text writes) where
  accounts := h.accounts
  awaited := h.awaited
  adminReads r hr := by
    rcases List.mem_append.1 hr with hr | hr
    · exact h.adminReads r hr
    · rwa [List.mem_singleton.1 hr]
  hours v hv := by
    have hne : v ≠ uid := fun heq => huid (heq ▸ hv)
    exact (Function.update_of_ne hne _ _).trans (h.hours v hv)
  admin := h.admin

theorem storeAdmin (h : Apart s₀ s) {r : AdminRead} (hr : s.adminReads[i]? = some r)
    (flag : Bool) : Apart s₀ (s.storeAdmin i r.uid flag) where
  accounts := h.accounts
  awaited := h.awaited
  adminReads r' hr' := h.adminReads r' (List.mem_of_mem_eraseIdx hr')
  hours := h.hours
  admin v hv := by
    have hne : v ≠ r.uid := fun heq =>
      h.adminReads r (List.mem_of_getElem? hr) (heq ▸ hv)
    exact (Function.update_of_ne hne _ _).trans (h.admin v hv)

theorem removeListeners (h : Apart s₀ s) : Apart s₀ s.removeListeners :=
  ⟨h.accounts, fun _ _ => List.not_mem_nil, h.adminReads, h.hours, h.admin⟩

theorem crash (h : Apart s₀ s) : Apart s₀ s.crash :=
  ⟨h.accounts, fun _ _ => List.not_mem_nil, nofun, h.hours, h.admin⟩

end Apart

/-! ### What a client does -/

/-- What an action of a client does to the service.  The handler of a sign-up stores the record of
whoever is signed in. -/
inductive Change (s : Firebase) : Firebase → Prop
  | same : Change s s
  | send (r : Request) : Change s (s.send r)
  | respond {i : ℕ} {a : Answer} {t : Firebase} (h : s.respond i a = some t) : Change s t
  | signOut : Change s s.signOut
  | next {c : Callback} {cs : List Callback} (hcs : s.callbacks = c :: cs)
      (hc : c.created? = none) : Change s s.next
  | storeRecord {c : Callback} {cs : List Callback} {uid text name : String} {user : FirebaseUser}
      {client : Client} {writes : List SignUpWrite} (hcs : s.callbacks = c :: cs)
      (hc : c.created? = some uid) (huser : s.currentUser = some user)
      (hwrites : onComplete text name client = some writes) :
      Change s (s.next.storeRecord user.uid text writes)
  | storeAdmin {i : ℕ} {r : AdminRead} (hr : s.adminReads[i]? = some r) (flag : Bool) :
      Change s (s.storeAdmin i r.uid flag)
  | removeListeners : Change s s.removeListeners
  | crash : Change s s.crash
  | crashNext : Change s s.next.crash

/-- The handlers stay sound as long as no account is left without a record. -/
theorem Sound.change (hs : s.Sound) (h : s.HasRecords) (hst : Change s t) (ht : t.HasRecords) :
    t.Sound := by
  cases hst with
  | same => exact hs
  | send r => exact hs.of_alike (alike_send s r)
  | respond ht => exact hs.respond ht
  | signOut => exact hs.of_alike (alike_signOut s)
  | next hcs hc => exact hs.of_alike (alike_next hcs hc)
  | storeRecord hcs hc huser hwrites =>
      have hown := (hasRecords_storeRecord_iff hs h hcs hc hwrites _).1 ht
      exact hs.storeRecord hcs (hown ▸ hc)
  | storeAdmin hr flag => exact hs.of_alike (alike_storeAdmin s _ _ flag)
  | removeListeners | crash | crashNext => exact hs.drop rfl rfl rfl

/-- **While requests are sent one at a time, nothing changes for the accounts that there are.** -/
theorem Apart.change {s₀ : Firebase} (h : Apart s₀ s) (hsingle : s.Single) (hst : Change s t) :
    Apart s₀ t := by
  cases hst with
  | same => exact h
  | send r => exact h.send r
  | respond ht => exact h.respond ht
  | signOut => exact h.signOut
  | next hcs hc => exact h.next
  | @storeRecord c cs uid text name user client writes hcs hc huser hwrites =>
      have hown := hsingle.own hcs hc
      rw [huser] at hown
      refine h.next.storeRecord (fun huid => h.awaited user.uid huid ?_) text writes
      rw [Option.some.inj hown, awaited_next hcs hc]
      exact List.mem_cons_self
  | storeAdmin hr flag => exact h.storeAdmin hr flag
  | removeListeners => exact h.removeListeners
  | crash => exact h.crash
  | crashNext => exact h.next.crash

end Firebase

end StudyHours
