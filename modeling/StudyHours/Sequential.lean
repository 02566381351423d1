/-
**Sessions one after another, on iOS.**

Here the clients are used one after another.  A tap of the record button is made when no device has
anything outstanding, no write of another device is in flight and no Android client is in a session;
a session on Android is started when everything is over everywhere, and the handlers of its
transactions are run on nothing or on what the record says.  The clock never goes back.

These are conditions on the states that the clients are in, all that the ledger needs; that they
hold where each session is over before the next one is started is proved in `Sessions`.  This module
has the conditions, and what an iOS device does under them: the view of the device whose turn it is
represents the ledger of the sessions that have been recorded so far.

Main definitions:

* `StudyHours.InTurn` — the clients are used one after another;
* `StudyHours.Action.time?`, `StudyHours.recorded` — the time of an action, and the session that it
  records;
* `StudyHours.AndroidIdle` — no Android client is in a session;
* `StudyHours.IosTurn` — what holds while an iOS device is in a session, and between sessions.

Main results:

* `StudyHours.IosTurn.ios`, `StudyHours.IosTurn.land` — **what an iOS device records is the next
  session of the ledger**.
-/

import Mathlib
import StudyHours.Ledger
import StudyHours.Turns

set_option relaxedAutoImplicit false
set_option autoImplicit false

namespace StudyHours

open Account
open RecordViewController (Event Transition)

/-! ### One after another -/

/-- The toggle is off and no popup is open. -/
def HomeFragment.AtRest (f : HomeFragment) : Prop := f.isChecked = false ∧ f.popups = []

instance (f : HomeFragment) : Decidable f.AtRest := by
  unfold HomeFragment.AtRest
  infer_instance

/-- If the action is a tap of the record button, nothing of device `d` or client `c` is under way,
no submission and no write of another device.  If it starts a session on Android, nothing is under
way and no session is in progress.  A handler is run on nothing or on the value of the record. -/
def InTurnOn (d c : ℕ) (s : Account) : Action → Prop
  | .ios d' .tap => (s.device d).Idle ∧ (∀ e ∈ s.outbox, e.sender = .ios d') ∧
      (s.fragment c).AtRest ∧ ∀ sub ∈ s.submissions, sub.Over
  | .toggle c' _ _ => (s.fragment c').isChecked = true ∨
      (s.device d).Idle ∧ s.outbox = [] ∧ (s.fragment c).AtRest ∧
        (∀ sub ∈ s.submissions, sub.Over) ∧ s.db.inProgress? = none
  | .runHours _ v => v = none ∨ v = s.db.totalHours
  | .runSessions _ v => v = none ∨ v = s.db.numSessions
  | _ => True

instance (d c : ℕ) (s : Account) (a : Action) : Decidable (InTurnOn d c s a) := by
  induction a using Action.casesOn with
  | ios d e => induction e using Event.casesOn <;> dsimp only [InTurnOn] <;> infer_instance
  | _ => dsimp only [InTurnOn]; infer_instance

/-- The clients are used one after another. -/
def InTurn (s : Account) (a : Action) : Prop := ∀ d c, InTurnOn d c s a

/-- The time that an action reads off the clock. -/
def Action.time? : Action → Option ℤ
  | .ios _ (.outer _ now) | .ios _ (.inner _ now) => some now
  | .toggle _ _ currentTimeMillis => some currentTimeMillis
  | _ => none

/-- The session that the user confirms: by `Yes` on iOS, by `submit_hour` on Android. -/
def recorded (s : Account) : Action → List Recording
  | .ios d (.yes i) => ((s.device d).dialogs[i]?.map fun dlg =>
      (⟨.ios, ⟨dlg.out - dlg.interval, dlg.out⟩⟩ : Recording)).toList
  | .submit c i => ((s.fragment c).popups[i]?.map fun popup =>
      (⟨.android, popup.session⟩ : Recording)).toList
  | _ => []

/-- Nothing is confirmed on an idle screen. -/
theorem recorded_of_idle {s : Account} {d : ℕ} (h : (s.device d).Idle) (e : Event) :
    recorded s (.ios d e) = [] := by
  cases e with
  | yes i => simp [recorded, h.2.2]
  | _ => rfl

/-- No Android client is in a session. -/
structure AndroidIdle (s : Account) : Prop where
  fragments : ∀ c, (s.fragment c).AtRest
  submissions : ∀ sub ∈ s.submissions, sub.Over

theorem AndroidIdle.issue {s : Account} (h : AndroidIdle s) {d : ℕ} {vc : RecordViewController}
    {ws : List Write} : AndroidIdle (s.issue d vc ws) := ⟨h.fragments, h.submissions⟩

theorem InTurn.of_tap {s : Account} {d : ℕ} (h : InTurn s (.ios d .tap)) :
    (∀ d', (s.device d').Idle) ∧ (∀ e ∈ s.outbox, e.sender = .ios d) ∧ AndroidIdle s :=
  ⟨fun d' => (h d' 0).1, (h 0 0).2.1, fun c => (h 0 c).2.2.1, (h 0 0).2.2.2⟩

theorem InTurn.of_toggle {s : Account} {c : ℕ} {elapsedRealtime now : ℤ}
    (h : InTurn s (.toggle c elapsedRealtime now)) (hc : (s.fragment c).isChecked = false) :
    (∀ d, (s.device d).Idle) ∧ s.outbox = [] ∧ AndroidIdle s ∧ s.db.inProgress? = none := by
  have hall : ∀ d c', (s.device d).Idle ∧ s.outbox = [] ∧ (s.fragment c').AtRest ∧
      (∀ sub ∈ s.submissions, sub.Over) ∧ s.db.inProgress? = none := fun d c' =>
    (h d c').resolve_left (by rw [hc]; exact Bool.false_ne_true)
  obtain ⟨-, hout, -, hsub, hnone⟩ := hall 0 0
  exact ⟨fun d => (hall d 0).1, hout, ⟨fun c' => (hall 0 c').2.2.1, hsub⟩, hnone⟩

/-! ### A session on iOS -/

/-- The child under the next free number is that of a session which started after the others. -/
def Started (L : Ledger) (τ : ℤ) (next : Option SessionNode) : Prop :=
  next = none ∨ ∃ t, next = some (.inOnly t) ∧ L.EndsBy t ∧ t ≤ τ

/-- It is the turn of device `A`, or nobody's: the view of the device represents the ledger, and
what it has outstanding is up to date.  No time is later than `τ`. -/
structure IosTurn (L : Ledger) (τ : ℤ) (s : Account) (A : ℕ) : Prop where
  android : AndroidIdle s
  others : ∀ d, d ≠ A → (s.device d).Idle
  sender : ∀ e ∈ s.outbox, e.sender = .ios A
  turn : (s.device A).Idle ∨ Pending (s.view A) (s.device A)
  dialogs : ∀ dlg ∈ (s.device A).dialogs, dlg.out ≤ τ
  record : ∃ next, Represents (s.view A) L next ∧ Started L τ next
  endsBy : L.EndsBy τ

theorem Started.mono {L : Ledger} {τ τ' : ℤ} {next : Option SessionNode} (h : Started L τ next)
    (hle : τ ≤ τ') : Started L τ' next := by
  rcases h with h | ⟨t, h, hL, ht⟩
  · exact .inl h
  · exact .inr ⟨t, h, hL, ht.trans hle⟩

/-- A session that is in progress may be started again. -/
theorem Started.forget {L : Ledger} {τ : ℤ} {next : Option SessionNode} (h : Started L τ next) :
    next = none ∨ ∃ t, next = some (.inOnly t) :=
  h.imp_right fun ⟨t, ht, _⟩ => ⟨t, ht⟩

@[simp] theorem view_issue_nil (s : Account) (d d' : ℕ) (vc : RecordViewController) :
    (s.issue d vc []).view d' = s.view d' := by
  simp [view, sendAll]

namespace IosTurn

variable {L : Ledger} {τ : ℤ} {s : Account} {A : ℕ}

theorem mono (h : IosTurn L τ s A) {τ' : ℤ} (hle : τ ≤ τ') : IosTurn L τ' s A where
  android := h.android
  others := h.others
  sender := h.sender
  turn := h.turn
  dialogs dlg hdlg := (h.dialogs dlg hdlg).trans hle
  record := by
    obtain ⟨next, hr, hs⟩ := h.record
    exact ⟨next, hr, hs.mono hle⟩
  endsBy := h.endsBy.mono hle

/-- Between two sessions the record represents the ledger. -/
theorem represents (h : IosTurn L τ s A) (hout : s.outbox = []) (hnone : s.db.inProgress? = none) :
    Represents s.db L none := by
  obtain ⟨next, hr, -⟩ := h.record
  rw [view_eq_db (by rw [hout]; rfl)] at hr
  rwa [← hnone, hr.inProgress?]

/-- The record represents the ledger and nothing is under way: it is nobody's turn. -/
theorem of_idle (handroid : AndroidIdle s) (hidle : ∀ d, (s.device d).Idle) (hout : s.outbox = [])
    {next : Option SessionNode} (hr : Represents s.db L next) (hs : Started L τ next)
    (hL : L.EndsBy τ) (A : ℕ) : IosTurn L τ s A where
  android := handroid
  others d _ := hidle d
  sender e he := by rw [hout] at he; cases he
  turn := .inl (hidle A)
  dialogs dlg hdlg := by rw [(hidle A).2.2] at hdlg; cases hdlg
  record := ⟨next, by rwa [view_eq_db (by rw [hout]; rfl)], hs⟩
  endsBy := hL

/-- The turn goes to device `d`, when nothing is outstanding and no write of another device is in
flight. -/
theorem pass (h : IosTurn L τ s A) {d : ℕ} (hidle : ∀ d', (s.device d').Idle)
    (hsender : ∀ e ∈ s.outbox, e.sender = .ios d) : IosTurn L τ s d := by
  rcases eq_or_ne d A with rfl | hne
  · exact h
  · have hout : s.outbox = [] := by
      refine List.eq_nil_iff_forall_not_mem.2 fun e he => hne ?_
      exact Sender.ios.inj ((hsender e he).symm.trans (h.sender e he))
    obtain ⟨next, hr, hs⟩ := h.record
    rw [view_eq_db (by rw [hout]; rfl)] at hr
    exact .of_idle h.android hidle hout hr hs h.endsBy d

/-- An event of an idle screen that is no tap. -/
theorem quiet (h : IosTurn L τ s A) {d : ℕ} {vc : RecordViewController} (hvc : vc.Idle) :
    IosTurn L τ (s.issue d vc []) A := by
  have hdevice : ∀ d', (s.issue d vc []).device d' = if d' = d then vc else s.device d' := by
    intro d'
    split_ifs with heq
    · subst heq
      rw [device_issue_self]
      exact RecordViewController.notify_nil vc
    · exact device_issue_of_ne _ _ _ heq
  refine ⟨h.android.issue, fun d' hne => ?_, by simpa [sendAll] using h.sender, ?_, ?_, ?_,
    h.endsBy⟩
  · rw [hdevice]
    split_ifs
    · exact hvc
    · exact h.others d' hne
  · rw [hdevice, view_issue_nil]
    split_ifs
    · exact .inl hvc
    · exact h.turn
  · rw [hdevice]
    split_ifs
    · intro dlg hdlg
      rw [hvc.2.2] at hdlg
      cases hdlg
    · exact h.dialogs
  · simpa only [view_issue_nil] using h.record

/-- An event of the screen whose turn it is, with what it issues: what is left to show. -/
theorem issue (h : IosTurn L τ s A) {L' : Ledger} {vc : RecordViewController} {ws : List Write}
    (hnext : vc.Idle ∨ ws = [] ∧ Pending (s.view A) vc) (hdialogs : ∀ dlg ∈ vc.dialogs, dlg.out ≤ τ)
    (hr : ∃ next, Represents ((s.view A).applyAll ws) L' next ∧ Started L' τ next)
    (hL : L'.EndsBy τ) : IosTurn L' τ (s.issue A vc ws) A where
  android := h.android.issue
  others d hne := by
    rw [device_issue_of_ne _ _ _ hne]
    exact h.others d hne
  sender e he := by
    rw [outbox_issue, List.mem_append] at he
    rcases he with he | he
    · exact h.sender e he
    · obtain ⟨w, -, rfl⟩ := List.mem_map.1 he
      rfl
  turn := by
    rw [idle_issue_self]
    refine hnext.imp id ?_
    rintro ⟨rfl, hvc⟩
    rw [view_issue_nil]
    exact hvc.congr (by simp) (by simp) (by simp)
  dialogs dlg hdlg := by
    rw [device_issue_self, RecordViewController.dialogs_notify] at hdlg
    exact hdialogs dlg hdlg
  record := by rwa [view_issue_self]
  endsBy := hL

/-- A tap on a screen whose turn it is. -/
theorem tap (h : IosTurn L τ s A) (hidle : (s.device A).Idle) :
    IosTurn L τ (s.issue A (s.device A).startRecording []) A := by
  obtain ⟨houter, hinner, hdialogs⟩ := hidle
  refine h.issue (.inr ⟨rfl, .outer none ?_ hinner hdialogs nofun⟩) h.dialogs h.record h.endsBy
  simp [RecordViewController.startRecording, houter]

/-- **An event of the screen whose turn it is**: what it records is the next session. -/
theorem active (h : IosTurn L τ s A) {e : Event} {vc : RecordViewController} {ws : List Write}
    (hpending : Pending (s.view A) (s.device A)) (htap : e ≠ .tap)
    (htr : Transition (s.view A) (s.device A) e vc ws)
    (hclock : ∀ x ∈ (Action.ios A e).time?, x = τ) :
    ∃ L' : Ledger, L'.recordings = L.recordings ++ recorded s (.ios A e) ∧
      IosTurn L' τ (s.issue A vc ws) A := by
  obtain ⟨hissues, hnext⟩ := pending_of_transition hpending htap htr
  obtain ⟨next, hr, hs⟩ := h.record
  have hdialogs : ∀ dlg ∈ vc.dialogs, dlg.out ≤ τ := by
    intro dlg hdlg
    rcases RecordViewController.mem_dialogs_of_transition htr hdlg with hdlg | ⟨⟨i, rfl⟩, -⟩
    · exact h.dialogs dlg hdlg
    · exact (hclock _ rfl).le
  have hnone : (∀ i, e ≠ .yes i) → L.recordings = L.recordings ++ recorded s (.ios A e) := by
    intro he
    cases e with
    | yes i => exact absurd rfl (he i)
    | _ => exact (List.append_nil _).symm
  cases hissues with
  | nothing he => exact ⟨L, hnone he, h.issue hnext hdialogs ⟨next, hr, hs⟩ h.endsBy⟩
  | @checkIn n hn i t =>
      obtain rfl : L.count = n := Option.some.inj (hr.numSessions.symm.trans hn)
      obtain rfl : t = τ := hclock t rfl
      refine ⟨L, hnone nofun, h.issue hnext hdialogs ⟨_, hr.checkIn t hs.forget, ?_⟩ h.endsBy⟩
      exact .inr ⟨t, rfl, h.endsBy, le_rfl⟩
  | @dismiss n _ hn he =>
      obtain rfl : L.count = n := Option.some.inj (hr.numSessions.symm.trans hn)
      exact ⟨L, hnone he, h.issue hnext hdialogs ⟨none, hr.dismiss, .inl rfl⟩ h.endsBy⟩
  | @record i dlg q hi hdlg hq =>
      obtain rfl : L.hours = q := Option.some.inj (hr.totalHours.symm.trans hq)
      have hcount : L.count = dlg.numSessions :=
        Option.some.inj (hr.numSessions.symm.trans hdlg.numSessions)
      -- the child in progress is the one the dialog asks about
      have hin := hdlg.inTime
      rw [Hours.inTime?, ← hcount, hr.children.next] at hin
      obtain rfl | ⟨t, rfl, hafter, -⟩ := hs
      · cases hin
      · obtain rfl : t = dlg.out - dlg.interval := Option.some.inj hin
        have hlong : 1800000 ≤
            (⟨.ios, ⟨dlg.out - dlg.interval, dlg.out⟩⟩ : Recording).length := by
          have hlong := hdlg.long
          simp only [Recording.length, sub_sub_cancel]
          omega
        have hout : dlg.out ≤ τ := h.dialogs dlg (List.mem_of_getElem? hi)
        have hrecord := hr.recordSession hlong hafter
        rw [sub_sub_cancel, hcount] at hrecord
        refine ⟨L.record _ hlong hafter, ?_, h.issue hnext hdialogs ⟨none, hrecord, .inl rfl⟩
          (h.endsBy.record hout hlong hafter)⟩
        rw [Ledger.recordings_record, recorded, hi]
        rfl
  | trap hq =>
      rw [hr.totalHours] at hq
      cases hq

/-- **An event of an iOS device**: what it records is the next session. -/
theorem ios (h : IosTurn L τ s A) {d : ℕ} {e : Event} {vc : RecordViewController} {ws : List Write}
    (ha : InTurn s (.ios d e)) (htr : Transition (s.view d) (s.device d) e vc ws)
    (hclock : ∀ x ∈ (Action.ios d e).time?, x = τ) :
    ∃ L' : Ledger, L'.recordings = L.recordings ++ recorded s (.ios d e) ∧
      ∃ A', IosTurn L' τ (s.issue d vc ws) A' := by
  by_cases htap : e = .tap
  · subst htap
    obtain ⟨hidle, hsender, -⟩ := ha.of_tap
    cases htr with
    | tap _ =>
        exact ⟨L, (List.append_nil _).symm, d, (h.pass hidle hsender).tap (hidle d)⟩
  · by_cases hidle : (s.device d).Idle
    · obtain ⟨hvc, rfl⟩ := idle_of_transition hidle htap htr
      exact ⟨L, by rw [recorded_of_idle hidle, List.append_nil], A, h.quiet hvc⟩
    · obtain rfl : d = A := by
        by_contra hne
        exact hidle (h.others d hne)
      obtain ⟨L', hL', hturn⟩ := h.active (h.turn.resolve_left hidle) htap htr hclock
      exact ⟨L', hL', d, hturn⟩

/-- A write lands. -/
theorem land (h : IosTurn L τ s A) {l₁ l₂ : List Entry} {e : Entry}
    (hout : s.outbox = l₁ ++ e :: l₂) (hfirst : ∀ e' ∈ l₁, e'.sender.sameClient e.sender = false) :
    IosTurn L τ (s.landed l₁ e l₂) A := by
  have he : e.sender = .ios A := h.sender e (by simp [hout])
  have hdevice : (s.landed l₁ e l₂).device A = s.device A := device_landed_self he
  have hview : (s.landed l₁ e l₂).view A = s.view A := view_land_self hout he hfirst
  refine ⟨⟨h.android.fragments, h.android.submissions⟩, fun d hne => ?_, fun f hf => ?_, ?_, ?_, ?_,
    h.endsBy⟩
  · rw [idle_landed]
    exact h.others d hne
  · refine h.sender f ?_
    rw [hout]
    rw [outbox_landed] at hf
    simp only [List.mem_append, List.mem_cons] at hf ⊢
    tauto
  · rw [hdevice, hview]
    exact h.turn
  · rw [hdevice]
    exact h.dialogs
  · rw [hview]
    exact h.record

end IosTurn

end StudyHours
