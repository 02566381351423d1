/-
**iOS devices that take turns.**

Several devices may show the record screen at the same time.  In this module a tap is handled to its
end before the next one is made anywhere: its reads are delivered, its dialog is answered and its
writes land.  Then at most one device has something outstanding, a single read or dialog, and what
its callbacks were given is what the record still says.

Main definitions:

* `StudyHours.TakesTurns` — the condition on taps and launches;
* `StudyHours.Tidy` — a record with no child beyond the next free number;
* `StudyHours.Pending` — a screen with a single read or dialog, which is up to date;
* `StudyHours.TurnInv` — the devices take turns, and the record stays tidy.

Main results:

* `StudyHours.TurnInv.trans` — the invariant survives every action that takes turns.
-/

import Mathlib
import StudyHours.Submissions

set_option relaxedAutoImplicit false
set_option autoImplicit false

namespace StudyHours

open Account
open RecordViewController (Event Transition idle_initial observe_eq)

/-! ### Taking turns -/

/-- The action is one of an iOS device.  If it is a tap, device `d` has nothing outstanding and no
write is in flight; a screen is loaded again only when it has nothing outstanding, and no read is
cancelled. -/
def TakesTurnsOn (d : ℕ) (s : Account) : Action → Prop
  | .ios _ .tap => (s.device d).Idle ∧ s.outbox = []
  | .ios d' .launch => (s.device d').Idle
  | .ios _ (.cancelOuter _) | .ios _ (.cancelInner _) => False
  | .ios _ _ | .land _ => True
  | _ => False

instance (d : ℕ) (s : Account) (a : Action) : Decidable (TakesTurnsOn d s a) := by
  induction a using Action.casesOn with
  | ios d e => induction e using Event.casesOn <;> dsimp only [TakesTurnsOn] <;> infer_instance
  | _ => dsimp only [TakesTurnsOn]; infer_instance

/-- Only iOS devices act, and each tap is handled to its end, whichever device has to do with it,
before the next one is made. -/
def TakesTurns (s : Account) (a : Action) : Prop := ∀ d, TakesTurnsOn d s a

/-- No session child beyond the next free number. -/
def Tidy (h : Hours) : Prop :=
  h.Canonical ∧ ∃ n, h.numSessions = some n ∧ ∀ k, n + 1 < k → h.child k = none

/-- The read of a child that a stop has issued is what the record `h` still says. -/
structure InnerRead.UpToDate (r : InnerRead) (h : Hours) : Prop where
  numSessions : h.numSessions = some r.numSessions
  totalHours : r.totalHours = h.totalHours
  arrived : ∀ c ∈ r.arrived, c = h.child (r.numSessions + 1)

/-- The dialog asks about the session that the record `h` still shows as in progress. -/
structure Dialog.UpToDate (dlg : Dialog) (h : Hours) : Prop where
  numSessions : h.numSessions = some dlg.numSessions
  totalHours : dlg.totalHours = h.totalHours
  inTime : h.inTime? (dlg.numSessions + 1) = some (dlg.out - dlg.interval)
  long : 1800000 < dlg.interval

/-- The screen has a single read or dialog outstanding, and what its callbacks were given is what
the record `h` still says. -/
inductive Pending (h : Hours) (vc : RecordViewController) : Prop
  | outer (o : Option Hours) (houter : vc.outer = [o]) (hinner : vc.inner = [])
      (hdialogs : vc.dialogs = []) (ho : ∀ x ∈ o, x = h)
  | inner (r : InnerRead) (houter : vc.outer = []) (hinner : vc.inner = [r])
      (hdialogs : vc.dialogs = []) (hr : r.UpToDate h)
  | dialog (dlg : Dialog) (houter : vc.outer = []) (hinner : vc.inner = [])
      (hdialogs : vc.dialogs = [dlg]) (hdlg : dlg.UpToDate h)

/-- What the device whose turn it is may issue, and at which events. -/
inductive Issues (h : Hours) (vc : RecordViewController) : Event → List Write → Prop
  | nothing {e : Event} (he : ∀ i, e ≠ .yes i) : Issues h vc e []
  | checkIn {n : ℤ} (hn : h.numSessions = some n) (i : ℕ) (t : ℤ) :
      Issues h vc (.outer i t) [.checkIn (n + 1) t]
  | dismiss {n : ℤ} {e : Event} (hn : h.numSessions = some n) (he : ∀ i, e ≠ .yes i) :
      Issues h vc e (dismissSession n)
  | record {i : ℕ} {dlg : Dialog} {q : ℚ} (hi : vc.dialogs[i]? = some dlg) (hdlg : dlg.UpToDate h)
      (hq : h.totalHours = some q) :
      Issues h vc (.yes i) (recordSession dlg.interval dlg.numSessions dlg.out q)
  | trap {i : ℕ} (hq : h.totalHours = none) : Issues h vc (.yes i) []

/-! ### Tidy records -/

theorem Tidy.numSessions {h : Hours} (ht : Tidy h) : h.numSessions.isSome := by
  obtain ⟨-, n, hn, -⟩ := ht
  simp [hn]

/-- A write to a child up to the next free number. -/
theorem Tidy.apply {h : Hours} {n : ℤ} {w : Write} (ht : Tidy h) (hn : h.numSessions = some n)
    (hw : (h.apply w).numSessions = some n) (hkey : ∀ k, w.key? = some k → k ≤ n + 1) :
    Tidy (h.apply w) := by
  obtain ⟨hc, m, hm, hfree⟩ := ht
  obtain rfl : n = m := Option.some.inj (hn.symm.trans hm)
  refine ⟨hc.apply w, n, hw, fun k hk => ?_⟩
  rw [Hours.child_apply_of_ne h fun heq => absurd (hkey k heq) (by omega)]
  exact hfree k hk

/-- The number of sessions is increased. -/
theorem Tidy.apply_numSessions {h : Hours} {n : ℤ} (ht : Tidy h) (hn : h.numSessions = some n) :
    Tidy (h.apply (.numSessions n)) := by
  obtain ⟨hc, m, hm, hfree⟩ := ht
  obtain rfl : n = m := Option.some.inj (hn.symm.trans hm)
  exact ⟨hc.apply _, n + 1, rfl, fun k hk => hfree k (by omega)⟩

/-- The record is tidy now and after each of the writes. -/
def TidyAlong : Hours → List Write → Prop
  | h, [] => Tidy h
  | h, w :: ws => Tidy h ∧ TidyAlong (h.apply w) ws

theorem TidyAlong.tidy {h : Hours} {ws : List Write} (ht : TidyAlong h ws) : Tidy h := by
  cases ws with
  | nil => exact ht
  | cons w ws => exact ht.1

theorem TidyAlong.applyAll {h : Hours} {ws : List Write} (ht : TidyAlong h ws) :
    Tidy (h.applyAll ws) := by
  induction ws generalizing h with
  | nil => exact ht
  | cons w ws ih => exact ih ht.2

/-- The writes of a turn leave the record tidy, one by one. -/
theorem Tidy.issues {h : Hours} {vc : RecordViewController} {e : Event} {ws : List Write}
    (ht : Tidy h) (hws : Issues h vc e ws) : TidyAlong h ws := by
  cases hws with
  | nothing _ | trap _ => exact ht
  | @checkIn n hn i t =>
      refine ⟨ht, ht.apply hn hn fun k hk => ?_⟩
      obtain rfl : n + 1 = k := Option.some.inj hk
      exact le_rfl
  | @dismiss n _ hn _ =>
      refine ⟨ht, ht.apply hn hn fun k hk => ?_⟩
      obtain rfl : n + 1 = k := Option.some.inj hk
      exact le_rfl
  | @record i dlg q _ hdlg _ =>
      have h₁ : Tidy (h.apply (.numSessions dlg.numSessions)) :=
        ht.apply_numSessions hdlg.numSessions
      have h₂ : Tidy ((h.apply (.numSessions dlg.numSessions)).apply
          (.checkOut (dlg.numSessions + 1) dlg.out)) := by
        refine h₁.apply (n := dlg.numSessions + 1) rfl rfl fun k hk => ?_
        obtain rfl : dlg.numSessions + 1 = k := Option.some.inj hk
        omega
      exact ⟨ht, h₁, h₂, h₂.apply (n := dlg.numSessions + 1) rfl rfl nofun⟩

/-! ### The device whose turn it is -/

section Turn

variable {view : Hours} {vc vc' : RecordViewController} {e : Event} {ws : List Write}

/-- Nothing happens on an idle screen but taps, launches and snapshots. -/
theorem idle_of_transition (h : vc.Idle) (htap : e ≠ .tap) (htr : Transition view vc e vc' ws) :
    vc'.Idle ∧ ws = [] := by
  obtain ⟨houter, hinner, hdialogs⟩ := h
  cases htr with
  | launch | observeTrap _ _ => exact ⟨idle_initial _, rfl⟩
  | attach _ => exact ⟨⟨houter, hinner, hdialogs⟩, rfl⟩
  | observe _ hvc' =>
      obtain ⟨screen, -, rfl⟩ := observe_eq hvc'
      exact ⟨⟨houter, hinner, hdialogs⟩, rfl⟩
  | tap _ => exact absurd rfl htap
  | arriveOuter hi | start hi _ _ | stop hi _ _ | outerTrap hi _ => simp [houter] at hi
  | cancelOuter hi => simp [houter] at hi
  | arriveInner hi | confirm hi _ _ | tooShort hi _ _ | innerTrap hi _ => simp [hinner] at hi
  | cancelInner hi => simp [hinner] at hi
  | yes hi _ | yesTrap hi _ | no hi => simp [hdialogs] at hi

/-- A screen depends on its reads and dialogs only. -/
theorem Pending.congr (h : Pending view vc) (houter : vc'.outer = vc.outer)
    (hinner : vc'.inner = vc.inner) (hdialogs : vc'.dialogs = vc.dialogs) : Pending view vc' := by
  cases h with
  | outer o ho hi hd hn => exact .outer o (houter.trans ho) (hinner.trans hi) (hdialogs.trans hd) hn
  | inner r ho hi hd hn => exact .inner r (houter.trans ho) (hinner.trans hi) (hdialogs.trans hd) hn
  | dialog dlg ho hi hd hn =>
      exact .dialog dlg (houter.trans ho) (hinner.trans hi) (hdialogs.trans hd) hn

theorem getElem?_singleton {β : Type*} {l : List β} {x y : β} {i : ℕ} (hl : l = [x])
    (hi : l[i]? = some y) : i = 0 ∧ x = y := by
  obtain ⟨hlt, hget⟩ := List.getElem?_eq_some_iff.1 hi
  subst hl
  obtain rfl : i = 0 := by simpa using hlt
  exact ⟨rfl, hget⟩

/-- The read of the record that is outstanding. -/
theorem Pending.of_outer (h : Pending view vc) {i : ℕ} {o : Option Hours}
    (hi : vc.outer[i]? = some o) : i = 0 ∧ vc.outer = [o] ∧ vc.inner = [] ∧ vc.dialogs = [] ∧
      ∀ x ∈ o, x = view := by
  cases h with
  | outer o' houter hinner hdialogs hn =>
      obtain ⟨rfl, rfl⟩ := getElem?_singleton houter hi
      exact ⟨rfl, houter, hinner, hdialogs, hn⟩
  | inner r houter _ _ _ => simp [houter] at hi
  | dialog dlg houter _ _ _ => simp [houter] at hi

/-- The read of a child that is outstanding. -/
theorem Pending.of_inner (h : Pending view vc) {i : ℕ} {r : InnerRead}
    (hi : vc.inner[i]? = some r) : i = 0 ∧ vc.outer = [] ∧ vc.inner = [r] ∧ vc.dialogs = [] ∧
      r.UpToDate view := by
  cases h with
  | outer o _ hinner _ _ => simp [hinner] at hi
  | inner r' houter hinner hdialogs hn =>
      obtain ⟨rfl, rfl⟩ := getElem?_singleton hinner hi
      exact ⟨rfl, houter, hinner, hdialogs, hn⟩
  | dialog dlg _ hinner _ _ => simp [hinner] at hi

/-- The dialog that is open. -/
theorem Pending.of_dialog (h : Pending view vc) {i : ℕ} {dlg : Dialog}
    (hi : vc.dialogs[i]? = some dlg) : i = 0 ∧ vc.outer = [] ∧ vc.inner = [] ∧
      vc.dialogs = [dlg] ∧ dlg.UpToDate view := by
  cases h with
  | outer o _ _ hdialogs _ => simp [hdialogs] at hi
  | inner r _ _ hdialogs _ => simp [hdialogs] at hi
  | dialog dlg' houter hinner hdialogs hn =>
      obtain ⟨rfl, rfl⟩ := getElem?_singleton hdialogs hi
      exact ⟨rfl, houter, hinner, hdialogs, hn⟩

/-- A screen with one thing outstanding goes on to the next one, or it is done and issues its
writes. -/
theorem pending_of_transition (h : Pending view vc) (htap : e ≠ .tap)
    (htr : Transition view vc e vc' ws) :
    Issues view vc e ws ∧ (vc'.Idle ∨ ws = [] ∧ Pending view vc') := by
  cases htr with
  | tap _ => exact absurd rfl htap
  | @cancelOuter i hi =>
      obtain ⟨rfl, houter, hinner, hdialogs, -⟩ := h.of_outer (List.getElem?_eq_getElem hi)
      exact ⟨.nothing nofun, .inl ⟨congrArg (List.eraseIdx · 0) houter, hinner, hdialogs⟩⟩
  | @cancelInner i hi =>
      obtain ⟨rfl, houter, hinner, hdialogs, -⟩ := h.of_inner (List.getElem?_eq_getElem hi)
      exact ⟨.nothing nofun, .inl ⟨houter, congrArg (List.eraseIdx · 0) hinner, hdialogs⟩⟩
  | launch | observeTrap _ _ | outerTrap _ _ | innerTrap _ _ =>
      exact ⟨.nothing nofun, .inl (idle_initial _)⟩
  | yesTrap hi hq =>
      obtain ⟨-, -, -, -, hdlg⟩ := h.of_dialog hi
      exact ⟨.trap (hdlg.totalHours ▸ hq), .inl (idle_initial _)⟩
  | attach _ => exact ⟨.nothing nofun, .inr ⟨rfl, h.congr rfl rfl rfl⟩⟩
  | observe _ hvc' =>
      obtain ⟨screen, -, rfl⟩ := observe_eq hvc'
      exact ⟨.nothing nofun, .inr ⟨rfl, h.congr rfl rfl rfl⟩⟩
  | arriveOuter hi =>
      obtain ⟨rfl, houter, hinner, hdialogs, -⟩ := h.of_outer hi
      refine ⟨.nothing nofun, .inr ⟨rfl, .outer (some view) (by simp [houter]) hinner hdialogs ?_⟩⟩
      rintro x hx
      rw [← Option.some.inj hx]
  | @start i now snapshot n hi hn hrec =>
      obtain ⟨rfl, houter, hinner, hdialogs, hview⟩ := h.of_outer hi
      obtain rfl := hview snapshot rfl
      refine ⟨.checkIn hn _ now, .inl ⟨?_, hinner, hdialogs⟩⟩
      simp [houter]
  | @stop i now snapshot n hi hn hrec =>
      obtain ⟨rfl, houter, hinner, hdialogs, hview⟩ := h.of_outer hi
      obtain rfl := hview snapshot rfl
      refine ⟨.nothing nofun, .inr ⟨rfl, .inner ⟨n, snapshot.totalHours, none⟩ ?_ ?_ hdialogs
        ⟨hn, rfl, nofun⟩⟩⟩
      · simp [houter]
      · simp [hinner]
  | @arriveInner i n t hi =>
      obtain ⟨rfl, houter, hinner, hdialogs, hr⟩ := h.of_inner hi
      refine ⟨.nothing nofun, .inr ⟨rfl, .inner ⟨n, t, some (view.child (n + 1))⟩ houter ?_ hdialogs
        ⟨hr.numSessions, hr.totalHours, fun c hc => ?_⟩⟩⟩
      · simp [hinner]
      · exact (Option.some.inj hc).symm
  | @confirm i now n inTime t child hi hin hlong =>
      obtain ⟨rfl, houter, hinner, hdialogs, hr⟩ := h.of_inner hi
      refine ⟨.nothing nofun, .inr ⟨rfl, .dialog ⟨now - inTime, n, now, t⟩ houter ?_ ?_
        ⟨hr.numSessions, hr.totalHours, ?_, hlong⟩⟩⟩
      · simp [hinner]
      · simp [hdialogs]
      · -- the interval leads from the check-in to the stop
        rw [sub_sub_cancel, ← hin, hr.arrived child rfl]
        rfl
  | @tooShort i now n inTime t child hi _ _ =>
      obtain ⟨rfl, houter, hinner, hdialogs, hr⟩ := h.of_inner hi
      exact ⟨.dismiss hr.numSessions nofun, .inl ⟨houter, by simp [hinner], hdialogs⟩⟩
  | @yes i dlg q hi hq =>
      obtain ⟨rfl, houter, hinner, hdialogs, hdlg⟩ := h.of_dialog hi
      exact ⟨.record hi hdlg (hdlg.totalHours ▸ hq), .inl ⟨houter, hinner, by simp [hdialogs]⟩⟩
  | @no i dlg hi =>
      obtain ⟨rfl, houter, hinner, hdialogs, hdlg⟩ := h.of_dialog hi
      exact ⟨.dismiss hdlg.numSessions nofun, .inl ⟨houter, hinner, by simp [hdialogs]⟩⟩

end Turn

/-! ### The invariant -/

/-- At most one device has something outstanding, and while it has, no write is in flight; the
writes in flight are those of one device, and the record is tidy after each of them. -/
structure TurnInv (s : Account) : Prop where
  turn : ∃ A, (∀ d, d ≠ A → (s.device d).Idle) ∧ (∀ e ∈ s.outbox, e.sender = .ios A) ∧
    ((s.device A).Idle ∨ s.outbox = [] ∧ Pending s.db (s.device A))
  tidy : ∀ d, TidyAlong s.db (own d s.outbox)

namespace TurnInv

variable {s t : Account} {a : Action}

/-- Nothing is outstanding or in flight. -/
theorem of_idle (hidle : ∀ d, (s.device d).Idle) (hout : s.outbox = []) (htidy : Tidy s.db) :
    TurnInv s where
  turn := ⟨0, fun d _ => hidle d, by simp [hout], .inl (hidle 0)⟩
  tidy d := by rw [hout]; exact htidy

/-- The view of every device is tidy. -/
theorem tidy_view (h : TurnInv s) (d : ℕ) : Tidy (s.view d) := (h.tidy d).applyAll

/-- An event of an idle screen: a snapshot, a launch, or a tap that begins a turn. -/
theorem issue_idle (h : TurnInv s) {d : ℕ} {e : Event} {vc : RecordViewController}
    {ws : List Write} (hidle : (s.device d).Idle) (ha : TakesTurns s (.ios d e))
    (htr : Transition (s.view d) (s.device d) e vc ws) : TurnInv (s.issue d vc ws) ∧ ws = [] := by
  by_cases htap : e = .tap
  · subst htap
    have hout : s.outbox = [] := (ha d).2
    cases htr with
    | tap _ =>
        obtain ⟨houter, hinner, hdialogs⟩ := hidle
        refine ⟨⟨⟨d, ?_, by simp [hout, sendAll], .inr ⟨by simp [hout, sendAll], ?_⟩⟩, ?_⟩, rfl⟩
        · intro d' hne
          rw [device_issue_of_ne _ _ _ hne]
          exact (ha d').1
        · rw [device_issue_self]
          refine .outer none ?_ ?_ ?_ (by simp)
          · simp [RecordViewController.startRecording, houter]
          · simp [RecordViewController.startRecording, hinner]
          · simp [RecordViewController.startRecording, hdialogs]
        · intro d'
          simpa [sendAll] using h.tidy d'
  · obtain ⟨hvc, rfl⟩ := idle_of_transition hidle htap htr
    obtain ⟨A, hothers, hsender, hA⟩ := h.turn
    refine ⟨⟨⟨A, ?_, by simpa [sendAll] using hsender, ?_⟩, by simpa [sendAll] using h.tidy⟩, rfl⟩
    · intro d' hne
      rcases eq_or_ne d' d with rfl | hd
      · rw [idle_issue_self]
        exact hvc
      · rw [device_issue_of_ne _ _ _ hd]
        exact hothers d' hne
    · rcases eq_or_ne A d with rfl | hd
      · rw [idle_issue_self]
        exact .inl hvc
      · rw [device_issue_of_ne _ _ _ hd]
        simpa [sendAll] using hA

/-- An event of the screen whose turn it is. -/
theorem issue_pending (h : TurnInv s) {d : ℕ} {e : Event} {vc : RecordViewController}
    {ws : List Write} (hidle : ¬ (s.device d).Idle) (ha : TakesTurns s (.ios d e))
    (htr : Transition (s.view d) (s.device d) e vc ws) :
    TurnInv (s.issue d vc ws) ∧ s.outbox = [] ∧ Pending s.db (s.device d) ∧
      Issues s.db (s.device d) e ws ∧ (vc.Idle ∨ ws = [] ∧ Pending s.db vc) := by
  obtain ⟨A, hothers, hsender, hA⟩ := h.turn
  obtain rfl : d = A := by
    by_contra hne
    exact hidle (hothers d hne)
  obtain ⟨hout, hpending⟩ := hA.resolve_left hidle
  have hview : s.view d = s.db := view_eq_db (by rw [hout]; rfl)
  have htidy : Tidy s.db := (h.tidy d).tidy
  have hpending' : Pending (s.view d) (s.device d) := hview ▸ hpending
  obtain ⟨hissues, hnext⟩ := pending_of_transition hpending'
    (by rintro rfl; exact hidle (ha d).1) htr
  rw [hview] at hissues hnext
  refine ⟨⟨⟨d, ?_, ?_, ?_⟩, ?_⟩, hout, hpending, hissues, hnext⟩
  · intro d' hne
    rw [device_issue_of_ne _ _ _ hne]
    exact hothers d' hne
  · intro f hf
    rw [outbox_issue, hout, List.nil_append] at hf
    obtain ⟨w, -, rfl⟩ := List.mem_map.1 hf
    rfl
  · rw [idle_issue_self]
    refine hnext.imp id ?_
    rintro ⟨rfl, hvc⟩
    exact ⟨by simp [hout, sendAll], hvc.congr (by simp) (by simp) (by simp)⟩
  · intro d'
    rw [outbox_issue, hout, List.nil_append, db_issue]
    rcases eq_or_ne d' d with rfl | hne
    · rw [own_sendAll_self]
      exact htidy.issues hissues
    · rw [own_sendAll_of_ne fun heq => hne (Sender.ios.inj heq).symm]
      exact htidy

/-- A write lands. -/
theorem landed (h : TurnInv s) {l₁ l₂ : List Entry} {e : Entry} (hout : s.outbox = l₁ ++ e :: l₂)
    (hfirst : ∀ e' ∈ l₁, e'.sender.sameClient e.sender = false) :
    TurnInv (s.landed l₁ e l₂) ∧ ∃ A, e.sender = .ios A ∧ l₁ = [] ∧ (∀ d, (s.device d).Idle) ∧
      ∀ d, d ≠ A → own d s.outbox = [] := by
  have hst : Trans s (.land l₁.length) (s.landed l₁ e l₂) := .land hout rfl hfirst
  obtain ⟨A, hothers, hsender, hA⟩ := h.turn
  have he : e.sender = .ios A := hsender e (by simp [hout])
  have hall : ∀ d, (s.device d).Idle := by
    intro d
    by_cases hd : d = A
    · subst hd
      refine hA.resolve_right fun hempty => ?_
      rw [hempty.1] at hout
      exact absurd hout (by simp)
    · exact hothers d hd
  have hidle : ∀ d, ((s.landed l₁ e l₂).device d).Idle := by
    intro d
    rw [idle_landed]
    exact hall d
  have hl₁ : l₁ = [] := by
    refine List.eq_nil_iff_forall_not_mem.2 fun e' he' => ?_
    have hother := hfirst e' he'
    rw [hsender e' (by simp [hout, he']), he] at hother
    simp [Sender.sameClient] at hother
  have hown : ∀ d, d ≠ A → own d s.outbox = [] := by
    intro d hne
    refine own_eq_nil fun f hf => ?_
    rw [hsender f hf]
    exact fun heq => hne (Sender.ios.inj heq).symm
  refine ⟨⟨⟨A, fun d _ => hidle d, fun f hf => hsender f ?_, .inl (hidle A)⟩, fun d => ?_⟩, A, he,
    hl₁, hall, hown⟩
  · rw [hout]
    simp only [outbox_landed, List.mem_append, List.mem_cons] at hf ⊢
    tauto
  · have hA' : TidyAlong (s.db.apply e.write) (own A (l₁ ++ l₂)) := by
      have htidy := h.tidy A
      rw [hout, own_land_self he hfirst] at htidy
      exact htidy.2
    rcases eq_or_ne d A with rfl | hne
    · exact hA'
    · have hnil : own d (l₁ ++ l₂) = [] := by
        have hnil := hown d hne
        rwa [hout, own_land_of_ne fun heq => hne (Sender.ios.inj (he.symm.trans heq)).symm] at hnil
      rw [outbox_landed, hnil]
      exact hA'.tidy

/-- **The invariant survives every action that takes turns.** -/
theorem trans (h : TurnInv s) (ha : TakesTurns s a) (hst : Trans s a t) : TurnInv t := by
  cases hst with
  | @ios d e vc ws htr =>
      by_cases hidle : (s.device d).Idle
      · exact (h.issue_idle hidle ha htr).1
      · exact (h.issue_pending hidle ha htr).1
  | land hout _ hfirst => exact (h.landed hout hfirst).1
  | _ => exact absurd (ha 0) id

end TurnInv

/-! ### A single device -/

/-- Nobody but the user of device `d` taps. -/
def TapsOn (d : ℕ) : Action → Prop
  | .ios d' .tap => d' = d
  | _ => True

instance (d : ℕ) (a : Action) : Decidable (TapsOn d a) := by
  induction a using Action.casesOn with
  | ios d e => induction e using Event.casesOn <;> dsimp only [TapsOn] <;> infer_instance
  | _ => dsimp only [TapsOn]; infer_instance

/-- A screen that nobody taps has nothing outstanding. -/
theorem idle_of_tapsOn {d : ℕ} {s t : Account} {a : Action} (h : ∀ d', d' ≠ d → (s.device d').Idle)
    (ha : TapsOn d a) (hst : Trans s a t) : ∀ d', d' ≠ d → (t.device d').Idle := by
  intro d' hne
  by_cases hios : ∃ d₀ e, a = .ios d₀ e
  · obtain ⟨d₀, e, rfl⟩ := hios
    cases hst with
    | ios htr =>
        rcases eq_or_ne d' d₀ with rfl | hd
        · rw [idle_issue_self]
          exact (idle_of_transition (h d' hne) (by rintro rfl; exact hne ha) htr).1
        · rw [device_issue_of_ne _ _ _ hd]
          exact h d' hne
  · push Not at hios
    obtain ⟨hs, heq⟩ := hst.device_notify hios d'
    rw [heq, RecordViewController.idle_notify]
    exact h d' hne

end StudyHours
