/-
**The counters of a record under concurrent sessions.**

`numSessions` and `totalHours` are two counters that both clients update, an iOS device by reading
the value and writing the new one later, an Android client by a transaction.  This module follows
one of them through a run, whichever it is: what it holds, what it owes, what is in flight, and what
the submissions under way have still to add.

Main definitions:

* `StudyHours.accepted` — the credits of the sessions that an action accepts;
* `StudyHours.Counter`, `StudyHours.Counter.Lawful` — a counter of the record, and what the clients
  do to it;
* `StudyHours.Counter.Current` — an action loses nothing of the counter;
* `StudyHours.CounterInv` — the state of the counter in the middle of a run.

Main results:

* `StudyHours.CounterInv.step` — **an action keeps the counter exact if and only if it was exact
  and the action loses nothing**;
* `StudyHours.CounterInv.run` — the same for a run.
-/

import Mathlib
import StudyHours.Submissions
import StudyHours.Tally

set_option relaxedAutoImplicit false
set_option autoImplicit false

namespace StudyHours

open Account
open RecordViewController (Event Transition mem_captured)

/-! ### Accepted sessions -/

/-- The credits of the sessions an action accepts: the user answers `Yes` or `submit_hour`. -/
def accepted (s : Account) : Action → List ℚ
  | .ios d (.yes i) => ((s.device d).dialogs[i]?.map fun dlg => iosCredit dlg.interval).toList
  | .submit c i => ((s.fragment c).popups[i]?.map fun p => androidCredit p.diff).toList
  | _ => []

/-- The reads have found both counters, and the dialogs are about sessions that may be recorded. -/
structure ScreensInv (s : Account) : Prop where
  submissions : SubmissionsInv s
  captured : ∀ d, ∀ x ∈ (s.device d).captured, x.1.isSome ∧ x.2.isSome
  dialogs : ∀ d, ∀ dlg ∈ (s.device d).dialogs, 1800000 < dlg.interval

/-- No writes take a counter away. -/
theorem Hours.isSome_applyAll {h : Hours} (hn : h.numSessions.isSome) (ht : h.totalHours.isSome)
    (ws : List Write) : (h.applyAll ws).numSessions.isSome ∧ (h.applyAll ws).totalHours.isSome := by
  induction ws generalizing h with
  | nil => exact ⟨hn, ht⟩
  | cons w ws ih =>
      obtain ⟨hn', ht'⟩ := Hours.isSome_apply hn ht w
      exact ih hn' ht'

/-- **The reads stay sound** through every action. -/
theorem ScreensInv.trans {s t : Account} {a : Action} (h : ScreensInv s) (hst : Trans s a t) :
    ScreensInv t where
  submissions := h.submissions.trans hst
  captured := by
    refine hst.forall_device (P := fun vc => ∀ x ∈ vc.captured, x.1.isSome ∧ x.2.isSome) ?_ ?_
      h.captured
    · intro vc hs hvc
      rwa [RecordViewController.captured_notify]
    · intro d e vc ws htr hvc x hx
      rcases RecordViewController.captured_of_transition htr x hx with hx | ⟨-, rfl⟩
      · exact hvc x hx
      · exact Hours.isSome_applyAll h.submissions.numSessions h.submissions.totalHours _
  dialogs := by
    refine hst.forall_device (P := fun vc => ∀ dlg ∈ vc.dialogs, 1800000 < dlg.interval) ?_ ?_
      h.dialogs
    · intro vc hs hvc
      rwa [RecordViewController.dialogs_notify]
    · intro d e vc ws htr hvc
      exact RecordViewController.dialogs_of_transition htr hvc

/-! ### A counter of the record -/

/-- One of the two counters. -/
structure Counter (α : Type) where
  /-- The value of the counter, given the values of both. -/
  held : Option ℤ × Option ℚ → Option α
  /-- The value that a write of the counter was computed from, and the amount it adds. -/
  put? : Write → Option (α × α)
  /-- What a session of the given credit adds. -/
  amount : ℚ → α
  /-- What a submission has still to add. -/
  due : Submission → α
  /-- The handler of the transaction neither throws nor wraps around. -/
  Keeps : Account → Action → Prop

namespace Counter

section Data

variable {α : Type} (K : Counter α)

/-- The value of the counter in a record. -/
def value (h : Hours) : Option α := K.held (h.numSessions, h.totalHours)

/-- **The action loses nothing**: a write of the counter lands on the value it was computed from,
and the handler of a transaction does what it is meant to do. -/
def Current (s : Account) (a : Action) : Prop :=
  K.Keeps s a ∧ ∀ j, a = .land j → ∀ e ∈ s.outbox[j]?, ∀ p ∈ K.put? e.write, K.value s.db = some p.1

variable [AddCommGroup α]

/-- The amounts of the writes in flight. -/
def inFlight (l : List Entry) : α := ((l.filterMap fun e => K.put? e.write).map Prod.snd).sum

/-- The amounts of the submissions under way. -/
def outstanding (s : Account) : α := (s.submissions.map K.due).sum

/-- What an Android client can do to the counter: nothing, accept a session, or end a transaction,
which leaves a value `n` that is at most what it should be. -/
inductive AndroidEffect [LinearOrder α] (s t : Account) (a : Action) : Prop
  | quiet (hvalue : K.value t.db = K.value s.db) (hdue : K.outstanding t = K.outstanding s)
      (haccepted : accepted s a = []) (hkeeps : K.Keeps s a)
  | accept (credit : ℚ) (hvalue : K.value t.db = K.value s.db)
      (hdue : K.outstanding t = K.outstanding s + K.amount credit)
      (haccepted : accepted s a = [credit]) (hkeeps : K.Keeps s a)
  | update (v n amount : α) (hv : K.value s.db = some v) (hn : K.value t.db = some n)
      (hle : n ≤ v + amount) (hpos : 0 < amount)
      (hdue : K.outstanding t + amount = K.outstanding s)
      (haccepted : accepted s a = []) (hkeeps : K.Keeps s a ↔ n = v + amount)

/-- What the clients do to the counter. -/
structure Lawful [LinearOrder α] : Prop where
  value_apply : ∀ h w, K.value (h.apply w) = (K.put? w).elim (K.value h) fun p => some (p.1 + p.2)
  /-- Only the writes of the counters add to a counter. -/
  put?_child : ∀ w, (∀ n, w ≠ .numSessions n) → (∀ t c, w ≠ .totalHours t c) → K.put? w = none
  recordSession : ∀ interval n out t, ∃ b, K.held (some n, some t) = some b ∧
    (recordSession interval n out t).filterMap K.put? = [(b, K.amount (iosCredit interval))]
  amount_pos : ∀ credit, 0 < credit → 0 < K.amount credit
  keeps : ∀ s a, (∃ d e, a = .ios d e) ∨ (∃ j, a = .land j) → K.Keeps s a
  due_over : ∀ sub : Submission, sub.Over → K.due sub = 0
  android : ∀ s t a, SubmissionsInv s → Trans s a t → (∀ d e, a ≠ .ios d e) →
    (∀ j, a ≠ .land j) → AndroidEffect K s t a

end Data

section Available

variable {α : Type} [AddCommGroup α] [LinearOrder α] {K : Counter α} {T : Tally α}
  {ws ws' : List Write} {c : α}

/-- The values that a device with the writes `ws` in flight may have read: an earlier one of the
counter, or one that a write of its own will put there. -/
def Available (K : Counter α) (T : Tally α) (ws : List Write) (c : α) : Prop :=
  T.Past c ∨ ∃ w ∈ ws, ∃ p ∈ K.put? w, c = p.1 + p.2

theorem Available.mono (hc : K.Available T ws c)
    (hws : ∀ w ∈ ws, (K.put? w).isSome → w ∈ ws') : K.Available T ws' c := by
  rcases hc with hc | ⟨w, hw, p, hp, rfl⟩
  · exact .inl hc
  · exact .inr ⟨w, hws w hw (Option.isSome_of_mem hp), p, hp, rfl⟩

variable [IsOrderedAddMonoid α]

/-- A write lands: what was available stays available. -/
theorem Available.put {w₀ : Write} {p₀ : α × α} (hc : K.Available T ws c)
    (hp₀ : K.put? w₀ = some p₀) (hbase : T.Past p₀.1) (hpos : 0 < p₀.2)
    (hws : ∀ w ∈ ws, w = w₀ ∨ w ∈ ws') :
    K.Available (T.put p₀.1 p₀.2) ws' c := by
  rcases hc with hc | ⟨w, hw, p, hp, rfl⟩
  · exact .inl (hc.put hpos)
  · rcases hws w hw with rfl | hw'
    · -- the value of the very write that lands
      obtain rfl : p₀ = p := Option.some.inj (hp₀.symm.trans hp)
      exact .inl hbase.put_self
    · exact .inr ⟨w, hw', p, hp, rfl⟩

/-- Somebody else updates the counter: what was available stays available. -/
theorem Available.later {base amount : α} (hc : K.Available T ws c) (hpos : 0 < amount) :
    K.Available (T.put base amount) ws c := by
  rcases hc with hc | hc
  · exact .inl (hc.put hpos)
  · exact .inr hc

omit [IsOrderedAddMonoid α] in
/-- What a device sees in its view is available to it. -/
theorem available_of_value (hK : K.Lawful) {h : Hours} (hle : T.value ≤ T.owed)
    (hvalue : K.value h = some T.value) (ws : List Write) (hc : K.value (h.applyAll ws) = some c) :
    K.Available T ws c := by
  have key : ∀ (ws : List Write) (h : Hours), K.value (h.applyAll ws) = some c →
      K.value h = some c ∨ ∃ w ∈ ws, ∃ p ∈ K.put? w, c = p.1 + p.2 := by
    intro ws
    induction ws with
    | nil => exact fun h hc => .inl hc
    | cons w ws ih =>
        intro h hc
        rcases ih (h.apply w) hc with hc | ⟨w', hw', hp⟩
        · rw [hK.value_apply] at hc
          cases hp : K.put? w with
          | none =>
              rw [hp] at hc
              exact .inl hc
          | some p =>
              rw [hp] at hc
              exact .inr ⟨w, List.mem_cons_self, p, hp, (Option.some.inj hc).symm⟩
        · exact .inr ⟨w', List.mem_cons_of_mem w hw', hp⟩
  rcases key ws h hc with hc | hc
  · rw [hvalue, Option.some.injEq] at hc
    exact .inl (hc ▸ Tally.past_value hle)
  · exact .inr hc

end Available

section Writes

variable {α : Type} [AddCommGroup α] {K : Counter α}

/-- The writes an event issues, seen from the counter: none, or the one of an accepted session. -/
theorem put?_of_transition [LinearOrder α] (hK : K.Lawful) {s : Account} (hs : ScreensInv s)
    {d : ℕ} {e : Event} {vc : RecordViewController} {ws : List Write}
    (h : Transition (s.view d) (s.device d) e vc ws) :
    (ws.filterMap K.put? = [] ∧ accepted s (.ios d e) = []) ∨
    ∃ x ∈ (s.device d).captured, ∃ b ∈ K.held x, ∃ credit, 0 < credit ∧
      ws.filterMap K.put? = [(b, K.amount credit)] ∧ accepted s (.ios d e) = [credit] := by
  cases h with
  | @yes i dlg t hi ht =>
      obtain ⟨b, hb, hput⟩ := hK.recordSession dlg.interval dlg.numSessions dlg.out t
      have hmem : dlg ∈ (s.device d).dialogs := List.mem_of_getElem? hi
      have hlong := hs.dialogs d dlg hmem
      refine .inr ⟨_, mem_captured.2 (.inr (.inr ⟨dlg, hmem, rfl⟩)), b, ht ▸ hb,
        iosCredit dlg.interval, iosCredit_pos ?_, hput, ?_⟩
      · rw [tenthOfHour]
        omega
      · simp [accepted, hi]
  | @yesTrap i dlg hi ht =>
      -- the dialog was given `totalHours`
      have hmem : dlg ∈ (s.device d).dialogs := List.mem_of_getElem? hi
      have := (hs.captured d _ (mem_captured.2 (.inr (.inr ⟨dlg, hmem, rfl⟩)))).2
      rw [ht] at this
      cases this
  | start | tooShort | no =>
      exact .inl ⟨by simp [dismissSession, hK.put?_child], rfl⟩
  | _ => exact .inl ⟨rfl, rfl⟩

theorem inFlight_append (l l' : List Entry) :
    K.inFlight (l ++ l') = K.inFlight l + K.inFlight l' := by
  simp [inFlight]

theorem inFlight_sendAll (x : Sender) (ws : List Write) :
    K.inFlight (sendAll x ws) = ((ws.filterMap K.put?).map Prod.snd).sum := by
  rw [inFlight, sendAll, List.filterMap_map]
  rfl

theorem inFlight_cons (e : Entry) (l : List Entry) :
    K.inFlight (e :: l) = (K.put? e.write).elim 0 Prod.snd + K.inFlight l := by
  cases hp : K.put? e.write <;> simp [inFlight, hp]

end Writes

end Counter

/-! ### The counter in the middle of a run -/

section Invariant

variable {α : Type} [AddCommGroup α] [LinearOrder α] {K : Counter α} {v₀ total : α}
  {s t : Account} {T : Tally α}

/-- The state of a counter in the middle of a run: `T` is what it holds and owes, `v₀` what it held
at first, and `total` what the sessions accepted so far are to add. -/
structure CounterInv (K : Counter α) (v₀ : α) (s : Account) (T : Tally α) (total : α) : Prop where
  screens : ScreensInv s
  value : K.value s.db = some T.value
  le : T.value ≤ T.owed
  captured : ∀ d, ∀ x ∈ (s.device d).captured, ∀ c ∈ K.held x, K.Available T (own d s.outbox) c
  /-- Only devices have writes of the counter in flight. -/
  sender : ∀ e ∈ s.outbox, (K.put? e.write).isSome → ∃ d, e.sender = .ios d
  /-- Each of them was computed from a value that was available before it was issued. -/
  queue : ∀ d ws₁ w ws₂, own d s.outbox = ws₁ ++ w :: ws₂ →
    ∀ p ∈ K.put? w, 0 < p.2 ∧ K.Available T ws₁ p.1
  /-- Nothing is forgotten: what is not yet owed is in flight or under way. -/
  owed : T.owed + K.inFlight s.outbox + K.outstanding s = v₀ + total

namespace CounterInv

/-- What a device sees of the counter is available to it. -/
theorem available_view (hK : K.Lawful) (h : CounterInv K v₀ s T total) (d : ℕ) {c : α}
    (hc : c ∈ K.held ((s.view d).numSessions, (s.view d).totalHours)) :
    K.Available T (own d s.outbox) c :=
  Counter.available_of_value hK h.le h.value _ hc

/-- An event of a screen: the writes it issues join the queue of the device. -/
theorem issue (hK : K.Lawful) (h : CounterInv K v₀ s T total) {d : ℕ} {e : Event}
    {vc : RecordViewController} {ws : List Write}
    (htr : Transition (s.view d) (s.device d) e vc ws) :
    CounterInv K v₀ (s.issue d vc ws) T (total + ((accepted s (.ios d e)).map K.amount).sum) := by
  have hown : ∀ d', own d' (s.issue d vc ws).outbox =
      own d' s.outbox ++ if d' = d then ws else [] := by
    intro d'
    rw [outbox_issue, own_append]
    split_ifs with hd
    · rw [hd, own_sendAll_self]
    · rw [own_sendAll_of_ne fun heq => hd (Sender.ios.inj heq).symm]
  have hputs := Counter.put?_of_transition hK h.screens htr
  refine ⟨h.screens.trans (.ios htr), h.value, h.le, ?_, ?_, ?_, ?_⟩
  · intro d' x hx c hc
    have havail : K.Available T (own d' s.outbox) c := by
      rcases eq_or_ne d' d with rfl | hne
      · rw [device_issue_self, RecordViewController.captured_notify] at hx
        rcases RecordViewController.captured_of_transition htr x hx with hx | ⟨-, rfl⟩
        · exact h.captured d' x hx c hc
        · exact h.available_view hK d' hc
      · rw [device_issue_of_ne _ _ _ hne] at hx
        exact h.captured d' x hx c hc
    exact havail.mono fun w hw _ => by rw [hown]; exact List.mem_append_left _ hw
  · intro f hf hp
    rcases List.mem_append.1 hf with hf | hf
    · exact h.sender f hf hp
    · obtain ⟨w, -, rfl⟩ := List.mem_map.1 hf
      exact ⟨d, rfl⟩
  · intro d' ws₁ w ws₂ hsplit p hp
    rw [hown] at hsplit
    -- the write was in flight before, or the event has issued it
    rcases append_eq_append_cons hsplit with ⟨l, hl⟩ | ⟨l, rfl, hl⟩
    · exact h.queue d' ws₁ w l hl p hp
    · split_ifs at hl with hd
      · subst hd
        have hmem : p ∈ ws.filterMap K.put? := List.mem_filterMap.2 ⟨w, by simp [hl], hp⟩
        rcases hputs with ⟨hnone, -⟩ | ⟨x, hx, b, hb, credit, hpos, hput, -⟩
        · rw [hnone] at hmem
          cases hmem
        · rw [hput] at hmem
          obtain rfl := List.mem_singleton.1 hmem
          exact ⟨hK.amount_pos credit hpos, (h.captured d' x hx b hb).mono fun w' hw' _ =>
            List.mem_append_left _ hw'⟩
      · simp at hl
  · -- what the event accepts is in flight from now on
    have howed := h.owed
    have hflight : K.inFlight (s.issue d vc ws).outbox =
        K.inFlight s.outbox + ((accepted s (.ios d e)).map K.amount).sum := by
      rw [outbox_issue, Counter.inFlight_append, Counter.inFlight_sendAll]
      rcases hputs with ⟨hnone, hacc⟩ | ⟨x, -, b, -, credit, -, hput, hacc⟩
      · rw [hnone, hacc]
        rfl
      · rw [hput, hacc]
        rfl
    have hout : K.outstanding (s.issue d vc ws) = K.outstanding s := rfl
    rw [hflight, hout, ← add_assoc v₀, ← howed]
    abel

/-- An action of an Android client leaves the reads of the devices and their writes alone. -/
theorem android_frame (hK : K.Lawful) (h : CounterInv K v₀ s T total) {a : Action}
    (hst : Trans s a t) (hframe : AndroidFrame s t) {T' : Tally α} {total' : α}
    (hvalue : K.value t.db = some T'.value) (hle : T'.value ≤ T'.owed)
    (havail : ∀ ws c, K.Available T ws c → K.Available T' ws c)
    (howed : T'.owed + K.outstanding t + total = T.owed + K.outstanding s + total') :
    CounterInv K v₀ t T' total' := by
  obtain ⟨l, hout, hl⟩ := hframe.outbox
  have hsender : ∀ e ∈ l, (∀ d, e.sender ≠ .ios d) ∧ K.put? e.write = none := by
    intro e he
    obtain ⟨c, i, σ, n, rfl⟩ := hl e he
    refine ⟨nofun, hK.put?_child _ (fun m => ?_) fun q r => ?_⟩ <;> cases σ <;> simp [sessionWrite]
  have hown : ∀ d, own d t.outbox = own d s.outbox := by
    intro d
    rw [hout, own_append, own_eq_nil fun e he => (hsender e he).1 d, List.append_nil]
  have hflight : K.inFlight t.outbox = K.inFlight s.outbox := by
    have hnil : l.filterMap (fun e => K.put? e.write) = [] :=
      List.filterMap_eq_nil_iff.2 fun e he => (hsender e he).2
    rw [hout, Counter.inFlight_append]
    simp [Counter.inFlight, hnil]
  refine ⟨h.screens.trans hst, hvalue, hle, ?_, ?_, ?_, ?_⟩
  · intro d x hx c hc
    obtain ⟨hs, heq⟩ := hframe.device d
    rw [heq, RecordViewController.captured_notify] at hx
    rw [hown]
    exact havail _ _ (h.captured d x hx c hc)
  · intro e he hp
    rw [hout] at he
    rcases List.mem_append.1 he with he | he
    · exact h.sender e he hp
    · rw [(hsender e he).2] at hp
      cases hp
  · intro d ws₁ w ws₂ hsplit p hp
    rw [hown] at hsplit
    obtain ⟨hpos, hbase⟩ := h.queue d ws₁ w ws₂ hsplit p hp
    exact ⟨hpos, havail _ _ hbase⟩
  · have hold := h.owed
    rw [hflight]
    calc T'.owed + K.inFlight s.outbox + K.outstanding t
        = T'.owed + K.outstanding t + total - total + K.inFlight s.outbox := by abel
      _ = T.owed + K.inFlight s.outbox + K.outstanding s - total + total' := by rw [howed]; abel
      _ = v₀ + total' := by rw [hold]; abel

variable [IsOrderedAddMonoid α]

/-- An action of an Android client. -/
theorem android (hK : K.Lawful) (h : CounterInv K v₀ s T total) {a : Action} (hst : Trans s a t)
    (hios : ∀ d e, a ≠ .ios d e) (hland : ∀ j, a ≠ .land j) (hframe : AndroidFrame s t) :
    ∃ T', CounterInv K v₀ t T' (total + ((accepted s a).map K.amount).sum) ∧
      (T'.Exact ↔ T.Exact ∧ K.Keeps s a) := by
  cases hK.android s t a h.screens.submissions hst hios hland with
  | quiet hvalue hdue haccepted hkeeps =>
      refine ⟨T, h.android_frame hK hst hframe (hvalue.trans h.value) h.le (fun _ _ => id) ?_, ?_⟩
      · rw [hdue, haccepted]
        simp
      · simp [hkeeps]
  | accept credit hvalue hdue haccepted hkeeps =>
      refine ⟨T, h.android_frame hK hst hframe (hvalue.trans h.value) h.le (fun _ _ => id) ?_, ?_⟩
      · rw [hdue, haccepted, List.map_singleton, List.sum_singleton]
        abel
      · simp [hkeeps]
  | update v n amount hv hn hle hpos hdue haccepted hkeeps =>
      obtain rfl : T.value = v := Option.some.inj (h.value.symm.trans hv)
      -- whatever the transaction left, it counts as computed from `n - amount`
      have hpast : T.Past (n - amount) := by
        rcases (sub_le_iff_le_add.2 hle).eq_or_lt with heq | hlt
        · rw [heq]
          exact Tally.past_value h.le
        · exact Tally.past_of_lt h.le hlt
      refine ⟨T.put (n - amount) amount, h.android_frame hK hst hframe ?_ hpast.put_value_le
        (fun _ _ hc => hc.later hpos) ?_, ?_⟩
      · rw [Tally.put_value, sub_add_cancel, hn]
      · rw [Tally.put_owed, haccepted, ← hdue]
        simp only [List.map_nil, List.sum_nil]
        abel
      · rw [Tally.put_exact_iff hpast, hkeeps, eq_sub_iff_add_eq, eq_comm (a := n)]

omit [IsOrderedAddMonoid α] in
/-- A landing takes the write off the queue of its device and leaves the reads alone. -/
theorem landed_frame (h : CounterInv K v₀ s T total) {l₁ l₂ : List Entry} {e : Entry}
    (hout : s.outbox = l₁ ++ e :: l₂)
    (hfirst : ∀ e' ∈ l₁, e'.sender.sameClient e.sender = false) {T' : Tally α}
    (hvalue : K.value (s.landed l₁ e l₂).db = some T'.value) (hle : T'.value ≤ T'.owed)
    (havail : ∀ {ws ws' : List Write} {c : α}, (∀ w ∈ ws, w = e.write ∨ w ∈ ws') →
      K.Available T ws c → K.Available T' ws' c)
    (howed : T'.owed + K.inFlight (l₁ ++ l₂) + K.outstanding s = v₀ + total) :
    CounterInv K v₀ (s.landed l₁ e l₂) T' total := by
  have hst : Trans s (.land l₁.length) (s.landed l₁ e l₂) := .land hout rfl hfirst
  have hown : ∀ d, own d s.outbox = if e.sender = .ios d then e.write :: own d (l₁ ++ l₂)
      else own d (l₁ ++ l₂) := by
    intro d
    rw [hout]
    split_ifs with he
    · exact own_land_self he hfirst
    · exact own_land_of_ne he l₁ l₂
  have hmem : ∀ f ∈ l₁ ++ l₂, f ∈ s.outbox := by
    intro f hf
    rw [hout]
    simp only [List.mem_append, List.mem_cons] at hf ⊢
    tauto
  refine ⟨h.screens.trans hst, hvalue, hle, ?_, fun f hf => h.sender f (hmem f hf), ?_, howed⟩
  · intro d x hx c hc
    have hcaptured : ((s.landed l₁ e l₂).device d).captured = (s.device d).captured :=
      captured_landed _ _ _ _ _
    rw [hcaptured] at hx
    refine havail (fun w hw => ?_) (h.captured d x hx c hc)
    rw [hown] at hw
    split_ifs at hw
    · exact List.mem_cons.1 hw
    · exact .inr hw
  · intro d ws₁ w ws₂ hsplit p hp
    have hold := hown d
    rw [outbox_landed] at hsplit
    split_ifs at hold
    · rw [hsplit, ← List.cons_append] at hold
      obtain ⟨hpos, hbase⟩ := h.queue d _ w ws₂ hold p hp
      exact ⟨hpos, havail (fun w' hw' => List.mem_cons.1 hw') hbase⟩
    · obtain ⟨hpos, hbase⟩ := h.queue d ws₁ w ws₂ (hold.trans hsplit) p hp
      exact ⟨hpos, havail (fun w' hw' => .inr hw') hbase⟩

/-- A landing. -/
theorem landed (hK : K.Lawful) (h : CounterInv K v₀ s T total) {l₁ l₂ : List Entry} {e : Entry}
    (hout : s.outbox = l₁ ++ e :: l₂)
    (hfirst : ∀ e' ∈ l₁, e'.sender.sameClient e.sender = false) :
    ∃ T', CounterInv K v₀ (s.landed l₁ e l₂) T' total ∧
      (T'.Exact ↔ T.Exact ∧ ∀ p ∈ K.put? e.write, K.value s.db = some p.1) := by
  have hflight : K.inFlight s.outbox =
      (K.put? e.write).elim 0 Prod.snd + K.inFlight (l₁ ++ l₂) := by
    rw [hout, Counter.inFlight_append, Counter.inFlight_cons, Counter.inFlight_append]
    abel
  have hvalue : K.value (s.landed l₁ e l₂).db =
      (K.put? e.write).elim (K.value s.db) fun p => some (p.1 + p.2) := by
    rw [db_landed, hK.value_apply]
  have howed := h.owed
  cases hp : K.put? e.write with
  | none =>
      rw [hp, Option.elim_none] at hvalue hflight
      rw [hflight, zero_add] at howed
      refine ⟨T, h.landed_frame hout hfirst (hvalue.trans h.value) h.le ?_ howed, by simp⟩
      intro ws ws' c hws hc
      refine hc.mono fun w hw hsome => (hws w hw).resolve_left ?_
      rintro rfl
      rw [hp] at hsome
      cases hsome
  | some p₀ =>
      rw [hp, Option.elim_some] at hvalue hflight
      obtain ⟨d₀, hd₀⟩ := h.sender e (by simp [hout]) (by rw [hp]; rfl)
      -- the write is the first of its device, so it was computed from a value of the counter itself
      have hfirst₀ : own d₀ s.outbox = [] ++ e.write :: own d₀ (l₁ ++ l₂) := by
        rw [hout]
        exact own_land_self hd₀ hfirst
      obtain ⟨hpos, hbase⟩ := h.queue d₀ [] e.write _ hfirst₀ p₀ hp
      have hpast : T.Past p₀.1 := by
        rcases hbase with hbase | ⟨w, hw, -⟩
        · exact hbase
        · cases hw
      refine ⟨T.put p₀.1 p₀.2, h.landed_frame hout hfirst hvalue hpast.put_value_le
        (fun hws hc => hc.put hp hpast hpos hws) ?_, ?_⟩
      · rw [Tally.put_owed, ← howed, hflight]
        abel
      · rw [Tally.put_exact_iff hpast, h.value]
        simp

/-- **One action**: the counter is exact afterwards if and only if it was exact before and the
action loses nothing. -/
theorem step (hK : K.Lawful) (h : CounterInv K v₀ s T total) {a : Action} (hst : Trans s a t) :
    ∃ T', CounterInv K v₀ t T' (total + ((accepted s a).map K.amount).sum) ∧
      (T'.Exact ↔ T.Exact ∧ K.Current s a) := by
  rcases hst.kinds with ⟨d, e, vc, ws, rfl, htr, rfl⟩ | ⟨l₁, e, l₂, rfl, hout, hfirst, rfl⟩ |
    ⟨hios, hland, hframe⟩
  · refine ⟨T, h.issue hK htr, ?_⟩
    simp [Counter.Current, hK.keeps _ _ (.inl ⟨d, e, rfl⟩)]
  · obtain ⟨T', hT', hex⟩ := h.landed hK hout hfirst
    refine ⟨T', by simpa [accepted] using hT', ?_⟩
    rw [hex]
    simp [Counter.Current, hK.keeps _ _ (.inr ⟨_, rfl⟩), hout]
  · obtain ⟨T', hT', hex⟩ := h.android hK hst hios hland hframe
    exact ⟨T', hT', by simp [hex, Counter.Current, hland]⟩

/-- **A whole run**: the counter is exact at its end if and only if no action of the run loses
anything. -/
theorem run (hK : K.Lawful) (h : CounterInv K v₀ s T 0) (hex : T.Exact) :
    ∀ acts t, Execution.run Account.step s acts = some t →
      ∃ T',
        CounterInv K v₀ t T' ((Execution.collect Account.step accepted s acts).map K.amount).sum ∧
        (T'.Exact ↔ Execution.Along Account.step K.Current s acts) := by
  refine Execution.run_induction ⟨T, by simpa using h, by simp [hex]⟩ ?_
  rintro acts t a u ht ⟨T₁, hT₁, hex₁⟩ hu
  obtain ⟨T₂, hT₂, hex₂⟩ := hT₁.step hK (trans_of_step hu)
  refine ⟨T₂, ?_, ?_⟩
  · rwa [Execution.collect_snoc ht, List.map_append, List.sum_append]
  · rw [hex₂, hex₁, Execution.along_snoc ht]

omit [IsOrderedAddMonoid α] in
/-- When nothing is in flight or under way, the counter is exact if and only if it has grown by what
the accepted sessions were to add. -/
theorem exact_iff (h : CounterInv K v₀ s T total) (hflight : K.inFlight s.outbox = 0)
    (hout : K.outstanding s = 0) : T.Exact ↔ K.value s.db = some (v₀ + total) := by
  have howed := h.owed
  rw [hflight, hout, add_zero, add_zero] at howed
  rw [h.value, Option.some.injEq, ← howed]
  rfl

end CounterInv

end Invariant

end StudyHours
