/-
**The iOS history screen while it is open.**

The observer of the iOS history screen is run on every snapshot of the record.  What it shows is
never behind: after the last snapshot it has the total that the device sees, and every session that
is finished then.  Whether the table is right as well depends on the snapshots, which have to be
ascending; clients that are used at the same time do not see to that.  Clients that are used one
after another do, and not only between two sessions: a check-in, a dismissal, the three writes of a
confirmation and the write of an Android session each leave the finished sessions as they are, or
add the next one.

A device that is not in a session sees the writes of the one that is as they land.  So what has to
be ascending is the record followed by what the writes in flight will make of it.

Main definitions:

* `StudyHours.FinishedUpTo` — the finished sessions are `1`, ..., `n`;
* `StudyHours.landings` — the record, and what it will be after each of the writes in flight.

Main results:

* `StudyHours.upToDate_of_observed` — **the screen is never behind**, in any run;
* `StudyHours.ascending_of_issues` — what a device in its turn writes is ascending;
* `StudyHours.ascending_landings_trans`, `StudyHours.ascending_given` — every action keeps it so,
  and no device is shown anything else;
* `StudyHours.showsTruth_of_inTurn` — **the table is right after every snapshot**, on every device
  and whenever the screen was opened, in a run in which the clients are used one after another.
-/

import Mathlib
import StudyHours.LedgerScreens

set_option relaxedAutoImplicit false
set_option autoImplicit false

namespace StudyHours

open Account
open RecordViewController (Event Transition)

/-! ### The screen is never behind -/

/-- The screen has the total of the record, and every session that is finished. -/
structure ViewController.UpToDate (vc : ViewController) (h : Hours) : Prop where
  total : ∀ q, h.totalHours = some q → vc.totalHoursText = some (.value (.double q))
  sessions : ∀ k c, h.child k = some c → c.session.outTime ≠ 0 →
    vc.sessions.lookup k = some c.session

/-- After a snapshot the screen is up to date with it, whatever the dictionary had before. -/
theorem ViewController.upToDate_onSnapshot {e : Enumeration} (hc : e.record.Canonical)
    (vc : ViewController) : ∃ vc', vc.onSnapshot e = some vc' ∧ vc'.UpToDate e.record := by
  obtain ⟨vc', l, hvc', hperm, hsessions⟩ := observe_eq_some hc e.enumerates vc
  have hnodup : (l.map Prod.fst).Nodup :=
    (hperm.map Prod.fst).nodup_iff.2 (Hours.nodup_finished hc)
  refine ⟨vc', hvc', fun q hq => totalHoursText_observe hc e.enumerates hq hvc',
    fun k c hget hout => ?_⟩
  rw [hsessions]
  exact Dictionary.lookup_putAll hnodup
    (hperm.mem_iff.2 ((Hours.mem_finished hc).2 ⟨c, hget, hout, rfl⟩))

/-- **The screen is never behind**: in whatever order and however fast the clients write, after the
last snapshot of a run the screen has the total that the device sees and every finished session. -/
theorem upToDate_of_observed {h : Hours} (hc : h.Canonical) {status : Status}
    {before acts : List Action} {s u : Account}
    (hbefore : Execution.run step (atRest h status) before = some s)
    (hrun : Execution.run step s acts = some u) (d : ℕ) {snapshots : List Enumeration}
    (hsnapshots : snapshots.map Enumeration.record = observed d s acts) :
    ∃ vc, Execution.run ViewController.onSnapshot ViewController.initial snapshots = some vc ∧
      vc.UpToDate (u.view d) := by
  have hcanonical : ∀ e ∈ snapshots, e.record.Canonical := by
    rw [← List.forall_mem_map (P := fun h : Hours => h.Canonical), hsnapshots]
    exact canonical_of_mem_observed hc hbefore d acts
  have hlast := getLast_observed d hrun
  rw [← hsnapshots, List.getLast?_map, Option.map_eq_some_iff] at hlast
  obtain ⟨e, he, hrecord⟩ := hlast
  obtain ⟨earlier, rfl⟩ := List.getLast?_eq_some_iff.1 he
  -- none of the snapshots makes the observer trap
  have hread : ∀ (l : List Enumeration) vc, (∀ e ∈ l, e.record.Canonical) →
      ∃ vc', Execution.run ViewController.onSnapshot vc l = some vc' := by
    intro l
    induction l with
    | nil => exact fun vc _ => ⟨vc, rfl⟩
    | cons e l ih =>
        intro vc hl
        obtain ⟨vc₁, hvc₁, -⟩ := vc.upToDate_onSnapshot (hl e List.mem_cons_self)
        obtain ⟨vc', hvc'⟩ := ih vc₁ fun e' he' => hl e' (List.mem_cons_of_mem e he')
        exact ⟨vc', by rw [Execution.run_cons, hvc₁, Option.bind_some, hvc']⟩
  obtain ⟨vc, hvc⟩ := hread earlier .initial fun e' he' => hcanonical e' (by simp [he'])
  obtain ⟨vc', hvc', hup⟩ := vc.upToDate_onSnapshot (hcanonical e (by simp))
  exact ⟨vc', by rw [Execution.run_snoc hvc, hvc'], hrecord ▸ hup⟩

/-- Of two sessions that overtake one another both are in the dictionary in the end. -/
theorem upToDate_overtakingSessions : ∃ u vc,
    Execution.run step (atRest (Hours.created "A") .closed) overtakingSessions = some u ∧
      Execution.run ViewController.onSnapshot ViewController.initial
        (enumerations (observed 0 (atRest (Hours.created "A") .closed) overtakingSessions)) =
          some vc ∧
      vc.UpToDate (u.view 0) := by
  have hu := Option.eq_some_of_isSome (show (Execution.run step
    (atRest (Hours.created "A") .closed) overtakingSessions).isSome by decide +kernel)
  have hbefore : Execution.run step (atRest (Hours.created "A") .closed) [] =
      some (atRest (Hours.created "A") .closed) := rfl
  obtain ⟨vc, hvc, hup⟩ := upToDate_of_observed (canonical_created "A") hbefore hu 0
    (map_record_enumerations _)
  exact ⟨_, vc, hu, hvc, hup⟩

/-! ### Ascending snapshots -/

section Ascending

variable {h h' : Hours} {l l' : List Hours}

theorem ascending_singleton : Ascending [h] ↔ Numbered h := by
  simp [Ascending]

theorem Ascending.cons (hl : Ascending (h' :: l)) (hn : Numbered h)
    (hle : ∀ k, Finished h k → Finished h' k) : Ascending (h :: h' :: l) := by
  obtain ⟨hnumbered, hpairs⟩ := hl
  refine ⟨List.forall_mem_cons.2 ⟨hn, hnumbered⟩,
    List.pairwise_cons.2 ⟨fun g hg k hk => ?_, hpairs⟩⟩
  rcases List.mem_cons.1 hg with rfl | hg
  · exact hle k hk
  · exact (List.pairwise_cons.1 hpairs).1 g hg k (hle k hk)

theorem Ascending.sublist (hl : Ascending l) (hsub : l'.Sublist l) : Ascending l' :=
  ⟨fun g hg => hl.1 g (hsub.subset hg), hl.2.sublist hsub⟩

/-- What goes on from the last snapshot. -/
theorem Ascending.append (hl : Ascending l) (hlast : l.getLast? = some h)
    (hl' : Ascending (h :: l')) : Ascending (l ++ l') := by
  obtain ⟨earlier, rfl⟩ := List.getLast?_eq_some_iff.1 hlast
  refine ⟨fun g hg => ?_, List.pairwise_append.2 ⟨hl.2, (List.pairwise_cons.1 hl'.2).2, ?_⟩⟩
  · rcases List.mem_append.1 hg with hg | hg
    · exact hl.1 g hg
    · exact hl'.1 g (List.mem_cons_of_mem h hg)
  · intro g hg g' hg' k hk
    have hk' : Finished h k := by
      rcases List.mem_append.1 hg with hg | hg
      · exact (List.pairwise_append.1 hl.2).2.2 g hg h (List.mem_singleton_self h) k hk
      · rwa [← List.mem_singleton.1 hg]
    exact (List.pairwise_cons.1 hl'.2).1 g' hg' k hk'

/-- Only the children matter. -/
theorem ascending_congr (heq : l'.map Hours.children = l.map Hours.children) :
    Ascending l' ↔ Ascending l := by
  have hbare : ∀ l : List Hours, Ascending l ↔
      Ascending ((l.map Hours.children).map fun c => ⟨none, none, none, c⟩) := by
    intro l
    rw [List.map_map, Ascending, Ascending, List.forall_mem_map, List.pairwise_map]
    rfl
  rw [hbare, heq, ← hbare]

theorem children_apply (heq : h'.children = h.children) (w : Write) :
    (h'.apply w).children = (h.apply w).children := by
  cases w <;> simp only [Hours.apply, Hours.child, heq]

theorem children_applyAll (heq : h'.children = h.children) (ws : List Write) :
    (h'.applyAll ws).children = (h.applyAll ws).children := by
  induction ws generalizing h h' with
  | nil => exact heq
  | cons w ws ih => exact ih (children_apply heq w)

theorem map_children_snapshots (heq : h'.children = h.children) (ws : List Write) :
    (snapshots h' ws).map Hours.children = (snapshots h ws).map Hours.children := by
  induction ws generalizing h h' with
  | nil => rfl
  | cons w ws ih =>
      rw [snapshots, snapshots, List.map_cons, List.map_cons, children_apply heq w,
        ih (children_apply heq w)]

theorem snapshots_append (h : Hours) (ws ws' : List Write) :
    snapshots h (ws ++ ws') = snapshots h ws ++ snapshots (h.applyAll ws) ws' := by
  induction ws generalizing h with
  | nil => rfl
  | cons w ws ih =>
      rw [List.cons_append, snapshots, snapshots, ih, Hours.applyAll_cons, List.cons_append]

theorem getLast_cons_snapshots (h : Hours) (ws : List Write) :
    (h :: snapshots h ws).getLast? = some (h.applyAll ws) := by
  rw [List.getLast?_cons, getLast_snapshots]

end Ascending

/-! ### The sessions that are finished -/

/-- The finished sessions are `1`, ..., `n`. -/
def FinishedUpTo (h : Hours) (n : ℤ) : Prop := ∀ k, Finished h k ↔ 1 ≤ k ∧ k ≤ n

section FinishedUpTo

variable {h h' : Hours} {n : ℤ} {w : Write}

theorem FinishedUpTo.numbered (hup : FinishedUpTo h n) (hn : 0 ≤ n) : Numbered h := by
  refine ⟨n.toNat, fun k => ?_⟩
  rw [hup, Int.toNat_of_nonneg hn]

theorem FinishedUpTo.congr (hup : FinishedUpTo h n) (heq : h'.children = h.children) :
    FinishedUpTo h' n := by
  intro k
  rw [← hup, Finished, Finished, Hours.child, heq, Hours.child]

theorem finished_apply_of_ne {k : ℤ} (hk : w.key? ≠ some k) :
    Finished (h.apply w) k ↔ Finished h k := by
  rw [Finished, Hours.child_apply_of_ne h hk, Finished]

/-- A write to the next child that leaves it unfinished. -/
theorem FinishedUpTo.keep (hup : FinishedUpTo h n) (hkey : w.key? = some (n + 1))
    (hnot : ¬ Finished (h.apply w) (n + 1)) : FinishedUpTo (h.apply w) n := by
  intro k
  rcases eq_or_ne k (n + 1) with rfl | hne
  · exact iff_of_false hnot (by omega)
  · rw [finished_apply_of_ne (by rw [hkey]; simpa using hne.symm), hup]

/-- A write that finishes the next child. -/
theorem FinishedUpTo.next (hup : FinishedUpTo h n) (hn : 0 ≤ n) (hkey : w.key? = some (n + 1))
    (hfin : Finished (h.apply w) (n + 1)) : FinishedUpTo (h.apply w) (n + 1) := by
  intro k
  rcases eq_or_ne k (n + 1) with rfl | hne
  · exact iff_of_true hfin (by omega)
  · rw [finished_apply_of_ne (by rw [hkey]; simpa using hne.symm), hup]
    omega

/-- A check-in finishes no session. -/
theorem FinishedUpTo.checkIn (hup : FinishedUpTo h n) (t : ℤ) :
    FinishedUpTo (h.apply (.checkIn (n + 1) t)) n := by
  refine hup.keep rfl fun hfin => ?_
  have hnot : ¬ Finished h (n + 1) := fun hfin => by
    have := (hup (n + 1)).1 hfin
    omega
  refine hnot ?_
  obtain ⟨c, hc, hout⟩ := hfin
  rw [Hours.child_apply, Write.onChild, if_pos rfl] at hc
  obtain rfl := Option.some.inj hc
  rcases hchild : h.child (n + 1) with _ | c
  · rw [hchild] at hout
    exact absurd rfl hout
  · refine ⟨c, hchild, ?_⟩
    rw [hchild] at hout
    cases c <;> exact hout

theorem FinishedUpTo.remove (hup : FinishedUpTo h n) :
    FinishedUpTo (h.apply (.remove (n + 1))) n := by
  refine hup.keep rfl ?_
  rintro ⟨c, hc, -⟩
  rw [Hours.child_apply, Write.onChild, if_pos rfl] at hc
  cases hc

/-- A check-out finishes the next session. -/
theorem FinishedUpTo.checkOut (hup : FinishedUpTo h n) (hn : 0 ≤ n) {out : ℤ} (hout : out ≠ 0) :
    FinishedUpTo (h.apply (.checkOut (n + 1) out)) (n + 1) := by
  refine hup.next hn rfl ⟨SessionNode.setOut out (h.child (n + 1)), ?_, ?_⟩
  · rw [Hours.child_apply, Write.onChild, if_pos rfl]
    rfl
  · rcases h.child (n + 1) with _ | _ | _ | _ <;> exact hout

/-- The whole session of an Android client. -/
theorem FinishedUpTo.session (hup : FinishedUpTo h n) (hn : 0 ≤ n) {σ : StudySession}
    (hout : σ.outTime ≠ 0) : FinishedUpTo (h.apply (.session (n + 1) σ)) (n + 1) := by
  refine hup.next hn rfl ⟨.full σ.inTime σ.outTime, ?_, hout⟩
  rw [Hours.child_apply, Write.onChild, if_pos rfl]
  rfl

/-- **What a device in its turn writes is ascending**, write by write. -/
theorem ascending_of_issues {vc : RecordViewController} {e : Event} {ws : List Write}
    (hup : FinishedUpTo h n) (hn : 0 ≤ n) (hnumber : h.numSessions = some n)
    (hissues : Issues h vc e ws)
    (hout : ∀ i dlg, e = .yes i → vc.dialogs[i]? = some dlg → dlg.out ≠ 0) :
    Ascending (h :: snapshots h ws) := by
  have hnumbered := hup.numbered hn
  have hkeep : ∀ {h'}, FinishedUpTo h' n → Ascending [h, h'] := fun hup' =>
    (ascending_singleton.2 (hup'.numbered hn)).cons hnumbered fun k hk => (hup' k).2 ((hup k).1 hk)
  cases hissues with
  | nothing _ | trap _ => exact ascending_singleton.2 hnumbered
  | @checkIn m hm i t =>
      obtain rfl : n = m := Option.some.inj (hnumber.symm.trans hm)
      exact hkeep (hup.checkIn t)
  | @dismiss m _ hm _ =>
      obtain rfl : n = m := Option.some.inj (hnumber.symm.trans hm)
      exact hkeep hup.remove
  | @record i dlg q hi hdlg hq =>
      obtain hm : n = dlg.numSessions := Option.some.inj (hnumber.symm.trans hdlg.numSessions)
      rw [← hm]
      -- the number of sessions, the check-out, the hours
      have hcount : FinishedUpTo (h.apply (.numSessions n)) n := hup.congr rfl
      have hfin := hcount.checkOut hn (hout i dlg rfl hi)
      have hhours : FinishedUpTo (((h.apply (.numSessions n)).apply
          (.checkOut (n + 1) dlg.out)).apply (.totalHours q (iosCredit dlg.interval))) (n + 1) :=
        hfin.congr rfl
      have hlast := ascending_singleton.2 (hhours.numbered (by omega))
      refine ((hlast.cons (hfin.numbered (by omega)) fun k hk => (hhours k).2 ((hfin k).1 hk)).cons
        (hcount.numbered hn) fun k hk => ?_).cons hnumbered fun k hk => (hcount k).2 ((hup k).1 hk)
      have hle := (hcount k).1 hk
      exact (hfin k).2 ⟨hle.1, by omega⟩

end FinishedUpTo

/-- The sessions of a ledger are the finished ones. -/
theorem Children.finishedUpTo {h : Hours} {L : Ledger} {next : Option SessionNode}
    (hc : Children h L next) (hnext : ∀ c ∈ next, c.session.outTime = 0)
    (hout : ∀ r ∈ L.recordings, r.session.outTime ≠ 0) : FinishedUpTo h L.count := by
  intro k
  by_cases hk : 1 ≤ k ∧ k ≤ L.count
  · obtain ⟨r, hr, hchild⟩ := hc.exists_recording hk.1 hk.2
    exact iff_of_true ⟨_, hchild, hout r hr⟩ hk
  · refine iff_of_false ?_ hk
    rintro ⟨c, hget, hfin⟩
    rcases eq_or_ne k (L.count + 1) with rfl | hne
    · rw [hc.next] at hget
      exact hfin (hnext c hget)
    · rw [hc.others k (by omega)] at hget
      cases hget

/-! ### What is on its way -/

/-- The record, and what it will be after each of the writes in flight. -/
def landings (s : Account) : List Hours := s.db :: snapshots s.db (s.outbox.map Entry.write)

section Steps

variable {L L' : Ledger} {τ τ' : ℤ} {s t : Account} {a : Action}

/-- What is in flight comes from one sender. -/
theorem Stage.oneSender (h : Stage L τ s) : ∃ x, ∀ e ∈ s.outbox, e.sender = x := by
  cases h with
  | @ios A h => exact ⟨.ios A, h.sender⟩
  | android h =>
      cases h with
      | running h | asking h | ended h => exact ⟨.ios 0, by simp [h.outbox]⟩
      | @submitting L₀ i sub h hopen =>
          exact ⟨.android sub.client i, fun e he => by rw [h.sessions.eq_of_mem he]⟩

/-- A device sees what has landed, or all that is in flight as well. -/
theorem view_eq_of_oneSender {x : Sender} (hx : ∀ e ∈ s.outbox, e.sender = x) (d : ℕ) :
    s.view d = if x = .ios d then s.db.applyAll (s.outbox.map Entry.write) else s.db := by
  split_ifs with hd
  · have hall : s.outbox.filter (fun e => e.sender = .ios d) = s.outbox :=
      List.filter_eq_self.2 fun e he => by simp [hx e he, hd]
    rw [view, own, hall]
  · exact view_eq_db (own_eq_nil fun e he => by rwa [hx e he])

theorem view_mem_landings {x : Sender} (hx : ∀ e ∈ s.outbox, e.sender = x) (d : ℕ) :
    s.view d ∈ landings s := by
  rw [view_eq_of_oneSender hx]
  split_ifs
  · exact List.mem_of_getLast? (getLast_cons_snapshots s.db _)
  · exact List.mem_cons_self

/-- The first write in flight is the one that lands. -/
theorem eq_nil_of_oneSender {x : Sender} (hx : ∀ e ∈ s.outbox, e.sender = x) {l₁ l₂ : List Entry}
    {e : Entry} (hout : s.outbox = l₁ ++ e :: l₂)
    (hfirst : ∀ e' ∈ l₁, e'.sender.sameClient e.sender = false) : l₁ = [] := by
  refine List.eq_nil_iff_forall_not_mem.2 fun e' he' => ?_
  have hsame := hfirst e' he'
  rw [hx e' (by simp [hout, he']), hx e (by simp [hout])] at hsame
  cases x <;> simp [Sender.sameClient] at hsame

/-- **A device writes only when it is its turn.** -/
theorem Stage.issues (h : Stage L τ s) {d : ℕ} {e : Event} {vc : RecordViewController}
    {ws : List Write} (htr : Transition (s.view d) (s.device d) e vc ws) :
    ws = [] ∨ (∃ next, Represents (s.view d) L next ∧ Started L τ next) ∧
      Issues (s.view d) (s.device d) e ws ∧ ∀ f ∈ s.outbox, f.sender = .ios d := by
  by_cases htap : e = .tap
  · subst htap
    cases htr
    exact .inl rfl
  · by_cases hidle : (s.device d).Idle
    · exact .inl (idle_of_transition hidle htap htr).2
    · cases h with
      | @ios A h =>
          obtain rfl : d = A := by
            by_contra hne
            exact hidle (h.others d hne)
          exact .inr ⟨h.record, (pending_of_transition (h.turn.resolve_left hidle) htap htr).1,
            h.sender⟩
      | android h => exact absurd (h.idle d) hidle

theorem Started.unfinished {next : Option SessionNode} (h : Started L τ next) :
    ∀ c ∈ next, c.session.outTime = 0 := by
  obtain rfl | ⟨t, rfl⟩ := h.forget
  · nofun
  · intro c hc
    cases hc
    rfl

/-- The writes of a device in its turn, seen from what it sees. -/
theorem Stage.ascending_issued (h : Stage L τ s) {d : ℕ} {e : Event} {vc : RecordViewController}
    {ws : List Write} (htr : Transition (s.view d) (s.device d) e vc ws)
    (hout : ∀ r ∈ L.recordings ++ recorded s (.ios d e), r.session.outTime ≠ 0)
    (hn : Numbered (s.view d)) : Ascending (s.view d :: snapshots (s.view d) ws) := by
  rcases h.issues htr with rfl | ⟨⟨next, hr, hs⟩, hissues, -⟩
  · exact ascending_singleton.2 hn
  · have hup : FinishedUpTo (s.view d) L.count :=
      hr.children.finishedUpTo hs.unfinished fun r hr => hout r (List.mem_append_left _ hr)
    refine ascending_of_issues hup L.count_nonneg hr.numSessions hissues fun i dlg he hi => ?_
    subst he
    exact hout ⟨.ios, ⟨dlg.out - dlg.interval, dlg.out⟩⟩
      (List.mem_append_right _ (by simp [recorded, hi]))

/-- What is in flight while a submission is under way. -/
theorem Submitting.ascending_landings {L₀ : Ledger} {i : ℕ} {sub : Submission}
    (h : Submitting L₀ L τ s i sub) (hout : ∀ r ∈ L.recordings, r.session.outTime ≠ 0) :
    Ascending (landings s) := by
  obtain ⟨hlong, hafter, hL⟩ := h.next
  have hout₀ : ∀ r ∈ L₀.recordings ++ [⟨.android, sub.popup.session⟩], r.session.outTime ≠ 0 := by
    rwa [hL] at hout
  have hup₀ : Children s.db L₀ none → FinishedUpTo s.db L₀.count := fun hc =>
    hc.finishedUpTo nofun fun r hr => hout₀ r (List.mem_append_left _ hr)
  have hnonneg := L₀.count_nonneg
  have hlanding : Landing L₀ L ⟨.android sub.client i, .session (L₀.count + 1) sub.popup.session⟩
      s.db s.outbox → Ascending (landings s) := by
    generalize heq : s.outbox = out
    intro hl
    rw [landings, heq]
    cases hl with
    | inFlight hc =>
        have hnext := (hup₀ hc).session hnonneg (hout₀ ⟨.android, sub.popup.session⟩ (by simp))
        refine (ascending_singleton.2 (hnext.numbered (by omega))).cons
          ((hup₀ hc).numbered hnonneg) fun k hk => ?_
        have hle := (hup₀ hc k).1 hk
        exact (hnext k).2 ⟨hle.1, by omega⟩
    | landed hc =>
        exact ascending_singleton.2 ((hc.finishedUpTo nofun hout).numbered L.count_nonneg)
  have hstage := h.sessions
  generalize sub.numSessions = tr at hstage
  cases hstage with
  | unwritten _ _ hc hnone =>
      rw [landings, hnone]
      exact ascending_singleton.2 ((hup₀ hc).numbered hnonneg)
  | sent _ hl _ | committed _ hl _ => exact hlanding hl

/-- Nothing is in flight, and the record represents the ledger. -/
theorem Represents.ascending_landings (hr : Represents s.db L none) (hnone : s.outbox = [])
    (hout : ∀ r ∈ L.recordings, r.session.outTime ≠ 0) : Ascending (landings s) := by
  rw [landings, hnone]
  exact ascending_singleton.2 ((hr.children.finishedUpTo nofun hout).numbered L.count_nonneg)

/-- **What is in flight stays ascending.** -/
theorem ascending_landings_trans (hs : Stage L τ s) (ht : Stage L' τ' t) (hst : Trans s a t)
    (hL : L'.recordings = L.recordings ++ recorded s a)
    (hout : ∀ r ∈ L'.recordings, r.session.outTime ≠ 0) (h : Ascending (landings s)) :
    Ascending (landings t) := by
  obtain ⟨x, hx⟩ := hs.oneSender
  cases ht with
  | android ht =>
      cases ht with
      | running ht | asking ht | ended ht => exact ht.record.ascending_landings ht.outbox hout
      | submitting ht _ => exact ht.ascending_landings hout
  | @ios A ht =>
      rcases hst.kinds with ⟨d, e, vc, ws, rfl, htr, rfl⟩ | ⟨l₁, e, l₂, rfl, hland, hfirst, rfl⟩ |
        ⟨hios, hland, hframe⟩
      · -- what the device writes goes on from what it sees
        rw [hL] at hout
        rcases hs.issues htr with rfl | ⟨-, -, hsender⟩
        · simpa [landings, sendAll] using h
        · have hasc := hs.ascending_issued htr hout (h.1 _ (view_mem_landings hx d))
          have hview := view_eq_of_oneSender hsender d
          rw [if_pos rfl] at hview
          have happ := h.append (h := s.view d)
            (by rw [landings, getLast_cons_snapshots, hview]) hasc
          rw [landings, db_issue, outbox_issue, List.map_append, sendAll, List.map_map,
            snapshots_append, ← hview]
          simpa [landings, Function.comp_def] using happ
      · -- the first write has landed
        obtain rfl := eq_nil_of_oneSender hx hland hfirst
        rw [landings, hland, List.nil_append, List.map_cons, snapshots] at h
        exact h.sublist (List.sublist_cons_self _ _)
      · -- nothing that can be seen in the table
        obtain ⟨l, hl, hsenders⟩ := hframe.outbox
        obtain rfl : l = [] := by
          refine List.eq_nil_iff_forall_not_mem.2 fun e he => ?_
          obtain ⟨c, i, σ, n, rfl⟩ := hsenders e he
          have hsender := ht.sender _ (by rw [hl]; exact List.mem_append_right _ he)
          cases hsender
        refine (ascending_congr ?_).2 h
        rw [landings, landings, hl, List.append_nil, List.map_cons, List.map_cons, hframe.children,
          map_children_snapshots hframe.children]

/-- **What a listener is given at an action goes on from what the device saw before.** -/
theorem ascending_given (hs : Stage L τ s) (hst : Trans s a t)
    (hout : ∀ r ∈ L.recordings ++ recorded s a, r.session.outTime ≠ 0)
    (h : Ascending (landings s)) (d : ℕ) : Ascending (s.view d :: given d s t a) := by
  obtain ⟨x, hx⟩ := hs.oneSender
  have hnumbered : Numbered (s.view d) := h.1 _ (view_mem_landings hx d)
  rcases hst.kinds with ⟨d', e, vc, ws, rfl, htr, rfl⟩ | ⟨l₁, e, l₂, rfl, hland, hfirst, rfl⟩ |
    ⟨hios, hland, hframe⟩
  · rw [given]
    split_ifs with hd
    · subst hd
      rw [outbox_issue, List.drop_left, own_sendAll_self]
      exact hs.ascending_issued htr hout hnumbered
    · exact ascending_singleton.2 hnumbered
  · have hget : s.outbox[l₁.length]? = some e := by simp [hland]
    rw [given, hget]
    split_ifs with he
    · exact ascending_singleton.2 hnumbered
    · -- a write of somebody else: the device saw the record before and sees it now
      have hne : x ≠ .ios d := by
        rintro rfl
        exact he (congrArg some (hx e (by simp [hland])))
      obtain rfl := eq_nil_of_oneSender hx hland hfirst
      have hbefore : s.view d = s.db := by rw [view_eq_of_oneSender hx, if_neg hne]
      have hafter : (s.landed [] e l₂).view d = s.db.apply e.write := by
        refine view_eq_db (own_eq_nil fun f hf => ?_)
        rw [hx f (by simpa [hland] using .inr hf)]
        exact hne
      rw [hbefore, hafter]
      rw [landings, hland, List.nil_append, List.map_cons, snapshots] at h
      exact h.sublist (by simp)
  · -- only a commit is heard of, and it changes no child
    have hview : (t.view d).children = (s.view d).children := by
      obtain ⟨l, hl, hsenders⟩ := hframe.outbox
      have hown : own d l = [] := own_eq_nil fun e he => by
        obtain ⟨c, i, σ, n, rfl⟩ := hsenders e he
        intro heq
        cases heq
      rw [view, view, hl, own_append, hown, List.append_nil, children_applyAll hframe.children]
    have hcommit : Ascending [s.view d, t.view d] := by
      have hsame : ∀ k, Finished (t.view d) k ↔ Finished (s.view d) k := fun k => by
        rw [Finished, Finished, Hours.child, hview, Hours.child]
      refine (ascending_singleton.2 ?_).cons hnumbered fun k => (hsame k).2
      exact hnumbered.imp fun n hn k => (hsame k).trans (hn k)
    cases a with
    | ios d' e => exact absurd rfl (hios d' e)
    | land j => exact absurd rfl (hland j)
    | commitHours i | commitSessions i =>
        rw [given]
        split_ifs
        · exact ascending_singleton.2 hnumbered
        · exact hcommit
    | _ => exact ascending_singleton.2 hnumbered

end Steps

/-! ### Runs -/

/-- A listener is given what is ascending, up to the end of a run. -/
theorem ascending_observed {s : Account} (hs : Represents s.db .empty none) (hu : Untouched s)
    (hout : s.outbox = []) (hidle : ∀ d, (s.device d).Idle) (d : ℕ) :
    ∀ (acts : List Action) (t : Account), Execution.run step s acts = some t →
      Chronological acts → Execution.Along step InTurn s acts →
      (Execution.collect step recorded s acts).length < 2 ^ 31 - 1 →
      (∀ r ∈ Execution.collect step recorded s acts, r.session.outTime ≠ 0) →
        Ascending (landings t) ∧ Ascending (observed d s acts) := by
  -- in each state of the run the record is on its way to represent a ledger
  have hledger : ∀ acts t, Execution.run step s acts = some t → Chronological acts →
      Execution.Along step InTurn s acts →
      (Execution.collect step recorded s acts).length < 2 ^ 31 - 1 →
      ∃ (L : Ledger) (τ : ℤ), L.recordings = Execution.collect step recorded s acts ∧
        Stage L τ t := by
    intro acts t hrun hclock hturns hcount
    obtain ⟨L, τ, hL, hinv⟩ := ledgerInv_of_inTurn hs hu hout hidle hclock hturns hcount hrun
    exact ⟨L, τ, hL, hinv.stage⟩
  refine Execution.run_induction ?_ ?_
  · intro _ _ _ _
    have hstart := hs.ascending_landings hout nofun
    refine ⟨hstart, ascending_singleton.2 (hstart.1 _ ?_)⟩
    rw [view_eq_db (by rw [hout]; rfl)]
    exact List.mem_cons_self
  · intro acts t a u hrun ih hta hclock hturns hcount hnonzero
    obtain ⟨L', τ', hL', hu'⟩ := hledger _ u (Execution.run_snoc hrun a ▸ hta) hclock hturns hcount
    rw [Chronological, List.filterMap_append, List.pairwise_append] at hclock
    rw [Execution.along_snoc hrun] at hturns
    rw [Execution.collect_snoc hrun] at hcount hnonzero hL'
    rw [List.length_append] at hcount
    obtain ⟨hlandings, hobserved⟩ := ih hclock.1 hturns.1 (by omega)
      fun r hr => hnonzero r (List.mem_append_left _ hr)
    obtain ⟨L, τ, hL, ht⟩ := hledger acts t hrun hclock.1 hturns.1 (by omega)
    rw [← hL] at hL' hnonzero
    have hst := trans_of_step hta
    refine ⟨ascending_landings_trans ht hu' hst hL' (by rwa [hL']) hlandings, ?_⟩
    have hgiven := ascending_given ht hst hnonzero hlandings d
    have hheard : heard d t a = given d t u a := by rw [heard, hta, Option.elim_some]
    rw [observed, Execution.collect_snoc hrun, hheard, ← List.cons_append]
    exact hobserved.append (getLast_observed d hrun) hgiven

/-- What a listener is given that is registered in a later state. -/
theorem observed_append {s t : Account} {before : List Action}
    (hbefore : Execution.run step s before = some t) (d : ℕ) (acts : List Action) :
    (observed d t acts).Sublist (observed d s (before ++ acts)) := by
  obtain ⟨earlier, hearlier⟩ := List.getLast?_eq_some_iff.1 (getLast_observed d hbefore)
  have happ : observed d s (before ++ acts) = earlier ++ observed d t acts := by
    rw [observed, Execution.collect_append hbefore, ← List.cons_append, ← observed, hearlier,
      observed, List.append_assoc, List.singleton_append]
  rw [happ]
  exact List.sublist_append_right _ _

/-- **The table is right after every snapshot**: while the clients of a new account are used one
after another and the clock never goes back, the table of every device has after each snapshot
exactly one row for each finished session, whenever the screen was opened and whatever the order of
the children is. -/
theorem showsTruth_of_inTurn {s t u : Account} {before acts : List Action}
    (hs : Represents s.db .empty none) (hu : Untouched s) (hout : s.outbox = [])
    (hidle : ∀ d, (s.device d).Idle) (hclock : Chronological (before ++ acts))
    (hturns : Execution.Along step InTurn s (before ++ acts))
    (hcount : (Execution.collect step recorded s (before ++ acts)).length < 2 ^ 31 - 1)
    (hnonzero : ∀ r ∈ Execution.collect step recorded s (before ++ acts), r.session.outTime ≠ 0)
    (hbefore : Execution.run step s before = some t) (hrun : Execution.run step t acts = some u)
    (d : ℕ) {snapshots : List Enumeration}
    (hsnapshots : snapshots.map Enumeration.record = observed d t acts) :
    Execution.Along ViewController.onSnapshot ViewController.ShowsTruthAfter
      ViewController.initial snapshots := by
  have hall : Execution.run step s (before ++ acts) = some u := by
    rw [Execution.run_append, hbefore, Option.bind_some, hrun]
  obtain ⟨-, hobserved⟩ :=
    ascending_observed hs hu hout hidle d _ u hall hclock hturns hcount hnonzero
  have hcanonical : ∀ (v : Account) (l : List Action), v.db.Canonical →
      ∀ h ∈ observed d v l, h.Canonical := by
    intro v l hv
    rw [observed, List.forall_mem_cons]
    exact ⟨hv.applyAll _, Execution.forall_mem_collect
      (fun _ _ _ hI hst => (trans_of_step hst).canonical hI)
      (fun s a hI h' hmem => canonical_of_mem_heard hI hmem) hv⟩
  have ht : t.db.Canonical := Execution.run_invariant
    (fun _ _ _ hI hst => (trans_of_step hst).canonical hI) hs.children.canonical hbefore
  rw [ViewController.along_showsTruth_initial (by rw [hsnapshots]; exact hcanonical t acts ht),
    hsnapshots]
  exact hobserved.sublist (observed_append hbefore d acts)

/-- Device `1` has opened the screen while device `0` was in its session, and is shown both. -/
theorem showsTruth_oneSessionEach : ∃ t,
    Execution.run step (atRest (Hours.created "A") .closed) (oneSessionEach.take 12) = some t ∧
      Execution.Along ViewController.onSnapshot ViewController.ShowsTruthAfter
        ViewController.initial (enumerations (observed 1 t (oneSessionEach.drop 12))) := by
  obtain ⟨u, hu, hturns, -⟩ := inTurn_oneSessionEach
  have happ : oneSessionEach.take 12 ++ oneSessionEach.drop 12 = oneSessionEach :=
    List.take_append_drop 12 _
  have hrun := hu
  rw [← happ, Execution.run_append, Option.bind_eq_some_iff] at hrun
  obtain ⟨t, ht, htu⟩ := hrun
  refine ⟨t, ht, showsTruth_of_inTurn (.created "A") (untouched_atRest _ _) rfl
    (fun _ => RecordViewController.idle_initial _) (by decide) (by rwa [happ]) ?_ ?_ ht htu 1
    (map_record_enumerations _)⟩
  · rw [happ, collect_oneSessionEach]
    decide
  · rw [happ, collect_oneSessionEach]
    decide

end StudyHours
