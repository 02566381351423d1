/-
**The history screen of the iOS client.**

`ViewController` listens to the record of the account.  Whenever it is given a snapshot it walks
through the children and puts every session with a nonzero `out` into the dictionary `sessions`
under its number.  The dictionary lives as long as the controller; nothing is ever taken out of it.
The table has as many rows as the dictionary has keys, and row `i` looks up the session `i + 1`.

The table therefore is right as long as the sessions of every snapshot are numbered from `1` on
without a gap, and none of them is missing from a later snapshot.  The clients do not see to that:
two of them take the numbers `1` and `2`, and the session `2` may land first.

Main definitions:

* `StudyHours.ViewController.observe` — the observer of `viewDidLoad`;
* `StudyHours.ViewController.tableView` — the sessions in the rows of the table;
* `StudyHours.Hours.finished` — the sessions of a record with a nonzero `out`;
* `StudyHours.heard` — the snapshots that the observer is given at an action;
* `StudyHours.Ascending` — the condition on a sequence of snapshots.

Main results:

* `StudyHours.ViewController.observe_eq_some` — the observer never traps on the record of an
  account;
* `StudyHours.ViewController.showsTruth_iff` — **the table is right after each snapshot of a run if
  and only if the snapshots are ascending**.
-/

import Mathlib
import StudyHours.Confirmations
import StudyHours.DataSnapshot
import StudyHours.Dictionary
import StudyHours.Submissions

set_option relaxedAutoImplicit false
set_option autoImplicit false

namespace StudyHours

open Account
open RecordViewController (Event Transition)

/-! ### The screen -/

/-- The class `Session` of the iOS client. -/
structure Session where
  inTime : ℤ
  outTime : ℤ
deriving DecidableEq

/-- The controller. -/
structure ViewController where
  sessions : AList fun _ : ℤ => Session
  /-- The value shown as the total, if one is. -/
  totalHoursText : Option DataSnapshot

namespace ViewController

/-- A controller that has just been loaded. -/
def initial : ViewController := ⟨∅, none⟩

/-- One round of the inner loop: the entries `in` and `out` are cast to `Int64`.  `none` is a
trap. -/
def onElem (session : Session) (elem : String × DataSnapshot) : Option Session :=
  (if elem.1 = "in" then elem.2.asInt64.map fun inTime => { session with inTime }
    else some session).bind fun session =>
  if elem.1 = "out" then elem.2.asInt64.map fun outTime => { session with outTime }
  else some session

/-- The session of a child, if it is to be put into the dictionary, with its number; the outer
`none` is a trap. -/
def entry (child : String × DataSnapshot) : Option (Option (ℤ × Session)) :=
  (Execution.run onElem ⟨0, 0⟩ child.2.getChildren).bind fun session =>
    if session.outTime ≠ 0 then (swiftInt child.1).map fun key => some (key, session)
    else some none

/-- One round of the loop of the observer. -/
def onChild (vc : ViewController) (child : String × DataSnapshot) : Option ViewController :=
  if child.1 = "totalHours" then
    some { vc with totalHoursText := some child.2 }
  else if child.1 ≠ "numSessions" ∧ child.1 ≠ "sisterName" then
    (entry child).map fun e =>
      { vc with sessions := e.elim vc.sessions fun e => vc.sessions.insert e.1 e.2 }
  else
    some vc

/-- The observer of `viewDidLoad`, given the children of a snapshot. -/
def observe (vc : ViewController) (children : List (String × DataSnapshot)) :
    Option ViewController :=
  Execution.run onChild vc children

/-! ### The table -/

/-- `tableView(_:numberOfRowsInSection:)`. -/
def numberOfRows (vc : ViewController) : ℕ := vc.sessions.keys.length

/-- The session that `tableView(_:cellForRowAt:)` finds for a row; without one the cell is blank. -/
def sessionAt (vc : ViewController) (row : ℕ) : Option Session := vc.sessions.lookup (row + 1 : ℤ)

/-- The text of a cell.  Dividing two `Int64` truncates. -/
def cellText (format : ℤ → String) (session : Session) : String :=
  format (session.inTime.tdiv 1000) ++ " - " ++ format (session.outTime.tdiv 1000)

/-- `tableView(_:cellForRowAt:)`: the text of a row. -/
def cellForRowAt (format : ℤ → String) (vc : ViewController) (row : ℕ) : Option String :=
  (vc.sessionAt row).map (cellText format)

/-- The sessions in the rows of the table, from above. -/
def tableView (vc : ViewController) : List (Option Session) :=
  (List.range vc.numberOfRows).map vc.sessionAt

theorem tableView_eq (vc : ViewController) : vc.tableView = Dictionary.rows vc.sessions := rfl

end ViewController

/-! ### The sessions of a snapshot -/

/-- The session of a child; a missing entry counts as `0`. -/
def SessionNode.session (c : SessionNode) : Session := ⟨c.inTime?.getD 0, c.outTime?.getD 0⟩

namespace Hours

/-- The session of a child with a nonzero `out`, with its number. -/
def finishedEntry (child : Sigma fun _ : String => SessionNode) : Option (ℤ × Session) :=
  if child.2.session.outTime ≠ 0 then (swiftInt child.1).map fun k => (k, child.2.session) else none

/-- The sessions of the record that have a nonzero `out`, with their numbers. -/
def finished (h : Hours) : List (ℤ × Session) := h.children.entries.filterMap finishedEntry

variable {h : Hours}

theorem finishedEntry_eq_some {child : Sigma fun _ : String => SessionNode} {k : ℤ} {σ : Session} :
    finishedEntry child = some (k, σ) ↔
      swiftInt child.1 = some k ∧ child.2.session.outTime ≠ 0 ∧ σ = child.2.session := by
  rw [finishedEntry]
  split_ifs with hout
  · rw [Option.map_eq_some_iff]
    simp [hout, eq_comm]
  · simp [hout]

/-- A canonical key that reads as `k` is the key of session `k`. -/
theorem Canonical.eq_childKey (hc : h.Canonical) {child : Sigma fun _ : String => SessionNode}
    (hmem : child ∈ h.children.entries) {k : ℤ} (hk : swiftInt child.1 = some k) :
    child.1 = childKey k := by
  obtain ⟨j, hj⟩ := hc child.1 (AList.mem_keys.2 (List.mem_keys_of_mem hmem))
  rw [hj, swiftInt_childKey, Option.some.injEq] at hk
  rw [hj, hk]

theorem mem_finished (hc : h.Canonical) {k : ℤ} {σ : Session} :
    (k, σ) ∈ h.finished ↔ ∃ c, h.child k = some c ∧ c.session.outTime ≠ 0 ∧ σ = c.session := by
  rw [finished, List.mem_filterMap]
  constructor
  · rintro ⟨⟨key, c⟩, hmem, heq⟩
    obtain ⟨hk, hout, hσ⟩ := finishedEntry_eq_some.1 heq
    obtain rfl : key = childKey k := hc.eq_childKey hmem hk
    exact ⟨c, AList.mem_lookup_iff.2 hmem, hout, hσ⟩
  · rintro ⟨c, hget, hout, hσ⟩
    exact ⟨⟨childKey k, c⟩, AList.mem_lookup_iff.1 hget,
      finishedEntry_eq_some.2 ⟨swiftInt_childKey k, hout, hσ⟩⟩

/-- **No two of them have the same number.** -/
theorem nodup_finished (hc : h.Canonical) : (h.finished.map Prod.fst).Nodup := by
  have hkeys : h.children.entries.Pairwise fun e e' => e.1 ≠ e'.1 :=
    List.pairwise_map.1 h.children.keys_nodup
  rw [finished, List.Nodup, List.pairwise_map, List.pairwise_filterMap]
  refine hkeys.imp_of_mem fun hmem hmem' hne => ?_
  rintro ⟨k, σ⟩ he ⟨k', σ'⟩ he' rfl
  refine hne ?_
  rw [hc.eq_childKey hmem (finishedEntry_eq_some.1 he).1,
    hc.eq_childKey hmem' (finishedEntry_eq_some.1 he').1]

end Hours

/-- The session `k` of the record has a nonzero `out`. -/
def Finished (h : Hours) (k : ℤ) : Prop := ∃ c ∈ h.child k, c.session.outTime ≠ 0

instance (h : Hours) (k : ℤ) : Decidable (Finished h k) :=
  decidable_of_iff (∃ c, h.child k = some c ∧ c.session.outTime ≠ 0) (by rfl)

theorem mem_map_finished {h : Hours} (hc : h.Canonical) (k : ℤ) :
    k ∈ h.finished.map Prod.fst ↔ Finished h k := by
  rw [List.mem_map]
  constructor
  · rintro ⟨⟨k', σ⟩, hmem, rfl⟩
    obtain ⟨c, hget, hout, -⟩ := (Hours.mem_finished hc).1 hmem
    exact ⟨c, hget, hout⟩
  · rintro ⟨c, hget, hout⟩
    exact ⟨(k, c.session), (Hours.mem_finished hc).2 ⟨c, hget, hout, rfl⟩, rfl⟩

/-! ### What the observer does with a snapshot -/

namespace ViewController

/-- What a round puts into the dictionary. -/
def put (child : String × DataSnapshot) : Option (ℤ × Session) :=
  if SessionKey child.1 then (entry child).join else none

theorem isSome_onChild (vc : ViewController) (child : String × DataSnapshot) :
    (onChild vc child).isSome ↔ (SessionKey child.1 → (entry child).isSome) := by
  unfold onChild SessionKey
  split_ifs with htotal hkey
  · simp [htotal]
  · simp [htotal, hkey]
  · simp [htotal, hkey]

theorem sessions_of_onChild (vc : ViewController) (child : String × DataSnapshot)
    (vc' : ViewController) (h : onChild vc child = some vc') :
    vc'.sessions = (put child).elim vc.sessions fun e => vc.sessions.insert e.1 e.2 := by
  unfold onChild at h
  split_ifs at h with htotal hkey
  · cases h
    simp [put, SessionKey, htotal]
  · obtain ⟨e, he, rfl⟩ := Option.map_eq_some_iff.1 h
    have hsession : SessionKey child.1 := ⟨htotal, hkey⟩
    rw [put, if_pos hsession, he]
    rfl
  · cases h
    have hsession : ¬ SessionKey child.1 := fun hsession => hkey hsession.2
    rw [put, if_neg hsession]
    rfl

/-- The inner loop reads the session of a child. -/
theorem run_onElem (c : SessionNode) :
    Execution.run onElem ⟨0, 0⟩ c.snapshot.getChildren = some c.session := by
  cases c <;> rfl

theorem entry_snapshot (key : String) (c : SessionNode) : entry (key, c.snapshot) =
    if c.session.outTime ≠ 0 then (swiftInt key).map fun k => some (k, c.session)
    else some none := by
  rw [entry, run_onElem, Option.bind_some]

/-- For the children of a record that is what is finished. -/
theorem filterMap_put {h : Hours} (hc : h.Canonical) :
    h.getChildren.filterMap put = h.finished := by
  have hreserved : h.reservedChildren.filterMap put = [] := by
    refine List.filterMap_eq_nil_iff.2 fun child hmem => ?_
    rw [put, if_neg (Hours.not_sessionKey_of_mem hmem)]
  rw [Hours.getChildren, List.filterMap_append, hreserved, List.append_nil, Hours.sessionChildren,
    List.filterMap_map, Hours.finished]
  refine List.filterMap_congr fun child hmem => ?_
  have hkey : SessionKey child.1 := hc.sessionKey (AList.mem_keys.2 (List.mem_keys_of_mem hmem))
  rw [Function.comp_apply, put, if_pos hkey, entry_snapshot, Hours.finishedEntry]
  split_ifs
  · cases swiftInt child.1 <;> rfl
  · rfl

/-- **The observer never traps on the record of an account**, and it puts the finished sessions into
the dictionary. -/
theorem observe_eq_some {h : Hours} (hc : h.Canonical) {children : List (String × DataSnapshot)}
    (he : h.Enumerates children) (vc : ViewController) : ∃ vc' l, vc.observe children = some vc' ∧
      l.Perm h.finished ∧ vc'.sessions = Dictionary.putAll vc.sessions l := by
  have hsome : (vc.observe children).isSome := by
    refine (Execution.isSome_run_iff isSome_onChild vc children).2 fun child hmem hkey => ?_
    rcases he.session_or_reserved hc hmem with ⟨k, c, -, rfl⟩ | hreserved
    · rw [entry_snapshot, swiftInt_childKey]
      split_ifs <;> rfl
    · exact absurd hkey (Hours.not_sessionKey_of_mem hreserved)
  obtain ⟨vc', hvc'⟩ := Option.isSome_iff_exists.1 hsome
  refine ⟨vc', children.filterMap put, hvc', ?_, ?_⟩
  · rw [← filterMap_put hc]
    exact he.filterMap put
  · rw [Dictionary.putAll_filterMap]
    exact Execution.run_foldl sessions_of_onChild hvc'

/-! ### When the table is right -/

/-- **The table shows the truth**: every finished session of the record is in exactly one row, and
there is no other row. -/
def ShowsTruth (vc : ViewController) (h : Hours) : Prop :=
  vc.tableView.Perm (h.finished.map fun e => some e.2)

end ViewController

/-- The finished sessions are numbered from `1` on. -/
def Numbered (h : Hours) : Prop := ∃ n : ℕ, ∀ k, Finished h k ↔ 1 ≤ k ∧ k ≤ n

/-- In each of the snapshots the finished sessions are numbered from `1` on, and they are there in
every later one. -/
def Ascending (snapshots : List Hours) : Prop :=
  (∀ h ∈ snapshots, Numbered h) ∧
    snapshots.Pairwise fun h h' => ∀ k, Finished h k → Finished h' k

/-- Both conditions can be computed. -/
theorem numbered_iff_perm {h : Hours} (hc : h.Canonical) :
    Numbered h ↔ (h.finished.map Prod.fst).Perm
      ((List.range h.finished.length).map fun i : ℕ => (i + 1 : ℤ)) := by
  constructor
  · rintro ⟨n, hn⟩
    have hnumbered : ∀ k, k ∈ h.finished.map Prod.fst ↔ 1 ≤ k ∧ k ≤ (n : ℤ) := fun k => by
      rw [mem_map_finished hc, hn]
    have hlength := Dictionary.length_eq_of_numbered (Hours.nodup_finished hc) hnumbered
    rw [List.length_map] at hlength
    rw [hlength]
    exact Dictionary.perm_numbers (Hours.nodup_finished hc) hnumbered
  · intro hperm
    refine ⟨h.finished.length, fun k => ?_⟩
    rw [← mem_map_finished hc, hperm.mem_iff, Dictionary.mem_numbers]

theorem ascending_iff {snapshots : List Hours} (hc : ∀ h ∈ snapshots, h.Canonical) :
    Ascending snapshots ↔
      (∀ h ∈ snapshots, (h.finished.map Prod.fst).Perm
        ((List.range h.finished.length).map fun i : ℕ => (i + 1 : ℤ))) ∧
      snapshots.Pairwise fun h h' =>
        ∀ k ∈ h.finished.map Prod.fst, k ∈ h'.finished.map Prod.fst := by
  refine and_congr ?_ ?_
  · exact forall₂_congr fun h hmem => numbered_iff_perm (hc h hmem)
  · refine List.Pairwise.iff_of_mem fun {h h'} hmem hmem' => ?_
    simp only [mem_map_finished (hc h hmem), mem_map_finished (hc h' hmem')]

/-- A snapshot of a record, with the order in which the children come. -/
structure Enumeration where
  record : Hours
  children : List (String × DataSnapshot)
  enumerates : record.Enumerates children

/-- The snapshots of records with their children in the order of the record. -/
def enumerations (snapshots : List Hours) : List Enumeration :=
  snapshots.map fun h => ⟨h, h.getChildren, .refl _⟩

@[simp] theorem map_record_enumerations (snapshots : List Hours) :
    (enumerations snapshots).map Enumeration.record = snapshots := by
  rw [enumerations, List.map_map]
  exact List.map_id _

namespace ViewController

/-- The observer is run on a snapshot. -/
def onSnapshot (vc : ViewController) (e : Enumeration) : Option ViewController :=
  vc.observe e.children

/-- The table shows the truth after the observer has been run on the snapshot. -/
def ShowsTruthAfter (vc : ViewController) (e : Enumeration) : Prop :=
  ∀ vc', vc.onSnapshot e = some vc' → vc'.ShowsTruth e.record

/-- What one snapshot does: the table is right if its sessions are numbered and replace all the
dictionary had, and the dictionary has them from then on. -/
theorem onSnapshot_eq_some {e : Enumeration} (hc : e.record.Canonical) (vc : ViewController) :
    ∃ vc', vc.onSnapshot e = some vc' ∧
      (vc'.ShowsTruth e.record ↔
        Numbered e.record ∧ ∀ k ∈ vc.sessions, Finished e.record k) ∧
      ∀ k, k ∈ vc'.sessions ↔ k ∈ vc.sessions ∨ Finished e.record k := by
  obtain ⟨vc', l, hvc', hperm, hsessions⟩ := observe_eq_some hc e.enumerates vc
  have hkeys : ∀ k, k ∈ l.map Prod.fst ↔ Finished e.record k := by
    intro k
    rw [(hperm.map Prod.fst).mem_iff, mem_map_finished hc]
  have hnodup : (l.map Prod.fst).Nodup :=
    (hperm.map Prod.fst).nodup_iff.2 (Hours.nodup_finished hc)
  refine ⟨vc', hvc', ?_, fun k => ?_⟩
  · have hrows : vc'.ShowsTruth e.record ↔
        (Dictionary.rows (Dictionary.putAll vc.sessions l)).Perm (l.map fun e => some e.2) := by
      rw [ShowsTruth, tableView_eq, hsessions]
      have htruth := hperm.map fun e => some e.2
      exact ⟨fun h => h.trans htruth.symm, fun h => h.trans htruth⟩
    rw [hrows, Dictionary.rows_perm_iff hnodup]
    refine and_congr ⟨fun h => ⟨l.length, fun k => by rw [← hkeys, h]⟩, ?_⟩ ?_
    · rintro ⟨n, hn⟩
      have hnumbered : ∀ k, k ∈ l.map Prod.fst ↔ 1 ≤ k ∧ k ≤ (n : ℤ) := fun k => by rw [hkeys, hn]
      have hlength := Dictionary.length_eq_of_numbered hnodup hnumbered
      rw [List.length_map] at hlength
      rwa [hlength]
    · simp only [hkeys]
  · rw [hsessions, Dictionary.mem_putAll, hkeys]

/-- **The table is right after each of the snapshots if and only if they are ascending**, and
replace what the dictionary had before. -/
theorem along_showsTruth_iff {snapshots : List Enumeration}
    (hc : ∀ e ∈ snapshots, e.record.Canonical) (vc : ViewController) :
    Execution.Along onSnapshot ShowsTruthAfter vc snapshots ↔
      Ascending (snapshots.map Enumeration.record) ∧
        ∀ e ∈ snapshots, ∀ k ∈ vc.sessions, Finished e.record k := by
  rw [Ascending, List.forall_mem_map, List.pairwise_map]
  -- the dictionary is never cleared
  refine Execution.along_accumulates_iff (fun (vc : ViewController) k => k ∈ vc.sessions)
    (fun (e : Enumeration) k => Finished e.record k) (fun e he vc => ?_) vc
  obtain ⟨vc', hvc', htruth, hkeys⟩ := onSnapshot_eq_some (hc e he) vc
  refine ⟨vc', hvc', ?_, hkeys⟩
  rw [← htruth, ShowsTruthAfter, hvc']
  simp

theorem along_showsTruth_initial {snapshots : List Enumeration}
    (hc : ∀ h ∈ snapshots.map Enumeration.record, h.Canonical) :
    Execution.Along onSnapshot ShowsTruthAfter initial snapshots ↔
      Ascending (snapshots.map Enumeration.record) := by
  rw [along_showsTruth_iff (List.forall_mem_map.1 hc), and_iff_left]
  intro e _ k hk
  exact absurd hk (AList.notMem_empty k)

end ViewController

/-! ### The snapshots of a run -/

/-- The snapshots that a listener of device `d` is given when an action leads from `s` to `t`: one
for each write the device issues, and one whenever a write of somebody else lands or a commit
changes a counter. -/
def given (d : ℕ) (s t : Account) : Action → List Hours
  | .ios d' _ =>
      if d' = d then snapshots (s.view d) (own d (t.outbox.drop s.outbox.length)) else []
  | .land j => if s.outbox[j]?.map Entry.sender = some (.ios d) then [] else [t.view d]
  | .commitHours _ | .commitSessions _ =>
      if t.db.totalHours = s.db.totalHours ∧ t.db.numSessions = s.db.numSessions then []
      else [t.view d]
  | _ => []

/-- The snapshots that a listener of device `d` is given at an action. -/
def heard (d : ℕ) (s : Account) (a : Action) : List Hours :=
  (step s a).elim [] fun t => given d s t a

/-- The last snapshot of a device's own writes. -/
theorem getLast_snapshots (h : Hours) (ws : List Write) :
    (snapshots h ws).getLast?.getD h = h.applyAll ws := by
  induction ws generalizing h with
  | nil => rfl
  | cons w ws ih => rw [snapshots, List.getLast?_cons, ih, Option.getD_some, Hours.applyAll_cons]

/-- **A listener is up to date**: the last snapshot it has been given is what the device sees. -/
theorem getLast_given (d : ℕ) {s t : Account} {a : Action} (hst : Trans s a t) :
    (given d s t a).getLast?.getD (s.view d) = t.view d := by
  have hcommit : ∀ {h : Hours}, h.sisterName = s.db.sisterName → h.children = s.db.children →
      t.view d = h.applyAll (own d s.outbox) →
      (if h.totalHours = s.db.totalHours ∧ h.numSessions = s.db.numSessions then []
        else [t.view d]).getLast?.getD (s.view d) = t.view d := by
    intro h hname hchildren hview
    split_ifs with heq
    · have hdb : h = s.db := by
        cases h
        simp_all
      rw [hview, hdb]
      rfl
    · rfl
  cases hst with
  | @ios d' e vc ws htr =>
      rcases eq_or_ne d' d with rfl | hne
      · rw [given, if_pos rfl, outbox_issue, List.drop_left, own_sendAll_self, getLast_snapshots,
          view_issue_self]
      · rw [given, if_neg hne, view_issue_of_ne s hne.symm]
        rfl
  | @land j l₁ l₂ e hout hj hfirst =>
      subst hj
      have hget : s.outbox[l₁.length]? = some e := by simp [hout]
      rw [given, hget]
      split_ifs with he
      · rw [view_land_self hout (Option.some.inj he) hfirst]
        rfl
      · rfl
  | hoursCommit hsub htr hb => exact hcommit rfl rfl rfl
  | sessionsCommit hsub htr hb => exact hcommit rfl rfl rfl
  | hoursRetry hsub htr hb => exact hcommit rfl rfl rfl
  | sessionsRetry hsub htr hb => exact hcommit rfl rfl rfl
  | @runSessions i v new sub hsub hq hv =>
      -- the write of a handler is none of the device
      have hown : own d (s.handlerWrites i sub new) = [] := own_sendAll_of_ne (by simp) _
      change s.db.applyAll (own d s.outbox) =
        s.db.applyAll (own d (s.outbox ++ s.handlerWrites i sub new))
      rw [own_append, hown, List.append_nil]
  | _ => rfl

/-- The snapshots that a listener is given are of records with canonical keys. -/
theorem canonical_of_mem_heard {d : ℕ} {s : Account} {a : Action} (hc : s.db.Canonical) {h : Hours}
    (hmem : h ∈ heard d s a) : h.Canonical := by
  rw [heard] at hmem
  cases ht : step s a with
  | none =>
      rw [ht] at hmem
      cases hmem
  | some t =>
      have hview : (t.view d).Canonical := ((trans_of_step ht).canonical hc).applyAll _
      rw [ht, Option.elim_some] at hmem
      cases a with
      | ios d' e =>
          rw [given] at hmem
          split_ifs at hmem
          · exact canonical_of_mem_snapshots (hc.applyAll _) hmem
          · cases hmem
      | land j | commitHours i | commitSessions i =>
          rw [given] at hmem
          split_ifs at hmem
          · cases hmem
          · rwa [List.mem_singleton.1 hmem]
      | _ => cases hmem

/-- The snapshots of a listener that is registered in the state `s`, up to the end of a run. -/
def observed (d : ℕ) (s : Account) (acts : List Action) : List Hours :=
  s.view d :: Execution.collect step (heard d) s acts

/-- At the end of a run the listener has been given what the device sees then. -/
theorem getLast_observed (d : ℕ) {s t : Account} {acts : List Action}
    (hrun : Execution.run step s acts = some t) :
    (observed d s acts).getLast? = some (t.view d) := by
  refine Execution.run_induction (P := fun acts t => (observed d s acts).getLast? = some (t.view d))
    rfl ?_ acts t hrun
  intro as t a u hrun ih hu
  have hlast := getLast_given d (trans_of_step hu)
  rw [observed] at ih ⊢
  rw [Execution.collect_snoc hrun, heard, hu, Option.elim_some, ← List.cons_append,
    List.getLast?_append, ih]
  rw [← hlast]
  cases (given d t u a).getLast? <;> rfl

theorem canonical_of_mem_observed {h : Hours} {status : Status} {before : List Action} {s : Account}
    (hc : h.Canonical) (hbefore : Execution.run step (atRest h status) before = some s) (d : ℕ)
    (acts : List Action) : ∀ h' ∈ observed d s acts, h'.Canonical := by
  have hdb : s.db.Canonical :=
    Execution.run_invariant (fun _ _ _ hI hst => (trans_of_step hst).canonical hI)
      (show (atRest h status).db.Canonical from hc) hbefore
  rw [observed, List.forall_mem_cons]
  refine ⟨hdb.applyAll _, ?_⟩
  exact Execution.forall_mem_collect (fun _ _ _ hI hst => (trans_of_step hst).canonical hI)
    (fun s a hI h' hmem => canonical_of_mem_heard hI hmem) hdb

/-! ### The table along a run -/

/-- **The table is right after each snapshot that a run produces if and only if these snapshots are
ascending**: their finished sessions are numbered from `1` on, and none of them is missing later. -/
theorem showsTruth_iff {h : Hours} (hc : h.Canonical) {status : Status} {before acts : List Action}
    {s : Account} (hbefore : Execution.run step (atRest h status) before = some s) (d : ℕ)
    {snapshots : List Enumeration}
    (hsnapshots : snapshots.map Enumeration.record = observed d s acts) :
    Execution.Along ViewController.onSnapshot ViewController.ShowsTruthAfter
        ViewController.initial snapshots ↔
      Ascending (observed d s acts) := by
  have hcanonical : ∀ h' ∈ snapshots.map Enumeration.record, h'.Canonical := by
    rw [hsnapshots]
    exact canonical_of_mem_observed hc hbefore d acts
  rw [ViewController.along_showsTruth_initial hcanonical, hsnapshots]

theorem canonical_created (name : String) : (Hours.created name).Canonical :=
  fun _ hkey => absurd hkey (AList.notMem_empty _)

/-- What a device records on its own is shown. -/
theorem showsTruth_confirm :
    Execution.Along ViewController.onSnapshot ViewController.ShowsTruthAfter
    ViewController.initial (enumerations
      (observed 0 (atRest (Hours.created "A") .closed) (startAndStop ++ confirm))) := by
  have hbefore : Execution.run step (atRest (Hours.created "A") .closed) [] =
      some (atRest (Hours.created "A") .closed) := rfl
  refine (showsTruth_iff (canonical_created "A") hbefore 0 (map_record_enumerations _)).2 ?_
  rw [ascending_iff (canonical_of_mem_observed (canonical_created "A") hbefore 0 _)]
  decide

/-- Android clients `0` and `1` submit a session each, and the second one lands first. -/
def overtakingSessions : List Action :=
  [.toggle 0 0 0, .toggle 0 3600000 3600000, .submit 0 0, .deliver 0,
    .runHours 0 (some 0), .commitHours 0, .runSessions 0 (some 0), .commitSessions 0,
    .toggle 1 0 0, .toggle 1 3600000 3600000, .submit 1 0, .deliver 1,
    .runHours 1 (some 1), .commitHours 1, .runSessions 1 (some 1), .commitSessions 1, .land 1]

/-- **A session that lands before the one with the number before it is not shown**: the dictionary
has one key, and the only row looks up another one. -/
theorem not_showsTruth :
    ¬ ∀ (h : Hours) (status : Status) (before acts : List Action) (s : Account),
    h.Canonical → Execution.run step (atRest h status) before = some s →
    ∀ (d : ℕ) (snapshots : List Enumeration),
      snapshots.map Enumeration.record = observed d s acts →
        Execution.Along ViewController.onSnapshot ViewController.ShowsTruthAfter
          ViewController.initial snapshots := by
  intro h
  have hbefore : Execution.run step (atRest (Hours.created "A") .closed) [] =
      some (atRest (Hours.created "A") .closed) := rfl
  have hcanonical := canonical_of_mem_observed (canonical_created "A") hbefore 0 overtakingSessions
  have htruth := h _ .closed [] overtakingSessions _ (canonical_created "A") hbefore 0
    (enumerations (observed 0 (atRest (Hours.created "A") .closed) overtakingSessions))
    (map_record_enumerations _)
  rw [ViewController.along_showsTruth_initial (by simpa using hcanonical),
    map_record_enumerations, ascending_iff hcanonical] at htruth
  exact absurd htruth.1 (by decide +kernel)

end StudyHours
