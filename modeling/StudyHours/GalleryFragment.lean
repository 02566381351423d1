/-
**The history screen of the Android client.**

`GalleryFragment` reads the record of an account once and lists its sessions.  It walks through the
children in the order in which they come.  A child with a session key must have both entries, and
its key must be the numeral of an `Integer`; a missing entry cannot be unboxed, another key cannot
be parsed, and either ends the app.  What has been read is put into a map under the session's
number, and in the end the map is listed in the ascending order of its keys.

A session that is in progress on an iOS device has a child with one entry.  So the screen opens at
any time as long as no child comes into the record, or stays there, with one entry only.

Main definitions:

* `StudyHours.Formats` — how Android writes times and totals;
* `StudyHours.GalleryFragment.onDataChange` — the screen that is made of a snapshot;
* `StudyHours.Opens` — `onDataChange` runs to its end, in whatever order the children come;
* `StudyHours.Fills` — a write leaves no child with one entry.

Main results:

* `StudyHours.opens_iff` — the screen opens exactly if every child is complete;
* `StudyHours.opensThroughout_iff` — **it opens throughout a run exactly if each write that
  lands finds the other entry there**;
* `StudyHours.not_opensThroughout` — it does not open while a session is in progress on an iOS
  device.
-/

import Mathlib
import StudyHours.Confirmations
import StudyHours.DataSnapshot
import StudyHours.Dictionary
import StudyHours.Slots

set_option relaxedAutoImplicit false
set_option autoImplicit false

namespace StudyHours

open Account
open RecordViewController (Event Transition)

/-! ### The screen -/

/-- How Android writes what is shown: a time by `SimpleDateFormat`; a total as a `Float`, which is
rounded and then printed by `%1$f`. -/
structure Formats where
  time : ℤ → String
  floatValue : ℚ → ℚ
  fixedPoint : ℚ → String

/-- `R.string.total_hours`. -/
def Formats.totalHours (format : Formats) (totalHours : ℚ) : String :=
  "Total Hours: " ++ format.fixedPoint totalHours

/-- The fragment, since its view was created. -/
structure GalleryFragment where
  totalHours : ℚ
  /-- The total shown, if one is. -/
  totalHoursText : Option String
  infoArray : List String
  map : AList fun _ : ℤ => String

namespace GalleryFragment

/-- `onCreateView`: a new list and a new map. -/
def onCreateView : GalleryFragment := ⟨0, none, [], ∅⟩

/-- The entry of the map for a child: its number and the text of its session.  `none` is an
exception. -/
def entry (format : ℤ → String) (child : String × DataSnapshot) : Option (ℤ × String) :=
  (child.2.child "in").getLong.bind fun inTime =>
    (child.2.child "out").getLong.bind fun outTime =>
      (integerValueOf child.1).map fun key => (key, format inTime ++ " - " ++ format outTime)

variable (format : Formats)

/-- One round of the loop of `onDataChange`. -/
def onChild (f : GalleryFragment) (child : String × DataSnapshot) : Option GalleryFragment :=
  if child.1 = "totalHours" then
    (child.2.getDouble.map format.floatValue).map fun totalHours =>
      { f with totalHours, totalHoursText := some (format.totalHours totalHours) }
  else if child.1 ≠ "numSessions" ∧ child.1 ≠ "sisterName" then
    (entry format.time child).map fun e => { f with map := f.map.insert e.1 e.2 }
  else
    some f

/-- `onDataChange`: the children are read one after the other, and the map is listed by its keys. -/
def onDataChange (f : GalleryFragment) (children : List (String × DataSnapshot)) :
    Option GalleryFragment :=
  (Execution.run (onChild format) f children).map fun f =>
    { f with infoArray := f.infoArray ++ Dictionary.sorted f.map }

variable {format}

/-- A round can fail on the total and on a session. -/
theorem isSome_onChild (f : GalleryFragment) (child : String × DataSnapshot) :
    (onChild format f child).isSome ↔
      (child.1 = "totalHours" → child.2.getDouble.isSome) ∧
        (SessionKey child.1 → (entry format.time child).isSome) := by
  unfold onChild SessionKey
  split_ifs with htotal hkey
  · simp [htotal]
  · simp [htotal, hkey]
  · simp [htotal, hkey]

/-- What a round puts into the map. -/
def put (format : ℤ → String) (child : String × DataSnapshot) : Option (ℤ × String) :=
  if SessionKey child.1 then entry format child else none

theorem map_of_onChild (f : GalleryFragment) (child : String × DataSnapshot) (f' : GalleryFragment)
    (h : onChild format f child = some f') :
    f'.map = (put format.time child).elim f.map fun e => f.map.insert e.1 e.2 := by
  unfold onChild at h
  split_ifs at h with htotal hkey
  · obtain ⟨q, -, rfl⟩ := Option.map_eq_some_iff.1 h
    simp [put, SessionKey, htotal]
  · obtain ⟨e, he, rfl⟩ := Option.map_eq_some_iff.1 h
    have hsession : SessionKey child.1 := ⟨htotal, hkey⟩
    rw [put, if_pos hsession, he]
    rfl
  · cases h
    have hsession : ¬ SessionKey child.1 := fun hsession => hkey hsession.2
    rw [put, if_neg hsession]
    rfl

/-- The loop reads the children to the end if none of them makes its round fail. -/
theorem isSome_onDataChange (f : GalleryFragment) (children : List (String × DataSnapshot)) :
    (f.onDataChange format children).isSome ↔ ∀ child ∈ children,
      (child.1 = "totalHours" → child.2.getDouble.isSome) ∧
        (SessionKey child.1 → (entry format.time child).isSome) := by
  rw [onDataChange, Option.isSome_map]
  exact Execution.isSome_run_iff isSome_onChild f children

/-- What is read of the session of a child: both entries must be there, and the key an `Integer`. -/
theorem entry_eq_some {format : ℤ → String} {k : ℤ} {c : SessionNode} {e : ℤ × String} :
    entry format (childKey k, c.snapshot) = some e ↔ ∃ inTime outTime,
      c = .full inTime outTime ∧ InInteger k ∧
        e = (k, format inTime ++ " - " ++ format outTime) := by
  cases c with
  | inOnly i | outOnly o => simp [entry, SessionNode.inTime?, SessionNode.outTime?]
  | full i o =>
      by_cases hk : InInteger k
      · simp [entry, SessionNode.inTime?, SessionNode.outTime?, integerValueOf_childKey, hk,
          eq_comm]
      · simp [entry, SessionNode.inTime?, SessionNode.outTime?, integerValueOf_childKey, hk]

theorem isSome_entry {format : ℤ → String} (k : ℤ) (c : SessionNode) :
    (entry format (childKey k, c.snapshot)).isSome ↔ c.Complete ∧ InInteger k := by
  rw [Option.isSome_iff_exists]
  constructor
  · rintro ⟨e, he⟩
    obtain ⟨i, o, rfl, hk, -⟩ := entry_eq_some.1 he
    exact ⟨trivial, hk⟩
  · rintro ⟨hcomplete, hk⟩
    cases c with
    | inOnly i | outOnly o => exact hcomplete.elim
    | full i o => exact ⟨_, entry_eq_some.2 ⟨i, o, rfl, hk, rfl⟩⟩

theorem infoArray_of_onChild (f : GalleryFragment) (child : String × DataSnapshot)
    (f' : GalleryFragment) (h : onChild format f child = some f') : f'.infoArray = f.infoArray := by
  unfold onChild at h
  split_ifs at h
  · obtain ⟨q, -, rfl⟩ := Option.map_eq_some_iff.1 h
    rfl
  · obtain ⟨e, -, rfl⟩ := Option.map_eq_some_iff.1 h
    rfl
  · cases h
    rfl

/-- **What a fresh fragment lists in the end.** -/
theorem infoArray_onDataChange {children : List (String × DataSnapshot)} {f : GalleryFragment}
    (h : onCreateView.onDataChange format children = some f) :
    f.infoArray =
      Dictionary.sorted (Dictionary.putAll ∅ (children.filterMap (put format.time))) := by
  obtain ⟨f', hf', rfl⟩ := Option.map_eq_some_iff.1 h
  have hmap : f'.map = Dictionary.putAll ∅ (children.filterMap (put format.time)) := by
    rw [Dictionary.putAll_filterMap]
    exact Execution.run_foldl map_of_onChild hf'
  have hlist : f'.infoArray = [] := by
    refine (Execution.run_foldl (g := fun l _ => l) infoArray_of_onChild hf').trans ?_
    exact List.foldl_fixed children
  rw [hmap, hlist, List.nil_append]

/-- The entries of the map for a record, in whatever order its children come. -/
theorem mem_filterMap_put {format : ℤ → String} {h : Hours} (hc : h.Canonical)
    {children : List (String × DataSnapshot)} (he : h.Enumerates children) {k : ℤ} {text : String} :
    (k, text) ∈ children.filterMap (put format) ↔ ∃ inTime outTime,
      h.child k = some (.full inTime outTime) ∧ InInteger k ∧
        text = format inTime ++ " - " ++ format outTime := by
  rw [List.mem_filterMap]
  constructor
  · rintro ⟨child, hmem, hput⟩
    rcases he.session_or_reserved hc hmem with ⟨j, c, hget, rfl⟩ | hreserved
    · rw [put, if_pos (sessionKey_childKey j)] at hput
      obtain ⟨i, o, rfl, hj, heq⟩ := entry_eq_some.1 hput
      obtain ⟨rfl, rfl⟩ := Prod.mk.inj heq
      exact ⟨i, o, hget, hj, rfl⟩
    · rw [put, if_neg (Hours.not_sessionKey_of_mem hreserved)] at hput
      cases hput
  · rintro ⟨i, o, hget, hk, rfl⟩
    refine ⟨(childKey k, (SessionNode.full i o).snapshot), he.mem_of_child hget, ?_⟩
    rw [put, if_pos (sessionKey_childKey k)]
    exact entry_eq_some.2 ⟨i, o, rfl, hk, rfl⟩

end GalleryFragment

/-! ### When the screen opens -/

/-- The screen opens: in whatever order the children come, `onDataChange` runs to its end. -/
def Opens (format : Formats) (h : Hours) : Prop :=
  ∀ children, h.Enumerates children →
    (GalleryFragment.onCreateView.onDataChange format children).isSome

/-- **The screen opens if and only if every child is complete**, and has a key that is an
`Integer`. -/
theorem opens_iff {format : Formats} {h : Hours} (hc : h.Canonical) :
    Opens format h ↔ ∀ k, ∀ c ∈ h.child k, c.Complete ∧ InInteger k := by
  constructor
  · intro hopens k c hget
    have he : h.Enumerates h.getChildren := .refl _
    have hall := (GalleryFragment.isSome_onDataChange _ _).1 (hopens h.getChildren he)
    have hentry := (hall _ (he.mem_of_child hget)).2 (sessionKey_childKey k)
    exact (GalleryFragment.isSome_entry k c).1 hentry
  · intro hall children he
    refine (GalleryFragment.isSome_onDataChange _ _).2 fun child hmem => ?_
    rcases he.session_or_reserved hc hmem with ⟨k, c, hget, rfl⟩ | hreserved
    · refine ⟨fun htotal => absurd htotal (sessionKey_childKey k).1, fun _ => ?_⟩
      exact (GalleryFragment.isSome_entry k c).2 (hall k c hget)
    · refine ⟨fun htotal => ?_, fun hkey => absurd hkey (Hours.not_sessionKey_of_mem hreserved)⟩
      rcases Hours.mem_reservedChildren.1 hreserved with ⟨n, -, heq⟩ | ⟨n, -, heq⟩ | ⟨q, -, heq⟩
      · cases heq
        simp at htotal
      · cases heq
        simp at htotal
      · cases heq
        rfl

/-! ### Runs in which the screen opens at any time -/

/-- The entry `out` of the child of session `k`. -/
def Hours.outTime? (h : Hours) (k : ℤ) : Option ℤ := (h.child k).bind SessionNode.outTime?

/-- The write leaves no child with one entry: what it sets is the other one. -/
def Fills (h : Hours) : Write → Prop
  | .checkIn k _ => (h.outTime? k).isSome
  | .checkOut k _ => (h.inTime? k).isSome
  | .remove _ | .session _ _ | .numSessions _ | .totalHours _ _ => True

instance (h : Hours) (w : Write) : Decidable (Fills h w) := by
  cases w <;> unfold Fills <;> infer_instance

/-- A write that lands finds the other entry of its child there. -/
def FillsChild (s : Account) : Action → Prop
  | .land j => ∀ e ∈ s.outbox[j]?, Fills s.db e.write
  | _ => True

instance (s : Account) (a : Action) : Decidable (FillsChild s a) := by
  induction a using Action.casesOn <;> dsimp only [FillsChild] <;> infer_instance

/-- The screen opens after the action. -/
def OpensAfter (format : Formats) (s : Account) (a : Action) : Prop :=
  ∀ t, step s a = some t → Opens format t.db

/-- Every child can be read: it is complete, and its key is an `Integer`. -/
def AllReadable (h : Hours) : Prop := ∀ k, ∀ c ∈ h.child k, c.Complete ∧ InInteger k

theorem SessionNode.complete_setIn (t : ℤ) (c : Option SessionNode) :
    (SessionNode.setIn t c).Complete ↔ (c.bind SessionNode.outTime?).isSome := by
  rcases c with _ | _ | _ | _ <;> simp [SessionNode.setIn, Complete, outTime?]

theorem SessionNode.complete_setOut (t : ℤ) (c : Option SessionNode) :
    (SessionNode.setOut t c).Complete ↔ (c.bind SessionNode.inTime?).isSome := by
  rcases c with _ | _ | _ | _ <;> simp [SessionNode.setOut, Complete, inTime?]

/-- **All children can be read after a write if and only if the write leaves none with one entry**,
where all of them could be read before. -/
theorem allReadable_apply_iff {h : Hours} (hall : AllReadable h) {w : Write}
    (hw : ∀ k σ, w = .session k σ → InInteger k) : AllReadable (h.apply w) ↔ Fills h w := by
  -- the other children stay as they are
  have hother : ∀ {k}, w.key? ≠ some k → ∀ c ∈ (h.apply w).child k, c.Complete ∧ InInteger k := by
    intro k hk c hget
    rw [Hours.child_apply_of_ne h hk] at hget
    exact hall k c hget
  have hint : ∀ {β : Type} {f : SessionNode → Option β} {k : ℤ}, ((h.child k).bind f).isSome →
      InInteger k := by
    intro β f k hsome
    obtain ⟨b, hb⟩ := Option.isSome_iff_exists.1 hsome
    obtain ⟨c, hget, -⟩ := Option.bind_eq_some_iff.1 hb
    exact (hall k c hget).2
  cases w with
  | checkIn j t =>
      have hself : (h.apply (.checkIn j t)).child j = some (SessionNode.setIn t (h.child j)) := by
        rw [Hours.child_apply, Write.onChild, if_pos rfl]
      rw [Fills, Hours.outTime?, ← SessionNode.complete_setIn t]
      refine ⟨fun hafter => (hafter j _ hself).1, fun hfull k => ?_⟩
      rcases eq_or_ne j k with rfl | hne
      · intro c hget
        obtain rfl := Option.some.inj (hself.symm.trans hget)
        exact ⟨hfull, hint ((SessionNode.complete_setIn t _).1 hfull)⟩
      · exact hother fun hk => hne (Option.some.inj hk)
  | checkOut j t =>
      have hself : (h.apply (.checkOut j t)).child j = some (SessionNode.setOut t (h.child j)) := by
        rw [Hours.child_apply, Write.onChild, if_pos rfl]
      rw [Fills, Hours.inTime?, ← SessionNode.complete_setOut t]
      refine ⟨fun hafter => (hafter j _ hself).1, fun hfull k => ?_⟩
      rcases eq_or_ne j k with rfl | hne
      · intro c hget
        obtain rfl := Option.some.inj (hself.symm.trans hget)
        exact ⟨hfull, hint ((SessionNode.complete_setOut t _).1 hfull)⟩
      · exact hother fun hk => hne (Option.some.inj hk)
  | remove j =>
      refine iff_of_true (fun k => ?_) trivial
      rcases eq_or_ne j k with rfl | hne
      · intro c hget
        rw [Hours.child_apply, Write.onChild, if_pos rfl] at hget
        cases hget
      · exact hother fun hk => hne (Option.some.inj hk)
  | session j σ =>
      refine iff_of_true (fun k => ?_) trivial
      rcases eq_or_ne j k with rfl | hne
      · intro c hget
        rw [Hours.child_apply, Write.onChild, if_pos rfl] at hget
        obtain rfl := Option.some.inj hget
        exact ⟨trivial, hw j σ rfl⟩
      · exact hother fun hk => hne (Option.some.inj hk)
  | numSessions n | totalHours q r => exact iff_of_true hall trivial

/-- The keys are numerals, and no session in flight goes to a number that is no `Integer`. -/
structure KeysInv (s : Account) : Prop where
  canonical : s.db.Canonical
  sessions : ∀ e ∈ s.outbox, ∀ k σ, e.write = .session k σ → InInteger k

namespace KeysInv

variable {s t : Account}

/-- What an action adds to the writes in flight. -/
theorem of_append (h : KeysInv s) {l : List Entry} (hc : t.db.Canonical)
    (hout : t.outbox = s.outbox ++ l)
    (hl : ∀ e ∈ l, ∀ k σ, e.write = .session k σ → InInteger k) : KeysInv t where
  canonical := hc
  sessions e he := by
    rw [hout] at he
    rcases List.mem_append.1 he with he | he
    · exact h.sessions e he
    · exact hl e he

/-- The handler stores a session under the number it has computed, which is an `Integer`. -/
theorem sessions_handlerWrites {i : ℕ} {sub : Submission} {v new : Option ℤ}
    (hv : numSessionsTransaction v = some new) :
    ∀ e ∈ s.handlerWrites i sub new, ∀ k σ, e.write = .session k σ → InInteger k := by
  intro e he k σ hwrite
  obtain ⟨w, hw, rfl⟩ := List.mem_map.1 he
  obtain ⟨n, hn, rfl⟩ := List.mem_map.1 hw
  obtain rfl : new = some n := Option.mem_toList.1 hn
  cases v with
  | none => cases hv
  | some m =>
      obtain ⟨-, hnew⟩ := numSessionsTransaction_some hv
      obtain rfl := Option.some.inj hnew
      cases hσ : (s.fragment sub.client).studySession with
      | none =>
          rw [hσ] at hwrite
          cases hwrite
      | some session =>
          rw [hσ] at hwrite
          cases hwrite
          exact inInteger_integerSucc m

/-- **Every action keeps the keys so.** -/
theorem trans (h : KeysInv s) {a : Action} (hst : Trans s a t) : KeysInv t := by
  have hc : t.db.Canonical := hst.canonical h.canonical
  cases hst with
  | @ios d e vc ws htr =>
      refine h.of_append hc rfl fun e he k σ hwrite => ?_
      obtain ⟨w, hw, rfl⟩ := List.mem_map.1 he
      obtain rfl : w = .session k σ := hwrite
      -- a device stores no whole session
      rcases RecordViewController.writes_of_transition htr with
        rfl | ⟨n, now, rfl⟩ | ⟨n, rfl⟩ | ⟨i, dlg, q, -, -, -, rfl⟩ <;>
        simp [dismissSession, recordSession] at hw
  | runSessions hsub hq hv => exact h.of_append hc rfl (sessions_handlerWrites hv)
  | @land j l₁ l₂ e hout hj hfirst =>
      refine ⟨hc, fun e' he' => h.sessions e' ?_⟩
      rw [hout]
      exact ((List.Sublist.refl l₁).append (List.sublist_cons_self e l₂)).subset he'
  | _ => exact h.of_append hc (List.append_nil _).symm (by simp)

/-- The screen opens after an action if all children can be read then. -/
theorem opensAfter_iff (h : KeysInv s) (format : Formats) {a : Action}
    (ht : step s a = some t) : OpensAfter format s a ↔ AllReadable t.db := by
  have hcanonical : t.db.Canonical := (h.trans (trans_of_step ht)).canonical
  have hopens : Opens format t.db ↔ AllReadable t.db := opens_iff hcanonical
  rw [← hopens, OpensAfter, ht]
  simp

/-- **All children can be read after an action if and only if it fills the child it writes**, where
all of them could be read before.  Only a landing changes the children. -/
theorem allReadable_iff (h : KeysInv s) (hall : AllReadable s.db) {a : Action}
    (ht : step s a = some t) : AllReadable t.db ↔ FillsChild s a := by
  rcases (trans_of_step ht).kinds with ⟨d, e, vc, ws, rfl, -, rfl⟩ |
    ⟨l₁, e, l₂, rfl, hout, -, rfl⟩ | ⟨hios, hland, hframe⟩
  · exact iff_of_true hall trivial
  · have hget : s.outbox[l₁.length]? = some e := by simp [hout]
    have hmem : e ∈ s.outbox := List.mem_of_getElem? hget
    rw [db_landed, allReadable_apply_iff hall (h.sessions e hmem)]
    simp [FillsChild, hget]
  · have hchild : AllReadable t.db := by
      intro k c hc
      rw [Hours.child, hframe.children] at hc
      exact hall k c hc
    cases a with
    | land j => exact absurd rfl (hland j)
    | _ => exact iff_of_true hchild trivial

end KeysInv

theorem allReadable_created (name : String) : AllReadable (Hours.created name) := by
  intro k c hc
  cases hc

theorem keysInv_created (name : String) (status : Status) :
    KeysInv (atRest (Hours.created name) status) where
  canonical key hkey := absurd hkey (AList.notMem_empty _)
  sessions e he := by cases he

/-- The screen opens at the start of a run and after each of its actions. -/
def OpensThroughout (format : Formats) (s : Account) (acts : List Action) : Prop :=
  Opens format s.db ∧ Execution.Along step (OpensAfter format) s acts

/-- **The history screen opens at any time of a run if and only if each write that lands finds the
other entry of its child there.** -/
theorem opensThroughout_iff (format : Formats) {name : String} {status : Status}
    {acts : List Action} {u : Account}
    (hrun : Execution.run step (atRest (Hours.created name) status) acts = some u) :
    OpensThroughout format (atRest (Hours.created name) status) acts ↔
      Execution.Along step FillsChild (atRest (Hours.created name) status) acts := by
  have hstart : Opens format (atRest (Hours.created name) status).db :=
    (opens_iff (keysInv_created name status).canonical).2 (allReadable_created name)
  rw [OpensThroughout, and_iff_right hstart]
  refine Execution.along_iff_along (I := fun s => KeysInv s ∧ AllReadable s.db) ?_ ?_
    ⟨keysInv_created name status, allReadable_created name⟩ hrun
  · rintro s a t ⟨hkeys, hall⟩ ht
    rw [hkeys.opensAfter_iff format ht, hkeys.allReadable_iff hall ht]
  · rintro s a t ⟨hkeys, hall⟩ hfills ht
    exact ⟨hkeys.trans (trans_of_step ht), (hkeys.allReadable_iff hall ht).2 hfills⟩

/-- The texts of the first two hours, in Greenwich. -/
def firstHours (time : ℤ) : String :=
  if time < 3600000 then "01/01/1970 00:00" else "01/01/1970 01:00"

/-- A way of writing that is the one of Android for these two hours and for totals of whole and half
hours, which are `Float`s. -/
def firstFormats : Formats where
  time := firstHours
  floatValue q := q
  fixedPoint q := Int.repr ⌊q⌋ ++ if q = ⌊q⌋ then ".000000" else ".500000"

/-- The session of an Android client does not keep the screen from opening. -/
theorem opensThroughout_androidSession :
    OpensThroughout firstFormats (atRest (Hours.created "A") .closed) androidSession :=
  (opensThroughout_iff firstFormats (Option.eq_some_of_isSome (by decide))).2 (by decide)

/-- Device `0` starts a session and issues the check-in. -/
def startSession : List Action :=
  [.ios 0 .launch, .ios 0 .tap, .ios 0 (.arriveOuter 0), .ios 0 (.outer 0 0)]

/-- **While a session is in progress on an iOS device the history screen does not open.** -/
theorem not_opensThroughout : ¬ ∀ (format : Formats) (name : String) (status : Status)
    (acts : List Action) (u : Account),
    Execution.run step (atRest (Hours.created name) status) acts = some u →
      OpensThroughout format (atRest (Hours.created name) status) acts := by
  intro h
  obtain ⟨t, ht, hland⟩ : ∃ t,
      Execution.run step (atRest (Hours.created "A") .closed) startSession = some t ∧
        ((step t (.land 0)).map fun u => u.db.child 1) = some (some (.inOnly 0)) :=
    Execution.exists_run (by decide)
  obtain ⟨u, hu, hchild⟩ := Option.map_eq_some_iff.1 hland
  have hu' := Execution.run_snoc ht (.land 0)
  rw [hu] at hu'
  have hopens := ((Execution.along_snoc ht (.land 0)).1
    (h firstFormats "A" .closed _ u hu').2).2 u hu
  have hkeys : KeysInv u :=
    Execution.run_invariant (fun _ _ _ hI hst => hI.trans (trans_of_step hst))
      (keysInv_created "A" .closed) hu'
  exact ((opens_iff hkeys.canonical).1 hopens 1 _ hchild).1

end StudyHours
