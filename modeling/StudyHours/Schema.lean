/-
**The schema of the tree.**

The overview of all accounts unboxes the total of every record it finds, and the iOS history parses
every key and casts every entry of a session.  Nothing in the tree is checked before, so both rest
on what the writers do: whoever creates a record begins with the total, nobody takes it away, and
nobody writes to a record before having read a counter from it.  The last is what keeps a client
from writing a session into a record that is not there: on iOS a missing counter cannot be
unwrapped, and on Android no transaction is started without one.

An app that holds a counter, or has a write on its way, has read it from the record on the server
or, in the middle of its own sign-up, from its own writes; these land before anything else it sends.

Main definitions:

* `StudyHours.Formed` — a record that does not exist or has a total, and has numerals as keys;
* `StudyHours.Node.Backed` — the total is in the record, or on its way before all the app sends;
* `StudyHours.SchemaInv` — the invariant of one account of the tree;
* `StudyHours.Schema` — what a reader finds below a record.

Main results:

* `StudyHours.SchemaInv.trans` — **every action keeps the invariant**;
* `StudyHours.schema_of_run` — the schema holds of every record of every tree that can be reached,
  and the two readers never fail.
-/

import Mathlib
import StudyHours.SistersHoursFragment
import StudyHours.Tree
import StudyHours.ViewController

set_option relaxedAutoImplicit false
set_option autoImplicit false

namespace StudyHours

open Account
open RecordViewController (Event Transition mem_captured)

/-! ### Records of the right form -/

/-- The record does not exist or has a total, and the keys of its sessions are numerals. -/
structure Formed (h : Hours) : Prop where
  canonical : h.Canonical
  total : h = Hours.absent ∨ h.totalHours.isSome

/-- The write of a sign-up leaves a total in the record. -/
def SignUpWrite.SetsTotal : SignUpWrite → Prop
  | totalHours _ | post _ _ _ => True
  | numSessions _ | sisterName _ => False

namespace Hours

variable {h : Hours}

theorem canonical_absent : absent.Canonical := fun _ hkey => absurd hkey (AList.notMem_empty _)

/-- No write takes the total away. -/
theorem totalHours_apply (ht : h.totalHours.isSome) (w : Write) :
    (h.apply w).totalHours.isSome := by
  cases w with
  | totalHours t credit => rfl
  | _ => exact ht

theorem totalHours_applyAll (ht : h.totalHours.isSome) (ws : List Write) :
    (h.applyAll ws).totalHours.isSome := by
  induction ws generalizing h with
  | nil => exact ht
  | cons w ws ih => exact ih (totalHours_apply ht w)

theorem totalHours_applySignUp {w : SignUpWrite} (ht : h.totalHours.isSome ∨ w.SetsTotal) :
    (h.applySignUp w).totalHours.isSome := by
  cases w with
  | totalHours value | post sisterName numSessions totalHours => rfl
  | numSessions value | sisterName value => exact ht.elim id False.elim

theorem totalHours_foldl_applySignUp (ht : h.totalHours.isSome) (ws : List SignUpWrite) :
    (ws.foldl applySignUp h).totalHours.isSome := by
  induction ws generalizing h with
  | nil => exact ht
  | cons w ws ih => exact ih (totalHours_applySignUp (.inl ht))

theorem Canonical.applySignUp (hc : h.Canonical) (w : SignUpWrite) :
    (h.applySignUp w).Canonical := by
  cases w with
  | post sisterName numSessions totalHours => exact canonical_absent
  | _ => exact hc

theorem Canonical.foldl_applySignUp (hc : h.Canonical) (ws : List SignUpWrite) :
    (ws.foldl Hours.applySignUp h).Canonical := by
  induction ws generalizing h with
  | nil => exact hc
  | cons w ws ih => exact ih (hc.applySignUp w)

end Hours

/-- A record with a counter has a total. -/
theorem Formed.isSome_total {h : Hours} (hf : Formed h)
    (hcounter : h.totalHours.isSome ∨ h.numSessions.isSome) : h.totalHours.isSome := by
  rcases hf.total with rfl | ht
  · exact hcounter.elim id fun hn => by cases hn
  · exact ht

/-! ### What apps hold -/

/-- A transaction of the submission has been started. -/
def Submission.Started (sub : Submission) : Prop := sub.totalHours.isSome ∨ sub.numSessions.isSome

namespace Account

/-- Every app that has a write on its way, holds a counter or has started a transaction is
in `B`. -/
structure Holders (B : App → Prop) (s : Account) : Prop where
  outbox : ∀ e ∈ s.outbox, B e.sender.app
  captured : ∀ d, ∀ y ∈ (s.device d).captured, y.1.isSome → B (.ios d)
  submissions : ∀ sub ∈ s.submissions, sub.Started → B (.android sub.client)

/-- A transaction of `totalHours` has sent what its handler computes. -/
def HoursComputed (s : Account) : Prop :=
  ∀ sub ∈ s.submissions, ∀ base new, sub.totalHours = some (.sent base new) →
    new = totalHoursTransaction sub.popup.diff base

variable {B : App → Prop} {s t : Account}

theorem actor_withDb (s : Account) (h : Hours) (a : Action) : actor (s.withDb h) a = actor s a := by
  cases a <;> rfl

theorem Holders.mono {B' : App → Prop} (h : Holders B s) (hB : ∀ x, B x → B' x) : Holders B' s where
  outbox e he := hB _ (h.outbox e he)
  captured d y hy hsome := hB _ (h.captured d y hy hsome)
  submissions sub hsub hstarted := hB _ (h.submissions sub hsub hstarted)

/-- One submission goes on, and was in it before. -/
theorem Holders.submissions_set (h : Holders B s) {i : ℕ} {sub sub' : Submission}
    (hclient : sub'.client = sub.client) (hB : sub'.Started → B (.android sub.client)) :
    ∀ sub₁ ∈ s.submissions.set i sub', sub₁.Started → B (.android sub₁.client) := by
  intro sub₁ hmem hstarted
  rcases List.mem_or_eq_of_mem_set hmem with hmem | rfl
  · exact h.submissions sub₁ hmem hstarted
  · rw [hclient]
    exact hB hstarted

/-- **An app comes to hold something by reading a counter only.** -/
theorem Holders.trans_inApp (h : Holders B s) {a : Action} {x : App} (hactor : actor s a = some x)
    (hserver : ¬ AtServer a) (hread : s.db.totalHours.isSome ∨ s.db.numSessions.isSome → B x)
    (hst : Trans s a t) : Holders B t := by
  cases hst with
  | @ios d e vc ws htr =>
      obtain rfl : App.ios d = x := Option.some.inj hactor
      -- without writes of its own on the way the device sees the record as it is
      have hview : (s.view d).numSessions.isSome → B (.ios d) := by
        intro hn
        by_contra hB
        have hown : own d s.outbox = [] := own_eq_nil fun e he hsender => by
          have hsent := h.outbox e he
          rw [hsender] at hsent
          exact hB hsent
        rw [view_eq_db hown] at hn
        exact hB (hread (.inr hn))
      have hcaptured : ∀ y ∈ vc.captured, y.1.isSome → B (.ios d) := by
        intro y hy hsome
        rcases RecordViewController.captured_of_transition htr y hy with hy | ⟨-, rfl⟩
        · exact h.captured d y hy hsome
        · exact hview hsome
      have hwrites : ∀ w ∈ ws, B (.ios d) := by
        intro w hw
        by_contra hB
        have hnil : ws = [] := Recordless.writes_eq_nil (fun y hy => by
          by_contra hsome
          exact hB (h.captured d y hy (Option.isSome_iff_ne_none.2 hsome))) htr
        rw [hnil] at hw
        cases hw
      refine ⟨fun e' he => ?_, fun d' y hy hsome => ?_, h.submissions⟩
      · rcases List.mem_append.1 he with he | he
        · exact h.outbox e' he
        · obtain ⟨w, hw, rfl⟩ := List.mem_map.1 he
          exact hwrites w hw
      · rcases eq_or_ne d' d with rfl | hne
        · rw [device_issue_self, RecordViewController.captured_notify] at hy
          exact hcaptured y hy hsome
        · rw [device_issue_of_ne _ _ _ hne] at hy
          exact h.captured d' y hy hsome
  | toggle _ | decline _ => exact ⟨h.outbox, h.captured, h.submissions⟩
  | submit _ =>
      refine ⟨h.outbox, h.captured, fun sub hmem hstarted => ?_⟩
      rcases List.mem_append.1 hmem with hmem | hmem
      · exact h.submissions sub hmem hstarted
      · obtain rfl := List.mem_singleton.1 hmem
        rcases hstarted with hstarted | hstarted <;> cases hstarted
  | @deliver i sub hsub _ =>
      obtain rfl : App.android sub.client = x := by
        rw [actor, hsub] at hactor
        exact Option.some.inj hactor
      refine ⟨h.outbox, h.captured, h.submissions_set rfl fun hstarted => hread ?_⟩
      refine hstarted.imp (fun ht => ?_) fun hn => ?_
      · by_contra hnone
        simp [Submission.onDataChange, hnone] at ht
      · by_contra hnone
        simp [Submission.onDataChange, hnone] at hn
  | @runHours i v sub hsub hq =>
      have hB := h.submissions sub (List.mem_of_getElem? hsub) (.inl (by rw [hq]; rfl))
      exact ⟨h.outbox, h.captured, h.submissions_set rfl fun _ => hB⟩
  | @runSessions i v new sub hsub hq hv =>
      have hB := h.submissions sub (List.mem_of_getElem? hsub) (.inr (by rw [hq]; rfl))
      refine ⟨fun e he => ?_, h.captured, h.submissions_set rfl fun _ => hB⟩
      rcases List.mem_append.1 he with he | he
      · exact h.outbox e he
      · obtain ⟨w, -, rfl⟩ := List.mem_map.1 he
        exact hB
  | @sessionsAbort i v sub hsub hq hv =>
      have hB := h.submissions sub (List.mem_of_getElem? hsub) (.inr (by rw [hq]; rfl))
      exact ⟨h.outbox, h.captured, h.submissions_set rfl fun _ => hB⟩
  | _ => exact absurd trivial hserver

/-- An app that is stopped holds nothing; the others hold what they held. -/
theorem Holders.stop (h : Holders B s) {B' : App → Prop} {x : App}
    (hB : ∀ y, y ≠ x → B y → B' y) : Holders B' (s.stop x) := by
  refine ⟨fun e he => ?_, fun d y hy hsome => ?_, fun sub hsub hstarted => ?_⟩
  · obtain ⟨hmem, hne⟩ := List.mem_filter.1 he
    exact hB _ (of_decide_eq_true hne) (h.outbox e hmem)
  · change y ∈ (if x = .ios d then RecordViewController.initial .closed
      else s.device d).captured at hy
    split_ifs at hy with hx
    · rw [RecordViewController.captured_of_idle (RecordViewController.idle_initial _)] at hy
      cases hy
    · exact hB _ (Ne.symm hx) (h.captured d y hy hsome)
  · obtain ⟨sub', hmem, rfl⟩ := List.mem_map.1 hsub
    by_cases hx : x = .android sub'.client
    · rw [if_pos hx] at hstarted
      rcases hstarted with hstarted | hstarted <;> cases hstarted
    · rw [if_neg hx] at hstarted ⊢
      exact hB _ (Ne.symm hx) (h.submissions sub' hmem hstarted)

/-- A stopped transaction has sent nothing. -/
theorem HoursComputed.stop (h : HoursComputed s) (x : App) : HoursComputed (s.stop x) := by
  intro sub hsub base new heq
  obtain ⟨sub', hmem, rfl⟩ := List.mem_map.1 hsub
  by_cases hx : x = .android sub'.client
  · rw [if_pos hx] at heq
    cases heq
  · rw [if_neg hx] at heq ⊢
    exact h sub' hmem base new heq

/-- Every action keeps the results so. -/
theorem HoursComputed.trans (h : HoursComputed s) {a : Action} (hst : Trans s a t) :
    HoursComputed t := by
  have hset : ∀ {i : ℕ} {sub : Submission}, (∀ base new, sub.totalHours = some (.sent base new) →
      new = totalHoursTransaction sub.popup.diff base) →
      ∀ sub' ∈ s.submissions.set i sub, ∀ base new, sub'.totalHours = some (.sent base new) →
        new = totalHoursTransaction sub'.popup.diff base := by
    intro i sub hsub sub' hmem
    rcases List.mem_or_eq_of_mem_set hmem with hmem | rfl
    · exact h sub' hmem
    · exact hsub
  cases hst with
  | ios _ | toggle _ | decline _ | land _ _ _ => exact h
  | submit _ =>
      intro sub hmem base new heq
      rcases List.mem_append.1 hmem with hmem | hmem
      · exact h sub hmem base new heq
      · obtain rfl := List.mem_singleton.1 hmem
        cases heq
  | @deliver i sub hsub _ =>
      refine hset fun base new heq => ?_
      simp only [Submission.onDataChange] at heq
      split_ifs at heq
      cases heq
  | @runHours i v sub hsub hq =>
      refine hset fun base new heq => ?_
      cases heq
      rfl
  | hoursCommit hsub _ _ | hoursRetry hsub _ _ =>
      refine hset fun base new heq => ?_
      cases heq
  | runSessions hsub _ _ | sessionsAbort hsub _ _ | sessionsCommit hsub _ _
  | sessionsRetry hsub _ _ =>
      have hold := h _ (List.mem_of_getElem? hsub)
      exact hset hold

end Account

/-! ### The invariant -/

/-- The total is in the record, or the app `x` has written it and nothing it sends comes before. -/
def Node.Backed (s : Node) (x : App) : Prop :=
  s.account.db.totalHours.isSome ∨ s.creator = some x ∧ s.pending ≠ []

/-- The record has the right form, a sign-up begins with the total, and an app that holds something
has read it from a record with a total. -/
structure SchemaInv (s : Node) : Prop where
  formed : Formed s.account.db
  pending : s.account.db.totalHours.isSome ∨ ∀ w ∈ s.pending.head?, w.SetsTotal
  holders : s.account.Holders s.Backed
  computed : s.account.HoursComputed

/-- The first write of a sign-up sets the total, on either client. -/
theorem setsTotal_head_onComplete (text name : String) (client : Client) :
    ∀ w ∈ ((onComplete text name client).getD []).head?, w.SetsTotal := by
  intro w hw
  cases client with
  | ios =>
      obtain rfl := Option.some.inj hw
      trivial
  | android =>
      cases hcreate : createAccount text name with
      | none =>
          rw [onComplete, hcreate] at hw
          cases hw
      | some ws =>
          obtain ⟨code, -, rfl⟩ := Option.map_eq_some_iff.1 hcreate
          rw [onComplete, hcreate] at hw
          obtain rfl := Option.some.inj hw
          trivial

namespace SchemaInv

variable {s t : Node}

theorem initial : SchemaInv Node.initial where
  formed := ⟨Hours.canonical_absent, .inl rfl⟩
  pending := .inr fun w hw => by cases hw
  holders := by
    refine ⟨fun e he => absurd he List.not_mem_nil, fun d y hy => ?_,
      fun sub hsub => absurd hsub List.not_mem_nil⟩
    have hnone : (Node.initial.account.device d).captured = [] :=
      RecordViewController.captured_of_idle (RecordViewController.idle_initial .closed)
    rw [hnone] at hy
    cases hy
  computed sub hsub := absurd hsub List.not_mem_nil

/-- Where the total has landed every app may hold what it likes. -/
theorem of_total (hc : t.account.db.Canonical) (ht : t.account.db.totalHours.isSome)
    (hcomputed : t.account.HoursComputed) : SchemaInv t where
  formed := ⟨hc, .inr ht⟩
  pending := .inl ht
  holders := ⟨fun _ _ => .inl ht, fun _ _ _ _ => .inl ht, fun _ _ _ => .inl ht⟩
  computed := hcomputed

/-- An app that sees a counter is backed. -/
theorem backed_of_seen (h : SchemaInv s) {x : App}
    (hcounter : (s.seen x).totalHours.isSome ∨ (s.seen x).numSessions.isSome) : s.Backed x := by
  unfold Node.seen at hcounter
  split_ifs at hcounter with hx
  · by_cases hpending : s.pending = []
    · rw [hpending] at hcounter
      exact .inl (h.formed.isSome_total hcounter)
    · exact .inr ⟨hx, hpending⟩
  · exact .inl (h.formed.isSome_total hcounter)

/-- An app that reaches the server with something is backed. -/
theorem backed_of_atServer (h : SchemaInv s) {a : Action} {x : App} {t : Account}
    (hactor : actor s.account a = some x) (hserver : AtServer a)
    (hst : Account.Trans s.account a t) : s.Backed x := by
  have hsubmission : ∀ {i : ℕ} {sub : Submission}, s.account.submissions[i]? = some sub →
      s.account.submissions[i]?.map (fun sub => App.android sub.client) = some x → sub.Started →
      s.Backed x := by
    intro i sub hsub hx hstarted
    rw [hsub] at hx
    obtain rfl := Option.some.inj hx
    exact h.holders.submissions sub (List.mem_of_getElem? hsub) hstarted
  cases hst with
  | @land j l₁ l₂ e hout hj hfirst =>
      have hget : s.account.outbox[j]? = some e := by
        subst hj
        simp [hout]
      rw [actor, hget] at hactor
      obtain rfl := Option.some.inj hactor
      exact h.holders.outbox e (List.mem_of_getElem? hget)
  | hoursCommit hsub htr _ | hoursRetry hsub htr _ =>
      exact hsubmission hsub hactor (.inl (by rw [htr]; rfl))
  | sessionsCommit hsub htr _ | sessionsRetry hsub htr _ =>
      exact hsubmission hsub hactor (.inr (by rw [htr]; rfl))
  | _ => exact hserver.elim

/-- **Nothing that reaches the server takes the total away.** -/
theorem totalHours_of_atServer {s t : Account} {a : Action} (hserver : AtServer a)
    (hcomputed : s.HoursComputed) (ht : s.db.totalHours.isSome) (hst : Account.Trans s a t) :
    t.db.totalHours.isSome := by
  cases hst with
  | @land j l₁ l₂ e hout hj hfirst => exact Hours.totalHours_apply ht e.write
  | @hoursCommit i sub base new hsub htr hb =>
      have hnew := hcomputed sub (List.mem_of_getElem? hsub) base new htr
      change new.isSome
      rw [hnew, totalHoursTransaction, Option.isSome_map, ← hb]
      exact ht
  | hoursRetry _ _ _ | sessionsCommit _ _ _ | sessionsRetry _ _ _ => exact ht
  | _ => exact hserver.elim

/-- **Every action keeps the invariant.** -/
theorem trans (h : SchemaInv s) {a : NodeAction} (hst : Node.Trans s a t) : SchemaInv t := by
  cases hst with
  | @signUp x text name hcreator =>
      refine ⟨h.formed, .inr (setsTotal_head_onComplete text name x.client), ?_, h.computed⟩
      refine h.holders.mono fun y hy => hy.imp_right fun hcreated => ?_
      rw [hcreator] at hcreated
      cases hcreated.1
  | @landSignUp w ws hpending =>
      have ht : (s.account.db.applySignUp w).totalHours.isSome :=
        Hours.totalHours_applySignUp
          (h.pending.imp_right fun hhead => hhead w (by rw [hpending]; rfl))
      exact of_total (h.formed.canonical.applySignUp w) ht h.computed
  | @inApp x a t hactor hserver htr =>
      have hholders : (s.account.withDb (s.seen x)).Holders s.Backed := ⟨h.holders.outbox,
        h.holders.captured, h.holders.submissions⟩
      have hcomputed : (s.account.withDb (s.seen x)).HoursComputed := h.computed
      obtain ⟨hout, hcaptured, hsubmissions⟩ := hholders.trans_inApp
        ((actor_withDb _ _ _).trans hactor) hserver (fun hcounter => h.backed_of_seen hcounter) htr
      have hafter : t.HoursComputed := hcomputed.trans htr
      exact ⟨h.formed, h.pending, ⟨hout, hcaptured, hsubmissions⟩, hafter⟩
  | @atServer x a t hactor hserver hlanded htr =>
      have ht : s.account.db.totalHours.isSome := by
        rcases h.backed_of_atServer hactor hserver htr with ht | ⟨hx, hpending⟩
        · exact ht
        · exact absurd (hlanded hx) hpending
      exact of_total (htr.canonical h.formed.canonical)
        (totalHours_of_atServer hserver h.computed ht htr) (h.computed.trans htr)
  | @stop x =>
      -- what an app that goes on holds does not rest on the sign-up of the one that is stopped
      have hother : ∀ y, y ≠ x → s.Backed y → s.account.db.totalHours.isSome ∨
          s.creator = some y ∧ (if s.creator = some x then [] else s.pending) ≠ [] := by
        rintro y hne (ht | ⟨hy, hpending⟩)
        · exact .inl ht
        · have hx : s.creator ≠ some x := by
            rw [hy]
            exact fun heq => hne (Option.some.inj heq)
          rw [if_neg hx]
          exact .inr ⟨hy, hpending⟩
      refine ⟨h.formed, h.pending.imp_right fun hhead w hw => ?_, h.holders.stop hother,
        h.computed.stop x⟩
      dsimp only at hw
      split_ifs at hw
      · cases hw
      · exact hhead w hw

/-- The total is in what a backed app sees. -/
theorem totalHours_seen (h : SchemaInv s) {x : App} (hx : s.Backed x) :
    (s.seen x).totalHours.isSome := by
  unfold Node.seen
  rcases hx with ht | ⟨hcreator, hpending⟩
  · split_ifs
    · exact Hours.totalHours_foldl_applySignUp ht s.pending
    · exact ht
  · rw [if_pos hcreator]
    cases hw : s.pending with
    | nil => exact absurd hw hpending
    | cons w ws =>
        refine Hours.totalHours_foldl_applySignUp (Hours.totalHours_applySignUp ?_) ws
        exact h.pending.imp_right fun hhead => hhead w (by rw [hw]; rfl)

/-- **What an app sees has the right form**, in the middle of a sign-up as well. -/
theorem formed_view (h : SchemaInv s) (x : App) : Formed (s.view x) := by
  have hseen : Formed (s.seen x) := by
    unfold Node.seen
    split_ifs with hx
    · refine ⟨h.formed.canonical.foldl_applySignUp s.pending, ?_⟩
      by_cases hpending : s.pending = []
      · rw [hpending]
        exact h.formed.total
      · have htotal := h.totalHours_seen (.inr ⟨hx, hpending⟩)
        rw [Node.seen, if_pos hx] at htotal
        exact .inr htotal
    · exact h.formed
  refine ⟨hseen.canonical.applyAll _, ?_⟩
  rw [Node.view]
  by_cases hown : (s.account.outbox.filter fun e => e.sender.app = x) = []
  · rw [hown]
    exact hseen.total
  · obtain ⟨e, he⟩ := List.exists_mem_of_ne_nil _ hown
    obtain ⟨hmem, hsender⟩ := List.mem_filter.1 he
    have hx : s.Backed x := by
      have hbacked := h.holders.outbox e hmem
      rwa [of_decide_eq_true hsender] at hbacked
    exact .inr (Hours.totalHours_applyAll (h.totalHours_seen hx) _)

end SchemaInv

/-! ### What the readers find -/

/-- **The schema of a record**, as a reader finds it: an entry `totalHours` that holds a number,
keys of sessions that are canonical numerals, and entries `in` and `out` that are integers. -/
structure Schema (children : List (String × DataSnapshot)) : Prop where
  totalHours : ((DataSnapshot.node children).child "totalHours").getDouble.isSome
  keys : ∀ child ∈ children, SessionKey child.1 → ∃ k : ℤ, child.1 = childKey k
  times : ∀ child ∈ children, SessionKey child.1 → ∀ elem ∈ child.2.getChildren,
    elem.1 = "in" ∨ elem.1 = "out" → ∃ time, elem.2 = .value (.long time)

/-- A record that exists and has the right form meets the schema. -/
theorem Formed.schema {h : Hours} (hf : Formed h) (hne : h ≠ Hours.absent)
    {children : List (String × DataSnapshot)} (he : h.Enumerates children) : Schema children := by
  have hsession : ∀ child ∈ children, SessionKey child.1 →
      ∃ k c, h.child k = some c ∧ child = (childKey k, c.snapshot) := by
    intro child hmem hkey
    rcases he.session_or_reserved hf.canonical hmem with hchild | hreserved
    · exact hchild
    · exact absurd hkey (Hours.not_sessionKey_of_mem hreserved)
  refine ⟨?_, fun child hmem hkey => ?_, fun child hmem hkey elem helem _ => ?_⟩
  · have ht := hf.total.resolve_left hne
    rw [he.getDouble_totalHours hf.canonical ht]
    exact ht
  · obtain ⟨k, c, -, rfl⟩ := hsession child hmem hkey
    exact ⟨k, rfl⟩
  · obtain ⟨k, c, -, rfl⟩ := hsession child hmem hkey
    cases c with
    | inOnly i | outOnly o =>
        obtain rfl := List.mem_singleton.1 helem
        exact ⟨_, rfl⟩
    | full i o =>
        rcases List.mem_cons.1 helem with rfl | helem
        · exact ⟨_, rfl⟩
        · obtain rfl := List.mem_singleton.1 helem
          exact ⟨_, rfl⟩

/-! ### Every tree that can be reached -/

/-- The record of an account, on the server or as an app sees it. -/
def Tree.Shows (T : Tree) (uid : String) (h : Hours) : Prop :=
  h = (T uid).account.db ∨ ∃ x, h = (T uid).view x

/-- A snapshot of an account that is there: the children of its record, in some order. -/
def Tree.Lists (T : Tree) (account : String × DataSnapshot) : Prop :=
  ∃ h children, T.Shows account.1 h ∧ h.Enumerates children ∧ children ≠ [] ∧
    account.2 = .node children

/-- Every account of a tree that can be reached satisfies the invariant. -/
theorem schemaInv_of_run {acts : List (String × NodeAction)} {T : Tree}
    (hrun : Execution.run Tree.step Tree.empty acts = some T) (uid : String) :
    SchemaInv (T uid) :=
  Execution.run_invariant (fun _ _ _ hI hst => hI.trans (Node.trans_of_step hst)) SchemaInv.initial
    (Execution.run_actionsOf hrun uid)

theorem formed_of_shows {acts : List (String × NodeAction)} {T : Tree}
    (hrun : Execution.run Tree.step Tree.empty acts = some T) {uid : String} {h : Hours}
    (hh : T.Shows uid h) : Formed h := by
  rcases hh with rfl | ⟨x, rfl⟩
  · exact (schemaInv_of_run hrun uid).formed
  · exact (schemaInv_of_run hrun uid).formed_view x

/-- **The schema of the tree**: whatever the users do on any number of clients, and wherever an app
is stopped or a sign-up ends with an exception, each record that is there has a total, numerals as
keys of its sessions and integers as their times.  So the overview of all accounts finds every
total, and the iOS history never traps. -/
theorem schema_of_run {acts : List (String × NodeAction)} {T : Tree}
    (hrun : Execution.run Tree.step Tree.empty acts = some T) :
    (∀ uid h, T.Shows uid h → ∀ children, h.Enumerates children → children ≠ [] →
      Schema children) ∧
    (∀ (double : DoubleToString) (keySet : KeySetOrder) (f : SistersHoursFragment)
      (accounts : List (String × DataSnapshot)), (∀ account ∈ accounts, T.Lists account) →
        (f.onDataChange double keySet accounts).isSome) ∧
    ∀ uid h, T.Shows uid h → ∀ children, h.Enumerates children → ∀ vc : ViewController,
      (vc.observe children).isSome := by
  have hexists : ∀ {h : Hours} {children : List (String × DataSnapshot)}, h.Enumerates children →
      children ≠ [] → h ≠ Hours.absent := by
    rintro h children he hne rfl
    exact hne (List.perm_nil.1 he)
  refine ⟨fun uid h hh children he hne => ?_, fun double keySet f accounts hlists => ?_,
    fun uid h hh children he vc => ?_⟩
  · exact (formed_of_shows hrun hh).schema (hexists he hne) he
  · refine (SistersHoursFragment.isSome_onDataChange f accounts).2 fun account hmem => ?_
    obtain ⟨h, children, hh, he, hne, haccount⟩ := hlists account hmem
    have hf := formed_of_shows hrun hh
    rw [haccount]
    refine SistersHoursFragment.isSome_label (hf.schema (hexists he hne) he).totalHours ?_
    rw [he.getString_sisterName hf.canonical]
    rfl
  · obtain ⟨vc', l, hvc', -⟩ :=
      ViewController.observe_eq_some (formed_of_shows hrun hh).canonical he vc
    rw [hvc']
    rfl

/-- Two users sign up; one app is stopped after the first write has landed, the other user checks
in. -/
def twoSignUps : List (String × NodeAction) :=
  [("u", .signUp (.android 0) "" "A"), ("u", .landSignUp), ("u", .stop (.android 0)),
    ("v", .signUp (.ios 0) "" "B"), ("v", .use (.ios 0 .launch)), ("v", .use (.ios 0 .tap)),
    ("v", .use (.ios 0 (.arriveOuter 0))), ("v", .use (.ios 0 (.outer 0 0))), ("v", .landSignUp),
    ("v", .use (.land 0))]

/-- The records of both meet the schema, and a sign-up that was stopped has left a total. -/
theorem schema_twoSignUps : ∃ T, Execution.run Tree.step Tree.empty twoSignUps = some T ∧
    (T "u").account.db.totalHours.isSome ∧ (T "v").account.db.child 1 = some (.inOnly 0) ∧
    Schema (T "u").account.db.getChildren ∧ Schema (T "v").account.db.getChildren := by
  obtain ⟨T, hT, htotal, hchild, hu, hv⟩ : ∃ T,
      Execution.run Tree.step Tree.empty twoSignUps = some T ∧
        (T "u").account.db.totalHours.isSome ∧ (T "v").account.db.child 1 = some (.inOnly 0) ∧
        (T "u").account.db.getChildren.isEmpty = false ∧
        (T "v").account.db.getChildren.isEmpty = false := Execution.exists_run (by decide)
  have hschema := (schema_of_run hT).1
  refine ⟨T, hT, htotal, hchild, ?_, ?_⟩
  · exact hschema "u" _ (.inl rfl) _ (.refl _) (by simpa using hu)
  · exact hschema "v" _ (.inl rfl) _ (.refl _) (by simpa using hv)

end StudyHours
