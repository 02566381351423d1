/-
**Runs of a partial step function.**

A transition system is given here by a function `step : σ → α → Option σ`: the state an action
leads to, or `none` where the action is not enabled.  This module collects what every development
over such a system needs and what does not depend on the system: running a list of actions,
demanding a condition of every step of a run, collecting what the steps put out, and the
induction rules that turn facts about one step into facts about whole runs.

Main definitions:

* `Execution.run` — the state after a list of actions;
* `Execution.Along` — every step of a run satisfies a condition on the state it starts in;
* `Execution.collect` — the outputs of the steps of a run, in order;
* `Execution.withHistory` — the system with a history variable;
* `Execution.Leads` — some run of actions of a kind leads to a state of a kind;
* `Execution.family` — systems that take their steps independently of one another.

Main results:

* `Execution.run_induction` — **induction on a run from its first state**, one step at the end;
* `Execution.run_invariant`, `Execution.run_invariant_along` — an invariant of the steps, or of
  the steps that satisfy a condition, holds in every state of a run;
* `Execution.along_of_invariant` — a condition that an invariant implies holds along every run;
* `Execution.along_iff_along` — two conditions that agree as long as an invariant holds agree along
  every run;
* `Execution.along_after_iff` — a condition on the state after each step is one on the step;
* `Execution.run_covered` — what a run spends is covered by what it puts out;
* `Execution.run_simulation` — a system that follows a specification step by step follows it in
  every run;
* `Execution.run_map` — a system in which another one is embedded runs as that one does;
* `Execution.run_of_history`, `Execution.collect_history` — a history variable changes nothing;
* `Execution.Leads.trans`, `Execution.Leads.invariant` — what leads on, and what holds there;
* `Execution.isSome_run_iff`, `Execution.run_foldl` — a loop whose rounds can fail: when it is run
  to its end, and what it has collected by then;
* `Execution.run_actionsOf` — a run of a family is a run of each of its members.
-/

import Mathlib.Algebra.Order.Group.Multiset
import Mathlib.Data.List.Basic
import Mathlib.Data.List.Induction

set_option relaxedAutoImplicit false
set_option autoImplicit false

namespace Execution

universe u v w

variable {σ : Type u} {α : Type v} {β : Type w} {step : σ → α → Option σ}

/-! ### Running a list of actions -/

/-- The state after the actions, provided each of them is enabled in its turn. -/
def run (step : σ → α → Option σ) : σ → List α → Option σ
  | s, [] => some s
  | s, a :: as => (step s a).bind fun t => run step t as

/-- Every action of the list satisfies `G` in the state it is taken in. -/
def Along (step : σ → α → Option σ) (G : σ → α → Prop) : σ → List α → Prop
  | _, [] => True
  | s, a :: as => G s a ∧ ∀ t, step s a = some t → Along step G t as

/-- What the actions put out, in order. -/
def collect (step : σ → α → Option σ) (out : σ → α → List β) : σ → List α → List β
  | _, [] => []
  | s, a :: as => out s a ++ (step s a).elim [] fun t => collect step out t as

@[simp] theorem run_nil (s : σ) : run step s [] = some s := rfl

@[simp] theorem along_nil (G : σ → α → Prop) (s : σ) : Along step G s [] := trivial

@[simp] theorem collect_nil (out : σ → α → List β) (s : σ) : collect step out s [] = [] := rfl

theorem run_cons (s : σ) (a : α) (as : List α) :
    run step s (a :: as) = (step s a).bind fun t => run step t as := rfl

theorem run_append (s : σ) (as bs : List α) :
    run step s (as ++ bs) = (run step s as).bind fun t => run step t bs := by
  induction as generalizing s with
  | nil => rfl
  | cons a as ih =>
      rw [List.cons_append, run_cons, run_cons]
      cases step s a with
      | none => rfl
      | some t => simpa using ih t

theorem run_snoc {s t : σ} {as : List α} (h : run step s as = some t) (a : α) :
    run step s (as ++ [a]) = step t a := by
  rw [run_append, h]
  cases hta : step t a <;> simp [run, hta]

/-- The last step of a run that ends in an action. -/
theorem run_snoc_eq_some {s u : σ} {as : List α} {a : α} (h : run step s (as ++ [a]) = some u) :
    ∃ t, run step s as = some t ∧ step t a = some u := by
  rw [run_append, Option.bind_eq_some_iff] at h
  obtain ⟨t, ht, hu⟩ := h
  refine ⟨t, ht, ?_⟩
  rw [run_cons, Option.bind_eq_some_iff] at hu
  obtain ⟨u', hu', hrun⟩ := hu
  rw [run_nil, Option.some.injEq] at hrun
  rw [hu', hrun]

theorem along_snoc {G : σ → α → Prop} {s t : σ} {as : List α} (h : run step s as = some t)
    (a : α) : Along step G s (as ++ [a]) ↔ Along step G s as ∧ G t a := by
  induction as generalizing s with
  | nil =>
      rw [run_nil, Option.some.injEq] at h
      subst h
      simp [Along]
  | cons b as ih =>
      rw [run_cons, Option.bind_eq_some_iff] at h
      obtain ⟨u, hu, hrun⟩ := h
      simp only [List.cons_append, Along, hu, Option.some.injEq, forall_eq']
      rw [ih hrun, and_assoc]

theorem collect_snoc {out : σ → α → List β} {s t : σ} {as : List α}
    (h : run step s as = some t) (a : α) :
    collect step out s (as ++ [a]) = collect step out s as ++ out t a := by
  induction as generalizing s with
  | nil =>
      rw [run_nil, Option.some.injEq] at h
      subst h
      cases hsa : step s a <;> simp [collect, hsa]
  | cons b as ih =>
      rw [run_cons, Option.bind_eq_some_iff] at h
      obtain ⟨u, hu, hrun⟩ := h
      simp only [List.cons_append, collect, hu, Option.elim_some]
      rw [ih hrun, List.append_assoc]

theorem collect_append {out : σ → α → List β} {s t : σ} {as : List α}
    (h : run step s as = some t) (bs : List α) :
    collect step out s (as ++ bs) = collect step out s as ++ collect step out t bs := by
  induction as generalizing s with
  | nil =>
      rw [run_nil, Option.some.injEq] at h
      rw [h, List.nil_append, collect_nil, List.nil_append]
  | cons a as ih =>
      rw [run_cons, Option.bind_eq_some_iff] at h
      obtain ⟨u, hu, hrun⟩ := h
      simp only [List.cons_append, collect, hu, Option.elim_some]
      rw [ih hrun, List.append_assoc]

theorem along_mono {G H : σ → α → Prop} (h : ∀ s a, G s a → H s a) {s : σ} {as : List α}
    (hG : Along step G s as) : Along step H s as := by
  induction as generalizing s with
  | nil => trivial
  | cons a as ih => exact ⟨h s a hG.1, fun t ht => ih (hG.2 t ht)⟩

/-- Two conditions on the steps of a run are two conditions on the run. -/
theorem along_and {G H : σ → α → Prop} {s : σ} {as : List α} :
    Along step (fun s a => G s a ∧ H s a) s as ↔ Along step G s as ∧ Along step H s as := by
  constructor
  · intro h
    exact ⟨along_mono (fun _ _ h => h.1) h, along_mono (fun _ _ h => h.2) h⟩
  · rintro ⟨hG, hH⟩
    induction as generalizing s with
    | nil => trivial
    | cons a as ih => exact ⟨⟨hG.1, hH.1⟩, fun t ht => ih (hG.2 t ht) (hH.2 t ht)⟩

/-- A condition on the actions alone. -/
theorem along_of_forall {P : α → Prop} (s : σ) {as : List α} (h : ∀ a ∈ as, P a) :
    Along step (fun _ a => P a) s as := by
  induction as generalizing s with
  | nil => trivial
  | cons a as ih =>
      exact ⟨h a List.mem_cons_self, fun t _ => ih t fun b hb => h b (List.mem_cons_of_mem a hb)⟩

instance decidableAlong (G : σ → α → Prop) [∀ s a, Decidable (G s a)] :
    ∀ (s : σ) (as : List α), Decidable (Along step G s as)
  | _, [] => isTrue trivial
  | s, a :: as =>
      match h : step s a with
      | none => decidable_of_iff (G s a) (by simp [Along, h])
      | some t =>
          have := decidableAlong G t as
          decidable_of_iff (G s a ∧ Along step G t as) (by simp [Along, h])

/-! ### Induction rules -/

/-- **Induction on a run**: what holds of the empty run and survives one more step at the end
holds of every run. -/
theorem run_induction {s : σ} {P : List α → σ → Prop} (nil : P [] s)
    (snoc : ∀ as t a u, run step s as = some t → P as t → step t a = some u → P (as ++ [a]) u) :
    ∀ as t, run step s as = some t → P as t := by
  intro as
  induction as using List.reverseRecOn with
  | nil =>
      intro t ht
      rw [run_nil, Option.some.injEq] at ht
      exact ht ▸ nil
  | append_singleton as a ih =>
      intro u hu
      obtain ⟨t, ht, hta⟩ := run_snoc_eq_some hu
      exact snoc as t a u ht (ih t ht) hta

/-- **What a run spends is covered by what it puts out**, if every step spends no more than was left
before and what it puts out itself; `N` bounds what has been put out. -/
theorem run_covered {out : σ → α → List β} {I : σ → Multiset β → Prop} {left : σ → Multiset β}
    {N : ℕ} {s : σ} (hI : I s 0) (hleft : left s = 0)
    (hstep : ∀ s a t spent, I s spent → Multiset.card spent ≤ N → step s a = some t →
      ∃ spent', I t spent' ∧ spent' + left t ≤ spent + left s + ↑(out s a)) :
    ∀ as t, run step s as = some t → (collect step out s as).length ≤ N →
      ∃ spent, I t spent ∧ spent + left t ≤ ↑(collect step out s as) := by
  refine run_induction ?_ ?_
  · intro _
    exact ⟨0, hI, by rw [hleft]; rfl⟩
  · intro as t a u hrun ih hu hN
    rw [collect_snoc hrun] at hN ⊢
    rw [List.length_append] at hN
    obtain ⟨spent, hinv, hspent⟩ := ih (by omega)
    have hcard : Multiset.card spent ≤ N := by
      have hlength := Multiset.card_le_card ((Multiset.le_add_right _ _).trans hspent)
      rw [Multiset.coe_card] at hlength
      omega
    obtain ⟨spent', hinv', hspent'⟩ := hstep t a u spent hinv hcard hu
    refine ⟨spent', hinv', hspent'.trans ?_⟩
    rw [← Multiset.coe_add]
    exact add_le_add_left hspent _

/-- What every step that satisfies `G` preserves holds at the end of a run of such steps. -/
theorem run_invariant_along {I : σ → Prop} {G : σ → α → Prop}
    (hstep : ∀ s a t, I s → G s a → step s a = some t → I t) {s t : σ} {as : List α}
    (hs : I s) (hG : Along step G s as) (hrun : run step s as = some t) : I t := by
  induction as generalizing s with
  | nil =>
      rw [run_nil, Option.some.injEq] at hrun
      exact hrun ▸ hs
  | cons a as ih =>
      rw [run_cons, Option.bind_eq_some_iff] at hrun
      obtain ⟨u, hu, hrun⟩ := hrun
      exact ih (hstep s a u hs hG.1 hu) (hG.2 u hu) hrun

/-- What every step preserves holds at the end of every run. -/
theorem run_invariant {I : σ → Prop} (hstep : ∀ s a t, I s → step s a = some t → I t)
    {s t : σ} {as : List α} (hs : I s) (hrun : run step s as = some t) : I t := by
  refine run_invariant_along (G := fun _ _ => True) (fun s a t hI _ => hstep s a t hI) hs ?_ hrun
  induction as generalizing s with
  | nil => trivial
  | cons a as ih =>
      rw [run_cons, Option.bind_eq_some_iff] at hrun
      obtain ⟨u, hu, hrun⟩ := hrun
      refine ⟨trivial, fun v hv => ?_⟩
      obtain rfl : u = v := by rw [hu, Option.some.injEq] at hv; exact hv
      exact ih (hstep s a u hs hu) hrun

/-- A condition on single steps that follows from an invariant, under a guard on the run, holds
along the whole run. -/
theorem along_of_invariant {I : σ → Prop} {G H : σ → α → Prop}
    (hstep : ∀ s a t, I s → G s a → step s a = some t → I t)
    (hH : ∀ s a, I s → G s a → H s a) {s : σ} {as : List α}
    (hs : I s) (hG : Along step G s as) : Along step H s as := by
  induction as generalizing s with
  | nil => trivial
  | cons a as ih => exact ⟨hH s a hs hG.1, fun t ht => ih (hstep s a t hs hG.1 ht) (hG.2 t ht)⟩

/-- What the steps put out under an invariant. -/
theorem forall_mem_collect {I : σ → Prop} {Q : β → Prop} {out : σ → α → List β}
    (hstep : ∀ s a t, I s → step s a = some t → I t) (hout : ∀ s a, I s → ∀ b ∈ out s a, Q b)
    {s : σ} {as : List α} (hs : I s) : ∀ b ∈ collect step out s as, Q b := by
  induction as generalizing s with
  | nil => intro b hb; cases hb
  | cons a as ih =>
      intro b hb
      rcases List.mem_append.1 hb with hb | hb
      · exact hout s a hs b hb
      · cases ht : step s a with
        | none =>
            rw [ht] at hb
            cases hb
        | some t =>
            rw [ht] at hb
            exact ih (hstep s a t hs ht) b hb

/-- Two conditions on the steps that agree under an invariant, which survives the steps that satisfy
them, agree along every run. -/
theorem along_iff_along {I : σ → Prop} {G H : σ → α → Prop}
    (hiff : ∀ s a t, I s → step s a = some t → (H s a ↔ G s a))
    (hstep : ∀ s a t, I s → G s a → step s a = some t → I t) {s u : σ} {as : List α} (hs : I s)
    (hrun : run step s as = some u) : Along step H s as ↔ Along step G s as := by
  induction as generalizing s with
  | nil => exact Iff.rfl
  | cons a as ih =>
      rw [run_cons, Option.bind_eq_some_iff] at hrun
      obtain ⟨t, ht, hrun⟩ := hrun
      simp only [Along, ht, Option.some.injEq, forall_eq']
      rw [hiff s a t hs ht]
      exact and_congr_right fun hG => ih (hstep s a t hs hG ht) hrun

/-- A condition on the state that a step leads to is a condition on the step, if the two agree under
an invariant, which survives the steps that satisfy them. -/
theorem along_after_iff {I P : σ → Prop} {G : σ → α → Prop}
    (hiff : ∀ s a t, I s → step s a = some t → (P t ↔ G s a))
    (hstep : ∀ s a t, I s → P t → step s a = some t → I t) {s u : σ} {as : List α} (hs : I s)
    (hrun : run step s as = some u) :
    Along step (fun s a => ∀ t, step s a = some t → P t) s as ↔ Along step G s as := by
  refine along_iff_along (fun s a t hs ht => ?_)
    (fun s a t hs hG ht => hstep s a t hs ((hiff s a t hs ht).2 hG) ht) hs hrun
  rw [← hiff s a t hs ht]
  constructor
  · exact fun hP => hP t ht
  · intro hP t' ht'
    rwa [← Option.some.inj (ht.symm.trans ht')]

/-- **A system that only accumulates**: where an action is good exactly if it satisfies `P` and what
it brings along replaces all that is held, and all of it is held from then on, the actions of a run
are good exactly if each of them satisfies `P` and replaces what the earlier ones have brought. -/
theorem along_accumulates_iff {κ : Type w} (held : σ → κ → Prop) (new : α → κ → Prop)
    {P : α → Prop} {G : σ → α → Prop} {as : List α}
    (hstep : ∀ a ∈ as, ∀ s, ∃ t, step s a = some t ∧
      (G s a ↔ P a ∧ ∀ k, held s k → new a k) ∧ ∀ k, held t k ↔ held s k ∨ new a k) (s : σ) :
    Along step G s as ↔ ((∀ a ∈ as, P a) ∧ as.Pairwise fun a b => ∀ k, new a k → new b k) ∧
      ∀ a ∈ as, ∀ k, held s k → new a k := by
  induction as generalizing s with
  | nil => simp
  | cons a as ih =>
      rw [List.forall_mem_cons] at hstep
      obtain ⟨t, ht, hgood, hheld⟩ := hstep.1 s
      simp only [Along, ht, Option.some.injEq, forall_eq', hgood, ih hstep.2, hheld,
        List.forall_mem_cons, List.pairwise_cons]
      constructor
      · rintro ⟨⟨ha, hold⟩, ⟨hall, hpairwise⟩, hlater⟩
        exact ⟨⟨⟨ha, hall⟩, fun b hb k hk => hlater b hb k (.inr hk), hpairwise⟩, hold,
          fun b hb k hk => hlater b hb k (.inl hk)⟩
      · rintro ⟨⟨⟨ha, hall⟩, hnext, hpairwise⟩, hold, hlater⟩
        exact ⟨⟨ha, hold⟩, ⟨hall, hpairwise⟩, fun b hb k hk =>
          hk.elim (hlater b hb k) (hnext b hb k)⟩

/-- **Simulation**: a system that can take every action and then stands for what the specification
does at that action can take every list of actions, and stands for what the specification does. -/
theorem run_simulation {τ : Type w} {R : σ → τ → Prop} {spec : τ → α → τ}
    (hstep : ∀ s x a, R s x → ∃ t, step s a = some t ∧ R t (spec x a)) {s : σ} {x : τ}
    (hs : R s x) (as : List α) : ∃ t, run step s as = some t ∧ R t (as.foldl spec x) := by
  induction as generalizing s x with
  | nil => exact ⟨s, rfl, hs⟩
  | cons a as ih =>
      obtain ⟨t, ht, hR⟩ := hstep s x a hs
      obtain ⟨u, hu, hRu⟩ := ih hR
      refine ⟨u, ?_, hRu⟩
      rw [run_cons, ht]
      exact hu

/-- **Embedding**: a system that takes the actions of another one as that one does, runs lists of
them as that one does. -/
theorem run_map {τ : Type*} {γ : Type*} {step' : τ → γ → Option τ} {f : σ → τ} {g : α → γ}
    (hstep : ∀ s a, step' (f s) (g a) = (step s a).map f) (s : σ) (as : List α) :
    run step' (f s) (as.map g) = (run step s as).map f := by
  induction as generalizing s with
  | nil => rfl
  | cons a as ih =>
      rw [List.map_cons, run_cons, run_cons, hstep]
      cases step s a with
      | none => rfl
      | some t => exact ih t

/-! ### History variables -/

section History

variable {κ : Type w}

/-- The system with a history variable, which each step updates and no step depends on. -/
def withHistory (step : σ → α → Option σ) (next : κ → σ → α → κ) (x : κ × σ) (a : α) :
    Option (κ × σ) :=
  (step x.2 a).map fun t => (next x.1 x.2 a, t)

variable {next : κ → σ → α → κ} {k k' : κ} {s t : σ} {as : List α}

theorem withHistory_eq_some {x y : κ × σ} {a : α} :
    withHistory step next x a = some y ↔ step x.2 a = some y.2 ∧ next x.1 x.2 a = y.1 := by
  simp only [withHistory, Option.map_eq_some_iff, Prod.ext_iff]
  constructor
  · rintro ⟨t, ht, hnext, rfl⟩
    exact ⟨ht, hnext⟩
  · rintro ⟨ht, hnext⟩
    exact ⟨y.2, ht, hnext, rfl⟩

/-- **A run with a history is a run.** -/
theorem run_of_history (hrun : run (withHistory step next) (k, s) as = some (k', t)) :
    run step s as = some t := by
  induction as generalizing k s with
  | nil =>
      rw [run_nil, Option.some.injEq, Prod.mk.injEq] at hrun
      rw [run_nil, hrun.2]
  | cons a as ih =>
      rw [run_cons, Option.bind_eq_some_iff] at hrun
      obtain ⟨⟨k₁, u⟩, hu, hrun⟩ := hrun
      rw [run_cons, (withHistory_eq_some.1 hu).1]
      exact ih hrun

/-- The outputs do not depend on the history. -/
theorem collect_history (out : σ → α → List β) :
    collect (withHistory step next) (fun x a => out x.2 a) (k, s) as = collect step out s as := by
  induction as generalizing k s with
  | nil => rfl
  | cons a as ih =>
      rw [collect, collect, withHistory]
      cases step s a with
      | none => rfl
      | some t =>
          rw [Option.map_some, Option.elim_some, Option.elim_some, ih]

end History

/-! ### Reaching a state -/

/-- Some run of actions that satisfy `P` leads from `s` to a state that satisfies `Q`. -/
def Leads (step : σ → α → Option σ) (P : α → Prop) (s : σ) (Q : σ → Prop) : Prop :=
  ∃ as t, (∀ a ∈ as, P a) ∧ run step s as = some t ∧ Q t

section Leads

variable {P : α → Prop} {s t : σ} {Q R : σ → Prop}

/-- A state leads to itself. -/
theorem Leads.refl (hs : Q s) : Leads step P s Q := ⟨[], s, nofun, rfl, hs⟩

/-- One action leads on. -/
theorem Leads.cons {a : α} (ha : P a) (hst : step s a = some t) (h : Leads step P t Q) :
    Leads step P s Q := by
  obtain ⟨as, u, has, hrun, hu⟩ := h
  refine ⟨a :: as, u, List.forall_mem_cons.2 ⟨ha, has⟩, ?_, hu⟩
  rw [run_cons, hst]
  exact hrun

theorem Leads.mono (h : Leads step P s Q) (hQ : ∀ t, Q t → R t) : Leads step P s R := by
  obtain ⟨as, t, has, hrun, ht⟩ := h
  exact ⟨as, t, has, hrun, hQ t ht⟩

/-- **What leads to states that lead on leads on itself.** -/
theorem Leads.trans (h : Leads step P s Q) (hQ : ∀ t, Q t → Leads step P t R) :
    Leads step P s R := by
  obtain ⟨as, t, has, hrun, ht⟩ := h
  obtain ⟨bs, u, hbs, hrun', hu⟩ := hQ t ht
  refine ⟨as ++ bs, u, ?_, ?_, hu⟩
  · intro a ha
    rcases List.mem_append.1 ha with ha | ha
    · exact has a ha
    · exact hbs a ha
  · rw [run_append, hrun]
    exact hrun'

/-- What every step preserves holds where a state leads to. -/
theorem Leads.invariant {I : σ → Prop} (hstep : ∀ s a t, I s → step s a = some t → I t)
    (hs : I s) (h : Leads step P s Q) : Leads step P s fun t => I t ∧ Q t := by
  obtain ⟨as, t, has, hrun, ht⟩ := h
  exact ⟨as, t, has, hrun, run_invariant hstep hs hrun, ht⟩

end Leads

/-! ### Loops whose rounds can fail -/

/-- Where it depends on the element alone whether a round fails, the loop is run to its end exactly
if no element makes its round fail. -/
theorem isSome_run_iff {R : α → Prop} (h : ∀ s a, (step s a).isSome ↔ R a) (s : σ) (as : List α) :
    (run step s as).isSome ↔ ∀ a ∈ as, R a := by
  induction as generalizing s with
  | nil => simp
  | cons a as ih =>
      rw [run_cons, List.forall_mem_cons, ← h s a]
      cases step s a with
      | none => simp
      | some t => simpa using ih t

/-- What a loop that has been run to its end has collected. -/
theorem run_foldl {τ : Type w} {π : σ → τ} {g : τ → α → τ}
    (h : ∀ s a t, step s a = some t → π t = g (π s) a) {s t : σ} {as : List α}
    (hrun : run step s as = some t) : π t = as.foldl g (π s) := by
  induction as generalizing s with
  | nil =>
      rw [run_nil, Option.some.injEq] at hrun
      rw [hrun]
      rfl
  | cons a as ih =>
      rw [run_cons, Option.bind_eq_some_iff] at hrun
      obtain ⟨u, hu, hrun⟩ := hrun
      rw [ih hrun, h s a u hu, List.foldl_cons]

/-! ### Runs that have been evaluated -/

/-- A run that has been evaluated, and what the evaluation shows of its last state. -/
theorem exists_run {P : σ → Prop} [DecidablePred P] {s : σ} {as : List α}
    (h : (run step s as).any fun t => P t) : ∃ t, run step s as = some t ∧ P t := by
  rw [Option.any_eq_true] at h
  obtain ⟨t, ht, hP⟩ := h
  exact ⟨t, ht, of_decide_eq_true hP⟩

/-! ### Families of independent systems -/

section Family

variable {ι : Type w} [DecidableEq ι]

/-- A family of systems, each action of which is one of a single member. -/
def family (step : σ → α → Option σ) (s : ι → σ) (a : ι × α) : Option (ι → σ) :=
  (step (s a.1) a.2).map (Function.update s a.1)

/-- The actions of one member. -/
def actionsOf (i : ι) (as : List (ι × α)) : List α :=
  as.filterMap fun a => if a.1 = i then some a.2 else none

/-- **A run of a family is a run of each of its members.** -/
theorem run_actionsOf {s t : ι → σ} {as : List (ι × α)} (h : run (family step) s as = some t)
    (i : ι) : run step (s i) (actionsOf i as) = some (t i) := by
  induction as generalizing s with
  | nil =>
      rw [run_nil, Option.some.injEq] at h
      rw [h]
      rfl
  | cons a as ih =>
      rw [run_cons, Option.bind_eq_some_iff] at h
      obtain ⟨u, hu, h⟩ := h
      obtain ⟨v, hv, rfl⟩ := Option.map_eq_some_iff.1 hu
      have hrest := ih h
      rw [actionsOf, List.filterMap_cons]
      split_ifs with hi
      · subst hi
        rw [Function.update_self] at hrest
        rw [run_cons, hv]
        exact hrest
      · rw [Function.update_of_ne (Ne.symm hi)] at hrest
        exact hrest

end Family

end Execution
