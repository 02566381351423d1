/-
**Interrupting a sequence of independent effects.**

An operation that is carried out as several effects, one after the other, can be interrupted after
any number of them.  Where the effects are independent — each of them changes its own part of the
state, whatever the others have done — the state after an interruption depends on the set of effects
that have taken place only, and not on their order.  Whether an interrupted operation has left a
good state can then be told set by set.

Main definitions:

* `Interruption.Independent` — the state is known for every set of effects that have taken place.

Main results:

* `Interruption.Independent.foldl_eq` — the order of independent effects does not matter;
* `Interruption.Independent.interrupted_iff` — **a property that holds for none of the effects and
  for all of them, but for no other set, holds after an interruption before the first effect or
  after the last one only**.
-/

import Mathlib.Data.Finset.Card

set_option relaxedAutoImplicit false
set_option autoImplicit false

namespace Interruption

universe u v

variable {R : Type u} {E : Type v} [DecidableEq E]

/-- `state S` is the state when exactly the effects in `S` have taken place. -/
structure Independent (effect : R → E → R) (all : List E) (state : Finset E → R) : Prop where
  nodup : all.Nodup
  effect_eq : ∀ S e, e ∈ all → e ∉ S → effect (state S) e = state (insert e S)

namespace Independent

variable {effect : R → E → R} {all : List E} {state : Finset E → R}

/-- The order of independent effects does not matter. -/
theorem foldl_eq (h : Independent effect all state) {l : List E} :
    ∀ S, (∀ e ∈ l, e ∈ all ∧ e ∉ S) → l.Nodup →
      l.foldl effect (state S) = state (S ∪ l.toFinset) := by
  induction l with
  | nil =>
      intro S _ _
      rw [List.foldl_nil, List.toFinset_nil, Finset.union_empty]
  | cons e l ih =>
      intro S hl hnodup
      obtain ⟨hfresh, hnodup⟩ := List.nodup_cons.1 hnodup
      obtain ⟨hall, hS⟩ := hl e List.mem_cons_self
      have htail : ∀ e' ∈ l, e' ∈ all ∧ e' ∉ insert e S := by
        intro e' he'
        obtain ⟨hall', hS'⟩ := hl e' (List.mem_cons_of_mem e he')
        refine ⟨hall', fun hmem => ?_⟩
        rcases Finset.mem_insert.1 hmem with rfl | hmem
        · exact hfresh he'
        · exact hS' hmem
      rw [List.foldl_cons, h.effect_eq S e hall hS, ih _ htail hnodup, List.toFinset_cons,
        Finset.insert_union, Finset.union_insert]

/-- **All or nothing, set by set**: the effects take place in any order, and the operation is
interrupted after `k` of them. -/
theorem interrupted_iff (h : Independent effect all state) {P : R → Prop} {C : Prop}
    (hP : ∀ S ⊆ all.toFinset, P (state S) ↔ S = ∅ ∨ S = all.toFinset ∧ C) {order : List E}
    (horder : order.Perm all) {k : ℕ} (hk : k ≤ order.length) :
    P ((order.take k).foldl effect (state ∅)) ↔ k = 0 ∨ k = order.length ∧ C := by
  have hnodup : order.Nodup := horder.nodup_iff.2 h.nodup
  have hall : ∀ e ∈ order.take k, e ∈ all ∧ e ∉ (∅ : Finset E) := fun e he =>
    ⟨horder.mem_iff.1 (List.mem_of_mem_take he), Finset.notMem_empty e⟩
  have hsub : (order.take k).toFinset ⊆ all.toFinset := by
    intro e he
    exact List.mem_toFinset.2 (hall e (List.mem_toFinset.1 he)).1
  have hcard : (order.take k).toFinset.card = k := by
    rw [List.toFinset_card_of_nodup (hnodup.sublist (List.take_sublist k order)),
      List.length_take_of_le hk]
  have hcardAll : all.toFinset.card = order.length := by
    rw [List.toFinset_card_of_nodup h.nodup, horder.length_eq]
  rw [h.foldl_eq ∅ hall (hnodup.sublist (List.take_sublist k order)), Finset.empty_union, hP _ hsub]
  refine or_congr ?_ (and_congr_left fun _ => ?_)
  · rw [← Finset.card_eq_zero, hcard]
  · constructor
    · intro heq
      rw [← hcard, heq, hcardAll]
    · intro heq
      exact Finset.eq_of_subset_of_card_le hsub (by rw [hcard, hcardAll, heq])

end Independent

end Interruption
