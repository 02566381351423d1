/-
**Stacks of screens.**

A program with several screens shows one of them and keeps the others below it.  Opening a screen
covers the one that is shown, going back removes that one and uncovers the next, and after the last
one has been removed the program shows nothing.  While a screen is covered, the program need not
keep it as it was shown: the screens that are shown and those that are covered are of two types.

This module has the operations on such a stack, two ways to go through it screen by screen, and what
an operation leaves of the screens that lie below a level.

Main definitions:

* `BackStack` — the screen that is shown, and those below it;
* `BackStack.push`, `pop`, `onShown`, `onCovered`, `mapScreens` — the operations;
* `BackStack.Rel` — two stacks correspond screen by screen;
* `BackStack.All` — every screen of a stack satisfies a condition;
* `BackStack.Above` — a stack stands above screens that have been covered.

Main results:

* `BackStack.Rel.push`, `Rel.pop`, `Rel.onShown`, `Rel.onCovered`, `Rel.mapScreens` — operations
  that correspond on the screens correspond on the stacks;
* `BackStack.All.push` and the others — conditions that every screen keeps;
* `BackStack.Above.push` and the others, `BackStack.Above.uncover` — **what lies below is left alone
  until it is uncovered**.
-/

import Mathlib.Data.List.Forall2

set_option relaxedAutoImplicit false
set_option autoImplicit false

universe u v u' v'

/-- The screen that is shown and those below it, or nothing. -/
inductive BackStack (σ : Type u) (κ : Type v)
  | blank
  | screens (shown : σ) (covered : List κ)
deriving DecidableEq

namespace BackStack

variable {σ : Type u} {κ : Type v} {σ' : Type u'} {κ' : Type v'}

/-! ### Operations -/

/-- The number of screens. -/
def depth : BackStack σ κ → ℕ
  | blank => 0
  | screens _ covered => covered.length + 1

/-- The screen `x` is opened. -/
def push (cover : σ → κ) (x : σ) : BackStack σ κ → BackStack σ κ
  | blank => screens x []
  | screens shown covered => screens x (cover shown :: covered)

/-- The screen that is shown is removed, if there is one. -/
def pop (uncover : κ → Option σ) : BackStack σ κ → Option (BackStack σ κ)
  | blank => none
  | screens _ [] => some blank
  | screens _ (c :: covered) => (uncover c).map fun x => screens x covered

/-- Something happens to the screen that is shown. -/
def onShown (f : σ → Option σ) : BackStack σ κ → Option (BackStack σ κ)
  | blank => none
  | screens shown covered => (f shown).map fun x => screens x covered

/-- Something happens to a screen that is covered; the one just below the one that is shown has the
number `0`. -/
def onCovered (i : ℕ) (g : κ → Option κ) : BackStack σ κ → Option (BackStack σ κ)
  | blank => none
  | screens shown covered =>
      (covered[i]?.bind g).map fun c => screens shown (covered.set i c)

/-- Something happens to all screens. -/
def mapScreens (f : σ → Option σ) (g : κ → Option κ) : BackStack σ κ → Option (BackStack σ κ)
  | blank => some blank
  | screens shown covered => (f shown).bind fun x => (covered.mapM g).map (screens x)

/-- What is done to each of the covered screens. -/
theorem mapM_eq_some_iff {g : κ → Option κ'} {cs : List κ} {ds : List κ'} :
    cs.mapM g = some ds ↔ List.Forall₂ (fun c d => g c = some d) cs ds := by
  induction cs generalizing ds with
  | nil => simp [eq_comm]
  | cons c cs ih =>
      rw [List.mapM_cons, List.forall₂_cons_left_iff]
      simp only [bind, pure, Option.bind_eq_some_iff, Option.some.injEq, ih]
      constructor
      · rintro ⟨d, hd, ds', hds, rfl⟩
        exact ⟨d, ds', hd, hds, rfl⟩
      · rintro ⟨d, ds', hd, hds, rfl⟩
        exact ⟨d, hd, ds', hds, rfl⟩

theorem mapScreens_eq_some {f : σ → Option σ} {g : κ → Option κ} {x : σ} {cs : List κ}
    {t : BackStack σ κ} : (screens x cs).mapScreens f g = some t ↔ ∃ x' cs', f x = some x' ∧
      List.Forall₂ (fun c c' => g c = some c') cs cs' ∧ screens x' cs' = t := by
  simp only [mapScreens, Option.bind_eq_some_iff, Option.map_eq_some_iff, mapM_eq_some_iff]
  constructor
  · rintro ⟨x', hx, cs', hcs, rfl⟩
    exact ⟨x', cs', hx, hcs, rfl⟩
  · rintro ⟨x', cs', hx, hcs, rfl⟩
    exact ⟨x', hx, cs', hcs, rfl⟩

/-! ### Two stacks -/

/-- Two stacks correspond screen by screen. -/
inductive Rel (R : σ → σ' → Prop) (K : κ → κ' → Prop) : BackStack σ κ → BackStack σ' κ' → Prop
  | blank : Rel R K blank blank
  | screens {x : σ} {y : σ'} {cs : List κ} {ds : List κ'} (hxy : R x y)
      (hcs : List.Forall₂ K cs ds) : Rel R K (screens x cs) (screens y ds)

namespace Rel

variable {R : σ → σ' → Prop} {K : κ → κ' → Prop} {s t : BackStack σ κ} {p : BackStack σ' κ'}

/-- A stack corresponds to one stack only, if its screens do. -/
theorem unique (hR : ∀ x y y', R x y → R x y' → y = y') (hK : ∀ c d d', K c d → K c d' → d = d')
    {q : BackStack σ' κ'} (h : Rel R K s p) (h' : Rel R K s q) : p = q := by
  cases h with
  | blank =>
      cases h'
      rfl
  | @screens x y cs ds hxy hcs =>
      cases h' with
      | @screens _ y' _ ds' hxy' hcs' =>
          obtain rfl := hR _ _ _ hxy hxy'
          have hds : ds = ds' := by
            clear hxy hxy'
            induction hcs generalizing ds' with
            | nil =>
                cases hcs'
                rfl
            | cons hcd hcs ih =>
                cases hcs' with
                | cons hcd' hcs' => rw [hK _ _ _ hcd hcd', ih hcs']
          rw [hds]

theorem push {cover : σ → κ} {cover' : σ' → κ'} (hcover : ∀ x y, R x y → K (cover x) (cover' y))
    {x : σ} {y : σ'} (hxy : R x y) (h : Rel R K s p) :
    Rel R K (s.push cover x) (p.push cover' y) := by
  cases h with
  | blank => exact .screens hxy .nil
  | screens hshown hcs => exact .screens hxy (.cons (hcover _ _ hshown) hcs)

/-- A screen that is uncovered corresponds to the one that is uncovered on the other side. -/
theorem pop {uncover : κ → Option σ} {uncover' : κ' → Option σ'}
    (huncover : ∀ c d, K c d → ∀ x, uncover c = some x → ∃ y, uncover' d = some y ∧ R x y)
    (h : Rel R K s p) (ht : s.pop uncover = some t) :
    ∃ q, p.pop uncover' = some q ∧ Rel R K t q := by
  cases h with
  | blank => cases ht
  | screens hxy hcs =>
      cases hcs with
      | nil =>
          cases ht
          exact ⟨.blank, rfl, .blank⟩
      | cons hcd hcs =>
          obtain ⟨x, hx, rfl⟩ := Option.map_eq_some_iff.1 ht
          obtain ⟨y, hy, hxy'⟩ := huncover _ _ hcd x hx
          exact ⟨.screens y _, by rw [BackStack.pop, hy]; rfl, .screens hxy' hcs⟩

theorem onShown {f : σ → Option σ} {f' : σ' → Option σ'}
    (hf : ∀ x y, R x y → ∀ x', f x = some x' → ∃ y', f' y = some y' ∧ R x' y')
    (h : Rel R K s p) (ht : s.onShown f = some t) :
    ∃ q, p.onShown f' = some q ∧ Rel R K t q := by
  cases h with
  | blank => cases ht
  | screens hxy hcs =>
      obtain ⟨x', hx', rfl⟩ := Option.map_eq_some_iff.1 ht
      obtain ⟨y', hy', hxy'⟩ := hf _ _ hxy x' hx'
      exact ⟨.screens y' _, by rw [BackStack.onShown, hy']; rfl, .screens hxy' hcs⟩

/-- What happens to the screen that is shown need not show on the other side. -/
theorem onShown_left {f : σ → Option σ} (hf : ∀ x y, R x y → ∀ x', f x = some x' → R x' y)
    (h : Rel R K s p) (ht : s.onShown f = some t) : Rel R K t p := by
  cases h with
  | blank => cases ht
  | screens hxy hcs =>
      obtain ⟨x', hx', rfl⟩ := Option.map_eq_some_iff.1 ht
      exact .screens (hf _ _ hxy x' hx') hcs

/-- What happens to a covered screen does not show on the other side. -/
theorem onCovered {i : ℕ} {g : κ → Option κ}
    (hg : ∀ c d, K c d → ∀ c', g c = some c' → K c' d) (h : Rel R K s p)
    (ht : s.onCovered i g = some t) : Rel R K t p := by
  cases h with
  | blank => cases ht
  | @screens x y cs ds hxy hcs =>
      obtain ⟨c', hc', rfl⟩ := Option.map_eq_some_iff.1 ht
      obtain ⟨c, hget, hgc⟩ := Option.bind_eq_some_iff.1 hc'
      refine .screens hxy ?_
      clear ht hxy hc'
      induction hcs generalizing i with
      | nil => cases hget
      | cons hcd hcs ih =>
          cases i with
          | zero =>
              cases hget
              exact .cons (hg _ _ hcd _ hgc) hcs
          | succ i => exact .cons hcd (ih hget)

theorem mapScreens {f : σ → Option σ} {g : κ → Option κ} {f' : σ' → Option σ'}
    {g' : κ' → Option κ'} (hf : ∀ x y, R x y → ∀ x', f x = some x' → ∃ y', f' y = some y' ∧ R x' y')
    (hg : ∀ c d, K c d → ∀ c', g c = some c' → ∃ d', g' d = some d' ∧ K c' d') (h : Rel R K s p)
    (ht : s.mapScreens f g = some t) : ∃ q, p.mapScreens f' g' = some q ∧ Rel R K t q := by
  cases h with
  | blank =>
      cases ht
      exact ⟨.blank, rfl, .blank⟩
  | @screens x y cs ds hxy hcs =>
      obtain ⟨x', cs', hx', hcs', rfl⟩ := mapScreens_eq_some.1 ht
      obtain ⟨y', hy', hxy'⟩ := hf _ _ hxy x' hx'
      obtain ⟨ds', hds', hrel⟩ : ∃ ds', List.Forall₂ (fun d d' => g' d = some d') ds ds' ∧
          List.Forall₂ K cs' ds' := by
        clear ht hxy
        induction hcs generalizing cs' with
        | nil =>
            cases hcs'
            exact ⟨[], .nil, .nil⟩
        | cons hcd hcs ih =>
            cases hcs' with
            | cons hc hcs' =>
                obtain ⟨d', hd, hcd'⟩ := hg _ _ hcd _ hc
                obtain ⟨ds', hds, hrel⟩ := ih _ hcs'
                exact ⟨d' :: ds', .cons hd hds, .cons hcd' hrel⟩
      exact ⟨.screens y' ds', mapScreens_eq_some.2 ⟨y', ds', hy', hds', rfl⟩, .screens hxy' hrel⟩

end Rel

/-! ### Every screen -/

/-- Every screen satisfies its condition. -/
def All (P : σ → Prop) (Q : κ → Prop) : BackStack σ κ → Prop
  | blank => True
  | screens shown covered => P shown ∧ ∀ c ∈ covered, Q c

namespace All

variable {P P' : σ → Prop} {Q Q' : κ → Prop} {s t : BackStack σ κ}

theorem mono (h : s.All P Q) (hP : ∀ x, P x → P' x) (hQ : ∀ c, Q c → Q' c) : s.All P' Q' := by
  cases s with
  | blank => trivial
  | screens x cs => exact ⟨hP x h.1, fun c hc => hQ c (h.2 c hc)⟩

theorem push {cover : σ → κ} (hcover : ∀ x, P x → Q (cover x)) {x : σ} (hx : P x)
    (h : s.All P Q) : (s.push cover x).All P Q := by
  cases s with
  | blank => exact ⟨hx, nofun⟩
  | screens y cs => exact ⟨hx, List.forall_mem_cons.2 ⟨hcover y h.1, h.2⟩⟩

theorem pop {uncover : κ → Option σ} (huncover : ∀ c, Q c → ∀ x, uncover c = some x → P x)
    (h : s.All P Q) (ht : s.pop uncover = some t) : t.All P Q := by
  rcases s with _ | ⟨x, _ | ⟨c, cs⟩⟩
  · cases ht
  · cases ht
    trivial
  · obtain ⟨y, hy, rfl⟩ := Option.map_eq_some_iff.1 ht
    exact ⟨huncover c (h.2 c List.mem_cons_self) y hy,
      fun d hd => h.2 d (List.mem_cons_of_mem c hd)⟩

theorem onShown {f : σ → Option σ} (hf : ∀ x, P x → ∀ x', f x = some x' → P x')
    (h : s.All P Q) (ht : s.onShown f = some t) : t.All P Q := by
  cases s with
  | blank => cases ht
  | screens x cs =>
      obtain ⟨y, hy, rfl⟩ := Option.map_eq_some_iff.1 ht
      exact ⟨hf x h.1 y hy, h.2⟩

theorem onCovered {i : ℕ} {g : κ → Option κ} (hg : ∀ c, Q c → ∀ c', g c = some c' → Q c')
    (h : s.All P Q) (ht : s.onCovered i g = some t) : t.All P Q := by
  cases s with
  | blank => cases ht
  | screens x cs =>
      obtain ⟨c', hc', rfl⟩ := Option.map_eq_some_iff.1 ht
      obtain ⟨c, hget, hgc⟩ := Option.bind_eq_some_iff.1 hc'
      refine ⟨h.1, fun d hd => ?_⟩
      rcases List.mem_or_eq_of_mem_set hd with hd | rfl
      · exact h.2 d hd
      · exact hg c (h.2 c (List.mem_of_getElem? hget)) _ hgc

theorem mapScreens {f : σ → Option σ} {g : κ → Option κ}
    (hf : ∀ x, P x → ∀ x', f x = some x' → P x') (hg : ∀ c, Q c → ∀ c', g c = some c' → Q c')
    (h : s.All P Q) (ht : s.mapScreens f g = some t) : t.All P Q := by
  cases s with
  | blank =>
      cases ht
      trivial
  | screens x cs =>
      obtain ⟨y, cs', hy, hcs, rfl⟩ := mapScreens_eq_some.1 ht
      refine ⟨hf x h.1 y hy, ?_⟩
      have hall := h.2
      clear h ht hy
      induction hcs with
      | nil => exact List.forall_mem_nil _
      | cons hc _ ih =>
          rw [List.forall_mem_cons] at hall ⊢
          exact ⟨hg _ hall.1 _ hc, ih hall.2⟩

end All

/-- What can be done to all screens can be done to each of them. -/
theorem isSome_mapScreens_iff {f : σ → Option σ} {g : κ → Option κ} {s : BackStack σ κ} :
    (s.mapScreens f g).isSome ↔ s.All (fun x => (f x).isSome) fun c => (g c).isSome := by
  cases s with
  | blank => exact iff_of_true rfl trivial
  | screens x cs =>
      have hcs : (cs.mapM g).isSome ↔ ∀ c ∈ cs, (g c).isSome := by
        induction cs with
        | nil => simp
        | cons c cs ih =>
            rw [List.forall_mem_cons, ← ih, List.mapM_cons]
            cases g c <;> cases cs.mapM g <;> simp
      rw [All, ← hcs, mapScreens]
      cases f x <;> simp

/-! ### What lies below -/

/-- The stack stands above the screens `b`, which have been covered since; `A` tells what has become
of each of them. -/
def Above (A : κ → κ → Prop) (b : List κ) (s : BackStack σ κ) : Prop :=
  ∃ x cs b', s = screens x (cs ++ b') ∧ List.Forall₂ A b b'

namespace Above

variable {A A' : κ → κ → Prop} {b : List κ} {s t : BackStack σ κ}

/-- A screen has been opened. -/
theorem opened (hA : ∀ c, A c c) (cover : σ → κ) (x y : σ) (cs : List κ) :
    Above A (cover x :: cs) ((screens x cs).push cover y) :=
  ⟨y, [], cover x :: cs, rfl, List.forall₂_same.2 fun c _ => hA c⟩

theorem push (h : Above A b s) (cover : σ → κ) (x : σ) : Above A b (s.push cover x) := by
  obtain ⟨y, cs, b', rfl, hb⟩ := h
  exact ⟨x, cover y :: cs, b', rfl, hb⟩

/-- A screen is removed that stands above them, and not the last one of these. -/
theorem pop {uncover : κ → Option σ} (h : Above A b s) (hdepth : b.length + 1 < s.depth)
    (ht : s.pop uncover = some t) : Above A b t := by
  obtain ⟨x, cs, b', rfl, hb⟩ := h
  cases cs with
  | nil =>
      rw [depth, List.nil_append, ← hb.length_eq] at hdepth
      exact absurd hdepth (Nat.lt_irrefl _)
  | cons c cs =>
      obtain ⟨y, -, rfl⟩ := Option.map_eq_some_iff.1 ht
      exact ⟨y, cs, b', rfl, hb⟩

theorem onShown {f : σ → Option σ} (h : Above A b s) (ht : s.onShown f = some t) :
    Above A b t := by
  obtain ⟨x, cs, b', rfl, hb⟩ := h
  obtain ⟨y, -, rfl⟩ := Option.map_eq_some_iff.1 ht
  exact ⟨y, cs, b', rfl, hb⟩

theorem onCovered {i : ℕ} {g : κ → Option κ} (hg : ∀ c d d', A c d → g d = some d' → A c d')
    (h : Above A b s) (ht : s.onCovered i g = some t) : Above A b t := by
  obtain ⟨x, cs, b', rfl, hb⟩ := h
  obtain ⟨c', hc', rfl⟩ := Option.map_eq_some_iff.1 ht
  obtain ⟨c, hget, hgc⟩ := Option.bind_eq_some_iff.1 hc'
  rcases Nat.lt_or_ge i cs.length with hi | hi
  · exact ⟨x, cs.set i c', b', by rw [List.set_append_left _ _ hi], hb⟩
  · rw [List.getElem?_append_right hi] at hget
    refine ⟨x, cs, b'.set (i - cs.length) c', by rw [List.set_append_right _ _ hi], ?_⟩
    generalize i - cs.length = j at hget
    clear ht hc' hi
    induction hb generalizing j with
    | nil => cases hget
    | cons hcd hb ih =>
        cases j with
        | zero =>
            cases hget
            exact .cons (hg _ _ _ hcd hgc) hb
        | succ j => exact .cons hcd (ih j hget)

theorem mapScreens {f : σ → Option σ} {g : κ → Option κ}
    (hg : ∀ c d, A c d → ∀ d', g d = some d' → A' c d') (h : Above A b s)
    (ht : s.mapScreens f g = some t) : Above A' b t := by
  obtain ⟨x, cs, b', rfl, hb⟩ := h
  obtain ⟨y, ds, -, hds, rfl⟩ := mapScreens_eq_some.1 ht
  have hlow : List.Forall₂ (fun c c' => g c = some c') b' (ds.drop cs.length) := by
    simpa using List.forall₂_drop cs.length hds
  refine ⟨y, ds.take cs.length, ds.drop cs.length, by rw [List.take_append_drop], ?_⟩
  generalize ds.drop cs.length = b'' at hlow
  clear ht hds
  induction hb generalizing b'' with
  | nil =>
      cases hlow
      exact .nil
  | cons hcd _ ih =>
      cases hlow with
      | cons hd hlow => exact .cons (hg _ _ hcd _ hd) (ih _ hlow)

/-- **Going back from the screen just above uncovers the one that was left**, and what lies below it
has been left alone. -/
theorem uncover {c : κ} (h : Above A (c :: b) s) (uncover : κ → Option σ)
    (hdepth : s.depth = b.length + 2) : ∃ d b', A c d ∧ List.Forall₂ A b b' ∧
      s.pop uncover = (uncover d).map fun x => screens x b' := by
  obtain ⟨x, cs, b', rfl, hb⟩ := h
  cases hb with
  | @cons _ d _ b' hcd hb =>
      obtain rfl : cs = [] := by
        rw [depth, List.length_append, List.length_cons, ← hb.length_eq] at hdepth
        exact List.eq_nil_of_length_eq_zero (by omega)
      exact ⟨d, b', hcd, hb, rfl⟩

end Above

end BackStack
