/-
**The two history screens side by side.**

The Android screen collects the sessions in a map and lists the map by its keys; the iOS screen
counts the keys of a dictionary and looks up each row under its number.  Where the sessions of a
record are numbered from `1` to `n` and are all finished, the two lists have the same sessions in
the same places, whatever the order in which the children come: the keys are compared as numbers on
one side and computed on the other, and never compared as texts.

The Android screen has its keys in the type `Integer`, so `n` must be one.

Main definitions:

* `StudyHours.Consecutive` — the session children are `1`, ..., `n`, each of them finished;
* `StudyHours.fullRecord` — such a record, for every `n`.

Main results:

* `StudyHours.historyScreens_agree` — **both screens show session `i + 1` in their place `i`**;
* `StudyHours.not_historyScreens_agree` — from `2 ^ 31` sessions on the Android screen does not
  open.
-/

import Mathlib
import StudyHours.GalleryFragment
import StudyHours.ViewController

set_option relaxedAutoImplicit false
set_option autoImplicit false

namespace StudyHours

/-! ### Consecutive sessions -/

/-- The session children are `1`, ..., `n`, each of them with `in` and with a nonzero `out`. -/
structure Consecutive (h : Hours) (n : ℕ) : Prop where
  keys : ∀ key, key ∈ h.children ↔ ∃ k : ℤ, key = childKey k ∧ 1 ≤ k ∧ k ≤ n
  full : ∀ k, ∀ c ∈ h.child k, ∃ inTime outTime, c = .full inTime outTime ∧ outTime ≠ 0

namespace Consecutive

variable {h : Hours} {n : ℕ}

theorem canonical (hn : Consecutive h n) : h.Canonical := by
  intro key hkey
  obtain ⟨k, rfl, -⟩ := (hn.keys key).1 hkey
  exact ⟨k, rfl⟩

theorem isSome_child (hn : Consecutive h n) (k : ℤ) : (h.child k).isSome ↔ 1 ≤ k ∧ k ≤ n := by
  rw [Hours.child, AList.lookup_isSome, hn.keys]
  constructor
  · rintro ⟨j, hj, hbounds⟩
    rwa [childKey_inj.1 hj]
  · intro hbounds
    exact ⟨k, rfl, hbounds⟩

/-- The session of a number that is not too large. -/
theorem exists_full (hn : Consecutive h n) {k : ℤ} (hk : 1 ≤ k ∧ k ≤ n) :
    ∃ inTime outTime, h.child k = some (.full inTime outTime) ∧ outTime ≠ 0 := by
  obtain ⟨c, hc⟩ := Option.isSome_iff_exists.1 ((hn.isSome_child k).2 hk)
  obtain ⟨i, o, rfl, ho⟩ := hn.full k c hc
  exact ⟨i, o, hc, ho⟩

/-- **The Android screen opens exactly if the largest number is an `Integer`.** -/
theorem opens_iff (hn : Consecutive h n) (format : Formats) : Opens format h ↔ n < 2 ^ 31 := by
  rw [StudyHours.opens_iff hn.canonical]
  constructor
  · intro hreadable
    by_contra hlarge
    push Not at hlarge
    obtain ⟨i, o, hget, -⟩ := hn.exists_full (k := n) (by omega)
    have hint := (hreadable n _ hget).2.2
    omega
  · intro hsmall k c hget
    have hk := (hn.isSome_child k).1 (by rw [hget]; rfl)
    obtain ⟨i, o, rfl, -⟩ := hn.full k c hget
    refine ⟨trivial, ?_⟩
    rw [InInteger]
    omega

/-- **The Android list** has the session `i + 1` in its place `i`. -/
theorem infoArray (hn : Consecutive h n) (hsmall : n < 2 ^ 31) (format : Formats)
    {children : List (String × DataSnapshot)} (he : h.Enumerates children) :
    ∃ f, GalleryFragment.onCreateView.onDataChange format children = some f ∧
      f.infoArray.length = n ∧ ∀ (i : ℕ) (inTime outTime : ℤ), i < n →
        h.child (i + 1) = some (.full inTime outTime) →
          f.infoArray[i]? = some (format.time inTime ++ " - " ++ format.time outTime) := by
  obtain ⟨f, hf⟩ := Option.isSome_iff_exists.1 ((hn.opens_iff format).2 hsmall children he)
  have hmem : ∀ k text, (k, text) ∈ children.filterMap (GalleryFragment.put format.time) ↔
      ∃ inTime outTime, h.child k = some (.full inTime outTime) ∧ InInteger k ∧
        text = format.time inTime ++ " - " ++ format.time outTime :=
    fun k text => GalleryFragment.mem_filterMap_put hn.canonical he
  have hint : ∀ k : ℤ, 1 ≤ k ∧ k ≤ n → InInteger k := by
    intro k hk
    rw [InInteger]
    omega
  have hlist := GalleryFragment.infoArray_onDataChange hf
  generalize children.filterMap (GalleryFragment.put format.time) = l at hmem hlist
  have hkeys : ∀ k, k ∈ Dictionary.putAll ∅ l ↔ 1 ≤ k ∧ k ≤ (n : ℤ) := by
    intro k
    rw [Dictionary.mem_putAll, or_iff_right (AList.notMem_empty k), ← hn.isSome_child]
    constructor
    · intro hk
      obtain ⟨⟨k, text⟩, hentry, rfl⟩ := List.mem_map.1 hk
      obtain ⟨i, o, hget, -⟩ := (hmem k text).1 hentry
      rw [hget]
      rfl
    · intro hk
      have hbounds := (hn.isSome_child k).1 hk
      obtain ⟨i, o, hget, -⟩ := hn.exists_full hbounds
      exact List.mem_map.2 ⟨_, (hmem k _).2 ⟨i, o, hget, hint k hbounds, rfl⟩, rfl⟩
  refine ⟨f, hf, by rw [hlist, Dictionary.length_sorted hkeys], fun i inTime outTime hi hget => ?_⟩
  rw [hlist, Dictionary.getElem?_sorted hkeys hi]
  refine Dictionary.lookup_putAll_of_unique
    ((hmem _ _).2 ⟨inTime, outTime, hget, hint _ (by omega), rfl⟩) fun text' hentry => ?_
  -- the child has one session
  obtain ⟨i', o', hget', -, rfl⟩ := (hmem _ _).1 hentry
  rw [hget] at hget'
  cases hget'
  rfl

/-- **The iOS table** has the session `i + 1` in its row `i`. -/
theorem tableView (hn : Consecutive h n) {children : List (String × DataSnapshot)}
    (he : h.Enumerates children) :
    ∃ vc, ViewController.initial.observe children = some vc ∧ vc.numberOfRows = n ∧
      ∀ (i : ℕ) (inTime outTime : ℤ), i < n →
        h.child (i + 1) = some (.full inTime outTime) →
          vc.sessionAt i = some ⟨inTime, outTime⟩ := by
  obtain ⟨vc, l, hvc, hperm, hsessions⟩ :=
    ViewController.observe_eq_some hn.canonical he ViewController.initial
  have hmem : ∀ k, k ∈ l.map Prod.fst ↔ 1 ≤ k ∧ k ≤ (n : ℤ) := by
    intro k
    rw [(hperm.map Prod.fst).mem_iff, mem_map_finished hn.canonical]
    constructor
    · rintro ⟨c, hget, -⟩
      refine (hn.isSome_child k).1 ?_
      rw [Option.mem_def.1 hget]
      rfl
    · intro hbounds
      obtain ⟨i, o, hget, ho⟩ := hn.exists_full hbounds
      exact ⟨_, hget, ho⟩
  have hkeys : ∀ k, k ∈ vc.sessions ↔ 1 ≤ k ∧ k ≤ (n : ℤ) := by
    intro k
    have hnew : k ∉ ViewController.initial.sessions := AList.notMem_empty k
    rw [hsessions, Dictionary.mem_putAll, or_iff_right hnew, hmem]
  refine ⟨vc, hvc, Dictionary.length_keys hkeys, fun i inTime outTime hi hget => ?_⟩
  have hnodup : (l.map Prod.fst).Nodup :=
    (hperm.map Prod.fst).nodup_iff.2 (Hours.nodup_finished hn.canonical)
  obtain ⟨i', o', heq, ho⟩ := hn.full _ _ hget
  cases heq
  rw [ViewController.sessionAt, hsessions]
  exact Dictionary.lookup_putAll hnodup (hperm.mem_iff.2
    ((Hours.mem_finished hn.canonical).2 ⟨_, hget, ho, rfl⟩))

end Consecutive

/-! ### The screens agree -/

/-- Both screens open on the record and have `n` places, with the session `i + 1` in place `i`. -/
def HistoryScreensAgree (format : Formats) (format' : ℤ → String) (h : Hours) (n : ℕ)
    (children children' : List (String × DataSnapshot)) : Prop :=
  ∃ f vc, GalleryFragment.onCreateView.onDataChange format children = some f ∧
    ViewController.initial.observe children' = some vc ∧
    f.infoArray.length = n ∧ vc.numberOfRows = n ∧
    ∀ i : ℕ, i < n → ∃ inTime outTime, h.child (i + 1) = some (.full inTime outTime) ∧
      f.infoArray[i]? = some (format.time inTime ++ " - " ++ format.time outTime) ∧
      vc.sessionAt i = some ⟨inTime, outTime⟩ ∧
      vc.cellForRowAt format' i = some (ViewController.cellText format' ⟨inTime, outTime⟩)

/-- **The two history screens agree** on consecutive sessions, in whatever order each of them is
given the children, as long as the numbers are `Integer`s. -/
theorem historyScreens_agree {h : Hours} {n : ℕ} (hn : Consecutive h n) (hsmall : n < 2 ^ 31)
    (format : Formats) (format' : ℤ → String) {children children' : List (String × DataSnapshot)}
    (he : h.Enumerates children) (he' : h.Enumerates children') :
    HistoryScreensAgree format format' h n children children' := by
  obtain ⟨f, hf, hlength, hlist⟩ := hn.infoArray hsmall format he
  obtain ⟨vc, hvc, hrows, htable⟩ := hn.tableView he'
  refine ⟨f, vc, hf, hvc, hlength, hrows, fun i hi => ?_⟩
  obtain ⟨inTime, outTime, hget, -⟩ := hn.exists_full (k := i + 1) (by omega)
  have hsession := htable i inTime outTime hi hget
  refine ⟨inTime, outTime, hget, hlist i inTime outTime hi hget, hsession, ?_⟩
  rw [ViewController.cellForRowAt, hsession]
  rfl

/-- A record of `n` sessions. -/
def fullRecord (n : ℕ) : Hours :=
  { Hours.created "A" with
    numSessions := some n
    children := Dictionary.putAll ∅
      ((List.range n).map fun i : ℕ => (childKey (i + 1), SessionNode.full 0 1)) }

theorem consecutive_fullRecord (n : ℕ) : Consecutive (fullRecord n) n := by
  have hkeys : ∀ key, key ∈ (fullRecord n).children ↔
      ∃ k : ℤ, key = childKey k ∧ 1 ≤ k ∧ k ≤ n := by
    intro key
    rw [fullRecord, Dictionary.mem_putAll, or_iff_right (AList.notMem_empty key), List.map_map,
      List.mem_map]
    constructor
    · rintro ⟨i, hi, rfl⟩
      have hlt := List.mem_range.1 hi
      exact ⟨i + 1, rfl, by omega, by omega⟩
    · rintro ⟨k, rfl, hlow, hhigh⟩
      refine ⟨(k - 1).toNat, List.mem_range.2 (by omega), ?_⟩
      rw [Function.comp_apply, Int.toNat_of_nonneg (by omega), sub_add_cancel]
  refine ⟨hkeys, fun k c hget => ⟨0, 1, ?_, one_ne_zero⟩⟩
  obtain ⟨j, hj, hlow, hhigh⟩ := (hkeys (childKey k)).1
    (AList.lookup_isSome.1 (by rw [← Hours.child, Option.mem_def.1 hget]; rfl))
  obtain rfl := childKey_inj.1 hj
  have hfull : (fullRecord n).child k = some (.full 0 1) := by
    refine Dictionary.lookup_putAll_of_unique (List.mem_map.2 ?_) fun c' hc' => ?_
    · exact ⟨(k - 1).toNat, List.mem_range.2 (by omega), by
        rw [Int.toNat_of_nonneg (by omega), sub_add_cancel]⟩
    · obtain ⟨i, -, heq⟩ := List.mem_map.1 hc'
      exact (congrArg Prod.snd heq).symm
  rw [hfull] at hget
  exact (Option.some.inj hget).symm

/-- Ten sessions and more: as texts the keys would come in another order. -/
theorem historyScreens_agree_twelve :
    HistoryScreensAgree firstFormats (fun s => firstHours (1000 * s)) (fullRecord 12) 12
      (fullRecord 12).getChildren (fullRecord 12).getChildren.reverse :=
  historyScreens_agree (consecutive_fullRecord 12) (by norm_num) _ _ (List.Perm.refl _)
    (List.reverse_perm _)

/-- **With `2 ^ 31` sessions the Android screen does not open.** -/
theorem not_historyScreens_agree : ¬ ∀ (format : Formats) (format' : ℤ → String) (h : Hours) (n : ℕ)
    (children children' : List (String × DataSnapshot)), Consecutive h n →
      h.Enumerates children → h.Enumerates children' →
        HistoryScreensAgree format format' h n children children' := by
  intro h
  have hopens : Opens firstFormats (fullRecord (2 ^ 31)) := by
    intro children he
    obtain ⟨f, vc, hf, -⟩ := h firstFormats (fun s => firstHours (1000 * s)) (fullRecord (2 ^ 31))
      (2 ^ 31) children children (consecutive_fullRecord _) he he
    rw [hf]
    rfl
  exact lt_irrefl _ (((consecutive_fullRecord (2 ^ 31)).opens_iff _).1 hopens)

end StudyHours
