/-
**Dictionaries filled from a list of entries.**

A program that shows a collection often walks through it once and puts what it finds into a
dictionary, and then lists the dictionary: by its keys in ascending order, or row by row, looking up
each row under its number.  This module has what the dictionary holds after such a walk, whatever
the order of the entries was, and when the two listings show the entries that have been put in.

Main definitions:

* `Dictionary.putAll` — a dictionary after entries have been put into it one by one;
* `Dictionary.sorted` — the values in the ascending order of the keys;
* `Dictionary.rows` — as many rows as there are keys, the first one looked up under the key `1`.

Main results:

* `Dictionary.lookup_putAll`, `Dictionary.keys_putAll_perm_iff` — what a dictionary holds;
* `Dictionary.foldl_of_key` — what a walk finds under one key;
* `Dictionary.map_some_sorted` — **both listings agree** on the keys `1`, ..., `n`;
* `Dictionary.rows_perm_iff` — **the rows show the entries just put in if and only if these are
  numbered from `1` on and replace all that was there before**.
-/

import Mathlib.Algebra.Order.Ring.Int
import Mathlib.Data.List.AList
import Mathlib.Data.List.NodupEquivFin
import Mathlib.Data.List.Sort
import Mathlib.Tactic.Push

set_option relaxedAutoImplicit false
set_option autoImplicit false

namespace Dictionary

universe u v

variable {κ : Type u} {β : Type v} [DecidableEq κ]

/-! ### Putting entries in -/

/-- The dictionary after the entries have been put into it, in the order of the list. -/
def putAll (m : AList fun _ : κ => β) (l : List (κ × β)) : AList fun _ : κ => β :=
  l.foldl (fun m e => m.insert e.1 e.2) m

@[simp] theorem putAll_nil (m : AList fun _ : κ => β) : putAll m [] = m := rfl

@[simp] theorem putAll_cons (m : AList fun _ : κ => β) (e : κ × β) (l : List (κ × β)) :
    putAll m (e :: l) = putAll (m.insert e.1 e.2) l := rfl

variable {m : AList fun _ : κ => β} {l : List (κ × β)} {k : κ} {v : β}

/-- A loop that puts in one entry for some of the elements it walks through. -/
theorem putAll_filterMap {α : Type*} (f : α → Option (κ × β)) (m : AList fun _ : κ => β)
    (as : List α) : putAll m (as.filterMap f) =
      as.foldl (fun m a => (f a).elim m fun e => m.insert e.1 e.2) m := by
  induction as generalizing m with
  | nil => rfl
  | cons a as ih =>
      rw [List.foldl_cons, ← ih, List.filterMap_cons]
      cases f a with
      | none => rfl
      | some e => rfl

theorem mem_putAll : k ∈ putAll m l ↔ k ∈ m ∨ k ∈ l.map Prod.fst := by
  induction l generalizing m with
  | nil => simp
  | cons e l ih => rw [putAll_cons, ih, AList.mem_insert, List.map_cons, List.mem_cons]; tauto

/-- An entry that is not put in stays as it was. -/
theorem lookup_putAll_of_notMem (hk : k ∉ l.map Prod.fst) :
    (putAll m l).lookup k = m.lookup k := by
  induction l generalizing m with
  | nil => rfl
  | cons e l ih =>
      rw [List.map_cons, List.mem_cons, not_or] at hk
      rw [putAll_cons, ih hk.2, AList.lookup_insert_ne hk.1]

/-- What has been put in under a key is found there, if it is the only value put in under it. -/
theorem lookup_putAll_of_unique (h : (k, v) ∈ l) (hunique : ∀ v', (k, v') ∈ l → v' = v) :
    (putAll m l).lookup k = some v := by
  induction l generalizing m with
  | nil => cases h
  | cons e l ih =>
      rw [putAll_cons]
      by_cases hl : k ∈ l.map Prod.fst
      · -- the last entry under the key counts
        obtain ⟨⟨k', v'⟩, hmem, rfl⟩ := List.mem_map.1 hl
        obtain rfl : v' = v := hunique v' (List.mem_cons_of_mem e hmem)
        exact ih hmem fun v' h' => hunique v' (List.mem_cons_of_mem e h')
      · rcases List.mem_cons.1 h with rfl | h
        · rw [lookup_putAll_of_notMem hl, AList.lookup_insert]
        · exact absurd (List.mem_map_of_mem h) hl

/-- What is found has been put in, or was there before. -/
theorem of_lookup_putAll (h : (putAll m l).lookup k = some v) :
    (k, v) ∈ l ∨ m.lookup k = some v := by
  induction l generalizing m with
  | nil => exact .inr h
  | cons e l ih =>
      rw [putAll_cons] at h
      rcases ih h with h | h
      · exact .inl (List.mem_cons_of_mem e h)
      · by_cases hk : k = e.1
        · subst hk
          rw [AList.lookup_insert] at h
          cases h
          exact .inl List.mem_cons_self
        · rw [AList.lookup_insert_ne hk] at h
          exact .inr h

/-- **What has been put in is found**, if the keys are different. -/
theorem lookup_putAll (hl : (l.map Prod.fst).Nodup) (h : (k, v) ∈ l) :
    (putAll m l).lookup k = some v := by
  refine lookup_putAll_of_unique h fun v' h' => ?_
  exact congrArg Prod.snd (List.inj_on_of_nodup_map hl h' h rfl)

/-- **The keys are those just put in if and only if these replace all that was there before.** -/
theorem keys_putAll_perm_iff (hl : (l.map Prod.fst).Nodup) :
    (putAll m l).keys.Perm (l.map Prod.fst) ↔ ∀ k ∈ m, k ∈ l.map Prod.fst := by
  rw [List.perm_ext_iff_of_nodup (AList.keys_nodup _) hl]
  simp only [← AList.mem_keys, mem_putAll]
  constructor
  · intro h k hk
    exact (h k).1 (.inl hk)
  · intro h k
    exact ⟨fun hk => hk.elim (h k) id, .inr⟩

/-- **A walk that looks out for one key** ends with what it has found under it. -/
theorem foldl_of_key {γ : Type*} (f : β → γ) (hl : (l.map Prod.fst).Nodup) (h : (k, v) ∈ l)
    (x : γ) : l.foldl (fun x e => if e.1 = k then f e.2 else x) x = f v := by
  induction l generalizing x with
  | nil => cases h
  | cons e l ih =>
      rw [List.map_cons, List.nodup_cons] at hl
      rw [List.foldl_cons]
      rcases List.mem_cons.1 h with rfl | h
      · -- the key does not come again
        rw [if_pos rfl]
        refine (List.foldl_ext _ (fun x _ => x) _ fun x e' he' => if_neg ?_).trans
          (List.foldl_fixed l)
        rintro rfl
        exact hl.1 (List.mem_map.2 ⟨e', he', rfl⟩)
      · exact ih hl.2 h _

/-! ### Two listings -/

/-- The values of the dictionary in the ascending order of its keys. -/
def sorted (m : AList fun _ : ℤ => β) : List β :=
  (m.keys.insertionSort (· ≤ ·)).filterMap fun k => m.lookup k

/-- As many rows as there are keys; row `i` shows what is found under the key `i + 1`. -/
def rows (m : AList fun _ : ℤ => β) : List (Option β) :=
  (List.range m.keys.length).map fun i : ℕ => m.lookup (i + 1 : ℤ)

section Numbered

variable {m : AList fun _ : ℤ => β} {n : ℕ}

theorem mem_numbers {n : ℕ} {k : ℤ} :
    k ∈ (List.range n).map (fun i : ℕ => (i + 1 : ℤ)) ↔ 1 ≤ k ∧ k ≤ n := by
  rw [List.mem_map]
  constructor
  · rintro ⟨i, hi, rfl⟩
    have := List.mem_range.1 hi
    omega
  · rintro ⟨hlow, hhigh⟩
    exact ⟨(k - 1).toNat, List.mem_range.2 (by omega), by omega⟩

theorem nodup_numbers (n : ℕ) : ((List.range n).map fun i : ℕ => (i + 1 : ℤ)).Nodup := by
  refine List.Nodup.map (fun i j hij => ?_) List.nodup_range
  omega

/-- Different keys that are the numbers `1`, ..., `n`. -/
theorem perm_numbers {ks : List ℤ} (hks : ks.Nodup) (h : ∀ k, k ∈ ks ↔ 1 ≤ k ∧ k ≤ n) :
    ks.Perm ((List.range n).map fun i : ℕ => (i + 1 : ℤ)) := by
  refine (List.perm_ext_iff_of_nodup hks (nodup_numbers n)).2 fun k => ?_
  rw [mem_numbers, h]

theorem length_eq_of_numbered {ks : List ℤ} (hks : ks.Nodup)
    (h : ∀ k, k ∈ ks ↔ 1 ≤ k ∧ k ≤ n) : ks.length = n := by
  rw [(perm_numbers hks h).length_eq, List.length_map, List.length_range]

theorem keys_perm_numbers (h : ∀ k, k ∈ m ↔ 1 ≤ k ∧ k ≤ n) :
    m.keys.Perm ((List.range n).map fun i : ℕ => (i + 1 : ℤ)) :=
  perm_numbers m.keys_nodup h

/-- **In numeric order**: the numbers `1`, ..., `n` are sorted. -/
theorem sorted_eq (h : ∀ k, k ∈ m ↔ 1 ≤ k ∧ k ≤ n) :
    sorted m = ((List.range n).map fun i : ℕ => (i + 1 : ℤ)).filterMap fun k => m.lookup k := by
  have hpairwise : ((List.range n).map fun i : ℕ => (i + 1 : ℤ)).Pairwise (· ≤ ·) := by
    refine List.pairwise_map.2 (List.pairwise_lt_range.imp fun hij => ?_)
    omega
  have hsort : m.keys.insertionSort (· ≤ ·) = (List.range n).map fun i : ℕ => (i + 1 : ℤ) :=
    ((List.perm_insertionSort _ _).trans (keys_perm_numbers h)).eq_of_pairwise
      (fun _ _ _ _ => le_antisymm) (List.pairwise_insertionSort _ _) hpairwise
  rw [sorted, hsort]

theorem length_keys (h : ∀ k, k ∈ m ↔ 1 ≤ k ∧ k ≤ n) : m.keys.length = n :=
  length_eq_of_numbered m.keys_nodup h

theorem rows_eq (h : ∀ k, k ∈ m ↔ 1 ≤ k ∧ k ≤ n) :
    rows m = ((List.range n).map fun i : ℕ => (i + 1 : ℤ)).map fun k => m.lookup k := by
  rw [rows, length_keys h, List.map_map]
  rfl

/-- **The two listings agree** on the keys `1`, ..., `n`: what is listed `i`-th is found in
row `i`. -/
theorem map_some_sorted (h : ∀ k, k ∈ m ↔ 1 ≤ k ∧ k ≤ n) : (sorted m).map some = rows m := by
  have hfound : ∀ l : List ℤ, (∀ k ∈ l, k ∈ m) →
      (l.filterMap fun k => m.lookup k).map some = l.map fun k => m.lookup k := by
    intro l hl
    rw [List.map_filterMap_some_eq_filter_map_isSome, List.filter_eq_self]
    rw [List.forall_mem_map]
    exact fun k hk => AList.lookup_isSome.2 (hl k hk)
  rw [sorted_eq h, rows_eq h, hfound]
  intro k hk
  rw [h, ← mem_numbers]
  exact hk

theorem length_sorted (h : ∀ k, k ∈ m ↔ 1 ≤ k ∧ k ≤ n) : (sorted m).length = n := by
  have hlength := congrArg List.length (map_some_sorted h)
  rwa [List.length_map, rows, List.length_map, List.length_range, length_keys h] at hlength

theorem getElem?_sorted (h : ∀ k, k ∈ m ↔ 1 ≤ k ∧ k ≤ n) {i : ℕ} (hi : i < n) :
    (sorted m)[i]? = m.lookup (i + 1 : ℤ) := by
  have hplace : (sorted m)[i]?.map some = some (m.lookup (i + 1 : ℤ)) := by
    rw [← List.getElem?_map, map_some_sorted h, rows, length_keys h, List.getElem?_map,
      List.getElem?_range hi, Option.map_some]
  obtain ⟨v, hv, hlookup⟩ := Option.map_eq_some_iff.1 hplace
  rw [hv, hlookup]

end Numbered

section Rows

variable {m : AList fun _ : ℤ => β} {l : List (ℤ × β)}

/-- The entries just put in, as the dictionary has them. -/
theorem map_lookup_putAll (hl : (l.map Prod.fst).Nodup) :
    (l.map Prod.fst).map (fun k => (putAll m l).lookup k) = l.map fun e => some e.2 := by
  rw [List.map_map]
  exact List.map_congr_left fun e he => lookup_putAll hl he

/-- **The rows show the entries just put in**, each of them once and nothing else, **if and only if
these are numbered from `1` on and replace all that was there before**. -/
theorem rows_perm_iff (hl : (l.map Prod.fst).Nodup) :
    (rows (putAll m l)).Perm (l.map fun e => some e.2) ↔
      (∀ k, k ∈ l.map Prod.fst ↔ 1 ≤ k ∧ k ≤ l.length) ∧ ∀ k ∈ m, k ∈ l.map Prod.fst := by
  constructor
  · intro hperm
    have hlength : (putAll m l).keys.length = l.length := by
      simpa [rows] using hperm.length_eq
    -- there are as many keys as entries, so there are no others
    have hkeys : (l.map Prod.fst).Perm (putAll m l).keys := by
      have hsub : (l.map Prod.fst).Subperm (putAll m l).keys :=
        List.subperm_of_subset hl fun k hk => AList.mem_keys.1 (mem_putAll.2 (.inr hk))
      exact hsub.perm_of_length_le (by rw [hlength, List.length_map])
    have hrow : ∀ k, 1 ≤ k ∧ k ≤ (l.length : ℤ) → k ∈ l.map Prod.fst := by
      rintro k ⟨hlow, hhigh⟩
      -- no row is blank
      have hmem : (putAll m l).lookup k ∈ rows (putAll m l) := by
        have hlt : (k - 1).toNat < (putAll m l).keys.length := by omega
        refine List.mem_map.2 ⟨(k - 1).toNat, List.mem_range.2 hlt, ?_⟩
        rw [Int.toNat_of_nonneg (by omega), sub_add_cancel]
      obtain ⟨e, -, he⟩ := List.mem_map.1 (hperm.mem_iff.1 hmem)
      exact hkeys.mem_iff.2 (AList.mem_keys.1 (AList.lookup_isSome.1 (by rw [← he]; rfl)))
    have hnumbers : ((List.range l.length).map fun i : ℕ => (i + 1 : ℤ)).Perm (l.map Prod.fst) := by
      have hsub : ((List.range l.length).map fun i : ℕ => (i + 1 : ℤ)).Subperm (l.map Prod.fst) :=
        List.subperm_of_subset (nodup_numbers _) fun k hk => hrow k (mem_numbers.1 hk)
      exact hsub.perm_of_length_le (by simp)
    refine ⟨fun k => by rw [← hnumbers.mem_iff, mem_numbers], fun k hk => ?_⟩
    exact hkeys.mem_iff.2 (AList.mem_keys.1 (mem_putAll.2 (.inl hk)))
  · rintro ⟨hnumbered, hold⟩
    have hkeys : ∀ k, k ∈ putAll m l ↔ 1 ≤ k ∧ k ≤ (l.length : ℤ) := by
      intro k
      rw [mem_putAll, ← hnumbered]
      exact ⟨fun h => h.elim (hold k) id, .inr⟩
    have hperm : ((List.range l.length).map fun i : ℕ => (i + 1 : ℤ)).Perm (l.map Prod.fst) :=
      (perm_numbers hl hnumbered).symm
    rw [rows_eq hkeys, ← map_lookup_putAll hl]
    exact hperm.map _

end Rows

end Dictionary
