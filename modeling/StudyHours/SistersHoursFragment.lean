/-
**The list of all accounts.**

`SistersHoursFragment` reads the whole tree `hours/` and shows one row for each account: its name
and its total, put together to a text.  The texts are the keys of a map whose values are the account
ids, and the rows are the keys of this map, in the order in which a `HashMap` enumerates them.  A
tap on a row looks up its text in the map and opens the history of the account found there.

So two accounts whose names and totals are the same have one row together, and one of them cannot be
reached.  A name may contain the separator: the total has no colon, so the last one ends the name.

The fragment is kept while the history of an account is open, and its view is created again when the
user comes back.  The map is the one of the instance: the texts of earlier snapshots stay in it.

Main definitions:

* `StudyHours.SistersHoursFragment.onDataChange` — the list made of a snapshot of the tree;
* `StudyHours.SistersHoursFragment.onItemClick` — the account a tap leads to;
* `StudyHours.SistersHoursFragment.ListsAll` — every account has its row and is reached through it;
* `StudyHours.SistersHoursFragment.ShowsCurrent` — the rows are those of the latest snapshot.

Main results:

* `StudyHours.labelOf_inj` — a text tells the name and the total;
* `StudyHours.SistersHoursFragment.listsAll_iff` — **the list is complete if and only if no two
  accounts have the same name and total**;
* `StudyHours.SistersHoursFragment.showsCurrent_iff` — **an instance that is loaded again shows the
  latest snapshot if and only if no name and total of an earlier one is gone from it**.
-/

import Mathlib
import StudyHours.DataSnapshot
import StudyHours.Dictionary
import StudyHours.Execution

set_option relaxedAutoImplicit false
set_option autoImplicit false

namespace StudyHours

/-! ### Texts -/

/-- `Double.toString`, which the concatenation of a text and a `double` calls: different values are
printed differently, and without a colon. -/
structure DoubleToString where
  print : ℚ → String
  injective : Function.Injective print
  noColon : ∀ q, ':' ∉ (print q).toList

/-- A row is cut in one way only at the last place where a character stands. -/
theorem append_cons_inj {α : Type*} {c : α} {a a' b b' : List α} (hb : c ∉ b) (hb' : c ∉ b')
    (h : a ++ c :: b = a' ++ c :: b') : a = a' ∧ b = b' := by
  rcases List.append_eq_append_iff.1 h with ⟨l, rfl, hl⟩ | ⟨l, rfl, hl⟩
  · cases l with
    | nil => exact ⟨(List.append_nil _).symm, (List.cons.inj hl).2⟩
    | cons x l =>
        obtain ⟨-, rfl⟩ := List.cons.inj hl
        simp at hb
  · cases l with
    | nil => exact ⟨List.append_nil _, ((List.cons.inj hl).2).symm⟩
    | cons x l =>
        obtain ⟨-, rfl⟩ := List.cons.inj hl
        simp at hb'

variable (double : DoubleToString)

/-- The text of a name and a total; a missing name is printed as `null`. -/
def labelOf (name : Option String) (totalHours : ℚ) : String :=
  name.getD "null" ++ ": " ++ double.print totalHours

/-- **A text tells the name and the total**, whatever the name is. -/
theorem labelOf_inj {name name' : Option String} {q q' : ℚ} :
    labelOf double name q = labelOf double name' q' ↔
      name.getD "null" = name'.getD "null" ∧ q = q' := by
  constructor
  · intro h
    have hcolon : ∀ q, ':' ∉ ' ' :: (double.print q).toList := by
      intro q hmem
      rcases List.mem_cons.1 hmem with hspace | hmem
      · cases hspace
      · exact double.noColon q hmem
    have hlist := congrArg String.toList h
    have hsep : ": ".toList = [':', ' '] := rfl
    simp only [labelOf, String.toList_append, hsep, List.append_assoc, List.cons_append,
      List.nil_append] at hlist
    obtain ⟨hname, htotal⟩ := append_cons_inj (hcolon q) (hcolon q') hlist
    exact ⟨String.toList_inj.1 hname,
      double.injective (String.toList_inj.1 (List.cons.inj htotal).2)⟩
  · rintro ⟨hname, rfl⟩
    rw [labelOf, hname, labelOf]

/-! ### The fragment -/

/-- The order in which a `HashMap` enumerates its keys, which is not specified. -/
structure KeySetOrder where
  toArray : (AList fun _ : String => String) → List String
  perm : ∀ m, (toArray m).Perm m.keys

/-- The fragment.  The map belongs to the instance, the rows are made anew whenever it is loaded. -/
structure SistersHoursFragment where
  /-- The account id of each text. -/
  map : AList fun _ : String => String
  infoArray : List String

namespace SistersHoursFragment

/-- A fragment that has just been created. -/
def initial : SistersHoursFragment := ⟨∅, []⟩

/-- The text of an account: its total is unboxed, its name may be missing. -/
def label (account : DataSnapshot) : Option String :=
  (account.child "totalHours").getDouble.bind fun totalHours =>
    (account.child "sisterName").getString.map fun name => labelOf double name totalHours

/-- One round of the loop of `onDataChange`. -/
def onChild (f : SistersHoursFragment) (child : String × DataSnapshot) :
    Option SistersHoursFragment :=
  (label double child.2).map fun text => { f with map := f.map.insert text child.1 }

variable (keySet : KeySetOrder)

/-- `onDataChange`: the accounts are read one after the other, and the keys of the map are the
rows. -/
def onDataChange (f : SistersHoursFragment) (children : List (String × DataSnapshot)) :
    Option SistersHoursFragment :=
  (Execution.run (onChild double) f children).map fun f =>
    { f with infoArray := keySet.toArray f.map }

/-- `getView` of `CustomListAdapter`: the text that the row at a place shows. -/
def getView (f : SistersHoursFragment) (position : ℕ) : Option String := f.infoArray[position]?

/-- The account whose history a tap on a row opens. -/
def onItemClick (f : SistersHoursFragment) (position : ℕ) : Option String :=
  f.infoArray[position]?.bind fun text => f.map.lookup text

/-- **The list is complete**: there is one row for each account, with its name and total, and for
each account a row with its text whose tap opens its history. -/
structure ListsAll (f : SistersHoursFragment) (children : List (String × DataSnapshot)) : Prop where
  rows : (f.infoArray.map some).Perm (children.map fun child => label double child.2)
  reached : ∀ child ∈ children, ∃ position,
    f.getView position = label double child.2 ∧ f.onItemClick position = some child.1

/-! ### When the list is complete -/

/-- The name, as it is printed, and the total of an account. -/
def nameAndTotal (account : DataSnapshot) : Option String × Option ℚ :=
  ((account.child "sisterName").getString.map fun name => name.getD "null",
    (account.child "totalHours").getDouble)

variable {double} {keySet}

theorem isSome_label {account : DataSnapshot}
    (htotal : (account.child "totalHours").getDouble.isSome)
    (hname : (account.child "sisterName").getString.isSome) : (label double account).isSome := by
  obtain ⟨q, hq⟩ := Option.isSome_iff_exists.1 htotal
  rw [label, hq, Option.bind_some, Option.isSome_map]
  exact hname

/-- The texts of two accounts are the same if their names and totals are. -/
theorem label_inj {account account' : DataSnapshot} (h : (label double account).isSome)
    (h' : (label double account').isSome) :
    label double account = label double account' ↔
      nameAndTotal account = nameAndTotal account' := by
  have hread : ∀ {s : DataSnapshot}, (label double s).isSome →
      ∃ q name, label double s = some (labelOf double name q) ∧
        nameAndTotal s = (some (name.getD "null"), some q) := by
    intro s hs
    obtain ⟨text, htext⟩ := Option.isSome_iff_exists.1 hs
    obtain ⟨q, hq, hmap⟩ := Option.bind_eq_some_iff.1 htext
    obtain ⟨name, hname, rfl⟩ := Option.map_eq_some_iff.1 hmap
    exact ⟨q, name, htext, by rw [nameAndTotal, hname, hq]; rfl⟩
  obtain ⟨q, name, hlabel, hpair⟩ := hread h
  obtain ⟨q', name', hlabel', hpair'⟩ := hread h'
  rw [hlabel, hlabel', hpair, hpair', Option.some.injEq, labelOf_inj]
  simp

/-- What a round puts into the map. -/
def entry (double : DoubleToString) (child : String × DataSnapshot) : Option (String × String) :=
  (label double child.2).map fun text => (text, child.1)

/-- The texts under which a load puts in the accounts. -/
def texts (double : DoubleToString) (children : List (String × DataSnapshot)) : List String :=
  (children.filterMap (entry double)).map Prod.fst

theorem texts_eq (children : List (String × DataSnapshot)) :
    texts double children = children.filterMap fun child => label double child.2 := by
  rw [texts, List.map_filterMap]
  refine List.filterMap_congr fun child _ => ?_
  rw [entry, Option.map_map]
  cases label double child.2 <;> rfl

theorem mem_texts_iff {children : List (String × DataSnapshot)} {text : String} :
    text ∈ texts double children ↔ ∃ child ∈ children, label double child.2 = some text := by
  rw [texts_eq, List.mem_filterMap]

/-- **A load runs to its end exactly if every account has a total and no other name than
a text.** -/
theorem isSome_onDataChange (f : SistersHoursFragment) (children : List (String × DataSnapshot)) :
    (f.onDataChange double keySet children).isSome ↔
      ∀ child ∈ children, (label double child.2).isSome := by
  rw [onDataChange, Option.isSome_map]
  exact Execution.isSome_run_iff (fun f child => by rw [onChild, Option.isSome_map]) f children

/-- What a load makes of the map and of the rows. -/
theorem of_onDataChange {f f' : SistersHoursFragment} {children : List (String × DataSnapshot)}
    (h : f.onDataChange double keySet children = some f') :
    f'.map = Dictionary.putAll f.map (children.filterMap (entry double)) ∧
      f'.infoArray = keySet.toArray f'.map := by
  obtain ⟨f₁, hf₁, rfl⟩ := Option.map_eq_some_iff.1 h
  refine ⟨?_, rfl⟩
  have hround : ∀ (f : SistersHoursFragment) child f', onChild double f child = some f' →
      f'.map = (entry double child).elim f.map fun e => f.map.insert e.1 e.2 := by
    intro f child f' hchild
    obtain ⟨text, htext, rfl⟩ := Option.map_eq_some_iff.1 hchild
    rw [entry, htext]
    rfl
  have hloop : f₁.map = Dictionary.putAll f.map (children.filterMap (entry double)) := by
    rw [Dictionary.putAll_filterMap]
    exact Execution.run_foldl hround hf₁
  exact hloop

/-- The map has the texts it had and those of the snapshot. -/
theorem mem_map_of_onDataChange {f f' : SistersHoursFragment}
    {children : List (String × DataSnapshot)}
    (h : f.onDataChange double keySet children = some f') (text : String) :
    text ∈ f'.map ↔ text ∈ f.map ∨ text ∈ texts double children := by
  rw [(of_onDataChange h).1, Dictionary.mem_putAll, texts]

/-- **The rows are the texts of the snapshot if and only if these replace all that the map had.** -/
theorem infoArray_perm_iff {f f' : SistersHoursFragment} {children : List (String × DataSnapshot)}
    (h : f.onDataChange double keySet children = some f')
    (hdistinct : (texts double children).Nodup) :
    f'.infoArray.Perm (texts double children) ↔ ∀ text ∈ f.map, text ∈ texts double children := by
  obtain ⟨hmap, hrows⟩ := of_onDataChange h
  have hkeys : f'.infoArray.Perm f'.map.keys := hrows ▸ keySet.perm f'.map
  have hperm := Dictionary.keys_putAll_perm_iff (m := f.map) hdistinct
  rw [← hmap] at hperm
  exact ⟨fun h => hperm.1 (hkeys.symm.trans h), fun h => hkeys.trans (hperm.2 h)⟩

/-- The rows of an instance that has been created for the load. -/
theorem infoArray_perm_initial {f : SistersHoursFragment} {children : List (String × DataSnapshot)}
    (h : initial.onDataChange double keySet children = some f)
    (hdistinct : (texts double children).Nodup) : f.infoArray.Perm (texts double children) := by
  refine (infoArray_perm_iff h hdistinct).2 fun text htext => ?_
  exact absurd htext (AList.notMem_empty text)

/-- The texts of the accounts, where every one has its text. -/
theorem map_some_texts {children : List (String × DataSnapshot)}
    (hread : ∀ child ∈ children, (label double child.2).isSome) :
    (texts double children).map some = children.map fun child => label double child.2 := by
  rw [texts_eq, List.map_filterMap_some_eq_filter_map_isSome, List.filter_eq_self,
    List.forall_mem_map]
  exact hread

/-- Rows that are the texts of a snapshot. -/
theorem rows_perm_iff {children : List (String × DataSnapshot)}
    (hread : ∀ child ∈ children, (label double child.2).isSome) {rows : List String} :
    (rows.map some).Perm (children.map fun child => label double child.2) ↔
      rows.Perm (texts double children) := by
  rw [← map_some_texts hread, List.map_perm_map_iff (Option.some_injective _)]

/-- The texts are different if and only if the names and totals are. -/
theorem nodup_texts_iff {children : List (String × DataSnapshot)}
    (hread : ∀ child ∈ children, (label double child.2).isSome) :
    (texts double children).Nodup ↔ (children.map fun child => nameAndTotal child.2).Nodup := by
  rw [← List.nodup_map_iff (Option.some_injective _), map_some_texts hread, List.Nodup, List.Nodup,
    List.pairwise_map, List.pairwise_map]
  refine List.Pairwise.iff_of_mem fun hmem hmem' => ?_
  rw [Ne, Ne, label_inj (hread _ hmem) (hread _ hmem')]

/-- **The list of all accounts is complete if and only if no two accounts have the same name and
total.** -/
theorem listsAll_iff {children : List (String × DataSnapshot)}
    (htotal : ∀ child ∈ children, (child.2.child "totalHours").getDouble.isSome)
    (hname : ∀ child ∈ children, (child.2.child "sisterName").getString.isSome) :
    ∃ f, initial.onDataChange double keySet children = some f ∧
      (ListsAll double f children ↔ (children.map fun child => nameAndTotal child.2).Nodup) := by
  have hread : ∀ child ∈ children, (label double child.2).isSome :=
    fun child hmem => isSome_label (htotal child hmem) (hname child hmem)
  have hload : (initial.onDataChange double keySet children).isSome :=
    (isSome_onDataChange initial children).2 hread
  obtain ⟨f, hf⟩ := Option.isSome_iff_exists.1 hload
  refine ⟨f, hf, ?_⟩
  obtain ⟨hmap, hrows⟩ := of_onDataChange hf
  have hkeys : f.infoArray.Perm f.map.keys := hrows ▸ keySet.perm f.map
  rw [← nodup_texts_iff hread]
  constructor
  · rintro ⟨hperm, -⟩
    exact (((rows_perm_iff hread).1 hperm).symm.trans hkeys).nodup_iff.2 f.map.keys_nodup
  · intro hnodup
    have hperm := infoArray_perm_initial hf hnodup
    refine ⟨(rows_perm_iff hread).2 hperm, fun child hmem => ?_⟩
    obtain ⟨text, htext⟩ := Option.isSome_iff_exists.1 (hread child hmem)
    have hentry : (text, child.1) ∈ children.filterMap (entry double) :=
      List.mem_filterMap.2 ⟨child, hmem, by rw [entry, htext]; rfl⟩
    have hlookup : f.map.lookup text = some child.1 := by
      rw [hmap]
      exact Dictionary.lookup_putAll hnodup hentry
    have hrow : text ∈ f.infoArray := hperm.mem_iff.2 (mem_texts_iff.2 ⟨child, hmem, htext⟩)
    obtain ⟨position, hposition⟩ := List.mem_iff_getElem?.1 hrow
    exact ⟨position, by rw [getView, hposition, htext],
      by rw [onItemClick, hposition]; exact hlookup⟩

end SistersHoursFragment

/-! ### Two lists -/

/-- A way of printing that is the one of `Double.toString` on the whole numbers below `10 ^ 7`: the
denominator, less one, stands after the point. -/
def printWhole : DoubleToString where
  print q := Int.repr q.num ++ "." ++ Int.repr (q.den - 1)
  injective := by
    intro q q' h
    have hpoint : ∀ k : ℤ, '.' ∉ (Int.repr k).toList := by
      intro k hmem
      rcases Numeral.isDigit_of_mem_repr hmem with hminus | hdigit
      · cases hminus
      · exact absurd hdigit (by decide)
    have hlist := congrArg String.toList h
    have hsep : ".".toList = ['.'] := rfl
    simp only [String.toList_append, hsep, List.append_assoc, List.cons_append,
      List.nil_append] at hlist
    obtain ⟨hnum, hden⟩ := append_cons_inj (hpoint _) (hpoint _) hlist
    have hnum' := Int.repr_inj.1 (String.toList_inj.1 hnum)
    have hden' := Int.repr_inj.1 (String.toList_inj.1 hden)
    exact Rat.ext hnum' (by omega)
  noColon := by
    intro q hmem
    have hrepr : ∀ k : ℤ, ':' ∉ (Int.repr k).toList := by
      intro k hmem
      rcases Numeral.isDigit_of_mem_repr hmem with hminus | hdigit
      · cases hminus
      · exact absurd hdigit (by decide)
    have hsep : ".".toList = ['.'] := rfl
    rw [String.toList_append, String.toList_append, hsep, List.append_assoc, List.mem_append,
      List.mem_append, List.mem_singleton] at hmem
    rcases hmem with hmem | hpoint | hmem
    · exact hrepr _ hmem
    · cases hpoint
    · exact hrepr _ hmem

/-- The keys in the order in which the model has them. -/
def keyOrder : KeySetOrder := ⟨fun m => m.keys, fun _ => .refl _⟩

/-- An account with a name and a total. -/
def accountNode (name : String) (totalHours : ℚ) : DataSnapshot :=
  .node [("numSessions", .value (.long 1)), ("sisterName", .value (.string name)),
    ("totalHours", .value (.double totalHours))]

namespace SistersHoursFragment

/-- A name may contain the text of another account. -/
theorem listsAll_separator : ∃ f,
    initial.onDataChange printWhole keyOrder
      [("u", accountNode "A" 1), ("v", accountNode "A: 1.0" 1)] = some f ∧
    ListsAll printWhole f [("u", accountNode "A" 1), ("v", accountNode "A: 1.0" 1)] := by
  obtain ⟨f, hf, hiff⟩ := @listsAll_iff printWhole keyOrder
    [("u", accountNode "A" 1), ("v", accountNode "A: 1.0" 1)] (by decide) (by decide)
  exact ⟨f, hf, hiff.2 (by decide +kernel)⟩

/-- **Of two accounts with the same name and total one has no row.** -/
theorem not_listsAll : ¬ ∀ (double : DoubleToString) (keySet : KeySetOrder)
    (children : List (String × DataSnapshot)),
    (∀ child ∈ children, (child.2.child "totalHours").getDouble.isSome) →
    (∀ child ∈ children, (child.2.child "sisterName").getString.isSome) →
    ∃ f, initial.onDataChange double keySet children = some f ∧ ListsAll double f children := by
  intro h
  obtain ⟨f, hf, hrows, -⟩ := h printWhole keyOrder
    [("u", accountNode "A" 0), ("v", accountNode "A" 0)] (by decide) (by decide)
  have hkeys : f.infoArray.Perm f.map.keys := by
    rw [(of_onDataChange hf).2]
    exact keyOrder.perm f.map
  -- the rows are the keys of a map, so they are different
  have hnodup : (f.infoArray.map some).Nodup :=
    (hkeys.nodup_iff.2 f.map.keys_nodup).map (Option.some_injective _)
  have htwice := hrows.nodup_iff.1 hnodup
  simp at htwice

/-! ### Coming back to the list -/

/-- A load of the list: the snapshot of `hours/`, and the order in which the map enumerates its keys
this time. -/
structure Load where
  keySet : KeySetOrder
  children : List (String × DataSnapshot)

/-- `onCreateView`: the view is created, and the listener it registers is given its snapshot.  The
map is the one of the instance. -/
def onCreateView (double : DoubleToString) (f : SistersHoursFragment) (load : Load) :
    Option SistersHoursFragment :=
  f.onDataChange double load.keySet load.children

/-- **The list is current**: its rows are the texts of the snapshot, the same as a new instance
shows. -/
structure ShowsCurrent (double : DoubleToString) (f : SistersHoursFragment)
    (children : List (String × DataSnapshot)) : Prop where
  rows : (f.infoArray.map some).Perm (children.map fun child => label double child.2)
  fresh : ∀ keySet f₀, initial.onDataChange double keySet children = some f₀ →
    f.infoArray.Perm f₀.infoArray

/-- The list is current after the load. -/
def ShowsCurrentAfter (double : DoubleToString) (f : SistersHoursFragment) (load : Load) : Prop :=
  ∀ f', f.onCreateView double load = some f' → ShowsCurrent double f' load.children

section Loads

variable {double : DoubleToString}

/-- **One load**: the list is current if the texts of the snapshot replace all that the map had, and
the map has them from then on. -/
theorem onCreateView_eq_some {load : Load}
    (hread : ∀ child ∈ load.children, (label double child.2).isSome)
    (hdistinct : (load.children.map fun child => label double child.2).Nodup)
    (f : SistersHoursFragment) :
    ∃ f', f.onCreateView double load = some f' ∧
      (ShowsCurrent double f' load.children ↔
        ∀ text ∈ f.map, text ∈ texts double load.children) ∧
      ∀ text, text ∈ f'.map ↔ text ∈ f.map ∨ text ∈ texts double load.children := by
  have hload : (f.onDataChange double load.keySet load.children).isSome :=
    (isSome_onDataChange f load.children).2 hread
  obtain ⟨f', hf'⟩ := Option.isSome_iff_exists.1 hload
  have htexts : (texts double load.children).Nodup := by
    rw [← map_some_texts hread] at hdistinct
    exact (List.nodup_map_iff (Option.some_injective _)).1 hdistinct
  refine ⟨f', hf', ?_, mem_map_of_onDataChange hf'⟩
  rw [← infoArray_perm_iff hf' htexts, ← rows_perm_iff hread]
  refine ⟨ShowsCurrent.rows, fun hrows => ⟨hrows, fun keySet f₀ hf₀ => ?_⟩⟩
  exact ((rows_perm_iff hread).1 hrows).trans (infoArray_perm_initial hf₀ htexts).symm

/-- A text of a snapshot is one of another snapshot if the name and the total are. -/
theorem texts_subset_iff {children children' : List (String × DataSnapshot)}
    (hread : ∀ child ∈ children, (label double child.2).isSome)
    (hread' : ∀ child ∈ children', (label double child.2).isSome) :
    (∀ text, text ∈ texts double children → text ∈ texts double children') ↔
      ∀ child ∈ children, ∃ child' ∈ children',
        nameAndTotal child'.2 = nameAndTotal child.2 := by
  simp only [mem_texts_iff]
  constructor
  · intro h child hmem
    obtain ⟨text, htext⟩ := Option.isSome_iff_exists.1 (hread child hmem)
    obtain ⟨child', hmem', htext'⟩ := h text ⟨child, hmem, htext⟩
    refine ⟨child', hmem', (label_inj (hread' child' hmem') (hread child hmem)).1 ?_⟩
    rw [htext', htext]
  · rintro h text ⟨child, hmem, htext⟩
    obtain ⟨child', hmem', heq⟩ := h child hmem
    refine ⟨child', hmem', ?_⟩
    rw [(label_inj (hread' child' hmem') (hread child hmem)).2 heq, htext]

/-- **The list is current after each load of an instance if and only if every name and total of a
snapshot is one of each later snapshot**: the map of the instance is never cleared. -/
theorem showsCurrent_iff {loads : List Load}
    (htotal : ∀ load ∈ loads, ∀ child ∈ load.children,
      (child.2.child "totalHours").getDouble.isSome)
    (hname : ∀ load ∈ loads, ∀ child ∈ load.children,
      (child.2.child "sisterName").getString.isSome)
    (hdistinct : ∀ load ∈ loads, (load.children.map fun child => label double child.2).Nodup) :
    ∃ f, Execution.run (onCreateView double) initial loads = some f ∧
      (Execution.Along (onCreateView double) (ShowsCurrentAfter double) initial loads ↔
        loads.Pairwise fun load later => ∀ child ∈ load.children, ∃ child' ∈ later.children,
          nameAndTotal child'.2 = nameAndTotal child.2) := by
  have hread : ∀ load ∈ loads, ∀ child ∈ load.children, (label double child.2).isSome :=
    fun load hload child hmem => isSome_label (htotal load hload child hmem)
      (hname load hload child hmem)
  have hruns : (Execution.run (onCreateView double) initial loads).isSome :=
    (Execution.isSome_run_iff (fun f load => isSome_onDataChange f load.children) initial
      loads).2 hread
  obtain ⟨f, hf⟩ := Option.isSome_iff_exists.1 hruns
  refine ⟨f, hf, ?_⟩
  have hload : ∀ load ∈ loads, ∀ f, ∃ f', onCreateView double f load = some f' ∧
      (ShowsCurrentAfter double f load ↔
        True ∧ ∀ text, text ∈ f.map → text ∈ texts double load.children) ∧
      ∀ text, text ∈ f'.map ↔ text ∈ f.map ∨ text ∈ texts double load.children := by
    intro load hmem f
    obtain ⟨f', hf', hcurrent, hkeys⟩ := onCreateView_eq_some (hread load hmem)
      (hdistinct load hmem) f
    refine ⟨f', hf', ?_, hkeys⟩
    rw [true_and, ← hcurrent, ShowsCurrentAfter, hf']
    simp
  have hloads := Execution.along_accumulates_iff
    (fun (f : SistersHoursFragment) text => text ∈ f.map)
    (fun (load : Load) text => text ∈ texts double load.children) hload initial
  rw [hloads, and_iff_left, and_iff_right]
  · exact List.Pairwise.iff_of_mem fun hmem hmem' =>
      texts_subset_iff (hread _ hmem) (hread _ hmem')
  · exact fun _ _ => trivial
  · -- a new instance has an empty map
    intro load _ text htext
    exact absurd htext (AList.notMem_empty text)

end Loads

/-- The list is visited twice; in between another user signs up. -/
def signUpBetween : List Load :=
  [⟨keyOrder, [("u", accountNode "A" 1)]⟩,
    ⟨keyOrder, [("u", accountNode "A" 1), ("v", accountNode "B" 0)]⟩]

theorem showsCurrent_signUpBetween : ∃ f,
    Execution.run (onCreateView printWhole) initial signUpBetween = some f ∧
    Execution.Along (onCreateView printWhole) (ShowsCurrentAfter printWhole) initial
      signUpBetween := by
  obtain ⟨f, hf, hiff⟩ := @showsCurrent_iff printWhole signUpBetween (by decide) (by decide)
    (by decide +kernel)
  exact ⟨f, hf, hiff.2 (by decide)⟩

/-- The list is visited twice; in between the user of the one account records an hour. -/
def sessionBetween : List Load :=
  [⟨keyOrder, [("u", accountNode "A" 0)]⟩, ⟨keyOrder, [("u", accountNode "A" 1)]⟩]

/-- **A total that has changed stays in the list**: the account has two rows after the second
load. -/
theorem not_showsCurrent : ¬ ∀ (double : DoubleToString) (loads : List Load),
    (∀ load ∈ loads, ∀ child ∈ load.children, (child.2.child "totalHours").getDouble.isSome) →
    (∀ load ∈ loads, ∀ child ∈ load.children, (child.2.child "sisterName").getString.isSome) →
    (∀ load ∈ loads, (load.children.map fun child => label double child.2).Nodup) →
    ∃ f, Execution.run (onCreateView double) initial loads = some f ∧
      Execution.Along (onCreateView double) (ShowsCurrentAfter double) initial loads := by
  intro h
  obtain ⟨f, hf, -, hlater⟩ := h printWhole sessionBetween (by decide) (by decide)
    (by decide +kernel)
  rw [sessionBetween, Execution.run_cons, Option.bind_eq_some_iff] at hf
  obtain ⟨f₁, hf₁, hf⟩ := hf
  rw [Execution.run_cons, Option.bind_eq_some_iff] at hf
  obtain ⟨f₂, hf₂, -⟩ := hf
  have hrows := ((hlater f₁ hf₁).1 f₂ hf₂).rows
  -- the text of the first visit is still a key of the map
  have hold : labelOf printWhole (some "A") 0 ∈ f₂.map := by
    refine (mem_map_of_onDataChange hf₂ _).2 (.inl ((mem_map_of_onDataChange hf₁ _).2 (.inr ?_)))
    exact mem_texts_iff.2 ⟨_, List.mem_cons_self, by decide +kernel⟩
  have hrow : labelOf printWhole (some "A") 0 ∈ f₂.infoArray := by
    rw [(of_onDataChange hf₂).2]
    exact (keyOrder.perm f₂.map).mem_iff.2 (AList.mem_keys.1 hold)
  have hmem := hrows.mem_iff.1 (List.mem_map_of_mem hrow)
  exact absurd hmem (by decide +kernel)

end SistersHoursFragment

end StudyHours
