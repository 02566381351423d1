/-
**Counters that several clients update.**

A counter is meant to grow by a given amount at every update.  A client that reads it, computes the
new value and writes that value back does not add its amount to what the counter holds when the
write lands, but to what the counter held when it was read; an update that landed in between is
lost.  This module has the arithmetic of that situation.  Next to the value a counter holds we keep
the value it *owes*: the initial value and all the amounts.  Every value ever read from the counter
is then at most what the counter owes, and it is equal to it only as long as nothing has landed
since — which is why a loss is never made good by a later update.

Main definitions:

* `Tally` — a counter with the value it holds and the value it owes;
* `Tally.put` — an update computed from a value `base` read earlier;
* `Tally.Past` — the relation of a value read earlier to the counter now.

Main results:

* `Tally.past_value` — a value read just now is such a value;
* `Tally.Past.put` — it stays one when somebody else's update lands;
* `Tally.put_exact_iff` — **an update leaves the counter exact if and only if the counter was
  exact and still holds the value the update was computed from**.
-/

import Mathlib.Algebra.Order.Group.Unbundled.Basic
import Mathlib.Algebra.Order.Monoid.Defs
import Mathlib.Order.Lattice

set_option relaxedAutoImplicit false
set_option autoImplicit false

/-- A counter: the value it holds, and the value it would hold if no update had been lost. -/
@[ext] structure Tally (α : Type*) where
  /-- The value the counter holds. -/
  value : α
  /-- The initial value and all the amounts of the updates. -/
  owed : α

namespace Tally

variable {α : Type*}

/-- The counter holds what it owes. -/
def Exact (t : Tally α) : Prop := t.value = t.owed

/-! ### Values read from the counter -/

section Past

variable [LinearOrder α] {t : Tally α} {c : α}

/-- The values that may have been read from the counter at some time up to now: at most what is
owed, and equal to it only if the counter still holds that value. -/
def Past (t : Tally α) (c : α) : Prop := c ≤ t.owed ∧ (c = t.owed → t.value = c)

/-- The value held at the moment can be read at the moment. -/
theorem past_value (h : t.value ≤ t.owed) : t.Past t.value := ⟨h, fun _ => rfl⟩

/-- A value below the one held already misses an update. -/
theorem past_of_lt (h : t.value ≤ t.owed) (hc : c < t.value) : t.Past c :=
  ⟨hc.le.trans h, fun he => absurd (he ▸ h) (not_le.2 hc)⟩

end Past

/-! ### Updates -/

section Put

variable [AddCommGroup α] {t : Tally α} {base amount c : α}

/-- An update by `amount` that writes back `base + amount`, whatever the counter holds by then. -/
def put (t : Tally α) (base amount : α) : Tally α := ⟨base + amount, t.owed + amount⟩

@[simp] theorem put_value : (t.put base amount).value = base + amount := rfl

@[simp] theorem put_owed : (t.put base amount).owed = t.owed + amount := rfl

variable [LinearOrder α] [IsOrderedAddMonoid α]

/-- A value read earlier stays below what is owed when another update lands. -/
theorem Past.put (hc : t.Past c) (ha : 0 < amount) : (t.put base amount).Past c := by
  have hlt : c < t.owed + amount := lt_of_le_of_lt hc.1 (lt_add_of_pos_right _ ha)
  exact ⟨hlt.le, fun he => absurd he hlt.ne⟩

/-- The value an update writes can be read from then on. -/
theorem Past.put_self (hb : t.Past base) : (t.put base amount).Past (base + amount) :=
  ⟨by simpa using hb.1, fun _ => rfl⟩

/-- A counter never holds more than it owes. -/
theorem Past.put_value_le (hb : t.Past base) :
    (t.put base amount).value ≤ (t.put base amount).owed := hb.put_self.1

/-- **No loss is made good.**  After an update the counter is exact if and only if it was exact
before and still held the value the update was computed from. -/
theorem put_exact_iff (hb : t.Past base) :
    (t.put base amount).Exact ↔ t.Exact ∧ t.value = base := by
  simp only [Exact, put_value, put_owed, add_left_inj]
  constructor
  · intro h
    exact ⟨(hb.2 h).trans h, hb.2 h⟩
  · rintro ⟨hex, hv⟩
    exact hv ▸ hex

end Put

end Tally
