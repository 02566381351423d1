/-
**The admin code of a sign-up.**

Both sign-ups compare the text of the admin-code field with the entry `adminCode` of the database
and store the outcome under `users/<uid>`.  They do it in different ways.  iOS reads the text as an
optional `Int` and compares two optionals, so a text that is no number and a missing entry are
equal.  Android reads an empty text as zero, lets `Long.valueOf` throw on every other text that is
no number, unboxes a missing entry, and its digits are those of any script.

Main definitions:

* `StudyHours.signUpAdmin` — the flag that `SignUp` stores on iOS;
* `StudyHours.createAccountAdmin` — the flag that `createAccount` stores on Android, if it does;
* `StudyHours.GrantsToHolders` — both store the flag that the code's holder should get;
* `StudyHours.CodeReadable` — the texts and entries for which they do.

Main results:

* `StudyHours.extends_asciiDigit` — Java reads every numeral that Swift reads, and as the same;
* `StudyHours.grantsToHolders_iff` — **the two sign-ups are right exactly on the readable codes**.
-/

import Mathlib
import StudyHours.Hours
import StudyHours.Numeral

set_option relaxedAutoImplicit false
set_option autoImplicit false

namespace StudyHours

/-! ### Reading the text -/

/-- The 64-bit integers. -/
def InInt64 (n : ℤ) : Prop := -2 ^ 63 ≤ n ∧ n < 2 ^ 63

instance (n : ℤ) : Decidable (InInt64 n) := by unfold InInt64; infer_instance

/-- `Int(text)` on iOS. -/
def swiftInt64 (text : String) : Option ℤ := (swiftInt text).filter fun n => InInt64 n

/-- The code points of the zeros of the decimal digits that fit into one `char`. -/
def digitZeros : List ℕ :=
  [0x0030, 0x0660, 0x06F0, 0x07C0, 0x0966, 0x09E6, 0x0A66, 0x0AE6, 0x0B66, 0x0BE6, 0x0C66, 0x0CE6,
    0x0D66, 0x0DE6, 0x0E50, 0x0ED0, 0x0F20, 0x1040, 0x1090, 0x17E0, 0x1810, 0x1946, 0x19D0, 0x1A80,
    0x1A90, 0x1B50, 0x1BB0, 0x1C40, 0x1C50, 0xA620, 0xA8D0, 0xA900, 0xA9D0, 0xA9F0, 0xAA50, 0xABF0,
    0xFF10]

/-- `Character.digit(c, 10)`: the decimal digits of every script. -/
def characterDigit (c : Char) : Option ℕ :=
  (digitZeros.find? fun z => z ≤ c.toNat ∧ c.toNat < z + 10).map fun z => c.toNat - z

/-- `Long.valueOf(text)`; `none` is a `NumberFormatException`. -/
def longValueOf (text : String) : Option ℤ :=
  (Numeral.parse characterDigit text).filter fun n => InInt64 n

/-- Java reads every numeral that Swift reads, and as the same integer. -/
theorem extends_asciiDigit : Numeral.Extends Numeral.asciiDigit characterDigit := by
  intro c d h
  rw [Numeral.asciiDigit] at h
  split_ifs at h with hc
  have hrange : 0x0030 ≤ c.toNat ∧ c.toNat < 0x0030 + 10 := by
    simp only [Char.isDigit, Bool.and_eq_true, decide_eq_true_eq] at hc
    obtain ⟨h₁, h₂⟩ := hc
    have h₁' : 48 ≤ c.toNat := h₁
    have h₂' : c.toNat ≤ 57 := h₂
    omega
  -- the digits `0` to `9` are the first row of the table
  rw [characterDigit, digitZeros, List.find?_cons_of_pos (by simpa using hrange)]
  exact h

theorem longValueOf_of_swiftInt {text : String} {n : ℤ} (h : swiftInt text = some n)
    (hn : InInt64 n) : longValueOf text = some n := by
  rw [longValueOf, Numeral.parse_mono extends_asciiDigit h]
  simp [hn]

/-! ### The two sign-ups -/

/-- `SignUp`: the flag `admin` that is stored, from the text of the field and the entry `adminCode`
of the database. -/
def signUpAdmin (text : String) (adminCode : Option ℤ) : Bool :=
  let inputAdminCode := swiftInt64 text
  adminCode == inputAdminCode

/-- `createAccount`: the flag `admin` that is stored; `none` if an exception ends the client
first. -/
def createAccountAdmin (text : String) (adminCode : Option ℤ) : Option Bool :=
  (if text = "" then some 0 else longValueOf text).bind fun temp =>
    adminCode.map fun code => temp == code

/-! ### Granting the flag to holders of the code -/

/-- The flag a text deserves: the entry is present and the text is a decimal numeral that denotes
it. -/
def holdsCode (text : String) (adminCode : Option ℤ) : Bool :=
  adminCode.isSome && swiftInt text == adminCode

/-- Both sign-ups store the flag that the text deserves. -/
def GrantsToHolders (text : String) (adminCode : Option ℤ) : Prop :=
  signUpAdmin text adminCode = holdsCode text adminCode ∧
    createAccountAdmin text adminCode = some (holdsCode text adminCode)

/-- The entry is present; and the text is empty while the entry is not `0`, or `Long.valueOf`
accepts it, and it is not the entry in digits other than `0` to `9`. -/
def CodeReadable (text : String) (adminCode : Option ℤ) : Prop :=
  ∃ code ∈ adminCode, (text = "" ∧ code ≠ 0) ∨
    text ≠ "" ∧ ∃ v ∈ longValueOf text, v = code → swiftInt text = some v

instance (text : String) (adminCode : Option ℤ) : Decidable (GrantsToHolders text adminCode) := by
  unfold GrantsToHolders
  infer_instance

instance (text : String) (adminCode : Option ℤ) : Decidable (CodeReadable text adminCode) := by
  unfold CodeReadable
  infer_instance

/-- With the entry present, iOS stores the right flag for every text. -/
theorem signUpAdmin_some {code : ℤ} (h : InInt64 code) (text : String) :
    signUpAdmin text (some code) = holdsCode text (some code) := by
  rw [Bool.eq_iff_iff]
  simp only [signUpAdmin, swiftInt64, holdsCode, Option.isSome_some, Bool.true_and, beq_iff_eq]
  constructor
  · intro heq
    exact (Option.filter_eq_some_iff.1 heq.symm).1
  · intro heq
    rw [heq, Option.filter_some, if_pos (decide_eq_true h)]

/-- With the entry present, Android stores the right flag for the empty text unless the entry is
zero. -/
theorem createAccountAdmin_empty (code : ℤ) :
    createAccountAdmin "" (some code) = some (holdsCode "" (some code)) ↔ code ≠ 0 := by
  have hempty : holdsCode "" (some code) = false := rfl
  rw [createAccountAdmin, if_pos rfl, Option.bind_some, Option.map_some, hempty,
    Option.some.injEq, beq_eq_false_iff_ne, ne_comm]

/-- With the entry present, Android stores the right flag for another text if it can read the text
and does not take foreign digits for the code. -/
theorem createAccountAdmin_ne_empty {text : String} (htext : text ≠ "") {code : ℤ}
    (h : InInt64 code) : createAccountAdmin text (some code) = some (holdsCode text (some code)) ↔
      ∃ v ∈ longValueOf text, v = code → swiftInt text = some v := by
  cases hv : longValueOf text with
  | none =>
      rw [createAccountAdmin, if_neg htext, hv]
      simp
  | some v =>
      have hread : swiftInt text = some code → v = code := by
        intro hcode
        rw [longValueOf_of_swiftInt hcode h] at hv
        exact (Option.some.inj hv).symm
      rw [createAccountAdmin, if_neg htext, hv, Option.bind_some, Option.map_some,
        Option.some.injEq, Bool.eq_iff_iff]
      simp only [holdsCode, Option.isSome_some, Bool.true_and, beq_iff_eq, Option.mem_def,
        Option.some.injEq, exists_eq_left']
      constructor
      · intro hiff hvc
        exact hvc ▸ hiff.1 hvc
      · intro himp
        exact ⟨fun hvc => hvc ▸ himp hvc, hread⟩

/-- **Admin rights go to the holders of the code, alike on both platforms, exactly for the readable
codes**: for every text and every 64-bit entry. -/
theorem grantsToHolders_iff (text : String) (adminCode : Option ℤ)
    (h : ∀ code ∈ adminCode, InInt64 code) :
    GrantsToHolders text adminCode ↔ CodeReadable text adminCode := by
  cases adminCode with
  | none =>
      -- Android unboxes the missing entry, whatever the text is
      have hnone : createAccountAdmin text none = none := by
        rw [createAccountAdmin]
        exact Option.bind_fun_none _
      simp [GrantsToHolders, CodeReadable, hnone]
  | some code =>
      have hcode : InInt64 code := h code rfl
      have hios := signUpAdmin_some hcode text
      by_cases htext : text = ""
      · subst htext
        simp [GrantsToHolders, CodeReadable, hios, createAccountAdmin_empty]
      · simp only [GrantsToHolders, CodeReadable, hios, true_and,
          createAccountAdmin_ne_empty htext hcode, Option.mem_def, Option.some.injEq,
          exists_eq_left', htext, false_and, false_or, ne_eq, not_false_eq_true]

/-- An ordinary numeral is read alike, with a sign or without. -/
theorem grantsToHolders_numeral : GrantsToHolders "+0042" (some 42) :=
  (grantsToHolders_iff "+0042" (some 42) (by decide)).2 (by decide)

/-- **An empty field makes an ordinary account an administrator** on Android when the code is `0`,
and on iOS when there is no code; and an Android sign-up with a text that is no number, or without
a code, stores nothing at all. -/
theorem not_grantsToHolders :
    ¬ ∀ (text : String) (adminCode : Option ℤ), (∀ code ∈ adminCode, InInt64 code) →
      GrantsToHolders text adminCode := by
  intro h
  exact absurd (h "" (some 0) (by decide)) (by decide)

end StudyHours
