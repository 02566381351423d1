/-
**Signed decimal numerals.**

Reading a text as an integer is the same grammar in most languages — an optional sign, then at
least one digit, and nothing else — but the languages disagree on what a digit is.  The reader
here is therefore parameterised by the digits it accepts, and what is proved about it is what does
not depend on them: a reader that accepts more digits agrees with one that accepts fewer wherever
the latter succeeds, and the usual decimal representation of an integer is read back.

Main definitions:

* `Numeral.asciiDigit` — the digits `0` to `9`;
* `Numeral.parse` — the integer a text denotes, if it is a numeral.

Main results:

* `Numeral.parse_mono` — more digits, more numerals, the same values;
* `Numeral.parse_repr` — **the decimal representation of an integer is read back**.
-/

import Mathlib.Data.Nat.Notation
import Mathlib.Data.Int.Notation

set_option relaxedAutoImplicit false
set_option autoImplicit false

namespace Numeral

/-- The value of one of the digits `0` to `9`. -/
def asciiDigit (c : Char) : Option ℕ :=
  if c.isDigit then some (c.toNat - '0'.toNat) else none

/-- The value of a row of digits, continuing from the value `acc` of the digits before it. -/
def digits (digit : Char → Option ℕ) : ℕ → List Char → Option ℕ
  | acc, [] => some acc
  | acc, c :: cs => (digit c).bind fun d => digits digit (10 * acc + d) cs

/-- The value of a numeral without a sign: at least one digit. -/
def unsigned (digit : Char → Option ℕ) : List Char → Option ℕ
  | [] => none
  | c :: cs => digits digit 0 (c :: cs)

/-- The integer a row of characters denotes, with an optional sign in front. -/
def parseChars (digit : Char → Option ℕ) : List Char → Option ℤ
  | '-' :: cs => (unsigned digit cs).map fun n : ℕ => -(n : ℤ)
  | '+' :: cs => (unsigned digit cs).map fun n : ℕ => (n : ℤ)
  | cs => (unsigned digit cs).map fun n : ℕ => (n : ℤ)

/-- **The integer a text denotes**, if it is a signed numeral. -/
def parse (digit : Char → Option ℕ) (s : String) : Option ℤ := parseChars digit s.toList

@[simp] theorem parse_empty (digit : Char → Option ℕ) : parse digit "" = none := rfl

/-! ### Accepting more digits -/

/-- `digit'` accepts the digits of `digit`, with the same values. -/
def Extends (digit digit' : Char → Option ℕ) : Prop :=
  ∀ c d, digit c = some d → digit' c = some d

section Extends

variable {digit digit' : Char → Option ℕ}

theorem digits_mono (h : Extends digit digit') :
    ∀ (cs : List Char) (acc n : ℕ),
      digits digit acc cs = some n → digits digit' acc cs = some n := by
  intro cs
  induction cs with
  | nil => intro acc n hn; exact hn
  | cons c cs ih =>
      intro acc n hn
      rw [digits, Option.bind_eq_some_iff] at hn
      obtain ⟨d, hd, hn⟩ := hn
      rw [digits, h c d hd]
      exact ih _ n hn

theorem unsigned_mono (h : Extends digit digit') {cs : List Char} {n : ℕ}
    (hn : unsigned digit cs = some n) : unsigned digit' cs = some n := by
  cases cs with
  | nil => simp [unsigned] at hn
  | cons c cs => exact digits_mono h _ _ _ hn

/-- A reader that accepts more digits agrees with one that accepts fewer. -/
theorem parse_mono (h : Extends digit digit') {s : String} {k : ℤ}
    (hk : parse digit s = some k) : parse digit' s = some k := by
  unfold parse at hk ⊢
  unfold parseChars at hk ⊢
  split at hk <;>
    (rw [Option.map_eq_some_iff] at hk
     obtain ⟨n, hn, rfl⟩ := hk
     simp [unsigned_mono h hn])

end Extends

/-! ### Reading back a decimal representation -/

theorem digits_asciiDigit {cs : List Char} (h : ∀ c ∈ cs, c.isDigit) (acc : ℕ) :
    digits asciiDigit acc cs = some (Nat.ofDigitChars 10 cs acc) := by
  induction cs generalizing acc with
  | nil => simp [digits]
  | cons c cs ih =>
      have hc : c.isDigit := h c List.mem_cons_self
      rw [digits, asciiDigit, if_pos hc, Nat.ofDigitChars_cons]
      exact ih (fun x hx => h x (List.mem_cons_of_mem _ hx)) _

theorem unsigned_toDigits (n : ℕ) : unsigned asciiDigit (Nat.toDigits 10 n) = some n := by
  have hdig : ∀ c ∈ Nat.toDigits 10 n, c.isDigit := fun c hc =>
    Nat.isDigit_of_mem_toDigits (by decide) (by decide) hc
  cases hcs : Nat.toDigits 10 n with
  | nil => exact absurd hcs Nat.toDigits_ne_nil
  | cons c cs =>
      rw [unsigned, ← hcs, digits_asciiDigit hdig, Nat.ofDigitChars_ten_toDigits]

theorem parseChars_toDigits (n : ℕ) :
    parseChars asciiDigit (Nat.toDigits 10 n) = some (n : ℤ) := by
  have hun := unsigned_toDigits n
  have hdig : ∀ c ∈ Nat.toDigits 10 n, c.isDigit := fun c hc =>
    Nat.isDigit_of_mem_toDigits (by decide) (by decide) hc
  -- a digit is not a sign, so the numeral is read by the last clause
  unfold parseChars
  split
  · next cs hcs => exact absurd (hdig '-' (by simp [hcs])) (by decide)
  · next cs hcs => exact absurd (hdig '+' (by simp [hcs])) (by decide)
  · rw [hun]
    rfl

/-- **The decimal representation of an integer is read back.** -/
theorem parse_repr {digit : Char → Option ℕ} (h : Extends asciiDigit digit) (k : ℤ) :
    parse digit (Int.repr k) = some k := by
  refine parse_mono h ?_
  cases k with
  | ofNat n =>
      have hlist : (Int.repr (Int.ofNat n)).toList = Nat.toDigits 10 n := Nat.toList_repr
      rw [parse, hlist, parseChars_toDigits]
      rfl
  | negSucc n =>
      have hlist : (Int.repr (Int.negSucc n)).toList = '-' :: Nat.toDigits 10 (n + 1) := by
        simp [Int.repr]
      rw [parse, hlist, parseChars, unsigned_toDigits]
      rfl

/-- The characters of a decimal representation are digits and a sign. -/
theorem isDigit_of_mem_repr {k : ℤ} {c : Char} (hc : c ∈ (Int.repr k).toList) :
    c = '-' ∨ c.isDigit := by
  cases k with
  | ofNat n =>
      have hlist : (Int.repr (Int.ofNat n)).toList = Nat.toDigits 10 n := Nat.toList_repr
      rw [hlist] at hc
      exact .inr (Nat.isDigit_of_mem_toDigits (by decide) (by decide) hc)
  | negSucc n =>
      have hlist : (Int.repr (Int.negSucc n)).toList = '-' :: Nat.toDigits 10 (n + 1) := by
        simp [Int.repr]
      rw [hlist] at hc
      rcases List.mem_cons.1 hc with rfl | hc
      · exact .inl rfl
      · exact .inr (Nat.isDigit_of_mem_toDigits (by decide) (by decide) hc)

end Numeral
