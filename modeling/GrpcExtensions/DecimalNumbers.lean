import Mathlib.Algebra.Order.Ring.Int
import Mathlib.Tactic.Common

/-!
# Decimal numbers of a bounded range

The printer writes an optional minus sign and the decimal digits.  The parser
accepts an optional sign followed by at least one digit and stops with an
error as soon as an intermediate value leaves the range.  A number of the
range is parsed back from what is printed for it.
-/

namespace DecimalNumbers

def print (n : ℤ) : List Char :=
  if n < 0 then '-' :: Nat.toDigits 10 n.natAbs
  else Nat.toDigits 10 n.natAbs

def digit (c : Char) : Option ℤ :=
  if c.isDigit then some (c.toNat - '0'.toNat : ℕ) else none

section Parser

variable (lo hi : ℤ)

/-- The result of an operation, unless it overflows. -/
def checked (value : ℤ) : Option ℤ :=
  if lo ≤ value ∧ value ≤ hi then some value else none

/-- Read on after `value`.  The digits of a negative number are subtracted, so
that the least number of the range is read without an overflow. -/
def parseDigits (negative : Bool) : ℤ → List Char → Option ℤ
  | value, [] => some value
  | value, c :: text => do
      let shifted ← checked lo hi (value * 10)
      let d ← digit c
      let next ← checked lo hi (if negative then shifted - d else shifted + d)
      parseDigits negative next text

def parse : List Char → Option ℤ
  | [] => none
  | ['+'] => none
  | ['-'] => none
  | '+' :: text => parseDigits lo hi false 0 text
  | '-' :: text => parseDigits lo hi true 0 text
  | text => parseDigits lo hi false 0 text

end Parser

section Printing

theorem isDigit_of_mem_toDigits {n : ℕ} {c : Char}
    (hc : c ∈ Nat.toDigits 10 n) : c.isDigit = true :=
  Nat.isDigit_of_mem_toDigits (by decide) (by decide) hc

theorem print_of_nonneg {n : ℤ} (hn : 0 ≤ n) :
    print n = Nat.toDigits 10 n.natAbs := by
  have hnot : ¬ n < 0 := by omega
  simp [print, hnot]

theorem print_of_neg {n : ℤ} (hn : n < 0) :
    print n = '-' :: Nat.toDigits 10 n.natAbs := by
  simp [print, hn]

/-- A printed number has digits and a minus sign only. -/
theorem mem_print {n : ℤ} {c : Char} (hc : c ∈ print n) :
    c = '-' ∨ c.isDigit = true := by
  by_cases hn : n < 0
  · rw [print_of_neg hn, List.mem_cons] at hc
    cases hc with
    | inl hsign => exact Or.inl hsign
    | inr hdigits => exact Or.inr (isDigit_of_mem_toDigits hdigits)
  · rw [print_of_nonneg (by omega)] at hc
    exact Or.inr (isDigit_of_mem_toDigits hc)

end Printing

section RoundTrip

variable {lo hi : ℤ}

theorem checked_of_mem {value : ℤ} (hlo : lo ≤ value) (hhi : value ≤ hi) :
    checked lo hi value = some value := by
  simp [checked, hlo, hhi]

theorem digit_of_isDigit {c : Char} (hc : c.isDigit = true) :
    digit c = some ((c.toNat - '0'.toNat : ℕ) : ℤ) := by
  simp [digit, hc]

theorem le_ofDigitChars (text : List Char) (value : ℕ) :
    value ≤ Nat.ofDigitChars 10 text value := by
  induction text generalizing value with
  | nil => simp
  | cons c text ih =>
      rw [Nat.ofDigitChars_cons]
      have hnext := ih (10 * value + (c.toNat - '0'.toNat))
      omega

theorem parseDigits_cons
    {negative : Bool} {value next : ℤ} {c : Char} {text : List Char}
    (hc : c.isDigit = true)
    (hshift : lo ≤ value * 10 ∧ value * 10 ≤ hi)
    (hvalue : next = if negative then value * 10 - (c.toNat - '0'.toNat : ℕ)
      else value * 10 + (c.toNat - '0'.toNat : ℕ))
    (hnext : lo ≤ next ∧ next ≤ hi) :
    parseDigits lo hi negative value (c :: text) =
      parseDigits lo hi negative next text := by
  rw [parseDigits, checked_of_mem hshift.1 hshift.2, digit_of_isDigit hc]
  change (checked lo hi _ >>= _) = _
  rw [← hvalue, checked_of_mem hnext.1 hnext.2]
  rfl

/-- The number of this absolute value. -/
def signed (negative : Bool) (value : ℕ) : ℤ :=
  if negative then -(value : ℤ) else value

theorem signed_mem_of_le
    {negative : Bool} {value total : ℕ} (hle : value ≤ total)
    (hzero : lo ≤ 0 ∧ 0 ≤ hi)
    (htotal : lo ≤ signed negative total ∧ signed negative total ≤ hi) :
    lo ≤ signed negative value ∧ signed negative value ≤ hi := by
  cases negative <;> simp only [signed, if_true, Bool.false_eq_true,
    if_false] at htotal ⊢ <;> omega

theorem signed_mul_ten (negative : Bool) (value : ℕ) :
    signed negative value * 10 = signed negative (10 * value) := by
  cases negative with
  | false =>
      simp only [signed, Bool.false_eq_true, if_false]
      omega
  | true =>
      simp only [signed, if_true]
      omega

theorem signed_add (negative : Bool) (value d : ℕ) :
    signed negative (value + d) =
      if negative then signed negative value - d
      else signed negative value + d := by
  cases negative with
  | false => simp [signed]
  | true =>
      simp only [signed, if_true]
      omega

/-- No prefix of a number overflows when the number itself does not. -/
theorem parseDigits_signed
    {negative : Bool} {text : List Char}
    (hdigits : ∀ c ∈ text, c.isDigit = true)
    (hzero : lo ≤ 0 ∧ 0 ≤ hi) (value : ℕ)
    (hmem : lo ≤ signed negative (Nat.ofDigitChars 10 text value) ∧
      signed negative (Nat.ofDigitChars 10 text value) ≤ hi) :
    parseDigits lo hi negative (signed negative value) text =
      some (signed negative (Nat.ofDigitChars 10 text value)) := by
  induction text generalizing value with
  | nil => simp [parseDigits]
  | cons c text ih =>
      have hc : c.isDigit = true := hdigits c (by simp)
      have htail : ∀ d ∈ text, d.isDigit = true :=
        fun d hd => hdigits d (by simp [hd])
      rw [Nat.ofDigitChars_cons] at hmem ⊢
      have hnext := le_ofDigitChars text (10 * value + (c.toNat - '0'.toNat))
      rw [← ih htail _ hmem]
      apply parseDigits_cons hc
      · rw [signed_mul_ten]
        exact signed_mem_of_le (by omega) hzero hmem
      · rw [signed_mul_ten, signed_add]
      · exact signed_mem_of_le hnext hzero hmem

theorem parse_of_isDigit
    {text : List Char} (hne : text ≠ [])
    (hdigits : ∀ c ∈ text, c.isDigit = true) :
    parse lo hi text = parseDigits lo hi false 0 text := by
  cases text with
  | nil => exact absurd rfl hne
  | cons c text =>
      have hc : c.isDigit = true := hdigits c (by simp)
      have hplus : c ≠ '+' := by
        intro heq
        rw [heq] at hc
        exact absurd hc (by decide)
      have hminus : c ≠ '-' := by
        intro heq
        rw [heq] at hc
        exact absurd hc (by decide)
      unfold parse
      split <;> simp_all

theorem parse_minus {text : List Char} (hne : text ≠ []) :
    parse lo hi ('-' :: text) = parseDigits lo hi true 0 text := by
  cases text with
  | nil => exact absurd rfl hne
  | cons c text => rfl

/-- What is printed for a number of the range is parsed to that number. -/
theorem parse_print
    {n : ℤ} (hzero : lo ≤ 0 ∧ 0 ≤ hi) (hn : lo ≤ n ∧ n ≤ hi) :
    parse lo hi (print n) = some n := by
  have hdigits : ∀ c ∈ Nat.toDigits 10 n.natAbs, c.isDigit = true :=
    fun c hc => isDigit_of_mem_toDigits hc
  have hvalue : Nat.ofDigitChars 10 (Nat.toDigits 10 n.natAbs) 0 = n.natAbs :=
    Nat.ofDigitChars_ten_toDigits
  have hread : ∀ negative, signed negative n.natAbs = n →
      parseDigits lo hi negative 0 (Nat.toDigits 10 n.natAbs) = some n := by
    intro negative hsigned
    have hmem : lo ≤ signed negative (Nat.ofDigitChars 10
        (Nat.toDigits 10 n.natAbs) 0) ∧
        signed negative (Nat.ofDigitChars 10
          (Nat.toDigits 10 n.natAbs) 0) ≤ hi := by
      rwa [hvalue, hsigned]
    have hparse := parseDigits_signed hdigits hzero 0 hmem
    have hstart : signed negative 0 = 0 := by cases negative <;> rfl
    rwa [hvalue, hsigned, hstart] at hparse
  by_cases hneg : n < 0
  · rw [print_of_neg hneg, parse_minus Nat.toDigits_ne_nil]
    apply hread
    simp only [signed, if_true]
    omega
  · rw [print_of_nonneg (by omega),
      parse_of_isDigit Nat.toDigits_ne_nil hdigits]
    apply hread
    simp only [signed, Bool.false_eq_true, if_false]
    omega

end RoundTrip

end DecimalNumbers
