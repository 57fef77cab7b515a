import Interchange.Decimal.Reading
import Mathlib.Data.List.Induction

/-!
# Decimal numerals

A run of decimal digits is the numeral of the number that it stands for with zeros in front
(`Numerals.exists_zeros`), and the numeral of a number is a run of digits that stands for that
number.
-/
namespace Interchange.Numerals

/-- A digit is the character of the number that it stands for. -/
theorem digitChar_of_isDigit {c : Char} (digit : c.isDigit) :
    Nat.digitChar (c.toNat - '0'.toNat) = c ∧ c.toNat - '0'.toNat < 10 := by
  obtain ⟨low, high⟩ := Char.isDigit_iff_toNat.1 digit
  have zero : '0'.toNat = 48 := rfl
  have nine : '9'.toNat = 57 := rfl
  have small : c.toNat - '0'.toNat < 10 := by omega
  refine ⟨Char.toNat_inj.1 ?_, small⟩
  rw [Nat.toNat_digitChar_of_lt_ten small]
  omega

/-- A run of digits stands for what its digits come to. -/
theorem digitsValue_eq (digits : List Char) :
    Decimal.digitsValue digits = Nat.ofDigitChars 10 digits 0 := rfl

/-- A digit after a run of digits counts once, the run ten times. -/
theorem digitsValue_concat (digits : List Char) (c : Char) :
    Decimal.digitsValue (digits ++ [c]) =
      10 * Decimal.digitsValue digits + (c.toNat - '0'.toNat) := by
  rw [digitsValue_eq, Nat.ofDigitChars_append, Nat.ofDigitChars_cons, Nat.ofDigitChars_nil,
    digitsValue_eq]

/-- The numeral of a number stands for the number. -/
theorem digitsValue_toDigits (n : Nat) : Decimal.digitsValue (Nat.toDigits 10 n) = n :=
  Nat.ofDigitChars_ten_toDigits

/-- Zeros in front count for nothing. -/
theorem digitsValue_zeros (zeros : Nat) (digits : List Char) :
    Decimal.digitsValue (List.replicate zeros '0' ++ digits) = Decimal.digitsValue digits := by
  rw [digitsValue_eq, Nat.ofDigitChars_append, Nat.ofDigitChars_replicate_zero, Nat.mul_zero,
    digitsValue_eq]

/-- All characters of a numeral are digits. -/
theorem isDigit_of_mem_toDigits {n : Nat} {c : Char} (mem : c ∈ Nat.toDigits 10 n) : c.isDigit :=
  Nat.isDigit_of_mem_toDigits (by decide) (by decide) mem

/-- A run of digits is the numeral of the number that it stands for, with zeros in front. -/
theorem exists_zeros {digits : List Char} (some : digits ≠ []) (each : ∀ c ∈ digits, c.isDigit) :
    ∃ zeros, digits = List.replicate zeros '0' ++ Nat.toDigits 10 (Decimal.digitsValue digits) := by
  induction digits using List.reverseRecOn with
  | nil => exact absurd rfl some
  | append_singleton digits c ih =>
    obtain ⟨itself, small⟩ := digitChar_of_isDigit (each c (by simp))
    have last : [c] = Nat.toDigits 10 (c.toNat - '0'.toNat) := by
      rw [Nat.toDigits_of_lt_base small, itself]
    rw [digitsValue_concat]
    by_cases empty : digits = []
    · refine ⟨0, ?_⟩
      rw [empty, List.nil_append, last]
      exact congrArg (Nat.toDigits 10) (Nat.zero_add _).symm
    obtain ⟨zeros, same⟩ := ih empty fun d mem => each d (List.mem_append_left _ mem)
    generalize Decimal.digitsValue digits = value at same
    by_cases none : value = 0
    · -- Only zeros stand before the last digit.
      refine ⟨zeros + 1, ?_⟩
      rw [same, none, Nat.mul_zero, Nat.zero_add, ← last, Nat.toDigits_zero,
        List.replicate_succ']
    · have longer := Nat.toDigits_append_toDigits (b := 10) (by decide) (Nat.pos_of_ne_zero none)
        small
      exact ⟨zeros, by rw [same, last, List.append_assoc, longer]⟩

/-- More digits make no number smaller. -/
theorem le_ofDigitChars (start : Nat) (digits : List Char) :
    start ≤ Nat.ofDigitChars 10 digits start := by
  induction digits generalizing start with
  | nil => exact Nat.le_refl start
  | cons c digits ih =>
    rw [Nat.ofDigitChars_cons]
    have later := ih (10 * start + (c.toNat - '0'.toNat))
    omega

/-- Only the numeral of zero begins with a zero. -/
theorem eq_zero_of_head? {n : Nat} (first : (Nat.toDigits 10 n).head? = some '0') : n = 0 := by
  induction n using Nat.strongRecOn with
  | ind n ih =>
    by_cases small : n < 10
    · rw [Nat.toDigits_of_lt_base small] at first
      have code := Nat.toNat_digitChar_of_lt_ten small
      rw [Option.some.inj first] at code
      have zero : '0'.toNat = 48 := rfl
      omega
    · rw [Nat.toDigits_of_base_le (by decide) (Nat.le_of_not_lt small), List.head?_append] at first
      have front := List.head?_eq_some_head (Nat.toDigits_ne_nil (n := n / 10) (b := 10))
      rw [front, Option.some_or, ← front] at first
      have tenth := ih (n / 10) (by omega) first
      omega

end Interchange.Numerals
