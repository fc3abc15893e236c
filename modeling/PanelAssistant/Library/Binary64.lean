import Mathlib.Data.Int.Log
import Mathlib.Data.Rat.Floor
import Mathlib.Tactic.Linarith
import Mathlib.Tactic.FieldSimp
import PanelAssistant.Library.JsonTree

/-!
# The binary64 number of a decimal literal

A literal denotes a rational number exactly, and a binary64 number is the nearest multiple of a
power of two with a mantissa of 53 bits, ties to even. Integers below `2 ^ 53` are numbers of the
format, so a literal that spells one is read exactly (`safeInteger?_toDigits`).
-/

namespace Library.Binary64

open JsonTree

/-- The nearest integer, ties to even. -/
def roundHalfEven (q : ℚ) : ℤ :=
  let low := ⌊q⌋
  let rest := q - low
  if rest < 1 / 2 then low
  else if 1 / 2 < rest then low + 1
  else if low % 2 = 0 then low
  else low + 1

/-- The exponent of the last bit of the mantissa. -/
def lastBit (q : ℚ) : ℤ := max (Int.log 2 |q| - 52) (-1074)

/-- The binary64 number nearest to a rational, where the exponent has no upper bound. -/
def nearest (q : ℚ) : ℚ := roundHalfEven (q / 2 ^ lastBit q) * 2 ^ lastBit q

/-- The digits of an exponent as a number. -/
def exponentValue (cs : List Char) : ℤ :=
  match cs with
  | _ :: '-' :: digits => -(Text.decimal digits : ℤ)
  | _ :: '+' :: digits => Text.decimal digits
  | _ :: digits => Text.decimal digits
  | [] => 0

/-- The rational a literal of the grammar denotes. -/
def literalValue (cs : List Char) : ℚ :=
  let signed := splitSign cs
  let whole := splitWhole signed.2
  let fraction := splitFraction whole.2
  let exponent := splitExponent fraction.2
  let mantissa : ℚ := Text.decimal (whole.1 ++ fraction.1.drop 1)
  let scaled := mantissa * 10 ^ (exponentValue exponent.1 - (fraction.1.drop 1).length)
  if signed.1.isEmpty then scaled else -scaled

/-- `Number.MAX_SAFE_INTEGER` -/
def maxSafeInteger : ℕ := 2 ^ 53 - 1

/-- The integer a literal is read as, where its number is a safe integer. -/
def safeInteger? (cs : List Char) : Option ℤ :=
  let x := nearest (literalValue cs)
  if x.den = 1 ∧ x.num.natAbs ≤ maxSafeInteger then some x.num else none

theorem roundHalfEven_intCast (z : ℤ) : roundHalfEven (z : ℚ) = z := by
  simp [roundHalfEven]

/-- An integer of at most 53 bits is a number of the format. -/
theorem nearest_natCast {n : ℕ} (hn : n ≤ maxSafeInteger) : nearest (n : ℚ) = n := by
  have hlast : lastBit (n : ℚ) ≤ 0 := by
    have hlog : Nat.log 2 n ≤ 52 := by
      rcases Nat.eq_zero_or_pos n with rfl | hpos
      · simp
      · have hlt : Nat.log 2 n < 53 := by
          apply Nat.log_lt_of_lt_pow (by omega)
          simp only [maxSafeInteger] at hn
          omega
        omega
    have habs : |(n : ℚ)| = (n : ℚ) := abs_of_nonneg (Nat.cast_nonneg n)
    rw [lastBit, habs, Int.log_natCast]
    omega
  obtain ⟨k, hk⟩ := Int.eq_ofNat_of_zero_le (neg_nonneg.mpr hlast)
  have hexp : lastBit (n : ℚ) = -(k : ℤ) := by omega
  have hscale : (n : ℚ) / 2 ^ lastBit (n : ℚ) = ((n * 2 ^ k : ℤ) : ℚ) := by
    rw [hexp, zpow_neg, zpow_natCast, div_inv_eq_mul]
    push_cast
    rfl
  rw [nearest, hscale, roundHalfEven_intCast, hexp, zpow_neg, zpow_natCast]
  push_cast
  field_simp

theorem literalValue_toDigits (n : ℕ) : literalValue (Nat.toDigits 10 n) = n := by
  have hsign : splitSign (Nat.toDigits 10 n) = ([], Nat.toDigits 10 n) := by
    have hall := Text.all_isDigit_toDigits n
    cases hdigits : Nat.toDigits 10 n with
    | nil => rfl
    | cons c rest =>
      rw [hdigits, List.all_cons, Bool.and_eq_true] at hall
      exact splitSign_of_digit hall.1 rest
  have hwhole : splitWhole (Nat.toDigits 10 n) = (Nat.toDigits 10 n, []) := by
    have h := splitWhole_digits (n := n) (s := []) (by rintro c ⟨⟩)
    rwa [List.append_nil] at h
  have htail : splitFraction [] = ([], []) ∧ splitExponent [] = ([], []) := ⟨rfl, rfl⟩
  simp [literalValue, hsign, hwhole, htail, exponentValue, Text.decimal_toDigits]

/-- A literal that spells a safe integer is read as it. -/
theorem safeInteger?_toDigits {n : ℕ} (hn : n ≤ maxSafeInteger) :
    safeInteger? (Nat.toDigits 10 n) = some (n : ℤ) := by
  simp [safeInteger?, literalValue_toDigits, nearest_natCast hn, hn]

end Library.Binary64
