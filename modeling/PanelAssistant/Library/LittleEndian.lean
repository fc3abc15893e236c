import Mathlib.Data.Int.GCD
import Mathlib.Data.List.Basic
import Mathlib.Data.Int.ModEq
import Mathlib.Tactic.Ring

/-!
# Integers in little-endian bytes

`toBytes` writes an integer in a fixed number of bytes, the lowest first, and fails where it does
not fit; `ofBytes` reads it back (`ofBytes_toBytes`). `modInverse` is the inverse of an integer
modulo another, between zero and that other.
-/

namespace Library

namespace LittleEndian

/-- The lowest bytes of an integer. -/
def bytes : ℕ → ℕ → List UInt8
  | 0, _ => []
  | width + 1, n => UInt8.ofNat (n % 256) :: bytes width (n / 256)

def ofBytes : List UInt8 → ℕ
  | [] => 0
  | byte :: rest => byte.toNat + 256 * ofBytes rest

/-- The bytes of an integer, if they are no more than `width`. -/
def toBytes (width n : ℕ) : Option (List UInt8) :=
  if n < 256 ^ width then some (bytes width n) else none

@[simp] theorem length_bytes (width n : ℕ) : (bytes width n).length = width := by
  induction width generalizing n with
  | zero => rfl
  | succ width ih => rw [bytes, List.length_cons, ih]

theorem ofBytes_bytes {width n : ℕ} (h : n < 256 ^ width) : ofBytes (bytes width n) = n := by
  induction width generalizing n with
  | zero =>
    rw [pow_zero, Nat.lt_one_iff] at h
    rw [h]
    rfl
  | succ width ih =>
    have hdiv : n / 256 < 256 ^ width := by
      rw [Nat.div_lt_iff_lt_mul (by decide), ← pow_succ]
      exact h
    have hbyte : (UInt8.ofNat (n % 256)).toNat = n % 256 :=
      UInt8.toNat_ofNat_of_lt' (Nat.mod_lt n (by decide))
    rw [bytes, ofBytes, ih hdiv, hbyte]
    omega

theorem toBytes_eq_some {width n : ℕ} (h : n < 256 ^ width) :
    toBytes width n = some (bytes width n) :=
  if_pos h

end LittleEndian

/-- The inverse of `a` modulo `m`, if there is one. -/
def modInverse (a m : ℕ) : Option ℕ :=
  if Nat.gcd a m = 1 then some (Nat.gcdA a m % m).toNat else none

theorem modInverse_eq_some {a m : ℕ} (hcoprime : Nat.Coprime a m) (hm : 0 < m) :
    ∃ x, modInverse a m = some x ∧ x < m ∧ a * x ≡ 1 [MOD m] := by
  have hm' : (0 : ℤ) < m := Int.natCast_pos.mpr hm
  have hnonneg : 0 ≤ Nat.gcdA a m % m := Int.emod_nonneg _ hm'.ne'
  refine ⟨_, if_pos hcoprime, ?_, ?_⟩
  · have hlt := Int.emod_lt_of_pos (Nat.gcdA a m) hm'
    omega
  · have hbezout : (1 : ℤ) = a * Nat.gcdA a m + m * Nat.gcdB a m := by
      rw [← Nat.gcd_eq_gcd_ab, hcoprime]
      rfl
    have hmod : (a : ℤ) * (Nat.gcdA a m % m) ≡ 1 [ZMOD m] :=
      calc (a : ℤ) * (Nat.gcdA a m % m)
          ≡ a * Nat.gcdA a m [ZMOD m] := (Int.mod_modEq _ _).mul_left _
        _ ≡ a * Nat.gcdA a m + m * Nat.gcdB a m [ZMOD m] := by
          exact (Int.modEq_iff_dvd.mpr ⟨Nat.gcdB a m, by ring⟩)
        _ = 1 := hbezout.symm
    rw [← Int.natCast_modEq_iff]
    rw [Nat.cast_mul, Int.toNat_of_nonneg hnonneg, Nat.cast_one]
    exact hmod

end Library
