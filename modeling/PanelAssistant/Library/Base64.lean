import Mathlib.Data.List.Basic
import Mathlib.Tactic.IntervalCases

/-!
# Base64

The standard alphabet with padding. `decode` is the decoding that refuses every character of
another alphabet, a text that is not whole groups of four, and anything after the padding; it drops
the bits that a padded group leaves over. What was encoded is read back (`decode_encode`), and the
encoded text holds no other characters (`mem_encode`).
-/

namespace Library.Base64

/-- The character of six bits. -/
def digit (value : ℕ) : Char :=
  if value < 26 then Char.ofNat (65 + value)
  else if value < 52 then Char.ofNat (71 + value)
  else if value < 62 then Char.ofNat (value - 4)
  else if value = 62 then '+'
  else '/'

/-- The six bits of a character. -/
def value? (c : Char) : Option ℕ :=
  if 'A' ≤ c ∧ c ≤ 'Z' then some (c.toNat - 65)
  else if 'a' ≤ c ∧ c ≤ 'z' then some (c.toNat - 71)
  else if '0' ≤ c ∧ c ≤ '9' then some (c.toNat + 4)
  else if c = '+' then some 62
  else if c = '/' then some 63
  else none

def encode : List UInt8 → List Char
  | [] => []
  | [a] => [digit (a.toNat / 4), digit (a.toNat % 4 * 16), '=', '=']
  | [a, b] =>
    [digit (a.toNat / 4), digit (a.toNat % 4 * 16 + b.toNat / 16), digit (b.toNat % 16 * 4), '=']
  | a :: b :: c :: rest =>
    digit (a.toNat / 4) :: digit (a.toNat % 4 * 16 + b.toNat / 16) ::
      digit (b.toNat % 16 * 4 + c.toNat / 64) :: digit (c.toNat % 64) :: encode rest

def decode : List Char → Option (List UInt8)
  | [] => some []
  | [a, b, '=', '='] => do
    let x ← value? a
    let y ← value? b
    some [UInt8.ofNat (x * 4 + y / 16)]
  | [a, b, c, '='] => do
    let x ← value? a
    let y ← value? b
    let z ← value? c
    some [UInt8.ofNat (x * 4 + y / 16), UInt8.ofNat (y % 16 * 16 + z / 4)]
  | a :: b :: c :: d :: rest => do
    let x ← value? a
    let y ← value? b
    let z ← value? c
    let w ← value? d
    let bytes ← decode rest
    some (UInt8.ofNat (x * 4 + y / 16) :: UInt8.ofNat (y % 16 * 16 + z / 4) ::
      UInt8.ofNat (z % 4 * 64 + w) :: bytes)
  | _ => none

theorem value?_digit {value : ℕ} (h : value < 64) : value? (digit value) = some value := by
  interval_cases value <;> decide

theorem digit_ne_pad {value : ℕ} (h : value < 64) : digit value ≠ '=' := by
  interval_cases value <;> decide

/-- A byte, of the numbers that two characters give it. -/
theorem ofNat_eq (byte : UInt8) {value : ℕ} (h : value = byte.toNat) :
    UInt8.ofNat value = byte := by
  rw [h, UInt8.ofNat_toNat]

theorem decode_encode (bytes : List UInt8) : decode (encode bytes) = some bytes := by
  induction bytes using encode.induct with
  | case1 => rfl
  | case2 a =>
    have ha := a.toNat_lt
    rw [encode, decode, value?_digit (by omega), value?_digit (by omega)]
    simp only [Option.bind_eq_bind, Option.bind_some]
    rw [ofNat_eq a (by omega)]
  | case3 a b =>
    have ha := a.toNat_lt
    have hb := b.toNat_lt
    have hz : digit (b.toNat % 16 * 4) ≠ '=' := digit_ne_pad (by omega)
    rw [encode, decode, value?_digit (by omega), value?_digit (by omega), value?_digit (by omega)]
    · simp only [Option.bind_eq_bind, Option.bind_some]
      rw [ofNat_eq a (by omega), ofNat_eq b (by omega)]
    · exact fun h => hz h
  | case4 a b c rest ih =>
    have ha := a.toNat_lt
    have hb := b.toNat_lt
    have hc := c.toNat_lt
    have hw : digit (c.toNat % 64) ≠ '=' := digit_ne_pad (by omega)
    rw [encode, decode, value?_digit (by omega), value?_digit (by omega), value?_digit (by omega),
      value?_digit (by omega), ih]
    · simp only [Option.bind_eq_bind, Option.bind_some]
      rw [ofNat_eq a (by omega), ofNat_eq b (by omega),
        ofNat_eq c (by omega)]
    · exact fun _ h _ => hw h
    · exact fun h _ => hw h

theorem mem_encode {bytes : List UInt8} {ch : Char} (h : ch ∈ encode bytes) :
    ch = '=' ∨ ∃ value < 64, ch = digit value := by
  induction bytes using encode.induct with
  | case1 => cases h
  | case2 a =>
    have ha := a.toNat_lt
    simp only [encode, List.mem_cons, List.not_mem_nil, or_false] at h
    rcases h with rfl | rfl | rfl | rfl
    · exact .inr ⟨_, by omega, rfl⟩
    · exact .inr ⟨_, by omega, rfl⟩
    · exact .inl rfl
    · exact .inl rfl
  | case3 a b =>
    have ha := a.toNat_lt
    have hb := b.toNat_lt
    simp only [encode, List.mem_cons, List.not_mem_nil, or_false] at h
    rcases h with rfl | rfl | rfl | rfl
    · exact .inr ⟨_, by omega, rfl⟩
    · exact .inr ⟨_, by omega, rfl⟩
    · exact .inr ⟨_, by omega, rfl⟩
    · exact .inl rfl
  | case4 a b c rest ih =>
    have ha := a.toNat_lt
    have hb := b.toNat_lt
    have hc := c.toNat_lt
    simp only [encode, List.mem_cons] at h
    rcases h with rfl | rfl | rfl | rfl | h
    · exact .inr ⟨_, by omega, rfl⟩
    · exact .inr ⟨_, by omega, rfl⟩
    · exact .inr ⟨_, by omega, rfl⟩
    · exact .inr ⟨_, by omega, rfl⟩
    · exact ih h

/-- A character outside the alphabet does not stand in an encoded text. -/
theorem not_mem_encode {bytes : List UInt8} {ch : Char} (hpad : ch ≠ '=')
    (hvalue : value? ch = none) :
    ch ∉ encode bytes := by
  intro h
  rcases mem_encode h with rfl | ⟨value, hlt, rfl⟩
  · exact hpad rfl
  · rw [value?_digit hlt] at hvalue
    cases hvalue

end Library.Base64
