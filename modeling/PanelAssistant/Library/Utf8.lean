import Mathlib.Data.Char
import Mathlib.Data.Nat.Notation

/-!
# An incremental UTF-8 decoder

A decoder takes bytes one by one and keeps where it stands in a character, so its text does not
depend on how the bytes are divided (`decode_append`). A fatal decoder accepts exactly the encodings
of texts (`decodeAll_eq_some`); one that is not fatal writes U+FFFD for what the fatal one refuses
(`lossy_eq_or_mem`).
-/

namespace Library.Utf8

/-- How many bytes the character still needs, the bounds of the next one, and the code so far. -/
structure State where
  needed : ℕ
  low : ℕ
  high : ℕ
  code : ℕ
  deriving DecidableEq

/-- Between two characters. -/
def State.start : State := ⟨0, 0x80, 0xBF, 0⟩

/-- One byte: the characters it completes, or `none` if it cannot stand here. -/
def feed (s : State) (byte : UInt8) : Option (State × List Char) :=
  let b := byte.toNat
  if s.needed = 0 then
    if b ≤ 0x7F then some (.start, [Char.ofNat b])
    else if 0xC2 ≤ b ∧ b ≤ 0xDF then some (⟨1, 0x80, 0xBF, b % 0x20⟩, [])
    else if 0xE0 ≤ b ∧ b ≤ 0xEF then
      some (⟨2, if b = 0xE0 then 0xA0 else 0x80, if b = 0xED then 0x9F else 0xBF, b % 0x10⟩, [])
    else if 0xF0 ≤ b ∧ b ≤ 0xF4 then
      some (⟨3, if b = 0xF0 then 0x90 else 0x80, if b = 0xF4 then 0x8F else 0xBF, b % 8⟩, [])
    else none
  else if s.low ≤ b ∧ b ≤ s.high then
    if s.needed = 1 then some (.start, [Char.ofNat (s.code * 64 + b % 64)])
    else some (⟨s.needed - 1, 0x80, 0xBF, s.code * 64 + b % 64⟩, [])
  else none

/-- A fatal decoder on a part of a stream. -/
def decode (s : State) : List UInt8 → Option (State × List Char)
  | [] => some (s, [])
  | byte :: bytes =>
    match feed s byte with
    | none => none
    | some (s, text) => (decode s bytes).map fun (s, rest) => (s, text ++ rest)

/-- A fatal decoder on a whole text. -/
def decodeAll (bytes : List UInt8) : Option (List Char) :=
  match decode .start bytes with
  | some (s, text) => if s.needed = 0 then some text else none
  | none => none

/-- The character that stands for bytes that are not UTF-8. -/
def replacement : Char := '\uFFFD'

/-- A decoder that is not fatal on a whole text. A byte that cannot continue a character is read
again as the start of one. -/
def lossy (s : State) : List UInt8 → List Char
  | [] => if s.needed = 0 then [] else [replacement]
  | byte :: bytes =>
    match feed s byte with
    | some (s, text) => text ++ lossy s bytes
    | none =>
      if s.needed = 0 then replacement :: lossy .start bytes
      else
        match feed .start byte with
        | some (s, text) => replacement :: text ++ lossy s bytes
        | none => replacement :: replacement :: lossy .start bytes

def encode (text : List Char) : List UInt8 := text.flatMap String.utf8EncodeChar

@[simp] theorem encode_nil : encode [] = [] := rfl

@[simp] theorem encode_cons (c : Char) (text : List Char) :
    encode (c :: text) = String.utf8EncodeChar c ++ encode text := rfl

theorem encode_append (text text' : List Char) :
    encode (text ++ text') = encode text ++ encode text' :=
  List.flatMap_append

/-! ## Parts of a stream -/

theorem decode_append (s : State) (bytes bytes' : List UInt8) :
    decode s (bytes ++ bytes') = (decode s bytes).bind fun (s', text) =>
      (decode s' bytes').map fun (s'', rest) => (s'', text ++ rest) := by
  induction bytes generalizing s with
  | nil =>
    simp only [List.nil_append, decode, Option.bind_some]
    cases decode s bytes' <;> rfl
  | cons byte bytes ih =>
    simp only [List.cons_append, decode]
    cases feed s byte with
    | none => rfl
    | some r =>
      simp only [ih]
      cases decode r.1 bytes with
      | none => rfl
      | some r' =>
        simp only [Option.bind_some, Option.map_some]
        cases decode r'.1 bytes' <;> simp [List.append_assoc]

/-! ## Encodings -/

theorem toNat_ofNat_of_valid {n : ℕ} (h : n.isValidChar) : (Char.ofNat n).toNat = n := by
  rw [Char.ofNat, dif_pos h]
  rfl

theorem utf8EncodeChar_ofNat {n : ℕ} (h : n.isValidChar) :
    String.utf8EncodeChar (Char.ofNat n) =
      if n ≤ 0x7F then [UInt8.ofNat n]
      else if n ≤ 0x7FF then [UInt8.ofNat (n / 64 % 0x20 + 0xC0), UInt8.ofNat (n % 0x40 + 0x80)]
      else if n ≤ 0xFFFF then [UInt8.ofNat (n / 4096 % 0x10 + 0xE0),
        UInt8.ofNat (n / 64 % 0x40 + 0x80), UInt8.ofNat (n % 0x40 + 0x80)]
      else [UInt8.ofNat (n / 262144 % 8 + 0xF0), UInt8.ofNat (n / 4096 % 0x40 + 0x80),
        UInt8.ofNat (n / 64 % 0x40 + 0x80), UInt8.ofNat (n % 0x40 + 0x80)] := by
  have hval : (Char.ofNat n).val.toNat = n := toNat_ofNat_of_valid h
  rw [String.utf8EncodeChar, hval]

theorem toNat_lt (b : UInt8) : b.toNat < 256 := UInt8.toNat_lt_size b

theorem ofNat_eq_of_toNat {b : UInt8} {n : ℕ} (h : n = b.toNat) : UInt8.ofNat n = b := by
  rw [h, UInt8.ofNat_toNat]

/-! ## One byte -/

section Feed

variable {b : UInt8} {n low high code : ℕ} {r : State × List Char}

theorem feed_start_eq_some :
    feed .start b = some r ↔
      b.toNat ≤ 0x7F ∧ r = (.start, [Char.ofNat b.toNat]) ∨
      (0xC2 ≤ b.toNat ∧ b.toNat ≤ 0xDF) ∧ r = (⟨1, 0x80, 0xBF, b.toNat % 0x20⟩, []) ∨
      (0xE0 ≤ b.toNat ∧ b.toNat ≤ 0xEF) ∧ r = (⟨2, if b.toNat = 0xE0 then 0xA0 else 0x80,
        if b.toNat = 0xED then 0x9F else 0xBF, b.toNat % 0x10⟩, []) ∨
      (0xF0 ≤ b.toNat ∧ b.toNat ≤ 0xF4) ∧ r = (⟨3, if b.toNat = 0xF0 then 0x90 else 0x80,
        if b.toNat = 0xF4 then 0x8F else 0xBF, b.toNat % 8⟩, []) := by
  simp only [feed, State.start, if_true]
  by_cases h1 : b.toNat ≤ 0x7F
  · rw [if_pos h1, Option.some.injEq, eq_comm]
    constructor
    · exact fun h => .inl ⟨h1, h⟩
    · rintro (⟨-, h⟩ | ⟨h, -⟩ | ⟨h, -⟩ | ⟨h, -⟩)
      · exact h
      all_goals omega
  · rw [if_neg h1]
    by_cases h2 : 0xC2 ≤ b.toNat ∧ b.toNat ≤ 0xDF
    · rw [if_pos h2, Option.some.injEq, eq_comm]
      constructor
      · exact fun h => .inr (.inl ⟨h2, h⟩)
      · rintro (⟨h, -⟩ | ⟨-, h⟩ | ⟨h, -⟩ | ⟨h, -⟩)
        · exact absurd h h1
        · exact h
        all_goals omega
    · rw [if_neg h2]
      by_cases h3 : 0xE0 ≤ b.toNat ∧ b.toNat ≤ 0xEF
      · rw [if_pos h3, Option.some.injEq, eq_comm]
        constructor
        · exact fun h => .inr (.inr (.inl ⟨h3, h⟩))
        · rintro (⟨h, -⟩ | ⟨h, -⟩ | ⟨-, h⟩ | ⟨h, -⟩)
          · exact absurd h h1
          · exact absurd h h2
          · exact h
          · omega
      · rw [if_neg h3]
        by_cases h4 : 0xF0 ≤ b.toNat ∧ b.toNat ≤ 0xF4
        · rw [if_pos h4, Option.some.injEq, eq_comm]
          constructor
          · exact fun h => .inr (.inr (.inr ⟨h4, h⟩))
          · rintro (⟨h, -⟩ | ⟨h, -⟩ | ⟨h, -⟩ | ⟨-, h⟩)
            · exact absurd h h1
            · exact absurd h h2
            · exact absurd h h3
            · exact h
        · rw [if_neg h4]
          simp [h1, h2, h3, h4]

theorem feed_last (hlow : low ≤ b.toNat) (hhigh : b.toNat ≤ high) :
    feed ⟨1, low, high, code⟩ b = some (.start, [Char.ofNat (code * 64 + b.toNat % 64)]) := by
  simp [feed, hlow, hhigh]

theorem feed_next (hlow : low ≤ b.toNat) (hhigh : b.toNat ≤ high) :
    feed ⟨n + 2, low, high, code⟩ b = some (⟨n + 1, 0x80, 0xBF, code * 64 + b.toNat % 64⟩, []) := by
  simp [feed, hlow, hhigh]

theorem feed_succ_bounds (h : feed ⟨n + 1, low, high, code⟩ b = some r) :
    low ≤ b.toNat ∧ b.toNat ≤ high := by
  simp only [feed, Nat.succ_ne_zero, if_false] at h
  by_contra hbounds
  rw [if_neg hbounds] at h
  cases h

end Feed

/-! ## One character -/

section Character

variable {b₁ b₂ b₃ b₄ : UInt8}

theorem decode_one (h : b₁.toNat ≤ 0x7F) :
    decode .start [b₁] = some (.start, [Char.ofNat b₁.toNat]) := by
  have hfeed := feed_start_eq_some.mpr (.inl ⟨h, rfl⟩)
  simp [decode, hfeed]

theorem decode_two (h₁ : 0xC2 ≤ b₁.toNat ∧ b₁.toNat ≤ 0xDF)
    (h₂ : 0x80 ≤ b₂.toNat ∧ b₂.toNat ≤ 0xBF) :
    decode .start [b₁, b₂] =
      some (.start, [Char.ofNat (b₁.toNat % 0x20 * 64 + b₂.toNat % 64)]) := by
  have hfeed := feed_start_eq_some.mpr (.inr (.inl ⟨h₁, rfl⟩))
  simp [decode, hfeed, feed_last h₂.1 h₂.2]

/-- The bounds of the second of three bytes. -/
def Second (low high : ℕ) (lead least most : ℕ) (b : ℕ) : Prop :=
  (if lead = low then least else 0x80) ≤ b ∧ b ≤ if lead = high then most else 0xBF

theorem decode_three (h₁ : 0xE0 ≤ b₁.toNat ∧ b₁.toNat ≤ 0xEF)
    (h₂ : Second 0xE0 0xED b₁.toNat 0xA0 0x9F b₂.toNat) (h₃ : 0x80 ≤ b₃.toNat ∧ b₃.toNat ≤ 0xBF) :
    decode .start [b₁, b₂, b₃] =
      some (.start,
        [Char.ofNat ((b₁.toNat % 0x10 * 64 + b₂.toNat % 64) * 64 + b₃.toNat % 64)]) := by
  have hfeed := feed_start_eq_some.mpr (.inr (.inr (.inl ⟨h₁, rfl⟩)))
  simp only [decode, hfeed, feed_next h₂.1 h₂.2, feed_last h₃.1 h₃.2,
    Option.map_some, List.nil_append, List.append_nil]

theorem decode_four (h₁ : 0xF0 ≤ b₁.toNat ∧ b₁.toNat ≤ 0xF4)
    (h₂ : Second 0xF0 0xF4 b₁.toNat 0x90 0x8F b₂.toNat) (h₃ : 0x80 ≤ b₃.toNat ∧ b₃.toNat ≤ 0xBF)
    (h₄ : 0x80 ≤ b₄.toNat ∧ b₄.toNat ≤ 0xBF) :
    decode .start [b₁, b₂, b₃, b₄] = some (.start, [Char.ofNat
      (((b₁.toNat % 8 * 64 + b₂.toNat % 64) * 64 + b₃.toNat % 64) * 64 + b₄.toNat % 64)]) := by
  have hfeed := feed_start_eq_some.mpr (.inr (.inr (.inr ⟨h₁, rfl⟩)))
  simp only [decode, hfeed, feed_next h₂.1 h₂.2, feed_next h₃.1 h₃.2, feed_last h₄.1 h₄.2,
    Option.map_some, List.nil_append, List.append_nil]

end Character

theorem toNat_ofNat_lt {n : ℕ} (h : n < 256) : (UInt8.ofNat n).toNat = n :=
  UInt8.toNat_ofNat_of_lt' h

/-- The bytes of a character decode to the character. -/
theorem decode_encodeChar (c : Char) :
    decode .start (String.utf8EncodeChar c) = some (.start, [c]) := by
  obtain ⟨n, hn, rfl⟩ : ∃ n, n.isValidChar ∧ c = Char.ofNat n :=
    ⟨c.toNat, c.valid, (Char.ofNat_toNat c).symm⟩
  have hbound : n < 0xD800 ∨ 0xDFFF < n ∧ n < 0x110000 := hn
  have hlast : (UInt8.ofNat (n % 0x40 + 0x80)).toNat = n % 0x40 + 0x80 := toNat_ofNat_lt (by omega)
  have hthird : (UInt8.ofNat (n / 64 % 0x40 + 0x80)).toNat = n / 64 % 0x40 + 0x80 :=
    toNat_ofNat_lt (by omega)
  have hsecond : (UInt8.ofNat (n / 4096 % 0x40 + 0x80)).toNat = n / 4096 % 0x40 + 0x80 :=
    toNat_ofNat_lt (by omega)
  rw [utf8EncodeChar_ofNat hn]
  split
  · have hfirst : (UInt8.ofNat n).toNat = n := toNat_ofNat_lt (by omega)
    rw [decode_one (by omega), hfirst]
  · split
    · have hfirst : (UInt8.ofNat (n / 64 % 0x20 + 0xC0)).toNat = n / 64 % 0x20 + 0xC0 :=
        toNat_ofNat_lt (by omega)
      rw [decode_two (by omega) (by omega), hfirst, hlast]
      congr 4
      omega
    · split
      · have hfirst : (UInt8.ofNat (n / 4096 % 0x10 + 0xE0)).toNat = n / 4096 % 0x10 + 0xE0 :=
          toNat_ofNat_lt (by omega)
        rw [decode_three (by omega) ⟨by split <;> omega, by split <;> omega⟩ (by omega),
          hfirst, hthird, hlast]
        congr 4
        omega
      · have hfirst : (UInt8.ofNat (n / 262144 % 8 + 0xF0)).toNat = n / 262144 % 8 + 0xF0 :=
          toNat_ofNat_lt (by omega)
        rw [decode_four (by omega) ⟨by split <;> omega, by split <;> omega⟩
          (by omega) (by omega), hfirst,
          hsecond, hthird, hlast]
        congr 4
        omega

theorem decode_encode (text : List Char) : decode .start (encode text) = some (.start, text) := by
  induction text with
  | nil => rfl
  | cons c text ih =>
    rw [encode_cons, decode_append, decode_encodeChar]
    simp only [Option.bind_some, ih]
    rfl

theorem decodeAll_encode (text : List Char) : decodeAll (encode text) = some text := by
  rw [decodeAll, decode_encode]
  rfl

theorem encode_injective : Function.Injective encode := by
  intro text text' h
  have hdecode := decodeAll_encode text
  rw [h, decodeAll_encode] at hdecode
  exact (Option.some.inj hdecode).symm

/-! ## What the decoder accepts -/

/-- A decoder that stops between two characters has read a character from its start. -/
theorem exists_encodeChar {byte : UInt8} {bytes : List UInt8} {s : State} {text : List Char}
    (h : decode .start (byte :: bytes) = some (s, text)) (hs : s.needed = 0) :
    ∃ c rest, byte :: bytes = String.utf8EncodeChar c ++ rest := by
  -- a decoder inside a character needs one byte more, within its bounds
  have hmore : ∀ {n low high code : ℕ} {bytes : List UInt8} {text : List Char},
      decode ⟨n + 1, low, high, code⟩ bytes = some (s, text) →
      ∃ b rest, bytes = b :: rest ∧ (low ≤ b.toNat ∧ b.toNat ≤ high) ∧
        (n ≠ 0 → ∃ text', decode ⟨n, 0x80, 0xBF, code * 64 + b.toNat % 64⟩ rest =
          some (s, text')) := by
    intro n low high code bytes text h
    cases bytes with
    | nil =>
      cases h
      cases hs
    | cons b rest =>
      simp only [decode] at h
      cases hfeed : feed ⟨n + 1, low, high, code⟩ b with
      | none =>
        rw [hfeed] at h
        cases h
      | some r =>
        have hbounds := feed_succ_bounds hfeed
        refine ⟨b, rest, rfl, hbounds, fun hn => ?_⟩
        obtain ⟨m, rfl⟩ := Nat.exists_eq_succ_of_ne_zero hn
        rw [feed_next hbounds.1 hbounds.2] at h
        obtain ⟨⟨s', text'⟩, hrest, heq⟩ := Option.map_eq_some_iff.mp h
        cases heq
        exact ⟨text', hrest⟩
  have hlt := toNat_lt byte
  simp only [decode] at h
  cases hfeed : feed .start byte with
  | none =>
    rw [hfeed] at h
    cases h
  | some r =>
    rw [hfeed] at h
    obtain ⟨⟨s', text'⟩, hrest, heq⟩ := Option.map_eq_some_iff.mp h
    cases heq
    rcases feed_start_eq_some.mp hfeed with ⟨h1, rfl⟩ | ⟨h1, rfl⟩ | ⟨h1, rfl⟩ | ⟨h1, rfl⟩
    · refine ⟨Char.ofNat byte.toNat, bytes, ?_⟩
      rw [utf8EncodeChar_ofNat (.inl (by omega)), if_pos h1, UInt8.ofNat_toNat]
      rfl
    · obtain ⟨b₂, rest, rfl, h2, -⟩ := hmore hrest
      refine ⟨Char.ofNat (byte.toNat % 0x20 * 64 + b₂.toNat % 64), rest, ?_⟩
      rw [utf8EncodeChar_ofNat (.inl (by omega)), if_neg (by omega), if_pos (by omega),
        ofNat_eq_of_toNat (b := byte) (by omega), ofNat_eq_of_toNat (b := b₂) (by omega)]
      rfl
    · obtain ⟨b₂, rest, rfl, h2, hnext⟩ := hmore hrest
      obtain ⟨_, hrest₃⟩ := hnext (by decide)
      obtain ⟨b₃, rest, rfl, h3, -⟩ := hmore hrest₃
      have hlow : (byte.toNat = 0xE0 → 0xA0 ≤ b₂.toNat) ∧ 0x80 ≤ b₂.toNat := by
        have := h2.1
        split at this <;> omega
      have hhigh : (byte.toNat = 0xED → b₂.toNat ≤ 0x9F) ∧ b₂.toNat ≤ 0xBF := by
        have := h2.2
        split at this <;> omega
      refine ⟨Char.ofNat ((byte.toNat % 0x10 * 64 + b₂.toNat % 64) * 64 + b₃.toNat % 64), rest, ?_⟩
      have hvalid : ((byte.toNat % 0x10 * 64 + b₂.toNat % 64) * 64 +
        b₃.toNat % 64).isValidChar := by
        by_cases hsmall : byte.toNat ≤ 0xED
        · exact .inl (by omega)
        · exact .inr ⟨by omega, by omega⟩
      rw [utf8EncodeChar_ofNat hvalid, if_neg (by omega), if_neg (by omega), if_pos (by omega),
        ofNat_eq_of_toNat (b := byte) (by omega), ofNat_eq_of_toNat (b := b₂) (by omega),
        ofNat_eq_of_toNat (b := b₃) (by omega)]
      rfl
    · obtain ⟨b₂, rest, rfl, h2, hnext⟩ := hmore hrest
      obtain ⟨_, hrest₃⟩ := hnext (by decide)
      obtain ⟨b₃, rest, rfl, h3, hnext₃⟩ := hmore hrest₃
      obtain ⟨_, hrest₄⟩ := hnext₃ (by decide)
      obtain ⟨b₄, rest, rfl, h4, -⟩ := hmore hrest₄
      have hlow : (byte.toNat = 0xF0 → 0x90 ≤ b₂.toNat) ∧ 0x80 ≤ b₂.toNat := by
        have := h2.1
        split at this <;> omega
      have hhigh : (byte.toNat = 0xF4 → b₂.toNat ≤ 0x8F) ∧ b₂.toNat ≤ 0xBF := by
        have := h2.2
        split at this <;> omega
      refine ⟨Char.ofNat (((byte.toNat % 8 * 64 + b₂.toNat % 64) * 64 + b₃.toNat % 64) * 64 +
        b₄.toNat % 64), rest, ?_⟩
      have hvalid : (((byte.toNat % 8 * 64 + b₂.toNat % 64) * 64 + b₃.toNat % 64) * 64 +
          b₄.toNat % 64).isValidChar := .inr ⟨by omega, by omega⟩
      rw [utf8EncodeChar_ofNat hvalid, if_neg (by omega), if_neg (by omega), if_neg (by omega),
        ofNat_eq_of_toNat (b := byte) (by omega), ofNat_eq_of_toNat (b := b₂) (by omega),
        ofNat_eq_of_toNat (b := b₃) (by omega), ofNat_eq_of_toNat (b := b₄) (by omega)]
      rfl

/-- **A fatal decoder accepts exactly the encodings of texts.** -/
theorem decodeAll_eq_some {bytes : List UInt8} {text : List Char} :
    decodeAll bytes = some text ↔ bytes = encode text := by
  constructor
  · intro h
    induction hlength : bytes.length using Nat.strong_induction_on generalizing bytes text with
    | _ n ih =>
      cases bytes with
      | nil =>
        cases h
        rfl
      | cons byte bytes =>
        obtain ⟨s, hdecode, hs⟩ : ∃ s, decode .start (byte :: bytes) = some (s, text) ∧
          s.needed = 0 := by
          unfold decodeAll at h
          split at h
          · rename_i s text' hdecode
            obtain ⟨hs, h⟩ := Option.ite_none_right_eq_some.mp h
            cases h
            exact ⟨s, hdecode, hs⟩
          · cases h
        obtain ⟨c, rest, hbytes⟩ := exists_encodeChar hdecode hs
        rw [hbytes, decode_append, decode_encodeChar] at hdecode
        obtain ⟨⟨s', text'⟩, hrest, heq⟩ := Option.map_eq_some_iff.mp hdecode
        cases heq
        have hall : decodeAll rest = some text' := by
          rw [decodeAll, hrest]
          exact if_pos hs
        have hshort : rest.length < n := by
          have hpos : 0 < (String.utf8EncodeChar c).length :=
            List.length_pos_iff.mpr String.utf8EncodeChar_ne_nil
          have hsum := congrArg List.length hbytes
          rw [List.length_append] at hsum
          omega
        rw [hbytes, ih rest.length hshort hall rfl]
        rfl
  · rintro rfl
    exact decodeAll_encode text

/-- A decoder that is not fatal reads what a fatal one accepts alike, and marks anything else. -/
theorem lossy_eq_or_mem (s : State) (bytes : List UInt8) :
    (∃ s' text, decode s bytes = some (s', text) ∧ s'.needed = 0 ∧ lossy s bytes = text) ∨
      replacement ∈ lossy s bytes := by
  induction bytes generalizing s with
  | nil =>
    by_cases hs : s.needed = 0
    · exact .inl ⟨s, [], rfl, hs, if_pos hs⟩
    · refine .inr ?_
      rw [lossy, if_neg hs]
      exact List.mem_cons_self
  | cons byte bytes ih =>
    rw [decode, lossy]
    cases feed s byte with
    | none =>
      refine .inr ?_
      simp only
      split
      · exact List.mem_cons_self
      · split
        · exact List.mem_cons_self
        · exact List.mem_cons_self
    | some r =>
      simp only
      rcases ih r.1 with ⟨s', text, hdecode, hs, htext⟩ | hmem
      · exact .inl ⟨s', r.2 ++ text, by rw [hdecode]; rfl, hs, by rw [htext]⟩
      · exact .inr (List.mem_append_right _ hmem)

/-- What a decoder that is not fatal reads is what was encoded, unless it marks something. -/
theorem eq_encode_of_lossy {bytes : List UInt8} (h : replacement ∉ lossy .start bytes) :
    bytes = encode (lossy .start bytes) := by
  rcases lossy_eq_or_mem .start bytes with ⟨s, text, hdecode, hs, htext⟩ | hmem
  · rw [htext]
    refine decodeAll_eq_some.mp ?_
    rw [decodeAll, hdecode]
    exact if_pos hs
  · exact absurd hmem h

/-- What a fatal decoder accepts, one that is not fatal reads alike. -/
theorem lossy_of_decode {s s' : State} {bytes : List UInt8} {text : List Char}
    (h : decode s bytes = some (s', text)) (hs : s'.needed = 0) : lossy s bytes = text := by
  induction bytes generalizing s text with
  | nil =>
    cases h
    exact if_pos hs
  | cons byte bytes ih =>
    rw [decode] at h
    rw [lossy]
    cases hfeed : feed s byte with
    | none =>
      rw [hfeed] at h
      cases h
    | some r =>
      rw [hfeed] at h
      obtain ⟨⟨s'', rest⟩, hrest, heq⟩ := Option.map_eq_some_iff.mp h
      cases heq
      simp only [ih hrest]

theorem lossy_encode (text : List Char) : lossy .start (encode text) = text :=
  lossy_of_decode (decode_encode text) rfl

/-- What follows the encoding of a text in an encoding is the encoding of the rest. -/
theorem exists_of_encode_append {text before : List Char} {bytes : List UInt8}
    (h : encode text = encode before ++ bytes) :
    ∃ after, text = before ++ after ∧ bytes = encode after := by
  have hdecode := decode_encode text
  rw [h, decode_append, decode_encode] at hdecode
  obtain ⟨⟨s, after⟩, hrest, heq⟩ := Option.map_eq_some_iff.mp hdecode
  obtain ⟨rfl, rfl⟩ := Prod.mk.inj heq
  refine ⟨after, rfl, decodeAll_eq_some.mp ?_⟩
  rw [decodeAll, hrest]
  rfl

theorem encode_ascii {text : List Char} (h : ∀ c ∈ text, c.toNat ≤ 0x7F) :
    encode text = text.map fun c => UInt8.ofNat c.toNat := by
  induction text with
  | nil => rfl
  | cons c text ih =>
    obtain ⟨hc, htext⟩ := List.forall_mem_cons.mp h
    have hval : c.val.toNat ≤ 0x7F := hc
    rw [encode_cons, ih htext, String.utf8EncodeChar, if_pos hval]
    rfl

/-! ## Edges -/

/-- A decoder's state as bytes leave it. -/
def State.Proper (s : State) : Prop := 0x80 ≤ s.low ∧ (s.needed = 0 → s = .start)

theorem proper_start : State.start.Proper := ⟨le_rfl, fun _ => rfl⟩

theorem State.Proper.feed {s : State} {byte : UInt8} {r : State × List Char}
    (h : Utf8.feed s byte = some r) : r.1.Proper := by
  obtain ⟨needed, low, high, code⟩ := s
  cases needed with
  | zero =>
    have hstart : Utf8.feed ⟨0, low, high, code⟩ byte = Utf8.feed .start byte := rfl
    rw [hstart] at h
    rcases feed_start_eq_some.mp h with ⟨-, rfl⟩ | ⟨-, rfl⟩ | ⟨-, rfl⟩ | ⟨-, rfl⟩
    · exact proper_start
    · exact ⟨le_rfl, fun h => by cases h⟩
    · refine ⟨?_, fun h => by cases h⟩
      simp only
      split <;> decide
    · refine ⟨?_, fun h => by cases h⟩
      simp only
      split <;> decide
  | succ n =>
    obtain ⟨hlow, hhigh⟩ := feed_succ_bounds h
    cases n with
    | zero =>
      rw [feed_last hlow hhigh] at h
      cases h
      exact proper_start
    | succ n =>
      rw [feed_next hlow hhigh] at h
      cases h
      exact ⟨le_rfl, fun h => by cases h⟩

theorem State.Proper.decode {s s' : State} (h : s.Proper) {bytes : List UInt8} {text : List Char}
    (hdecode : Utf8.decode s bytes = some (s', text)) : s'.Proper := by
  induction bytes generalizing s text with
  | nil =>
    cases hdecode
    exact h
  | cons byte bytes ih =>
    simp only [Utf8.decode] at hdecode
    cases hfeed : Utf8.feed s byte with
    | none =>
      rw [hfeed] at hdecode
      cases hdecode
    | some r =>
      rw [hfeed] at hdecode
      obtain ⟨⟨s'', text'⟩, hrest, heq⟩ := Option.map_eq_some_iff.mp hdecode
      cases heq
      exact ih (State.Proper.feed hfeed) hrest

/-- A character does not go on over an ASCII byte. -/
theorem decode_of_ascii_next {bytes rest : List UInt8} {byte : UInt8} (hbyte : byte.toNat ≤ 0x7F)
    {r : State × List Char} (h : decode .start (bytes ++ byte :: rest) = some r) :
    ∃ text, bytes = encode text := by
  rw [decode_append] at h
  obtain ⟨⟨s, text⟩, hdecode, hnext⟩ := Option.bind_eq_some_iff.mp h
  have hproper := proper_start.decode hdecode
  have hneeded : s.needed = 0 := by
    by_contra hne
    obtain ⟨needed, low, high, code⟩ := s
    obtain ⟨n, rfl⟩ := Nat.exists_eq_succ_of_ne_zero hne
    obtain ⟨r', hrest, -⟩ := Option.map_eq_some_iff.mp hnext
    simp only [decode] at hrest
    cases hfeed : feed ⟨n + 1, low, high, code⟩ byte with
    | none =>
      rw [hfeed] at hrest
      cases hrest
    | some r'' =>
      have hlow : 0x80 ≤ low := hproper.1
      have hbounds := feed_succ_bounds hfeed
      omega
  refine ⟨text, decodeAll_eq_some.mp ?_⟩
  rw [decodeAll, hdecode]
  exact if_pos hneeded

end Library.Utf8
