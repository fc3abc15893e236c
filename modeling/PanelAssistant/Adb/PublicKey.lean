import Mathlib.Data.Nat.Prime.Basic
import PanelAssistant.Library.Base64
import PanelAssistant.Library.LittleEndian
import PanelAssistant.Library.Separated

/-!
# The public key of Android

`_encode_android_public_key` and `_credential_generation_id` of `adb_credentials.py`. A key is the
number of words of the modulus, a Montgomery factor, the modulus, the square of its Montgomery
radix, and the exponent, each in little-endian bytes; the text of a key is these bytes in base64
with a comment.
-/

namespace PanelAssistant.Adb

open Library Library.LittleEndian Library.Separated

/-! ## Encoding -/

/-- `_RSA_BITS` -/
def rsaBits : ℕ := 2048

/-- `_MODULUS_BYTES` -/
def modulusBytes : ℕ := rsaBits / 8

/-- `_MODULUS_WORDS` -/
def modulusWords : ℕ := modulusBytes / 4

/-- `_PUBLIC_KEY_COMMENT` -/
def publicKeyComment : String := " ha-paneld@home-assistant"

def wordBase : ℕ := 2 ^ 32

structure RSAPublicNumbers where
  e : ℕ
  n : ℕ
  deriving DecidableEq

/-- `struct.pack(_PUBLIC_KEY_STRUCT, …)`; `none` is `struct.error`. -/
def pack (words n0inv : ℕ) (modulus rr : List UInt8) (e : ℕ) : Option (List UInt8) := do
  let words ← toBytes 4 words
  let n0inv ← toBytes 4 n0inv
  let e ← toBytes 4 e
  some (words ++ n0inv ++ modulus ++ rr ++ e)

/-- `_encode_android_public_key` up to the packed value; `none` is an exception of `pow`,
`to_bytes` or `pack`. -/
def encodeNumbers (numbers : RSAPublicNumbers) : Option (List UInt8) := do
  let modulus := numbers.n
  let inverse ← modInverse (modulus % wordBase) wordBase
  let n0inv := wordBase - inverse
  let rr ← if modulus = 0 then none else some ((1 <<< rsaBits) ^ 2 % modulus)
  let modulusEncoded ← toBytes modulusBytes modulus
  let rrEncoded ← toBytes modulusBytes rr
  pack modulusWords n0inv modulusEncoded rrEncoded numbers.e

/-- `_encode_android_public_key` -/
def encodeAndroidPublicKey (numbers : RSAPublicNumbers) : Option String := do
  let encoded ← encodeNumbers numbers
  some (String.ofList (Base64.encode encoded) ++ publicKeyComment)

/-- The bytes that are hashed; `none` is the error of `b64decode`. -/
def keyBytes (publicKey : String) : Option (List UInt8) :=
  Base64.decode (beforeFirst ' ' publicKey.toList)

/-- `_credential_generation_id`, over `sha256(…).hexdigest()` -/
def credentialGenerationId (sha256 : List UInt8 → String) (publicKey : String) : Option String :=
  (keyBytes publicKey).map sha256

/-! ## Reading back -/

/-- The values of a packed key. -/
structure PackedKey where
  words : ℕ
  n0inv : ℕ
  n : ℕ
  rr : ℕ
  e : ℕ

/-- `struct.unpack(_PUBLIC_KEY_STRUCT, …)`, with the two numbers read. -/
def unpack (encoded : List UInt8) : PackedKey where
  words := ofBytes (encoded.take 4)
  n0inv := ofBytes ((encoded.drop 4).take 4)
  n := ofBytes ((encoded.drop 8).take modulusBytes)
  rr := ofBytes ((encoded.drop (8 + modulusBytes)).take modulusBytes)
  e := ofBytes ((encoded.drop (8 + 2 * modulusBytes)).take 4)

/-- A key whose modulus is odd and has exactly the bits of the format. -/
structure AdbKey extends RSAPublicNumbers where
  odd : n % 2 = 1
  bits : 2 ^ (rsaBits - 1) ≤ n ∧ n < 2 ^ rsaBits
  exponent : e < 2 ^ 32

/-- What a device needs of a packed key. -/
structure PackedKey.Fits (p : PackedKey) (k : AdbKey) : Prop where
  words : p.words = modulusWords
  n0inv : p.n0inv < 2 ^ 32 ∧ p.n0inv * k.n + 1 ≡ 0 [MOD 2 ^ 32]
  rr : p.rr < k.n ∧ p.rr ≡ 2 ^ (2 * rsaBits) [MOD k.n]
  n : p.n = k.n
  e : p.e = k.e

namespace AdbKey

variable (k : AdbKey)

theorem pos : 0 < k.n := by
  have hodd := k.odd
  omega

theorem lt : k.n < 256 ^ modulusBytes := by
  have hwidth : (256 : ℕ) ^ modulusBytes = 2 ^ rsaBits := by
    rw [show (256 : ℕ) = 2 ^ 8 from rfl, ← pow_mul]
    exact congrArg (2 ^ ·) (rfl : 8 * modulusBytes = rsaBits)
  rw [hwidth]
  exact k.bits.2

theorem coprime : Nat.Coprime (k.n % wordBase) wordBase := by
  have hodd : k.n % wordBase % 2 = 1 := by
    rw [Nat.mod_mod_of_dvd k.n (show 2 ∣ wordBase from dvd_pow_self 2 (by decide)), k.odd]
  exact Nat.Coprime.pow_right 32 (Nat.coprime_two_right.mpr (Nat.odd_iff.mpr hodd))

/-- The factor is the negated inverse. -/
theorem n0inv_spec {x : ℕ} (hlt : x < wordBase) (hx : k.n % wordBase * x ≡ 1 [MOD wordBase]) :
    wordBase - x < 2 ^ 32 ∧ (wordBase - x) * k.n + 1 ≡ 0 [MOD 2 ^ 32] := by
  have hpos : 0 < x := by
    rcases Nat.eq_zero_or_pos x with rfl | hpos
    · rw [mul_zero] at hx
      exact absurd hx (by decide)
    · exact hpos
  have hinverse : x * k.n ≡ 1 [MOD wordBase] := by
    rw [mul_comm]
    exact ((Nat.mod_modEq k.n wordBase).symm.mul_right x).trans hx
  constructor
  · change wordBase - x < wordBase
    omega
  · change (wordBase - x) * k.n + 1 ≡ 0 [MOD wordBase]
    have hsum : (wordBase - x) * k.n + 1 ≡ (wordBase - x) * k.n + x * k.n [MOD wordBase] :=
      hinverse.symm.add_left _
    refine hsum.trans ?_
    rw [← add_mul, Nat.sub_add_cancel hlt.le]
    exact Nat.modEq_zero_iff_dvd.mpr (Dvd.intro _ rfl)

/-- The parts of a packed key are found where they were put. -/
theorem unpack_append {words n0inv modulus rr e : List UInt8} (hwords : words.length = 4)
    (hn0inv : n0inv.length = 4) (hmodulus : modulus.length = modulusBytes)
    (hrr : rr.length = modulusBytes) (he : e.length = 4) :
    unpack (words ++ n0inv ++ modulus ++ rr ++ e) =
      ⟨ofBytes words, ofBytes n0inv, ofBytes modulus, ofBytes rr, ofBytes e⟩ := by
  have htwo : (words ++ n0inv).length = 8 := by rw [List.length_append, hwords, hn0inv]
  have hthree : (words ++ n0inv ++ modulus).length = 8 + modulusBytes := by
    rw [List.length_append, htwo, hmodulus]
  have hfour : (words ++ n0inv ++ modulus ++ rr).length = 8 + 2 * modulusBytes := by
    rw [List.length_append, hthree, hrr]
    omega
  rw [unpack, PackedKey.mk.injEq]
  refine ⟨?_, ?_, ?_, ?_, ?_⟩
  · rw [List.append_assoc, List.append_assoc, List.append_assoc, List.take_left' hwords]
  · rw [List.append_assoc, List.append_assoc, List.append_assoc, List.drop_left' hwords,
      List.take_left' hn0inv]
  · rw [List.append_assoc, List.append_assoc, List.drop_left' htwo, List.take_left' hmodulus]
  · rw [List.append_assoc, List.drop_left' hthree, List.take_left' hrr]
  · rw [List.drop_left' hfour, List.take_of_length_le he.le]

/-- Every key is packed, and what is packed fits it. -/
theorem encodeNumbers_fits :
    ∃ encoded, encodeNumbers k.toRSAPublicNumbers = some encoded ∧ (unpack encoded).Fits k := by
  obtain ⟨x, hinverse, hlt, hx⟩ := modInverse_eq_some k.coprime (by decide : 0 < wordBase)
  obtain ⟨hn0inv, hmontgomery⟩ := k.n0inv_spec hlt hx
  have hrr : (1 <<< rsaBits) ^ 2 % k.n < k.n := Nat.mod_lt _ k.pos
  have hsquare : ((1 : ℕ) <<< rsaBits) ^ 2 = 2 ^ (2 * rsaBits) := by
    rw [Nat.one_shiftLeft, ← pow_mul, mul_comm]
  refine ⟨bytes 4 modulusWords ++ bytes 4 (wordBase - x) ++ bytes modulusBytes k.n ++
    bytes modulusBytes ((1 <<< rsaBits) ^ 2 % k.n) ++ bytes 4 k.e, ?_, ?_⟩
  · rw [encodeNumbers]
    simp only [Option.bind_eq_bind, hinverse, Option.bind_some, if_neg k.pos.ne',
      toBytes_eq_some k.lt, toBytes_eq_some (hrr.trans k.lt), pack,
      toBytes_eq_some (show modulusWords < 256 ^ 4 by decide),
      toBytes_eq_some (show wordBase - x < 256 ^ 4 from hn0inv),
      toBytes_eq_some (show k.e < 256 ^ 4 from k.exponent)]
  · rw [unpack_append (length_bytes _ _) (length_bytes _ _) (length_bytes _ _) (length_bytes _ _)
      (length_bytes _ _), ofBytes_bytes (show modulusWords < 256 ^ 4 by decide),
      ofBytes_bytes (show wordBase - x < 256 ^ 4 from hn0inv), ofBytes_bytes k.lt,
      ofBytes_bytes (hrr.trans k.lt), ofBytes_bytes (show k.e < 256 ^ 4 from k.exponent)]
    refine ⟨rfl, ⟨hn0inv, hmontgomery⟩, ⟨hrr, ?_⟩, rfl, rfl⟩
    change (1 <<< rsaBits) ^ 2 % k.n ≡ _ [MOD k.n]
    rw [hsquare]
    exact Nat.mod_modEq _ _

end AdbKey

/-- The bytes of an encoded key are the packed value, whatever the comment. -/
theorem keyBytes_encode (encoded : List UInt8) (comment : List Char) :
    keyBytes (String.ofList (Base64.encode encoded ++ ' ' :: comment)) = some encoded := by
  rw [keyBytes, String.toList_ofList,
    beforeFirst_append (Base64.not_mem_encode (by decide) (by decide)), Base64.decode_encode]

theorem keyBytes_encodeAndroidPublicKey {numbers : RSAPublicNumbers} {encoded : List UInt8}
    {key : String} (h : encodeNumbers numbers = some encoded)
    (hkey : encodeAndroidPublicKey numbers = some key) : keyBytes key = some encoded := by
  rw [encodeAndroidPublicKey, h] at hkey
  obtain rfl := Option.some.inj hkey
  have htext : String.ofList (Base64.encode encoded) ++ publicKeyComment =
      String.ofList (Base64.encode encoded ++ ' ' :: publicKeyComment.toList.drop 1) := by
    rw [String.ofList_append]
    rfl
  rw [htext, keyBytes_encode]

/-- Every key has an encoding whose packed value fits it, so two keys share none; and a generation
is named by these bytes alone. -/
theorem public_key_right_and_unique :
    (∀ k : AdbKey, ∃ key encoded, encodeAndroidPublicKey k.toRSAPublicNumbers = some key ∧
      keyBytes key = some encoded ∧ (unpack encoded).Fits k) ∧
    (∀ (k k' : AdbKey) (key key' : String), encodeAndroidPublicKey k.toRSAPublicNumbers = some key →
      encodeAndroidPublicKey k'.toRSAPublicNumbers = some key' → keyBytes key = keyBytes key' →
      k = k') ∧
    ∀ (sha256 : List UInt8 → String),
      (∀ key key', keyBytes key = keyBytes key' →
        credentialGenerationId sha256 key = credentialGenerationId sha256 key') ∧
      ∀ (encoded : List UInt8) (comment : List Char), credentialGenerationId sha256
        (String.ofList (Base64.encode encoded ++ ' ' :: comment)) = some (sha256 encoded) := by
  refine ⟨fun k => ?_, fun k k' key key' hkey hkey' hbytes => ?_, fun sha256 => ⟨?_, ?_⟩⟩
  · obtain ⟨encoded, hencoded, hfits⟩ := k.encodeNumbers_fits
    have hkey : encodeAndroidPublicKey k.toRSAPublicNumbers =
        some (String.ofList (Base64.encode encoded) ++ publicKeyComment) := by
      rw [encodeAndroidPublicKey, hencoded]
      rfl
    exact ⟨_, encoded, hkey, keyBytes_encodeAndroidPublicKey hencoded hkey, hfits⟩
  · obtain ⟨encoded, hencoded, hfits⟩ := k.encodeNumbers_fits
    obtain ⟨encoded', hencoded', hfits'⟩ := k'.encodeNumbers_fits
    rw [keyBytes_encodeAndroidPublicKey hencoded hkey,
      keyBytes_encodeAndroidPublicKey hencoded' hkey', Option.some.injEq] at hbytes
    subst hbytes
    obtain ⟨⟨e, n⟩, hodd, hbits, hexponent⟩ := k
    obtain ⟨⟨e', n'⟩, hodd', hbits', hexponent'⟩ := k'
    obtain rfl : n = n' := hfits.n.symm.trans hfits'.n
    obtain rfl : e = e' := hfits.e.symm.trans hfits'.e
    rfl
  · intro key key' h
    rw [credentialGenerationId, credentialGenerationId, h]
  · intro encoded comment
    rw [credentialGenerationId, keyBytes_encode]
    rfl

/-- The key of the largest modulus. -/
def largestKey : AdbKey where
  e := 65537
  n := 2 ^ rsaBits - 1
  odd := by decide +kernel
  bits := by decide +kernel
  exponent := by decide

theorem largest_key_encoded : ∃ key encoded,
    encodeAndroidPublicKey largestKey.toRSAPublicNumbers = some key ∧
      keyBytes key = some encoded ∧ (unpack encoded).Fits largestKey :=
  public_key_right_and_unique.1 largestKey

end PanelAssistant.Adb
