import PanelAssistant.Library.Binary64
import PanelAssistant.Library.Dict
import PanelAssistant.Library.JsonSpelling
import PanelAssistant.Release

/-!
# Signed documents as Python and as the browser read them

`json.loads` with `strict_json_hooks` and `JSON.parse` read one grammar and differ in what a number
is and in what becomes of a repeated name; `json.dumps` and `JSON.stringify` differ in how they
spell strings. A Python string is kept as its UTF-16 code units: its decoder joins surrogate
pairs, so the units determine the string.

The texts of numbers that are no safe integers (`float.__repr__`, `Number::toString`) are left
open: a signed document holds none.
-/

namespace PanelAssistant

open Library Library.Text Library.JsonTree

/-! ## Bytes -/

/-- `bytes.decode("ascii")`, and `ascii` of `release-verifier.mjs` -/
def decodeAscii (body : List UInt8) : Option (List Char) :=
  if body.all (fun b => b.toNat < 128) then some (body.map fun b => Char.ofNat b.toNat) else none

/-- `str.encode("ascii")` -/
def encodeAscii (cs : List Char) : Option (List UInt8) :=
  if cs.all (fun c => c.toNat < 128) then some (cs.map fun c => UInt8.ofNat c.toNat) else none

/-- `bytes.decode("utf-8")` -/
def decodeUtf8 (body : List UInt8) : Option (List Char) :=
  body.toByteArray.utf8Decode?.map Array.toList

/-- `TextEncoder.encode` -/
def encodeUtf8 (cs : List Char) : List UInt8 := cs.flatMap String.utf8EncodeChar

theorem decodeAscii_of_encode {cs : List Char} {body : List UInt8}
    (h : encodeAscii cs = some body) : decodeAscii body = some cs := by
  unfold encodeAscii at h
  split at h
  · rename_i hall
    obtain rfl := Option.some.inj h
    rw [List.all_eq_true] at hall
    have hround : ∀ c ∈ cs, (UInt8.ofNat c.toNat).toNat = c.toNat := by
      intro c hc
      have hlt := hall c hc
      simp only [decide_eq_true_eq] at hlt
      simp only [UInt8.toNat_ofNat']
      omega
    have hbytes : (cs.map fun c => UInt8.ofNat c.toNat).all (fun b => b.toNat < 128) = true := by
      rw [List.all_map, List.all_eq_true]
      intro c hc
      simp only [Function.comp_apply, hround c hc]
      exact hall c hc
    rw [decodeAscii, if_pos hbytes, List.map_map]
    congr 1
    conv_rhs => rw [← List.map_id cs]
    apply List.map_congr_left
    intro c hc
    simp only [Function.comp_apply, hround c hc, Char.ofNat_toNat, id_eq]
  · cases h

theorem encodeAscii_of_decode {cs : List Char} {body : List UInt8}
    (h : decodeAscii body = some cs) : encodeAscii cs = some body := by
  unfold decodeAscii at h
  split at h
  · rename_i hall
    obtain rfl := Option.some.inj h
    rw [List.all_eq_true] at hall
    have hround : ∀ b ∈ body, (Char.ofNat b.toNat).toNat = b.toNat := by
      intro b hb
      have hlt := hall b hb
      simp only [decide_eq_true_eq] at hlt
      have hvalid : b.toNat.isValidChar := Or.inl (by omega)
      rw [Char.ofNat, dif_pos hvalid]
      rfl
    have hchars : (body.map fun b => Char.ofNat b.toNat).all (fun c => c.toNat < 128) = true := by
      rw [List.all_map, List.all_eq_true]
      intro b hb
      simp only [Function.comp_apply, hround b hb]
      exact hall b hb
    rw [encodeAscii, if_pos hchars, List.map_map]
    congr 1
    conv_rhs => rw [← List.map_id body]
    apply List.map_congr_left
    intro b hb
    simp only [Function.comp_apply, hround b hb, UInt8.ofNat_toNat, id_eq]
  · cases h

theorem length_of_encodeAscii {cs : List Char} {body : List UInt8}
    (h : encodeAscii cs = some body) : body.length = cs.length := by
  unfold encodeAscii at h
  split at h
  · obtain rfl := Option.some.inj h
    exact List.length_map ..
  · cases h

theorem exists_encodeAscii {cs : List Char} (h : cs.all (fun c => c.toNat < 128) = true) :
    ∃ body, encodeAscii cs = some body := ⟨_, if_pos h⟩

/-- UTF-8 of ASCII is ASCII. -/
theorem encodeUtf8_of_ascii {cs : List Char} {body : List UInt8} (h : encodeAscii cs = some body) :
    encodeUtf8 cs = body := by
  unfold encodeAscii at h
  split at h
  · rename_i hall
    obtain rfl := Option.some.inj h
    rw [List.all_eq_true] at hall
    rw [encodeUtf8, List.map_eq_flatMap]
    apply List.flatMap_congr
    intro c hc
    have hlt := hall c hc
    simp only [decide_eq_true_eq] at hlt
    have hval : c.val.toNat ≤ 127 := by
      have : c.val.toNat = c.toNat := rfl
      omega
    simp only [String.utf8EncodeChar, hval, if_true]
    rfl
  · cases h

theorem decodeUtf8_encodeUtf8 (cs : List Char) : decodeUtf8 (encodeUtf8 cs) = some cs := by
  have hbytes : (encodeUtf8 cs).toByteArray = cs.utf8Encode := rfl
  rw [decodeUtf8, hbytes, List.utf8Decode?_utf8Encode]
  rfl

/-! ## Numbers -/

/-- The texts of numbers that no signed document holds. -/
structure NumberTexts where
  /-- `float.__repr__` of the float a literal denotes. -/
  float : List Char → List Char
  /-- `Number::toString` of the number a literal denotes, where that is no safe integer. -/
  number : List Char → List Char

/-- A number of a Python document. -/
inductive PyNumber where
  | int (z : ℤ)
  | float (literal : List Char)

/-- `parse_float` and `parse_int` of `json.loads` -/
def pyNumber (literal : List Char) : Option PyNumber :=
  if literal.any fun c => c == '.' || c == 'e' || c == 'E' then some (.float literal)
  else
    let signed := splitSign literal
    if signed.2.length ≤ maxIntDigits then
      some (.int (if signed.1.isEmpty then decimal signed.2 else -decimal signed.2))
    else none

def PyNumber.text (T : NumberTexts) : PyNumber → List Char
  | int z => (toString z).toList
  | float literal => T.float literal

/-- A number of a browser document. -/
inductive JsNumber where
  | safe (z : ℤ)
  | other (literal : List Char)

def jsNumber (literal : List Char) : JsNumber :=
  match Binary64.safeInteger? literal with
  | some z => .safe z
  | none => .other literal

def JsNumber.text (T : NumberTexts) : JsNumber → List Char
  | safe z => (toString z).toList
  | other literal => T.number literal

/-! ## Python -/

/-- `unique_json_object` -/
def uniqueJsonObject {ν : Type} (pairs : List (List CodeUnit × JsonTree ν)) :
    Option (List (List CodeUnit × JsonTree ν)) :=
  if (pairs.map Prod.fst).Nodup then some pairs else none

/-- `json.loads(text, **strict_json_hooks(...))` -/
def jsonLoads (text : List Char) : Option (JsonTree PyNumber) :=
  (parse text).bind (evaluate pyNumber uniqueJsonObject)

/-- `json.dumps(document, ensure_ascii=True, separators=(",", ":"), sort_keys=True)`: names sort by
code point. -/
def jsonDumps (T : NumberTexts) (document : JsonTree PyNumber) : List Char :=
  render asciiQuote (PyNumber.text T) (sortKeys codePoints document)

/-! ## The browser -/

/-- `JSON.parse`: the last value of a repeated name wins, in the place of the first. -/
def jsonParse (text : List Char) : Option (JsonTree JsNumber) :=
  (parse text).bind (evaluate (fun literal => some (jsNumber literal)) fun pairs =>
    some (Dict.ofList pairs).entries)

def unitCodes (s : List CodeUnit) : List ℕ := s.map Fin.val

/-- `JSON.stringify`, in the order of the properties. -/
def jsonStringify (T : NumberTexts) (value : JsonTree JsNumber) : List Char :=
  render wellFormedQuote (JsNumber.text T) value

/-- `canonicalJson`: names sort by code unit. -/
def canonicalJson (T : NumberTexts) (value : JsonTree JsNumber) : List Char :=
  jsonStringify T (sortKeys unitCodes value)

/-! ## Natural numbers in both -/

theorem toString_natCast (n : ℕ) : (toString (n : ℤ)).toList = Nat.toDigits 10 n := by
  rw [Int.toString_eq_repr, Int.repr_eq_if, if_pos (Int.natCast_nonneg n), Int.toNat_natCast,
    Nat.toList_repr]

theorem ascii_toDigits (n : ℕ) : (Nat.toDigits 10 n).all (fun c => c.toNat < 128) = true := by
  have hall := all_isDigit_toDigits n
  rw [List.all_eq_true] at hall ⊢
  intro c hc
  have hdigit := hall c hc
  rw [isDigit, Bool.and_eq_true, decide_eq_true_eq, decide_eq_true_eq] at hdigit
  have hhigh : c.toNat ≤ 57 := hdigit.2
  rw [decide_eq_true_eq]
  omega

theorem pyNumber_toDigits {n : ℕ} (hn : n ≤ Binary64.maxSafeInteger) :
    pyNumber (Nat.toDigits 10 n) = some (.int n) := by
  have hall := all_isDigit_toDigits n
  have hlength : (Nat.toDigits 10 n).length ≤ maxIntDigits := by
    have h16 : (Nat.toDigits 10 n).length ≤ 16 := by
      rw [Nat.length_toDigits_le_iff (by decide) (by decide)]
      simp only [Binary64.maxSafeInteger] at hn
      omega
    simp only [maxIntDigits]
    omega
  have hinteger : ((Nat.toDigits 10 n).any fun c => c == '.' || c == 'e' || c == 'E') = false := by
    rw [List.any_eq_false]
    intro c hc
    have hdigit := List.all_eq_true.mp hall c hc
    simp only [Bool.or_eq_true, beq_iff_eq, not_or]
    refine ⟨⟨?_, ?_⟩, ?_⟩ <;> rintro rfl <;> exact absurd hdigit (by decide)
  have hsign : splitSign (Nat.toDigits 10 n) = ([], Nat.toDigits 10 n) := by
    cases hdigits : Nat.toDigits 10 n with
    | nil => rfl
    | cons c rest =>
      rw [hdigits, List.all_cons, Bool.and_eq_true] at hall
      exact splitSign_of_digit hall.1 rest
  simp [pyNumber, hinteger, hsign, hlength, decimal_toDigits]

theorem jsNumber_toDigits {n : ℕ} (hn : n ≤ Binary64.maxSafeInteger) :
    jsNumber (Nat.toDigits 10 n) = .safe n := by
  rw [jsNumber, Binary64.safeInteger?_toDigits hn]

/-! ## Documents of natural numbers -/

/-- What both languages read and write alike but for strings: distinct names and numbers that
fit. -/
abbrev WellFormed (t : JsonTree ℕ) : Prop := Proper (· ≤ Binary64.maxSafeInteger) t

theorem uniqueJsonObject_of_nodup {ν : Type} {es : List (List CodeUnit × JsonTree ν)}
    (h : (es.map Prod.fst).Nodup) : uniqueJsonObject es = some es := if_pos h

theorem uniqueJsonObject_spec {ν : Type} {es es' : List (List CodeUnit × JsonTree ν)}
    (h : uniqueJsonObject es = some es') : (es'.map Prod.fst).Nodup ∧ ∀ e ∈ es', e ∈ es := by
  unfold uniqueJsonObject at h
  split at h
  · rename_i hnodup
    obtain rfl := Option.some.inj h
    exact ⟨hnodup, fun _ he => he⟩
  · cases h

/-- No property of a parsed object is made up. -/
theorem mem_ofList {κ ν : Type} [DecidableEq κ] {l : List (κ × ν)} {e : κ × ν}
    (h : e ∈ (Dict.ofList l).entries) : e ∈ l := by
  have hset : ∀ (es : List (κ × ν)) (k : κ) (v : ν), e ∈ Dict.assign k v es →
    e ∈ es ∨ e = (k, v) := by
    intro es k v
    induction es with
    | nil => simp [Dict.assign]
    | cons a rest ih =>
      obtain ⟨k', v'⟩ := a
      simp only [Dict.assign]
      split
      · rename_i hk
        simp only [List.mem_cons]
        rintro (h | h)
        · exact Or.inr (hk ▸ h)
        · exact Or.inl (Or.inr h)
      · simp only [List.mem_cons]
        rintro (h | h)
        · exact Or.inl (Or.inl h)
        · rcases ih h with h | h
          · exact Or.inl (Or.inr h)
          · exact Or.inr h
  have hfold : ∀ (l : List (κ × ν)) (d : Dict κ ν),
      e ∈ (l.foldl (fun d e => d.set e.1 e.2) d).entries → e ∈ d.entries ∨ e ∈ l := by
    intro l
    induction l with
    | nil => exact fun _ h => Or.inl h
    | cons a rest ih =>
      intro d h
      rw [List.foldl_cons] at h
      rcases ih _ h with h | h
      · rcases hset _ _ _ h with h | rfl
        · exact Or.inl h
        · exact Or.inr List.mem_cons_self
      · exact Or.inr (List.mem_cons_of_mem a h)
  rcases hfold l ∅ h with h | h
  · exact absurd h List.not_mem_nil
  · exact h

/-- Reading a text that spells natural numbers as decimals. -/
theorem jsonLoads_render {quote : List CodeUnit → List Char} (hquote : Reads quote) {t : JsonTree ℕ}
    (ht : WellFormed t) :
    jsonLoads (render quote (Nat.toDigits 10) t ++ ['\n']) =
      some (t.map fun n : ℕ => PyNumber.int n) := by
  rw [jsonLoads, parse_render hquote isNumber_toDigits, Option.bind_some]
  exact evaluate_map (fun _ => uniqueJsonObject_of_nodup) t (ht.mono fun _ h => pyNumber_toDigits h)

theorem jsonParse_render {quote : List CodeUnit → List Char} (hquote : Reads quote) {t : JsonTree ℕ}
    (ht : WellFormed t) :
    jsonParse (render quote (Nat.toDigits 10) t ++ ['\n']) =
      some (t.map fun n : ℕ => JsNumber.safe n) := by
  rw [jsonParse, parse_render hquote isNumber_toDigits, Option.bind_some]
  exact evaluate_map (fun _ h => congrArg some (Dict.entries_ofList h)) t
    (ht.mono fun _ h => congrArg some (jsNumber_toDigits h))

theorem jsonLoads_proper {text : List Char} {d : JsonTree PyNumber} (h : jsonLoads text = some d) :
    Proper (fun _ => True) d := by
  obtain ⟨t, -, ht⟩ := Option.bind_eq_some_iff.mp h
  exact evaluate_proper (fun _ _ => uniqueJsonObject_spec) t d ht

theorem jsonParse_proper {text : List Char} {d : JsonTree JsNumber} (h : jsonParse text = some d) :
    Proper (fun _ => True) d := by
  obtain ⟨t, -, ht⟩ := Option.bind_eq_some_iff.mp h
  refine evaluate_proper ?_ t d ht
  intro es es' hes
  obtain rfl := Option.some.inj hes
  exact ⟨(Dict.ofList es).nodup, fun _ => mem_ofList⟩

end PanelAssistant
