import PanelAssistant.Library.JsonSpelling
import PanelAssistant.Library.Lines

/-!
# Texts of code units

A string of code units is a text when each of its surrogates is one of a pair; the units of a text
are one again. Written in JSON, no character of a text takes more than six bytes.
-/

namespace Library.CodeUnits

open JsonTree Lines

/-- The text of some code units; `none` where a surrogate is not paired. -/
def text? : List CodeUnit → Option (List Char)
  | [] => some []
  | [u] => if isSurrogate u then none else some [Char.ofNat u.1]
  | u :: v :: rest =>
    if isHighSurrogate u && isLowSurrogate v then (text? rest).map (pairChar u v :: ·)
    else if isSurrogate u then none
    else (text? (v :: rest)).map (Char.ofNat u.1 :: ·)

/-! ## The units of one character -/

theorem charUnits_basic {c : Char} (h : c.toNat < 65536) :
    ∃ u, charUnits c = [u] ∧ isSurrogate u = false ∧ Char.ofNat u.1 = c := by
  have hvalue : (Fin.ofNat 65536 c.toNat).1 = c.toNat := Nat.mod_eq_of_lt h
  refine ⟨Fin.ofNat 65536 c.toNat, by rw [charUnits, if_pos h], ?_, ?_⟩
  · have hvalid : c.toNat.isValidChar := c.valid
    simp only [isSurrogate, isHighSurrogate, isLowSurrogate, hvalue, Bool.or_eq_false_iff,
      Bool.and_eq_false_iff, decide_eq_false_iff_not]
    simp only [Nat.isValidChar] at hvalid
    omega
  · rw [hvalue, Char.ofNat_toNat]

theorem charUnits_pair {c : Char} (h : 65536 ≤ c.toNat) :
    ∃ high low, charUnits c = [high, low] ∧ isHighSurrogate high = true ∧
      isLowSurrogate low = true ∧ pairChar high low = c := by
  have hvalid : c.toNat.isValidChar := c.valid
  simp only [Nat.isValidChar] at hvalid
  have hhigh : (Fin.ofNat 65536 (55296 + (c.toNat - 65536) / 1024)).1 =
      55296 + (c.toNat - 65536) / 1024 := Nat.mod_eq_of_lt (by omega)
  have hlow : (Fin.ofNat 65536 (56320 + (c.toNat - 65536) % 1024)).1 =
      56320 + (c.toNat - 65536) % 1024 := Nat.mod_eq_of_lt (by omega)
  refine ⟨_, _, by rw [charUnits, if_neg (by omega)], ?_, ?_, ?_⟩
  · simp only [isHighSurrogate, hhigh, Bool.and_eq_true, decide_eq_true_eq]
    omega
  · simp only [isLowSurrogate, hlow, Bool.and_eq_true, decide_eq_true_eq]
    omega
  · have hnat : 65536 + (55296 + (c.toNat - 65536) / 1024 - 55296) * 1024 +
        (56320 + (c.toNat - 65536) % 1024 - 56320) = c.toNat := by omega
    rw [pairChar, hhigh, hlow, hnat, Char.ofNat_toNat]

theorem not_isHighSurrogate {u : CodeUnit} (h : isSurrogate u = false) :
    isHighSurrogate u = false := by
  rw [isSurrogate, Bool.or_eq_false_iff] at h
  exact h.1

theorem text?_charUnits (c : Char) (rest : List CodeUnit) :
    text? (charUnits c ++ rest) = (text? rest).map (c :: ·) := by
  rcases Nat.lt_or_ge c.toNat 65536 with h | h
  · obtain ⟨u, hunits, hsurrogate, rfl⟩ := charUnits_basic h
    rw [hunits, List.singleton_append]
    cases rest with
    | nil =>
      simp [text?, hsurrogate]
    | cons v rest =>
      rw [text?, not_isHighSurrogate hsurrogate, hsurrogate]
      rfl
  · obtain ⟨high, low, hunits, hhigh, hlow, rfl⟩ := charUnits_pair h
    rw [hunits, List.cons_append, List.singleton_append, text?, hhigh, hlow]
    rfl

/-- A text comes back from its units. -/
theorem text?_units (s : String) : text? (units s) = some s.toList := by
  rw [units]
  induction s.toList with
  | nil => rfl
  | cons c cs ih =>
    rw [List.flatMap_cons, text?_charUnits, ih]
    rfl

theorem text?_eq_some {us : List CodeUnit} {cs : List Char} (h : text? us = some cs) :
    us = cs.flatMap charUnits := by
  induction us using text?.induct generalizing cs with
  | case1 =>
    cases h
    rfl
  | case2 u hsurrogate =>
    rw [text?, if_pos hsurrogate] at h
    cases h
  | case3 u hsurrogate =>
    rw [text?, if_neg hsurrogate] at h
    cases h
    rw [List.flatMap_singleton, charUnits_ofNat (eq_false_of_ne_true hsurrogate)]
  | case4 u v rest hpair ih =>
    rw [text?, if_pos hpair] at h
    obtain ⟨cs', hcs', rfl⟩ := Option.map_eq_some_iff.mp h
    rw [Bool.and_eq_true] at hpair
    rw [List.flatMap_cons, (pairChar_spec hpair.1 hpair.2).2, ← ih hcs']
    rfl
  | case5 u v rest hpair hsurrogate =>
    rw [text?, if_neg hpair, if_pos hsurrogate] at h
    cases h
  | case6 u v rest hpair hsurrogate ih =>
    rw [text?, if_neg hpair, if_neg hsurrogate] at h
    obtain ⟨cs', hcs', rfl⟩ := Option.map_eq_some_iff.mp h
    rw [List.flatMap_cons, charUnits_ofNat (eq_false_of_ne_true hsurrogate), ← ih hcs']
    rfl

/-! ## Bytes -/

theorem bytes_le (cs : List Char) : bytes cs ≤ 4 * cs.length := by
  induction cs with
  | nil => exact Nat.zero_le _
  | cons c cs ih =>
    have hsize := Char.utf8Size_le_four c
    rw [bytes_cons, List.length_cons]
    omega

theorem utf8Size_hexDigit (n : ℕ) : (Json.hexDigit (n % 16)).utf8Size = 1 := by
  have hlt : n % 16 < 16 := Nat.mod_lt _ (by decide)
  interval_cases n % 16 <;> rfl

theorem bytes_wellFormedUnit (u : CodeUnit) : bytes (wellFormedUnit u) ≤ 6 := by
  unfold wellFormedUnit
  split
  · rename_i c _
    have hsize := Char.utf8Size_le_four c
    have hslash : '\\'.utf8Size = 1 := rfl
    rw [bytes_cons, bytes_cons, hslash]
    change 1 + (c.utf8Size + 0) ≤ 6
    omega
  · split
    · have hslash : '\\'.utf8Size = 1 := rfl
      have hu : 'u'.utf8Size = 1 := rfl
      simp only [Json.unitEscape, bytes_cons, utf8Size_hexDigit, hslash, hu]
      exact le_rfl
    · exact (bytes_le _).trans (by simp)

/-- How a character of a text is written, wherever it stands. -/
theorem wellFormedQuote_charUnits (c : Char) : ∃ text, bytes text ≤ 6 ∧
    ∀ rest, wellFormedQuote (charUnits c ++ rest) = text ++ wellFormedQuote rest := by
  rcases Nat.lt_or_ge c.toNat 65536 with h | h
  · obtain ⟨u, hunits, hsurrogate, -⟩ := charUnits_basic h
    refine ⟨wellFormedUnit u, bytes_wellFormedUnit u, fun rest => ?_⟩
    rw [hunits, List.singleton_append]
    cases rest with
    | nil => rw [wellFormedQuote, wellFormedQuote, List.append_nil]
    | cons v rest =>
      rw [wellFormedQuote, not_isHighSurrogate hsurrogate]
      rfl
  · obtain ⟨high, low, hunits, hhigh, hlow, rfl⟩ := charUnits_pair h
    refine ⟨[pairChar high low], (bytes_le _).trans (by simp), fun rest => ?_⟩
    rw [hunits, List.cons_append, List.singleton_append, wellFormedQuote, hhigh, hlow]
    rfl

theorem bytes_wellFormedQuote (s : String) : bytes (wellFormedQuote (units s)) ≤ 6 * s.length := by
  rw [units, ← String.length_toList]
  induction s.toList with
  | nil => exact Nat.zero_le _
  | cons c cs ih =>
    obtain ⟨text, hsize, htext⟩ := wellFormedQuote_charUnits c
    rw [List.flatMap_cons, htext, bytes_append, List.length_cons]
    omega

theorem bytes_literal (s : String) :
    bytes (literal wellFormedQuote (units s)) ≤ 6 * s.length + 2 := by
  have hquote : '"'.utf8Size = 1 := rfl
  have hsize := bytes_wellFormedQuote s
  rw [literal, List.cons_append, bytes_cons, bytes_append, bytes_cons, hquote]
  change 1 + (_ + (1 + 0)) ≤ _
  omega

/-- The bytes of an object are those of its fields and of the signs between them. -/
theorem bytes_render_obj {ν : Type} (quote : List CodeUnit → List Char) (number : ν → List Char)
    (fields : List (List CodeUnit × JsonTree ν)) :
    bytes (render quote number (.obj fields)) ≤
      2 + (fields.map fun e => bytes (literal quote e.1) +
        bytes (render quote number e.2) + 2).sum := by
  have hcomma : ','.utf8Size = 1 := rfl
  have hcolon : ':'.utf8Size = 1 := rfl
  have hopen : '\x7b'.utf8Size = 1 := rfl
  have hclose : bytes ['\x7d'] = 1 := rfl
  have hrest : ∀ fields : List (List CodeUnit × JsonTree ν),
      bytes (renderFields quote number fields) =
        (fields.map fun e => bytes (literal quote e.1) +
          bytes (render quote number e.2) + 2).sum := by
    intro fields
    induction fields with
    | nil => rfl
    | cons e fields ih =>
      simp only [renderFields, List.cons_append, bytes_cons, bytes_append, hcomma, hcolon, ih,
        List.map_cons, List.sum_cons]
      omega
  cases fields with
  | nil => exact le_rfl
  | cons e fields =>
    simp only [render, List.cons_append, bytes_cons, bytes_append, hopen, hcolon, hclose, hrest,
      List.map_cons, List.sum_cons]
    omega

end Library.CodeUnits
