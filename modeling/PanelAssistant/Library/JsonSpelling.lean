import PanelAssistant.Library.Json
import PanelAssistant.Library.JsonTree

/-!
# Two spellings of JSON strings

`asciiQuote` escapes everything that is not printable ASCII, unit by unit. `wellFormedQuote`
escapes control characters and unpaired surrogates and leaves every other character as it is. The
grammar reads both back, and they agree exactly on the strings that hold neither DEL nor a
character beyond ASCII (`quotes_eq_iff`).
-/

namespace Library.JsonTree

/-- The escapes of one letter. -/
def shortEscape? (u : CodeUnit) : Option Char :=
  if u = 34 then some '"'
  else if u = 92 then some '\\'
  else if u = 8 then some 'b'
  else if u = 9 then some 't'
  else if u = 10 then some 'n'
  else if u = 12 then some 'f'
  else if u = 13 then some 'r'
  else none

def asciiUnit (u : CodeUnit) : List Char :=
  match shortEscape? u with
  | some c => ['\\', c]
  | none => if 32 ≤ u.1 ∧ u.1 ≤ 126 then [Char.ofNat u.1] else Json.unitEscape u.1

def asciiQuote (s : List CodeUnit) : List Char := s.flatMap asciiUnit

/-- A unit that is no half of a pair. -/
def wellFormedUnit (u : CodeUnit) : List Char :=
  match shortEscape? u with
  | some c => ['\\', c]
  | none => if u.1 < 32 ∨ isSurrogate u = true then Json.unitEscape u.1 else [Char.ofNat u.1]

def wellFormedQuote : List CodeUnit → List Char
  | high :: low :: rest =>
    if isHighSurrogate high && isLowSurrogate low then pairChar high low :: wellFormedQuote rest
    else wellFormedUnit high ++ wellFormedQuote (low :: rest)
  | [u] => wellFormedUnit u
  | [] => []

/-! ## Both are read back -/

theorem hexValue?_hexDigit {n : ℕ} (h : n < 16) : hexValue? (Json.hexDigit n) = some n := by
  have key : ∀ a : Fin 16, hexValue? (Json.hexDigit a) = some a.1 := by decide
  exact key ⟨n, h⟩

theorem parseUnits_unitEscape (u : CodeUnit) (rest : List Char) :
    parseUnits (Json.unitEscape u.1 ++ rest) = (parseUnits rest).map fun p => (u :: p.1, p.2) := by
  have hu := u.2
  have hunit : Fin.ofNat 65536 (u.1 / 4096 % 16 * 4096 + u.1 / 256 % 16 * 256 +
      u.1 / 16 % 16 * 16 + u.1 % 16) = u := by
    apply Fin.ext
    simp only [Fin.ofNat]
    omega
  have hlt : ∀ n : ℕ, n % 16 < 16 := fun n => Nat.mod_lt n (by decide)
  simp only [Json.unitEscape, List.cons_append, List.nil_append, parseUnits, hexUnit?,
    hexValue?_hexDigit (hlt _), Option.bind_some, Option.map_some, hunit]
  rfl

theorem parseUnits_shortEscape {u : CodeUnit} {c : Char} (h : shortEscape? u = some c)
    (rest : List Char) :
    parseUnits ('\\' :: c :: rest) = (parseUnits rest).map fun p => (u :: p.1, p.2) := by
  have hsimple : c ≠ 'u' ∧ simpleEscape? c = some u := by
    unfold shortEscape? at h
    repeat' split at h
    all_goals cases h
    all_goals
      rename_i hu
      rw [hu]
      exact ⟨by decide, rfl⟩
  simp only [parseUnits.eq_def ('\\' :: c :: rest), Char.reduceEq, if_false, if_true, hsimple.1,
    hsimple.2, Option.bind_some]

theorem parseUnits_plain {c : Char} (hquote : c ≠ '"') (hslash : c ≠ '\\') (hcontrol : 32 ≤ c.toNat)
    (rest : List Char) :
    parseUnits (c :: rest) = (parseUnits rest).map fun p => (charUnits c ++ p.1, p.2) := by
  rw [parseUnits.eq_def]
  simp only [hquote, hslash, if_false, Nat.not_lt.mpr hcontrol]

theorem parseUnits_quote (rest : List Char) : parseUnits ('"' :: rest) = some ([], rest) := by
  rw [parseUnits.eq_def]
  simp only [if_true]

/-- The character of a unit that is no surrogate. -/
theorem toNat_ofNat_unit {u : CodeUnit} (h : isSurrogate u = false) :
    (Char.ofNat u.1).toNat = u.1 := by
  have hu := u.2
  simp only [isSurrogate, isHighSurrogate, isLowSurrogate, Bool.or_eq_false_iff,
    Bool.and_eq_false_iff, decide_eq_false_iff_not] at h
  have hvalid : u.1.isValidChar := by
    simp only [Nat.isValidChar]
    omega
  rw [Char.ofNat, dif_pos hvalid]
  rfl

theorem charUnits_ofNat {u : CodeUnit} (h : isSurrogate u = false) :
    charUnits (Char.ofNat u.1) = [u] := by
  rw [charUnits, toNat_ofNat_unit h, if_pos u.2]
  exact congrArg (· :: []) (Fin.ext (Nat.mod_eq_of_lt u.2))

/-- A unit without an escape of one letter is neither a quote nor a backslash. -/
theorem ofNat_ne_of_shortEscape {u : CodeUnit} (hshort : shortEscape? u = none)
    (hsurrogate : isSurrogate u = false) :
    Char.ofNat u.1 ≠ '"' ∧ Char.ofNat u.1 ≠ '\\' := by
  have hnat := toNat_ofNat_unit hsurrogate
  constructor
  · intro h
    rw [h] at hnat
    have hu : u = 34 := Fin.ext hnat.symm
    rw [hu] at hshort
    exact absurd hshort (by decide)
  · intro h
    rw [h] at hnat
    have hu : u = 92 := Fin.ext hnat.symm
    rw [hu] at hshort
    exact absurd hshort (by decide)

theorem parseUnits_ofNat {u : CodeUnit} (hshort : shortEscape? u = none)
    (hsurrogate : isSurrogate u = false) (hcontrol : 32 ≤ u.1) (rest : List Char) :
    parseUnits (Char.ofNat u.1 :: rest) = (parseUnits rest).map fun p => (u :: p.1, p.2) := by
  obtain ⟨hquote, hslash⟩ := ofNat_ne_of_shortEscape hshort hsurrogate
  rw [parseUnits_plain hquote hslash (by rw [toNat_ofNat_unit hsurrogate]; exact hcontrol),
    charUnits_ofNat hsurrogate]
  rfl

theorem parseUnits_asciiUnit (u : CodeUnit) (rest : List Char) :
    parseUnits (asciiUnit u ++ rest) = (parseUnits rest).map fun p => (u :: p.1, p.2) := by
  unfold asciiUnit
  split
  · rename_i c hc
    exact parseUnits_shortEscape hc rest
  · rename_i hshort
    split
    · rename_i hprintable
      have hsurrogate : isSurrogate u = false := by
        simp only [isSurrogate, isHighSurrogate, isLowSurrogate, Bool.or_eq_false_iff,
          Bool.and_eq_false_iff, decide_eq_false_iff_not]
        omega
      exact parseUnits_ofNat hshort hsurrogate hprintable.1 rest
    · exact parseUnits_unitEscape u rest

theorem parseUnits_wellFormedUnit (u : CodeUnit) (rest : List Char) :
    parseUnits (wellFormedUnit u ++ rest) = (parseUnits rest).map fun p => (u :: p.1, p.2) := by
  unfold wellFormedUnit
  split
  · rename_i c hc
    exact parseUnits_shortEscape hc rest
  · rename_i hshort
    split
    · exact parseUnits_unitEscape u rest
    · rename_i hplain
      rw [not_or, Bool.not_eq_true] at hplain
      exact parseUnits_ofNat hshort hplain.2 (Nat.not_lt.mp hplain.1) rest

theorem reads_asciiQuote : Reads asciiQuote := by
  intro s rest
  induction s with
  | nil => exact parseUnits_quote rest
  | cons u s ih =>
    rw [asciiQuote, List.flatMap_cons, List.append_assoc, parseUnits_asciiUnit]
    exact congrArg (Option.map _) ih

/-- A pair is written as one character beyond the basic plane, and read as the pair. -/
theorem pairChar_spec {high low : CodeUnit} (hhigh : isHighSurrogate high = true)
    (hlow : isLowSurrogate low = true) :
    65536 ≤ (pairChar high low).toNat ∧ charUnits (pairChar high low) = [high, low] := by
  simp only [isHighSurrogate, isLowSurrogate, Bool.and_eq_true, decide_eq_true_eq] at hhigh hlow
  have hvalid : (65536 + (high.1 - 55296) * 1024 + (low.1 - 56320)).isValidChar := by
    simp only [Nat.isValidChar]
    omega
  have hnat : (pairChar high low).toNat = 65536 + (high.1 - 55296) * 1024 + (low.1 - 56320) := by
    rw [pairChar, Char.ofNat, dif_pos hvalid]
    rfl
  have hfirst : Fin.ofNat 65536 (55296 + ((pairChar high low).toNat - 65536) / 1024) = high := by
    apply Fin.ext
    simp only [Fin.ofNat]
    omega
  have hsecond : Fin.ofNat 65536 (56320 + ((pairChar high low).toNat - 65536) % 1024) = low := by
    apply Fin.ext
    simp only [Fin.ofNat]
    omega
  refine ⟨by omega, ?_⟩
  rw [charUnits, if_neg (by omega), hfirst, hsecond]

theorem parseUnits_pairChar {high low : CodeUnit} (hhigh : isHighSurrogate high = true)
    (hlow : isLowSurrogate low = true) (rest : List Char) :
    parseUnits (pairChar high low :: rest) =
      (parseUnits rest).map fun p => (high :: low :: p.1, p.2) := by
  obtain ⟨hlarge, hunits⟩ := pairChar_spec hhigh hlow
  have hne : ∀ c : Char, c.toNat < 65536 → pairChar high low ≠ c := by
    rintro c hc rfl
    omega
  rw [parseUnits_plain (hne _ (by decide)) (hne _ (by decide)) (by omega), hunits]
  rfl

theorem reads_wellFormedQuote : Reads wellFormedQuote := by
  intro s rest
  induction s using wellFormedQuote.induct with
  | case1 high low tail hpair ih =>
    rw [Bool.and_eq_true] at hpair
    rw [wellFormedQuote, if_pos (by simp [hpair]), List.cons_append,
      parseUnits_pairChar hpair.1 hpair.2, ih]
    rfl
  | case2 high low tail hpair ih =>
    rw [wellFormedQuote, if_neg hpair, List.append_assoc, parseUnits_wellFormedUnit, ih]
    rfl
  | case3 u =>
    rw [wellFormedQuote, parseUnits_wellFormedUnit, parseUnits_quote]
    rfl
  | case4 => exact parseUnits_quote rest

/-! ## Where they agree -/

/-- A unit that both spellings write alike, unless it is half of a pair. -/
def portableUnit (u : CodeUnit) : Bool := u.1 < 127 || isSurrogate u

/-- Neither DEL nor a character beyond ASCII; an unpaired surrogate is no character. -/
def portable : List CodeUnit → Bool
  | high :: low :: rest =>
    !(isHighSurrogate high && isLowSurrogate low) && portableUnit high && portable (low :: rest)
  | [u] => portableUnit u
  | [] => true

theorem wellFormedUnit_eq {u : CodeUnit} (h : portableUnit u = true) :
    wellFormedUnit u = asciiUnit u := by
  unfold wellFormedUnit asciiUnit
  cases hshort : shortEscape? u with
  | some c => rfl
  | none =>
    simp only [portableUnit, Bool.or_eq_true, decide_eq_true_eq] at h
    rcases h with hsmall | hsurrogate
    · have hplain : isSurrogate u = false := by
        simp only [isSurrogate, isHighSurrogate, isLowSurrogate, Bool.or_eq_false_iff,
          Bool.and_eq_false_iff, decide_eq_false_iff_not]
        omega
      by_cases hcontrol : u.1 < 32
      · simp [hcontrol, Nat.not_le.mpr hcontrol]
      · simp only [hplain, hcontrol, Bool.false_eq_true, or_self, if_false]
        rw [if_pos (by omega)]
    · have hlarge : ¬(32 ≤ u.1 ∧ u.1 ≤ 126) := by
        simp only [isSurrogate, isHighSurrogate, isLowSurrogate, Bool.or_eq_true, Bool.and_eq_true,
          decide_eq_true_eq] at hsurrogate
        omega
      simp [hsurrogate, hlarge]

/-- Any other unit starts with an escape in one spelling only. -/
theorem not_portableUnit {u : CodeUnit} (h : portableUnit u = false) :
    (∃ c, wellFormedUnit u = [c] ∧ c ≠ '\\') ∧ asciiUnit u = Json.unitEscape u.1 := by
  simp only [portableUnit, Bool.or_eq_false_iff, decide_eq_false_iff_not, Nat.not_lt] at h
  have hshort : shortEscape? u = none := by
    have hne : ∀ v : CodeUnit, v.1 < 127 → u ≠ v := by
      rintro v hv rfl
      omega
    simp [shortEscape?, hne]
  constructor
  · refine ⟨Char.ofNat u.1, ?_, (ofNat_ne_of_shortEscape hshort h.2).2⟩
    simp only [wellFormedUnit, hshort, h.2, Bool.false_eq_true, or_false]
    rw [if_neg (by omega)]
  · simp only [asciiUnit, hshort]
    rw [if_neg (by omega)]

theorem asciiQuote_cons (u : CodeUnit) (s : List CodeUnit) :
    asciiQuote (u :: s) = asciiUnit u ++ asciiQuote s := List.flatMap_cons

theorem asciiUnit_of_surrogate {u : CodeUnit} (h : isSurrogate u = true) :
    ∃ rest, asciiUnit u = '\\' :: rest := by
  simp only [isSurrogate, isHighSurrogate, isLowSurrogate, Bool.or_eq_true, Bool.and_eq_true,
    decide_eq_true_eq] at h
  have hshort : shortEscape? u = none := by
    have hne : ∀ v : CodeUnit, v.1 < 127 → u ≠ v := by
      rintro v hv rfl
      omega
    simp [shortEscape?, hne]
  simp only [asciiUnit, hshort]
  rw [if_neg (by omega)]
  exact ⟨_, rfl⟩

/-- The two spellings agree exactly on portable strings. -/
theorem quotes_eq_iff (s : List CodeUnit) : wellFormedQuote s = asciiQuote s ↔
    portable s = true := by
  induction s using wellFormedQuote.induct with
  | case1 high low rest hpair ih =>
    refine iff_of_false ?_ (by simp [portable, hpair])
    -- the pair is one character here and two escapes there
    rw [Bool.and_eq_true] at hpair
    obtain ⟨tail, htail⟩ := asciiUnit_of_surrogate (u := high) (by simp [isSurrogate, hpair.1])
    have hlarge := (pairChar_spec hpair.1 hpair.2).1
    rw [wellFormedQuote, if_pos (by simp [hpair]), asciiQuote_cons, htail, List.cons_append]
    intro heq
    rw [(List.cons.inj heq).1] at hlarge
    exact absurd hlarge (by decide)
  | case2 high low rest hpair ih =>
    rw [wellFormedQuote, if_neg hpair, asciiQuote_cons, portable]
    cases hunit : portableUnit high with
    | true =>
      rw [wellFormedUnit_eq hunit, List.append_cancel_left_eq, ih]
      simp [hpair]
    | false =>
      obtain ⟨⟨c, hc, hne⟩, hescape⟩ := not_portableUnit hunit
      rw [hc, hescape, Json.unitEscape, List.cons_append, List.cons_append]
      refine iff_of_false ?_ (by simp)
      intro heq
      exact hne (List.cons.inj heq).1
  | case3 u =>
    rw [wellFormedQuote, asciiQuote_cons, portable]
    cases hunit : portableUnit u with
    | true =>
      rw [wellFormedUnit_eq hunit]
      simp [asciiQuote]
    | false =>
      obtain ⟨⟨c, hc, hne⟩, hescape⟩ := not_portableUnit hunit
      rw [hc, hescape, Json.unitEscape]
      refine iff_of_false ?_ (by simp)
      intro heq
      exact hne (List.cons.inj heq).1
  | case4 => simp [wellFormedQuote, asciiQuote, portable]

/-! ## Plain texts -/

/-- A character that every spelling writes as itself. -/
def plainChar (c : Char) : Bool := 32 ≤ c.toNat && c.toNat < 127 && c != '"' && c != '\\'

def plain (s : String) : Bool := s.toList.all plainChar

theorem charUnits_of_plain {c : Char} (h : plainChar c = true) :
    ∃ u : CodeUnit, charUnits c = [u] ∧ u.1 = c.toNat ∧ asciiUnit u = [c] := by
  simp only [plainChar, Bool.and_eq_true, decide_eq_true_eq, bne_iff_ne, ne_eq] at h
  obtain ⟨⟨⟨hlow, hhigh⟩, hquote⟩, hslash⟩ := h
  have hlt : c.toNat < 65536 := by omega
  refine ⟨⟨c.toNat, hlt⟩, ?_, rfl, ?_⟩
  · rw [charUnits, if_pos hlt]
    exact congrArg (· :: []) (Fin.ext (Nat.mod_eq_of_lt hlt))
  · have hshort : shortEscape? ⟨c.toNat, hlt⟩ = none := by
      have hne : ∀ v : CodeUnit, c.toNat ≠ v.1 → (⟨c.toNat, hlt⟩ : CodeUnit) ≠ v :=
        fun v hc heq => hc (congrArg Fin.val heq)
      have h34 : c.toNat ≠ 34 := fun hc => hquote (Char.toNat_inj.mp hc)
      have h92 : c.toNat ≠ 92 := fun hc => hslash (Char.toNat_inj.mp hc)
      unfold shortEscape?
      rw [if_neg (hne 34 h34), if_neg (hne 92 h92), if_neg (hne 8 (show c.toNat ≠ 8 by omega)),
        if_neg (hne 9 (show c.toNat ≠ 9 by omega)), if_neg (hne 10 (show c.toNat ≠ 10 by omega)),
        if_neg (hne 12 (show c.toNat ≠ 12 by omega)), if_neg (hne 13 (show c.toNat ≠ 13 by omega))]
    simp only [asciiUnit, hshort]
    rw [if_pos ⟨hlow, by omega⟩, Char.ofNat_toNat]

theorem asciiQuote_units {s : String} (h : plain s = true) : asciiQuote (units s) = s.toList := by
  have hlist : ∀ cs : List Char, cs.all plainChar = true →
      asciiQuote (cs.flatMap charUnits) = cs := by
    intro cs
    induction cs with
    | nil => exact fun _ => rfl
    | cons c cs ih =>
      intro hcs
      rw [List.all_cons, Bool.and_eq_true] at hcs
      obtain ⟨u, hunits, -, hu⟩ := charUnits_of_plain hcs.1
      rw [List.flatMap_cons, hunits, List.singleton_append, asciiQuote_cons, hu, ih hcs.2]
      rfl
  exact hlist s.toList h

theorem portable_cons {u : CodeUnit} {s : List CodeUnit} (hu : u.1 < 127) (hs : portable s = true) :
    portable (u :: s) = true := by
  have hunit : portableUnit u = true := by simp [portableUnit, hu]
  cases s with
  | nil => exact hunit
  | cons v s =>
    have hhigh : isHighSurrogate u = false := by
      simp only [isHighSurrogate, Bool.and_eq_false_iff, decide_eq_false_iff_not]
      omega
    simp only [portable, hhigh, hunit, hs, Bool.false_and, Bool.not_false, Bool.and_self]

theorem portable_units {s : String} (h : plain s = true) : portable (units s) = true := by
  have hlist : ∀ cs : List Char, cs.all plainChar = true →
      portable (cs.flatMap charUnits) = true := by
    intro cs
    induction cs with
    | nil => exact fun _ => rfl
    | cons c cs ih =>
      intro hcs
      rw [List.all_cons, Bool.and_eq_true] at hcs
      obtain ⟨u, hunits, hnat, -⟩ := charUnits_of_plain hcs.1
      have hc := hcs.1
      simp only [plainChar, Bool.and_eq_true, decide_eq_true_eq] at hc
      rw [List.flatMap_cons, hunits]
      exact portable_cons (by omega) (ih hcs.2)
  exact hlist s.toList h

/-! ## ASCII -/

theorem ascii_unitEscape (n : ℕ) :
    (Json.unitEscape n).all (fun c => c.toNat < 128) = true := by
  have hdigit : ∀ a : Fin 16, (Json.hexDigit a).toNat < 128 := by decide
  have hlt : ∀ n : ℕ, n % 16 < 16 := fun n => Nat.mod_lt n (by decide)
  have h := fun n => hdigit ⟨n % 16, hlt n⟩
  simp only [Json.unitEscape, List.all_cons, List.all_nil, h, decide_true, Bool.and_true]
  decide

theorem ascii_shortEscape {u : CodeUnit} {c : Char} (h : shortEscape? u = some c) :
    c.toNat < 128 := by
  unfold shortEscape? at h
  repeat' split at h
  all_goals cases h
  all_goals decide

theorem ascii_asciiQuote (s : List CodeUnit) :
    (asciiQuote s).all (fun c => c.toNat < 128) = true := by
  rw [asciiQuote, List.all_flatMap, List.all_eq_true]
  intro u _
  unfold asciiUnit
  split
  · rename_i c hc
    have hlt := ascii_shortEscape hc
    simp [hlt]
  · split
    · rename_i hprintable
      have hsurrogate : isSurrogate u = false := by
        simp only [isSurrogate, isHighSurrogate, isLowSurrogate, Bool.or_eq_false_iff,
          Bool.and_eq_false_iff, decide_eq_false_iff_not]
        omega
      rw [List.all_cons, toNat_ofNat_unit hsurrogate]
      simp
      omega
    · exact ascii_unitEscape u.1

theorem ascii_literal (s : List CodeUnit) :
    (literal asciiQuote s).all (fun c => c.toNat < 128) = true := by
  rw [literal, List.all_append, List.all_cons, ascii_asciiQuote]
  rfl

section Ascii

variable {ν : Type} {number : ν → List Char}

mutual

/-- What is written with every other character escaped is ASCII. -/
theorem ascii_render (hnumber : ∀ n, (number n).all (fun c => c.toNat < 128) = true) :
    (t : JsonTree ν) → (render asciiQuote number t).all (fun c => c.toNat < 128) = true
  | null => rfl
  | bool true => rfl
  | bool false => rfl
  | num n => hnumber n
  | str s => ascii_literal s
  | arr [] => rfl
  | arr (a :: items) => by
    rw [render, List.all_append, List.all_append, List.all_cons, ascii_render hnumber a,
      ascii_renderItems hnumber items]
    rfl
  | obj [] => rfl
  | obj ((k, a) :: fields) => by
    rw [render, List.all_append, List.all_append, List.all_append, List.all_cons, List.all_cons,
      ascii_literal k, ascii_render hnumber a, ascii_renderFields hnumber fields]
    rfl

theorem ascii_renderItems (hnumber : ∀ n, (number n).all (fun c => c.toNat < 128) = true) :
    (items : List (JsonTree ν)) →
    (renderItems asciiQuote number items).all (fun c => c.toNat < 128) = true
  | [] => rfl
  | a :: items => by
    rw [renderItems, List.all_append, List.all_cons, ascii_render hnumber a,
      ascii_renderItems hnumber items]
    rfl

theorem ascii_renderFields (hnumber : ∀ n, (number n).all (fun c => c.toNat < 128) = true) :
    (fields : List (List CodeUnit × JsonTree ν)) →
    (renderFields asciiQuote number fields).all (fun c => c.toNat < 128) = true
  | [] => rfl
  | (k, a) :: fields => by
    rw [renderFields, List.all_append, List.all_append, List.all_cons, List.all_cons,
      ascii_literal k, ascii_render hnumber a, ascii_renderFields hnumber fields]
    rfl

end

end Ascii

/-! ## Documents -/

variable {ν : Type}

mutual

/-- Every name and every string is portable. -/
def Portable : JsonTree ν → Prop
  | str s => portable s = true
  | arr items => PortableItems items
  | obj fields => PortableFields fields
  | _ => True

def PortableItems : List (JsonTree ν) → Prop
  | [] => True
  | a :: items => Portable a ∧ PortableItems items

def PortableFields : List (List CodeUnit × JsonTree ν) → Prop
  | [] => True
  | (k, a) :: fields => portable k = true ∧ Portable a ∧ PortableFields fields

end

theorem portableItems_iff {items : List (JsonTree ν)} :
    PortableItems items ↔ ∀ a ∈ items, Portable a := by
  induction items with
  | nil => simp [PortableItems]
  | cons a items ih => simp [PortableItems, ih]

theorem portableFields_iff {fields : List (List CodeUnit × JsonTree ν)} :
    PortableFields fields ↔ ∀ e ∈ fields, portable e.1 = true ∧ Portable e.2 := by
  induction fields with
  | nil => simp [PortableFields]
  | cons e fields ih => simp [PortableFields, ih, and_assoc]

theorem length_wellFormedUnit_pos (u : CodeUnit) : 1 ≤ (asciiUnit u).length := by
  unfold asciiUnit
  repeat' split
  all_goals simp [Json.unitEscape]

/-- A portable unit is written alike, any other one shorter without the escape. -/
theorem length_wellFormedUnit (u : CodeUnit) :
    (wellFormedUnit u).length ≤ (asciiUnit u).length := by
  cases h : portableUnit u with
  | true => rw [wellFormedUnit_eq h]
  | false =>
    obtain ⟨⟨c, hc, -⟩, -⟩ := not_portableUnit h
    rw [hc]
    exact length_wellFormedUnit_pos u

theorem length_wellFormedQuote (s : List CodeUnit) :
    (wellFormedQuote s).length ≤ (asciiQuote s).length := by
  induction s using wellFormedQuote.induct with
  | case1 high low rest hpair ih =>
    rw [wellFormedQuote, if_pos hpair, asciiQuote_cons, asciiQuote_cons]
    have hpos := length_wellFormedUnit_pos high
    simp only [List.length_cons, List.length_append]
    omega
  | case2 high low rest hpair ih =>
    rw [wellFormedQuote, if_neg hpair, asciiQuote_cons]
    have hunit := length_wellFormedUnit high
    simp only [List.length_append]
    omega
  | case3 u =>
    rw [wellFormedQuote, asciiQuote_cons]
    have hunit := length_wellFormedUnit u
    simp only [List.length_append]
    omega
  | case4 => exact Nat.le_refl _

/-- The escape of a unit that is not portable is longer than the unit. -/
theorem portableUnit_of_length {u : CodeUnit}
    (h : (asciiUnit u).length ≤ (wellFormedUnit u).length) :
    portableUnit u = true := by
  cases hunit : portableUnit u with
  | true => rfl
  | false =>
    obtain ⟨⟨c, hc, -⟩, hescape⟩ := not_portableUnit hunit
    rw [hc, hescape] at h
    exact absurd h (by simp [Json.unitEscape])

/-- Escapes that lengthen a string tell the spellings apart. -/
theorem portable_of_length {s : List CodeUnit}
    (h : (asciiQuote s).length ≤ (wellFormedQuote s).length) : portable s = true := by
  induction s using wellFormedQuote.induct with
  | case1 high low rest hpair ih =>
    have hrest := length_wellFormedQuote rest
    have hhigh := length_wellFormedUnit_pos high
    have hlow := length_wellFormedUnit_pos low
    rw [wellFormedQuote, if_pos hpair, asciiQuote_cons, asciiQuote_cons] at h
    simp only [List.length_cons, List.length_append] at h
    omega
  | case2 high low rest hpair ih =>
    have hunit := length_wellFormedUnit high
    have hrest := length_wellFormedQuote (low :: rest)
    rw [wellFormedQuote, if_neg hpair, asciiQuote_cons] at h
    simp only [List.length_append] at h
    simp only [portable, portableUnit_of_length (u := high) (by omega), ih (by omega), hpair,
      Bool.not_false, Bool.and_self]
  | case3 u =>
    rw [wellFormedQuote, asciiQuote_cons] at h
    simp only [List.length_append] at h
    rw [portable, portableUnit_of_length (u := u) (by omega)]
  | case4 => rfl

section Render

variable {number : ν → List Char}

theorem length_literal (quote : List CodeUnit → List Char) (s : List CodeUnit) :
    (literal quote s).length = (quote s).length + 2 := by
  simp [literal]

mutual

theorem length_render : (t : JsonTree ν) →
    (render wellFormedQuote number t).length ≤ (render asciiQuote number t).length
  | null => Nat.le_refl _
  | bool true => Nat.le_refl _
  | bool false => Nat.le_refl _
  | num _ => Nat.le_refl _
  | str s => by
    simp only [render, length_literal]
    have hs := length_wellFormedQuote s
    omega
  | arr [] => Nat.le_refl _
  | arr (a :: items) => by
    have ha := length_render a
    have hitems := length_renderItems items
    simp only [render, List.length_cons, List.length_append]
    omega
  | obj [] => Nat.le_refl _
  | obj ((k, a) :: fields) => by
    have hk := length_wellFormedQuote k
    have ha := length_render a
    have hfields := length_renderFields fields
    simp only [render, List.length_cons, List.length_append, length_literal]
    omega

theorem length_renderItems : (items : List (JsonTree ν)) →
    (renderItems wellFormedQuote number items).length ≤
      (renderItems asciiQuote number items).length
  | [] => Nat.le_refl _
  | a :: items => by
    have ha := length_render a
    have hitems := length_renderItems items
    simp only [renderItems, List.length_cons, List.length_append]
    omega

theorem length_renderFields : (fields : List (List CodeUnit × JsonTree ν)) →
    (renderFields wellFormedQuote number fields).length ≤
      (renderFields asciiQuote number fields).length
  | [] => Nat.le_refl _
  | (k, a) :: fields => by
    have hk := length_wellFormedQuote k
    have ha := length_render a
    have hfields := length_renderFields fields
    simp only [renderFields, List.length_cons, List.length_append, length_literal]
    omega

end

mutual

theorem portable_of_render : (t : JsonTree ν) →
    (render asciiQuote number t).length ≤ (render wellFormedQuote number t).length → Portable t
  | null, _ => trivial
  | bool _, _ => trivial
  | num _, _ => trivial
  | str s, h => by
    simp only [render, length_literal] at h
    exact portable_of_length (by omega)
  | arr [], _ => trivial
  | arr (a :: items), h => by
    have ha := @length_render ν number a
    have hitems := @length_renderItems ν number items
    simp only [render, List.length_cons, List.length_append] at h
    exact ⟨portable_of_render a (by omega), portable_of_renderItems items (by omega)⟩
  | obj [], _ => trivial
  | obj ((k, a) :: fields), h => by
    have hk := length_wellFormedQuote k
    have ha := @length_render ν number a
    have hfields := @length_renderFields ν number fields
    simp only [render, List.length_cons, List.length_append, length_literal] at h
    exact ⟨portable_of_length (by omega), portable_of_render a (by omega),
      portable_of_renderFields fields (by omega)⟩

theorem portable_of_renderItems : (items : List (JsonTree ν)) →
    (renderItems asciiQuote number items).length ≤
      (renderItems wellFormedQuote number items).length → PortableItems items
  | [], _ => trivial
  | a :: items, h => by
    have ha := @length_render ν number a
    have hitems := @length_renderItems ν number items
    simp only [renderItems, List.length_cons, List.length_append] at h
    exact ⟨portable_of_render a (by omega), portable_of_renderItems items (by omega)⟩

theorem portable_of_renderFields : (fields : List (List CodeUnit × JsonTree ν)) →
    (renderFields asciiQuote number fields).length ≤
      (renderFields wellFormedQuote number fields).length → PortableFields fields
  | [], _ => trivial
  | (k, a) :: fields, h => by
    have hk := length_wellFormedQuote k
    have ha := @length_render ν number a
    have hfields := @length_renderFields ν number fields
    simp only [renderFields, List.length_cons, List.length_append, length_literal] at h
    exact ⟨portable_of_length (by omega), portable_of_render a (by omega),
      portable_of_renderFields fields (by omega)⟩

end

theorem literal_of_portable {s : List CodeUnit} (h : portable s = true) :
    literal wellFormedQuote s = literal asciiQuote s := by
  rw [literal, literal, (quotes_eq_iff s).mpr h]

mutual

theorem render_of_portable : (t : JsonTree ν) → Portable t →
    render wellFormedQuote number t = render asciiQuote number t
  | null, _ => rfl
  | bool true, _ => rfl
  | bool false, _ => rfl
  | num _, _ => rfl
  | str s, h => by
    rw [Portable] at h
    rw [render, render, literal_of_portable h]
  | arr [], _ => rfl
  | arr (a :: items), h => by
    rw [Portable, PortableItems] at h
    rw [render, render, render_of_portable a h.1, renderItems_of_portable items h.2]
  | obj [], _ => rfl
  | obj ((k, a) :: fields), h => by
    rw [Portable, PortableFields] at h
    rw [render, render, literal_of_portable h.1, render_of_portable a h.2.1,
      renderFields_of_portable fields h.2.2]

theorem renderItems_of_portable : (items : List (JsonTree ν)) → PortableItems items →
    renderItems wellFormedQuote number items = renderItems asciiQuote number items
  | [], _ => rfl
  | a :: items, h => by
    rw [PortableItems] at h
    rw [renderItems, renderItems, render_of_portable a h.1, renderItems_of_portable items h.2]

theorem renderFields_of_portable : (fields : List (List CodeUnit × JsonTree ν)) →
    PortableFields fields →
    renderFields wellFormedQuote number fields = renderFields asciiQuote number fields
  | [], _ => rfl
  | (k, a) :: fields, h => by
    rw [PortableFields] at h
    rw [renderFields, renderFields, literal_of_portable h.1, render_of_portable a h.2.1,
      renderFields_of_portable fields h.2.2]

end

/-- The two texts of a document agree exactly on portable documents. -/
theorem render_eq_iff (t : JsonTree ν) :
    render wellFormedQuote number t = render asciiQuote number t ↔ Portable t :=
  ⟨fun h => portable_of_render t (by rw [h]), render_of_portable t⟩

end Render

end Library.JsonTree
