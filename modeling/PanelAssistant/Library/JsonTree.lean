import Mathlib.Data.List.Lex
import Mathlib.Data.List.Sort
import PanelAssistant.Library.Text

/-!
# JSON texts read by a grammar

The grammar of JSON over a text, with nothing decided that two implementations may decide
differently: numbers stay as they are written, names may repeat, and a string is the list of its
UTF-16 code units, so that an unpaired surrogate is a string like any other. An implementation
gives a meaning to the numbers and to repeated names (`evaluate`) and writes documents with its own
spelling of strings and numbers (`render`).

A text written without blanks by any spelling that the grammar reads back is read as the document
it was written from (`parse_render`).
-/

namespace Library

abbrev CodeUnit := Fin 65536

instance neZero_codeUnits : NeZero 65536 := ⟨by decide⟩

/-- A JSON document over a type of numbers. -/
inductive JsonTree (ν : Type) where
  | null
  | bool (b : Bool)
  | num (n : ν)
  | str (units : List CodeUnit)
  | arr (items : List (JsonTree ν))
  | obj (fields : List (List CodeUnit × JsonTree ν))

namespace JsonTree

variable {ν μ : Type}

/-! ## Code units -/

def isHighSurrogate (u : CodeUnit) : Bool := 55296 ≤ u.1 && u.1 < 56320

def isLowSurrogate (u : CodeUnit) : Bool := 56320 ≤ u.1 && u.1 < 57344

def isSurrogate (u : CodeUnit) : Bool := isHighSurrogate u || isLowSurrogate u

/-- The character of a surrogate pair. -/
def pairChar (high low : CodeUnit) : Char :=
  Char.ofNat (65536 + (high.1 - 55296) * 1024 + (low.1 - 56320))

/-- The code units of a character. -/
def charUnits (c : Char) : List CodeUnit :=
  if c.toNat < 65536 then [Fin.ofNat 65536 c.toNat]
  else [Fin.ofNat 65536 (55296 + (c.toNat - 65536) / 1024),
    Fin.ofNat 65536 (56320 + (c.toNat - 65536) % 1024)]

/-- The code units of a text. -/
def units (s : String) : List CodeUnit := s.toList.flatMap charUnits

/-- The code points of a string: pairs are joined, other surrogates stay. -/
def codePoints : List CodeUnit → List ℕ
  | high :: low :: rest =>
    if isHighSurrogate high && isLowSurrogate low then (pairChar high low).toNat :: codePoints rest
    else high.1 :: codePoints (low :: rest)
  | [u] => [u.1]
  | [] => []

/-! ## The grammar -/

def isBlank (c : Char) : Bool := c == ' ' || c == '\t' || c == '\n' || c == '\r'

def skipBlanks (cs : List Char) : List Char := cs.dropWhile isBlank

def hexValue? (c : Char) : Option ℕ :=
  if Text.isDigit c then some (c.toNat - '0'.toNat)
  else if 'a' ≤ c ∧ c ≤ 'f' then some (c.toNat - 'a'.toNat + 10)
  else if 'A' ≤ c ∧ c ≤ 'F' then some (c.toNat - 'A'.toNat + 10)
  else none

/-- The unit that four hexadecimal digits spell. -/
def hexUnit? (a b c d : Char) : Option CodeUnit :=
  (hexValue? a).bind fun a => (hexValue? b).bind fun b => (hexValue? c).bind fun c =>
    (hexValue? d).map fun d => Fin.ofNat 65536 (a * 4096 + b * 256 + c * 16 + d)

def simpleEscape? (c : Char) : Option CodeUnit :=
  if c = '"' then some 34
  else if c = '\\' then some 92
  else if c = '/' then some 47
  else if c = 'b' then some 8
  else if c = 'f' then some 12
  else if c = 'n' then some 10
  else if c = 'r' then some 13
  else if c = 't' then some 9
  else none

/-- The rest of a string after its opening quote, and what follows the closing one. -/
def parseUnits : List Char → Option (List CodeUnit × List Char)
  | [] => none
  | c :: rest =>
    if c = '"' then some ([], rest)
    else if c = '\\' then
      match rest with
      | [] => none
      | e :: rest =>
        if e = 'u' then
          match rest with
          | w :: x :: y :: z :: rest =>
            (hexUnit? w x y z).bind fun u => (parseUnits rest).map fun p => (u :: p.1, p.2)
          | _ => none
        else (simpleEscape? e).bind fun u => (parseUnits rest).map fun p => (u :: p.1, p.2)
    else if c.toNat < 32 then none
    else (parseUnits rest).map fun p => (charUnits c ++ p.1, p.2)

/-- The sign of a number. -/
def splitSign : List Char → List Char × List Char
  | '-' :: rest => (['-'], rest)
  | cs => ([], cs)

/-- `0` or digits that do not start with it. -/
def splitWhole : List Char → List Char × List Char
  | '0' :: rest => (['0'], rest)
  | cs => (cs.takeWhile Text.isDigit, cs.dropWhile Text.isDigit)

/-- A fraction, where there is one. -/
def splitFraction (cs : List Char) : List Char × List Char :=
  match cs with
  | '.' :: rest =>
    let digits := rest.takeWhile Text.isDigit
    if digits.isEmpty then ([], cs) else ('.' :: digits, rest.dropWhile Text.isDigit)
  | _ => ([], cs)

/-- An exponent, where there is one. -/
def splitExponent (cs : List Char) : List Char × List Char :=
  match cs with
  | e :: rest =>
    if e = 'e' ∨ e = 'E' then
      let signed := match rest with
        | '+' :: tail => (['+'], tail)
        | _ => splitSign rest
      let digits := signed.2.takeWhile Text.isDigit
      if digits.isEmpty then ([], cs)
      else (e :: signed.1 ++ digits, signed.2.dropWhile Text.isDigit)
    else ([], cs)
  | [] => ([], [])

/-- The longest number a text starts with. -/
def parseNumber (cs : List Char) : Option (List Char × List Char) :=
  let signed := splitSign cs
  let whole := splitWhole signed.2
  if whole.1.isEmpty then none
  else
    let fraction := splitFraction whole.2
    let exponent := splitExponent fraction.2
    some (signed.1 ++ whole.1 ++ fraction.1 ++ exponent.1, exponent.2)

/-- What a literal name leaves of a text. -/
def parseName (name : String) (t : JsonTree (List Char)) (cs : List Char) :
    Option (JsonTree (List Char) × List Char) :=
  (Text.after? name.toList cs).map fun rest => (t, rest)

mutual

/-- A document at the start of a text, after blanks. -/
def parseValue : ℕ → List Char → Option (JsonTree (List Char) × List Char)
  | 0, _ => none
  | fuel + 1, cs =>
    match skipBlanks cs with
    | [] => none
    | c :: rest =>
      if c = '"' then (parseUnits rest).map fun p => (str p.1, p.2)
      else if c = '[' then
        match skipBlanks rest with
        | ']' :: rest => some (arr [], rest)
        | _ => (parseItems fuel rest).map fun p => (arr p.1, p.2)
      else if c = '\x7b' then
        match skipBlanks rest with
        | '\x7d' :: rest => some (obj [], rest)
        | _ => (parseFields fuel rest).map fun p => (obj p.1, p.2)
      else if c = 'n' then parseName "null" null (c :: rest)
      else if c = 't' then parseName "true" (bool true) (c :: rest)
      else if c = 'f' then parseName "false" (bool false) (c :: rest)
      else (parseNumber (c :: rest)).map fun p => (num p.1, p.2)

/-- The items of an array up to its closing bracket. -/
def parseItems : ℕ → List Char → Option (List (JsonTree (List Char)) × List Char)
  | 0, _ => none
  | fuel + 1, cs =>
    (parseValue fuel cs).bind fun item =>
      match skipBlanks item.2 with
      | ',' :: rest => (parseItems fuel rest).map fun p => (item.1 :: p.1, p.2)
      | ']' :: rest => some ([item.1], rest)
      | _ => none

/-- The fields of an object up to its closing brace. -/
def parseFields : ℕ → List Char → Option (List (List CodeUnit × JsonTree (List Char)) × List Char)
  | 0, _ => none
  | fuel + 1, cs =>
    match skipBlanks cs with
    | '"' :: rest =>
      (parseUnits rest).bind fun key =>
        match skipBlanks key.2 with
        | ':' :: rest =>
          (parseValue fuel rest).bind fun item =>
            match skipBlanks item.2 with
            | ',' :: rest => (parseFields fuel rest).map fun p => ((key.1, item.1) :: p.1, p.2)
            | '\x7d' :: rest => some ([(key.1, item.1)], rest)
            | _ => none
        | _ => none
    | _ => none

end

/-- The document a whole text spells. -/
def parse (text : List Char) : Option (JsonTree (List Char)) :=
  (parseValue (text.length + 1) text).bind fun p =>
    if (skipBlanks p.2).isEmpty then some p.1 else none

example : (parse " [1e0,\"\\ud83d\\u0041\",true]\n".toList).isSome = true ∧
    (parse "[01]".toList).isSome = false := by decide +kernel

/-! ## Writing -/

section Render

variable (quote : List CodeUnit → List Char) (number : ν → List Char)

/-- A string literal. -/
def literal (s : List CodeUnit) : List Char := '"' :: quote s ++ ['"']

mutual

/-- The text without blanks, in the order of the fields. -/
def render : JsonTree ν → List Char
  | null => ['n', 'u', 'l', 'l']
  | bool true => ['t', 'r', 'u', 'e']
  | bool false => ['f', 'a', 'l', 's', 'e']
  | num n => number n
  | str s => literal quote s
  | arr [] => ['[', ']']
  | arr (a :: items) => '[' :: render a ++ renderItems items ++ [']']
  | obj [] => ['\x7b', '\x7d']
  | obj ((k, a) :: fields) =>
    '\x7b' :: literal quote k ++ ':' :: render a ++ renderFields fields ++ ['\x7d']

/-- The items after the first one. -/
def renderItems : List (JsonTree ν) → List Char
  | [] => []
  | a :: items => ',' :: render a ++ renderItems items

/-- The fields after the first one. -/
def renderFields : List (List CodeUnit × JsonTree ν) → List Char
  | [] => []
  | (k, a) :: fields => ',' :: literal quote k ++ ':' :: render a ++ renderFields fields

end

end Render

mutual

/-- A document with other numbers. -/
def map (f : ν → μ) : JsonTree ν → JsonTree μ
  | null => null
  | bool b => bool b
  | num n => num (f n)
  | str s => str s
  | arr items => arr (mapItems f items)
  | obj fields => obj (mapFields f fields)

def mapItems (f : ν → μ) : List (JsonTree ν) → List (JsonTree μ)
  | [] => []
  | a :: items => map f a :: mapItems f items

def mapFields (f : ν → μ) : List (List CodeUnit × JsonTree ν) → List (List CodeUnit × JsonTree μ)
  | [] => []
  | (k, a) :: fields => (k, map f a) :: mapFields f fields

end

section Render

variable (quote : List CodeUnit → List Char) (number : μ → List Char) (f : ν → μ)

mutual

/-- Writing a document with other numbers is writing it with their texts. -/
theorem render_map : (t : JsonTree ν) →
    render quote number (map f t) = render quote (fun n => number (f n)) t
  | null => rfl
  | bool true => rfl
  | bool false => rfl
  | num _ => rfl
  | str _ => rfl
  | arr [] => rfl
  | arr (a :: items) => by
    rw [map, mapItems, render, render, render_map a, renderItems_map items]
  | obj [] => rfl
  | obj ((k, a) :: fields) => by
    rw [map, mapFields, render, render, render_map a, renderFields_map fields]

theorem renderItems_map : (items : List (JsonTree ν)) →
    renderItems quote number (mapItems f items) = renderItems quote (fun n => number (f n)) items
  | [] => rfl
  | a :: items => by
    rw [mapItems, renderItems, renderItems, render_map a, renderItems_map items]

theorem renderFields_map : (fields : List (List CodeUnit × JsonTree ν)) →
    renderFields quote number (mapFields f fields) =
      renderFields quote (fun n => number (f n)) fields
  | [] => rfl
  | (k, a) :: fields => by
    rw [mapFields, renderFields, renderFields, render_map a, renderFields_map fields]

end

end Render

theorem mapItems_eq (f : ν → μ) (items : List (JsonTree ν)) :
    mapItems f items = items.map (map f) := by
  induction items with
  | nil => rfl
  | cons a items ih => rw [mapItems, ih, List.map_cons]

theorem mapFields_eq (f : ν → μ) (fields : List (List CodeUnit × JsonTree ν)) :
    mapFields f fields = fields.map fun e => (e.1, map f e.2) := by
  induction fields with
  | nil => rfl
  | cons e fields ih => rw [mapFields, ih, List.map_cons]

/-! ## Reading what was written -/

/-- What may follow a number. -/
def Delimited (s : List Char) : Prop := ∀ c ∈ s.head?, c = ',' ∨ c = ']' ∨ c = '\x7d' ∨ c = '\n'

/-- A spelling of strings that the grammar reads back. -/
def Reads (quote : List CodeUnit → List Char) : Prop :=
  ∀ s rest, parseUnits (quote s ++ '"' :: rest) = some (s, rest)

/-- A text the grammar reads as one number. -/
structure IsNumber (cs : List Char) : Prop where
  head : ∃ c rest, cs = c :: rest ∧ (Text.isDigit c = true ∨ c = '-')
  whole : ∀ rest, Delimited rest → parseNumber (cs ++ rest) = some (cs, rest)

theorem skipBlanks_cons {c : Char} (h : isBlank c = false) (rest : List Char) :
    skipBlanks (c :: rest) = c :: rest := by
  rw [skipBlanks, List.dropWhile_cons_of_neg (by simp [h])]

theorem number_head {c : Char} (h : Text.isDigit c = true ∨ c = '-') :
    isBlank c = false ∧ c ≠ '"' ∧ c ≠ '[' ∧ c ≠ ']' ∧ c ≠ '\x7b' ∧ c ≠ 'n' ∧ c ≠ 't' ∧ c ≠ 'f' := by
  have hne : ∀ d : Char, Text.isDigit d = false → d ≠ '-' → c ≠ d := by
    rintro d hd hminus rfl
    rcases h with h | h
    · rw [hd] at h; cases h
    · exact hminus h
  refine ⟨?_, ?_, ?_, ?_, ?_, ?_, ?_, ?_⟩
  · simp only [isBlank, Bool.or_eq_false_iff, beq_eq_false_iff_ne]
    refine ⟨⟨⟨?_, ?_⟩, ?_⟩, ?_⟩ <;> exact hne _ (by decide) (by decide)
  all_goals exact hne _ (by decide) (by decide)

section ReadBack

variable {quote : List CodeUnit → List Char} {number : ν → List Char}

theorem render_head (hnumber : ∀ n, IsNumber (number n)) (t : JsonTree ν) :
    ∃ c rest, render quote number t = c :: rest ∧ isBlank c = false ∧ c ≠ ']' := by
  cases t with
  | null => exact ⟨_, _, rfl, by decide, by decide⟩
  | bool b => cases b <;> exact ⟨_, _, rfl, by decide, by decide⟩
  | num n =>
    obtain ⟨c, rest, hcs, hc⟩ := (hnumber n).head
    obtain ⟨hblank, -, -, hclose, -⟩ := number_head hc
    exact ⟨c, rest, hcs, hblank, hclose⟩
  | str s => exact ⟨_, _, rfl, by decide, by decide⟩
  | arr items => cases items <;> exact ⟨_, _, rfl, by decide, by decide⟩
  | obj fields => cases fields <;> exact ⟨_, _, rfl, by decide, by decide⟩

theorem delimited_items (items : List (JsonTree ν)) (s : List Char) :
    Delimited (renderItems quote number items ++ ']' :: s) := by
  intro c hc
  cases items <;> simp [renderItems] at hc <;> simp [← hc]

theorem delimited_fields (fields : List (List CodeUnit × JsonTree ν)) (s : List Char) :
    Delimited (renderFields quote number fields ++ '\x7d' :: s) := by
  intro c hc
  cases fields <;> simp [renderFields] at hc <;> simp [← hc]

mutual

/-- A written document is read back, whatever delimits it. -/
theorem parseValue_render (hquote : Reads quote) (hnumber : ∀ n, IsNumber (number n)) :
    (t : JsonTree ν) → (fuel : ℕ) → (s : List Char) → (render quote number t).length ≤ fuel →
      Delimited s → parseValue fuel (render quote number t ++ s) = some (map number t, s)
  | t, 0, s, hfuel, _ => by
    obtain ⟨c, rest, htext, -⟩ := @render_head ν quote number hnumber t
    rw [htext] at hfuel
    exact absurd hfuel (by simp)
  | null, fuel + 1, s, _, _ => rfl
  | bool true, fuel + 1, s, _, _ => rfl
  | bool false, fuel + 1, s, _, _ => rfl
  | num n, fuel + 1, s, _, hs => by
    obtain ⟨c, rest, htext, hc⟩ := (hnumber n).head
    have hwhole := (hnumber n).whole s hs
    obtain ⟨hblank, hquote, hopen, -, hbrace, hn, ht, hf⟩ := number_head hc
    rw [htext, List.cons_append] at hwhole
    simp only [render, htext, List.cons_append, parseValue, skipBlanks_cons hblank, hquote, hopen,
      hbrace, hn, ht, hf, if_false, hwhole, Option.map_some, map]
  | str u, fuel + 1, s, _, _ => by
    have hread := hquote u s
    simp only [render, literal, List.cons_append, List.append_assoc, List.nil_append, parseValue,
      skipBlanks_cons (show isBlank '"' = false by decide), if_true, hread, Option.map_some, map]
  | arr [], fuel + 1, s, _, _ => rfl
  | arr (a :: items), fuel + 1, s, hfuel, _ => by
    simp only [render, List.length_cons, List.length_append] at hfuel
    obtain ⟨c, rest, htext, hblank, hclose⟩ := @render_head ν quote number hnumber a
    have hfirst := parseValue_render hquote hnumber a (fuel - 1)
      (renderItems quote number items ++ ']' :: s) (by simp at hfuel; omega)
      (delimited_items items s)
    have hitems := parseItems_render hquote hnumber items (fuel - 1) (map number a) _ s
      (by rw [htext] at hfuel; simp at hfuel; omega) hfirst
    have hpos : fuel - 1 + 1 = fuel := by
      simp at hfuel
      omega
    rw [hpos, htext, List.cons_append] at hitems
    simp only [render, htext, List.cons_append, List.append_assoc, List.nil_append, parseValue,
      skipBlanks_cons (show isBlank '[' = false by decide), skipBlanks_cons hblank]
    simp [hitems, hclose, map, mapItems]
  | obj [], fuel + 1, s, _, _ => rfl
  | obj ((k, a) :: fields), fuel + 1, s, hfuel, _ => by
    simp only [render, literal, List.length_cons, List.length_append] at hfuel
    have hfirst := parseValue_render hquote hnumber a (fuel - 1)
      (renderFields quote number fields ++ '\x7d' :: s) (by simp at hfuel; omega)
      (delimited_fields fields s)
    have hfields := parseFields_render hquote hnumber fields (fuel - 1) k (map number a) _ s
      (by simp at hfuel; omega) hfirst
    have hpos : fuel - 1 + 1 = fuel := by
      simp at hfuel
      omega
    rw [hpos] at hfields
    simp only [literal, List.cons_append, List.append_assoc, List.nil_append] at hfields
    simp only [render, literal, List.cons_append, List.append_assoc, List.nil_append, parseValue,
      skipBlanks_cons (show isBlank '\x7b' = false by decide),
      skipBlanks_cons (show isBlank '"' = false by decide)]
    simp [hfields, map, mapFields]

/-- After one item, the written items that follow it. -/
theorem parseItems_render (hquote : Reads quote) (hnumber : ∀ n, IsNumber (number n)) :
    (items : List (JsonTree ν)) → (fuel : ℕ) → (first : JsonTree (List Char)) → (cs s : List Char) →
      (renderItems quote number items).length ≤ fuel →
      parseValue fuel cs = some (first, renderItems quote number items ++ ']' :: s) →
      parseItems (fuel + 1) cs = some (first :: mapItems number items, s)
  | [], fuel, first, cs, s, _, hfirst => by
    rw [parseItems, hfirst]
    rfl
  | a :: items, fuel, first, cs, s, hfuel, hfirst => by
    simp only [renderItems, List.length_cons, List.length_append, List.cons_append] at hfuel
    have hnext := parseValue_render hquote hnumber a (fuel - 1)
      (renderItems quote number items ++ ']' :: s) (by omega) (delimited_items items s)
    have hitems := parseItems_render hquote hnumber items (fuel - 1) (map number a) _ s
      (by
        obtain ⟨c, rest, htext, -⟩ := @render_head ν quote number hnumber a
        rw [htext] at hfuel
        simp at hfuel
        omega) hnext
    have hpos : fuel - 1 + 1 = fuel := by omega
    rw [hpos] at hitems
    rw [parseItems, hfirst, Option.bind_some]
    simp only [renderItems, List.cons_append, List.append_assoc,
      skipBlanks_cons (show isBlank ',' = false by decide)]
    rw [hitems]
    rfl

/-- After one field, the written fields that follow it. -/
theorem parseFields_render (hquote : Reads quote) (hnumber : ∀ n, IsNumber (number n)) :
    (fields : List (List CodeUnit × JsonTree ν)) → (fuel : ℕ) → (k : List CodeUnit) →
      (first : JsonTree (List Char)) → (cs s : List Char) →
      (renderFields quote number fields).length ≤ fuel →
      parseValue fuel cs = some (first, renderFields quote number fields ++ '\x7d' :: s) →
      parseFields (fuel + 1) (literal quote k ++ ':' :: cs) =
        some ((k, first) :: mapFields number fields, s)
  | [], fuel, k, first, cs, s, _, hfirst => by
    have hkey := hquote k (':' :: cs)
    simp only [literal, List.cons_append, List.append_assoc, List.nil_append, parseFields,
      skipBlanks_cons (show isBlank '"' = false by decide), hkey, Option.bind_some,
      skipBlanks_cons (show isBlank ':' = false by decide), hfirst]
    rfl
  | (k', a) :: fields, fuel, k, first, cs, s, hfuel, hfirst => by
    simp only [renderFields, List.length_cons, List.length_append, List.cons_append] at hfuel
    have hnext := parseValue_render hquote hnumber a (fuel - 1)
      (renderFields quote number fields ++ '\x7d' :: s) (by omega) (delimited_fields fields s)
    have hfields := parseFields_render hquote hnumber fields (fuel - 1) k' (map number a) _ s
      (by omega) hnext
    have hpos : fuel - 1 + 1 = fuel := by omega
    rw [hpos] at hfields
    have hkey := hquote k (':' :: cs)
    simp only [literal, List.cons_append, List.append_assoc, List.nil_append, parseFields,
      skipBlanks_cons (show isBlank '"' = false by decide), hkey, Option.bind_some,
      skipBlanks_cons (show isBlank ':' = false by decide), hfirst, renderFields,
      skipBlanks_cons (show isBlank ',' = false by decide)]
    simp only [literal, List.cons_append, List.append_assoc, List.nil_append] at hfields
    rw [hfields]
    rfl

end

theorem parse_render (hquote : Reads quote) (hnumber : ∀ n, IsNumber (number n)) (t : JsonTree ν) :
    parse (render quote number t ++ ['\n']) = some (map number t) := by
  have hread := parseValue_render hquote hnumber t ((render quote number t ++ ['\n']).length + 1)
    ['\n'] (by simp; omega) (by rintro c ⟨⟩; simp)
  rw [parse, hread]
  rfl

end ReadBack

/-! ## Decimal numbers -/

theorem takeWhile_digits {digits s : List Char} (hall : digits.all Text.isDigit = true)
    (hs : ∀ c ∈ s.head?, Text.isDigit c = false) :
    (digits ++ s).takeWhile Text.isDigit = digits ∧ (digits ++ s).dropWhile Text.isDigit = s := by
  rw [List.all_eq_true] at hall
  rw [List.takeWhile_append_of_pos hall, List.dropWhile_append_of_pos hall]
  cases s with
  | nil => simp
  | cons c rest =>
    have hc := hs c rfl
    simp [hc]

theorem not_digit_of_delimited {s : List Char} (hs : Delimited s) :
    ∀ c ∈ s.head?, Text.isDigit c = false ∧ c ≠ '.' ∧ c ≠ 'e' ∧ c ≠ 'E' := by
  intro c hc
  rcases hs c hc with rfl | rfl | rfl | rfl <;> decide

/-- No fraction and no exponent starts at a delimiter. -/
theorem splitTail_of_delimited {s : List Char} (hs : Delimited s) :
    splitFraction s = ([], s) ∧ splitExponent s = ([], s) := by
  cases s with
  | nil => exact ⟨rfl, rfl⟩
  | cons c rest =>
    obtain ⟨-, hdot, he, hE⟩ := not_digit_of_delimited hs c rfl
    constructor
    · unfold splitFraction
      split
      · rename_i heq
        exact absurd (List.cons.inj heq).1 hdot
      · rfl
    · simp only [splitExponent, he, hE, or_self, if_false]

theorem splitSign_of_digit {c : Char} (h : Text.isDigit c = true) (rest : List Char) :
    splitSign (c :: rest) = ([], c :: rest) := by
  unfold splitSign
  split
  · rename_i heq
    rw [(List.cons.inj heq).1] at h
    exact absurd h (by decide)
  · rfl

theorem splitWhole_digits {n : ℕ} {s : List Char} (hs : Delimited s) :
    splitWhole (Nat.toDigits 10 n ++ s) = (Nat.toDigits 10 n, s) := by
  rcases Nat.eq_zero_or_pos n with rfl | hn
  · rfl
  · have hpositive := Text.isPositiveNumeral_toDigits hn
    obtain ⟨htake, hdrop⟩ := takeWhile_digits (Text.all_isDigit_toDigits n)
      fun c hc => (not_digit_of_delimited hs c hc).1
    unfold splitWhole
    split
    · rename_i rest heq
      cases hdigits : Nat.toDigits 10 n with
      | nil => rw [hdigits] at hpositive; cases hpositive
      | cons c tail =>
        rw [hdigits] at heq hpositive
        obtain rfl := (List.cons.inj heq).1
        exact absurd hpositive (by simp [Text.isPositiveNumeral])
    · rw [htake, hdrop]

/-- The decimal digits of a number are a number of the grammar. -/
theorem isNumber_toDigits (n : ℕ) : IsNumber (Nat.toDigits 10 n) := by
  have hall := Text.all_isDigit_toDigits n
  cases hdigits : Nat.toDigits 10 n with
  | nil => exact absurd hdigits Nat.toDigits_ne_nil
  | cons c rest =>
    rw [hdigits, List.all_cons, Bool.and_eq_true] at hall
    refine ⟨⟨c, rest, rfl, Or.inl hall.1⟩, ?_⟩
    intro s hs
    have hwhole := splitWhole_digits (n := n) hs
    obtain ⟨hfraction, hexponent⟩ := splitTail_of_delimited hs
    rw [hdigits, List.cons_append] at hwhole
    simp only [parseNumber, List.cons_append, splitSign_of_digit hall.1, hwhole, hfraction,
      hexponent, List.isEmpty_cons, Bool.false_eq_true, if_false, List.nil_append, List.append_nil]

/-! ## Meaning -/

section Evaluate

variable (number : List Char → Option μ)
  (fields : List (List CodeUnit × JsonTree μ) → Option (List (List CodeUnit × JsonTree μ)))

mutual

/-- The document a text means to an implementation: its numbers, and the fields of an object where
a name may repeat. -/
def evaluate : JsonTree (List Char) → Option (JsonTree μ)
  | null => some null
  | bool b => some (bool b)
  | num n => (number n).map num
  | str s => some (str s)
  | arr items => (evaluateItems items).map arr
  | obj entries => ((evaluateFields entries).bind fields).map obj

def evaluateItems : List (JsonTree (List Char)) → Option (List (JsonTree μ))
  | [] => some []
  | a :: items => (evaluate a).bind fun a => (evaluateItems items).map (a :: ·)

def evaluateFields : List (List CodeUnit × JsonTree (List Char)) →
    Option (List (List CodeUnit × JsonTree μ))
  | [] => some []
  | (k, a) :: entries => (evaluate a).bind fun a => (evaluateFields entries).map ((k, a) :: ·)

end

end Evaluate

mutual

/-- No object names a field twice, and every number satisfies `p`. -/
def Proper (p : ν → Prop) : JsonTree ν → Prop
  | num n => p n
  | arr items => ProperItems p items
  | obj fields => (fields.map Prod.fst).Nodup ∧ ProperFields p fields
  | _ => True

def ProperItems (p : ν → Prop) : List (JsonTree ν) → Prop
  | [] => True
  | a :: items => Proper p a ∧ ProperItems p items

def ProperFields (p : ν → Prop) : List (List CodeUnit × JsonTree ν) → Prop
  | [] => True
  | (_, a) :: fields => Proper p a ∧ ProperFields p fields

end

theorem properItems_iff {p : ν → Prop} {items : List (JsonTree ν)} :
    ProperItems p items ↔ ∀ a ∈ items, Proper p a := by
  induction items with
  | nil => simp [ProperItems]
  | cons a items ih => simp [ProperItems, ih]

theorem properFields_iff {p : ν → Prop} {fields : List (List CodeUnit × JsonTree ν)} :
    ProperFields p fields ↔ ∀ e ∈ fields, Proper p e.2 := by
  induction fields with
  | nil => simp [ProperFields]
  | cons e fields ih => simp [ProperFields, ih]

mutual

theorem Proper.mono {p q : ν → Prop} (hpq : ∀ n, p n → q n) : {t : JsonTree ν} →
    Proper p t → Proper q t
  | null, _ => trivial
  | bool _, _ => trivial
  | str _, _ => trivial
  | num n, h => hpq n h
  | arr _, h => ProperItems.mono hpq h
  | obj _, h => ⟨h.1, ProperFields.mono hpq h.2⟩

theorem ProperItems.mono {p q : ν → Prop} (hpq : ∀ n, p n → q n) :
    {items : List (JsonTree ν)} → ProperItems p items → ProperItems q items
  | [], _ => trivial
  | _ :: _, h => ⟨Proper.mono hpq h.1, ProperItems.mono hpq h.2⟩

theorem ProperFields.mono {p q : ν → Prop} (hpq : ∀ n, p n → q n) :
    {fields : List (List CodeUnit × JsonTree ν)} → ProperFields p fields → ProperFields q fields
  | [], _ => trivial
  | (_, _) :: _, h => ⟨Proper.mono hpq h.1, ProperFields.mono hpq h.2⟩

end

section Evaluate

variable {number : List Char → Option μ}
  {fields : List (List CodeUnit × JsonTree μ) → Option (List (List CodeUnit × JsonTree μ))}
  {spell : ν → List Char} {value : ν → μ}

theorem map_fst_mapFields (f : ν → μ) (entries : List (List CodeUnit × JsonTree ν)) :
    (mapFields f entries).map Prod.fst = entries.map Prod.fst := by
  rw [mapFields_eq, List.map_map]
  rfl

mutual

/-- A document that names no field twice means itself. -/
theorem evaluate_map (hfields : ∀ es, (es.map Prod.fst).Nodup → fields es = some es) :
    (t : JsonTree ν) → Proper (fun n => number (spell n) = some (value n)) t →
      evaluate number fields (map spell t) = some (map value t)
  | null, _ => rfl
  | bool _, _ => rfl
  | str _, _ => rfl
  | num n, h => by
    rw [Proper] at h
    rw [map, evaluate, h]
    rfl
  | arr items, h => by
    rw [Proper] at h
    rw [map, evaluate, evaluateItems_map hfields items h]
    rfl
  | obj entries, h => by
    rw [Proper] at h
    rw [map, evaluate, evaluateFields_map hfields entries h.2, Option.bind_some,
      hfields _ (by rw [map_fst_mapFields]; exact h.1)]
    rfl

theorem evaluateItems_map (hfields : ∀ es, (es.map Prod.fst).Nodup → fields es = some es) :
    (items : List (JsonTree ν)) → ProperItems (fun n => number (spell n) = some (value n)) items →
      evaluateItems number fields (mapItems spell items) = some (mapItems value items)
  | [], _ => rfl
  | a :: items, h => by
    rw [ProperItems] at h
    rw [mapItems, evaluateItems, evaluate_map hfields a h.1, Option.bind_some,
      evaluateItems_map hfields items h.2]
    rfl

theorem evaluateFields_map (hfields : ∀ es, (es.map Prod.fst).Nodup → fields es = some es) :
    (entries : List (List CodeUnit × JsonTree ν)) →
      ProperFields (fun n => number (spell n) = some (value n)) entries →
      evaluateFields number fields (mapFields spell entries) = some (mapFields value entries)
  | [], _ => rfl
  | (k, a) :: entries, h => by
    rw [ProperFields] at h
    rw [mapFields, evaluateFields, evaluate_map hfields a h.1, Option.bind_some,
      evaluateFields_map hfields entries h.2]
    rfl

end

mutual

/-- Where an implementation leaves no name twice, no object of what it reads has one. -/
theorem evaluate_proper (hfields : ∀ es es', fields es = some es' →
      (es'.map Prod.fst).Nodup ∧ ∀ e ∈ es', e ∈ es) :
    (t : JsonTree (List Char)) → (d : JsonTree μ) → evaluate number fields t = some d →
      Proper (fun _ => True) d
  | null, _, h => by
    obtain rfl := Option.some.inj h
    trivial
  | bool _, _, h => by
    obtain rfl := Option.some.inj h
    trivial
  | str _, _, h => by
    obtain rfl := Option.some.inj h
    trivial
  | num n, _, h => by
    obtain ⟨x, -, rfl⟩ := Option.map_eq_some_iff.mp h
    trivial
  | arr items, _, h => by
    obtain ⟨ds, hds, rfl⟩ := Option.map_eq_some_iff.mp h
    exact evaluateItems_proper hfields items ds hds
  | obj entries, _, h => by
    obtain ⟨ds, hds, rfl⟩ := Option.map_eq_some_iff.mp h
    obtain ⟨es, hes, hfs⟩ := Option.bind_eq_some_iff.mp hds
    obtain ⟨hnodup, hsub⟩ := hfields es ds hfs
    have hall := properFields_iff.mp (evaluateFields_proper hfields entries es hes)
    exact ⟨hnodup, properFields_iff.mpr fun e he => hall e (hsub e he)⟩

theorem evaluateItems_proper (hfields : ∀ es es', fields es = some es' →
      (es'.map Prod.fst).Nodup ∧ ∀ e ∈ es', e ∈ es) :
    (items : List (JsonTree (List Char))) → (ds : List (JsonTree μ)) →
      evaluateItems number fields items = some ds → ProperItems (fun _ => True) ds
  | [], _, h => by
    obtain rfl := Option.some.inj h
    trivial
  | a :: items, _, h => by
    obtain ⟨d, hd, hrest⟩ := Option.bind_eq_some_iff.mp h
    obtain ⟨ds, hds, rfl⟩ := Option.map_eq_some_iff.mp hrest
    exact ⟨evaluate_proper hfields a d hd, evaluateItems_proper hfields items ds hds⟩

theorem evaluateFields_proper (hfields : ∀ es es', fields es = some es' →
      (es'.map Prod.fst).Nodup ∧ ∀ e ∈ es', e ∈ es) :
    (entries : List (List CodeUnit × JsonTree (List Char))) →
      (ds : List (List CodeUnit × JsonTree μ)) →
      evaluateFields number fields entries = some ds → ProperFields (fun _ => True) ds
  | [], _, h => by
    obtain rfl := Option.some.inj h
    trivial
  | (k, a) :: entries, _, h => by
    obtain ⟨d, hd, hrest⟩ := Option.bind_eq_some_iff.mp h
    obtain ⟨ds, hds, rfl⟩ := Option.map_eq_some_iff.mp hrest
    exact ⟨evaluate_proper hfields a d hd, evaluateFields_proper hfields entries ds hds⟩

end

end Evaluate

/-! ## Sorted fields -/

section Sorting

variable (rank : List CodeUnit → List ℕ)

def byRank (e f : List CodeUnit × JsonTree ν) : Prop := rank e.1 ≤ rank f.1

instance : DecidableRel (byRank (ν := ν) rank) :=
  fun _ _ => inferInstanceAs (Decidable (_ ≤ _))

mutual

/-- Order the fields of every object by the rank of their names. -/
def sortKeys : JsonTree ν → JsonTree ν
  | arr items => arr (sortItems items)
  | obj fields => obj ((sortFields fields).insertionSort (byRank rank))
  | other => other

def sortItems : List (JsonTree ν) → List (JsonTree ν)
  | [] => []
  | a :: items => sortKeys a :: sortItems items

def sortFields : List (List CodeUnit × JsonTree ν) → List (List CodeUnit × JsonTree ν)
  | [] => []
  | (k, a) :: fields => (k, sortKeys a) :: sortFields fields

end

theorem sortItems_eq (items : List (JsonTree ν)) :
    sortItems rank items = items.map (sortKeys rank) := by
  induction items with
  | nil => rfl
  | cons a items ih => rw [sortItems, ih, List.map_cons]

theorem sortFields_eq (fields : List (List CodeUnit × JsonTree ν)) :
    sortFields rank fields = fields.map fun e => (e.1, sortKeys rank e.2) := by
  induction fields with
  | nil => rfl
  | cons e fields ih => rw [sortFields, ih, List.map_cons]

/-- The value of a field. -/
def field? (fields : List (List CodeUnit × JsonTree ν)) (key : List CodeUnit) :
    Option (JsonTree ν) :=
  (fields.find? fun e => e.1 == key).map Prod.snd

/-- The value of a field that is there. -/
def field (fields : List (List CodeUnit × JsonTree ν)) (key : String) : JsonTree ν :=
  (field? fields (units key)).getD null

theorem field_of_mem {fields : List (List CodeUnit × JsonTree ν)}
    (hnodup : (fields.map Prod.fst).Nodup)
    {k : List CodeUnit} {v : JsonTree ν} (h : (k, v) ∈ fields) : field? fields k = some v := by
  induction fields with
  | nil => cases h
  | cons e fields ih =>
    rw [List.map_cons, List.nodup_cons] at hnodup
    rcases List.mem_cons.mp h with rfl | h
    · simp [field?]
    · have hne : e.1 ≠ k := by
        rintro rfl
        exact hnodup.1 (List.mem_map.mpr ⟨_, h, rfl⟩)
      have hrest := ih hnodup.2 h
      simpa [field?, List.find?_cons, hne] using hrest

/-- The sorted fields of an object with exactly the given names, which are in order. -/
theorem sortKeys_obj {fields : List (List CodeUnit × JsonTree ν)} {names : List String}
    (hnodup : (fields.map Prod.fst).Nodup) (hnames : (fields.map Prod.fst).Perm (names.map units))
    (hsorted : (names.map units).Pairwise fun a b => rank a < rank b) :
    sortKeys rank (obj fields) =
      obj (names.map fun name => (units name, sortKeys rank (field fields name))) := by
  let sorted := (sortFields rank fields).insertionSort (byRank rank)
  have hperm : sorted.Perm (sortFields rank fields) := List.perm_insertionSort _ _
  have hkeys : (sortFields rank fields).map Prod.fst = fields.map Prod.fst := by
    rw [sortFields_eq, List.map_map]
    rfl
  -- both lists of names are sorted, and they are permutations of each other
  have hnamesEq : sorted.map Prod.fst = names.map units := by
    have horder : (sorted.map Prod.fst).Pairwise fun a b => rank a ≤ rank b := by
      rw [List.pairwise_map]
      have : IsTrans (List CodeUnit × JsonTree ν) (byRank rank) := ⟨fun _ _ _ => le_trans⟩
      have : Std.Total (byRank (ν := ν) rank) := ⟨fun _ _ => le_total _ _⟩
      exact List.pairwise_insertionSort (byRank rank) _
    have hp : (sorted.map Prod.fst).Perm (names.map units) :=
      (hperm.map Prod.fst).trans (hkeys ▸ hnames)
    refine @List.Perm.eq_of_pairwise _ (fun a b => rank a ≤ rank b) _ _ ?_ horder
      (hsorted.imp fun h => le_of_lt h) hp
    intro a b ha hb hab hba
    by_contra hne
    have ha := hp.subset ha
    rcases List.pairwise_iff_getElem.mp hsorted with hlt
    obtain ⟨i, hi, rfl⟩ := List.getElem_of_mem ha
    obtain ⟨j, hj, rfl⟩ := List.getElem_of_mem hb
    rcases Nat.lt_trichotomy i j with hij | rfl | hij
    · exact absurd hba (not_le_of_gt (hlt i j hi hj hij))
    · exact hne rfl
    · exact absurd hab (not_le_of_gt (hlt j i hj hi hij))
  have hvalues : ∀ e ∈ sorted, e.2 = sortKeys rank ((field? fields e.1).getD null) := by
    intro e he
    have hmem := hperm.mem_iff.mp he
    rw [sortFields_eq] at hmem
    obtain ⟨f, hf, rfl⟩ := List.mem_map.mp hmem
    rw [field_of_mem hnodup (show (f.1, f.2) ∈ fields from hf)]
    rfl
  have hmap : sorted = (names.map units).map fun key =>
      (key, sortKeys rank ((field? fields key).getD null)) := by
    rw [← hnamesEq, List.map_map]
    conv_lhs => rw [← List.map_id sorted]
    apply List.map_congr_left
    intro e he
    exact Prod.ext rfl (hvalues e he)
  rw [sortKeys]
  change obj sorted = _
  rw [hmap, List.map_map]
  rfl

end Sorting

end JsonTree

end Library
