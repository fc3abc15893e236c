import Mathlib.Data.String.Basic
import Std.Data.String.ToInt
import PanelAssistant.Library.Json

/-!
# The canonical text of a document tells the document

`compact` is a prefix code: a text that starts with a document and goes on with a
delimiter does so in one way (`compact_append_inj`). Hence `compact` is injective, and a
field of a document can be read from its sorted text (`field_eq_of_sorted_text`).
-/

namespace Library.Json

/-! ## String literals -/

def hexValue (c : Char) : Nat :=
  if c.toNat < 'a'.toNat then c.toNat - '0'.toNat else c.toNat - 'a'.toNat + 10

theorem hexValue_hexDigit {n : Nat} (h : n < 16) : hexValue (hexDigit n) = n := by
  have key : ∀ a : Fin 16, hexValue (hexDigit a) = a := by decide
  exact key ⟨n, h⟩

def unitValue (a b c d : Char) : Nat :=
  hexValue a * 4096 + hexValue b * 256 + hexValue c * 16 + hexValue d

theorem unitValue_hexDigits {n : Nat} (h : n < 65536) :
    unitValue (hexDigit (n / 4096 % 16)) (hexDigit (n / 256 % 16)) (hexDigit (n / 16 % 16))
      (hexDigit (n % 16)) = n := by
  simp only [unitValue, hexValue_hexDigit (Nat.mod_lt _ (by decide : 0 < 16))]
  omega

/-- The first character of the inside of a literal, and what follows it. -/
def readChar : List Char → Option (Char × List Char)
  | '\\' :: 'u' :: a :: b :: c :: d :: rest =>
    let unit := unitValue a b c d
    if 55296 ≤ unit ∧ unit < 56320 then
      match rest with
      | '\\' :: 'u' :: a :: b :: c :: d :: rest =>
        some (Char.ofNat (65536 + (unit - 55296) * 1024 + (unitValue a b c d - 56320)), rest)
      | _ => none
    else some (Char.ofNat unit, rest)
  | '\\' :: 'n' :: rest => some ('\n', rest)
  | '\\' :: 'r' :: rest => some ('\r', rest)
  | '\\' :: 't' :: rest => some ('\t', rest)
  | '\\' :: 'f' :: rest => some (Char.ofNat 12, rest)
  | '\\' :: 'b' :: rest => some (Char.ofNat 8, rest)
  | '\\' :: c :: rest => some (c, rest)
  | c :: rest => some (c, rest)
  | [] => none

theorem char_range (c : Char) : c.toNat < 55296 ∨ 57343 < c.toNat ∧ c.toNat < 1114112 := by
  have h := c.valid
  simp only [UInt32.isValidChar, Nat.isValidChar] at h
  exact h

theorem ofNat_of_toNat_eq {c : Char} {n : Nat} (h : c.toNat = n) : Char.ofNat n = c := by
  rw [← h, Char.ofNat_toNat]

theorem readChar_plain {c : Char} (h : c ≠ '\\') (rest : List Char) :
    readChar (c :: rest) = some (c, rest) := by
  unfold readChar
  split <;> simp_all

theorem readChar_unitEscape {n : Nat} (h : n < 65536) (hlow : ¬(55296 ≤ n ∧ n < 56320))
    (rest : List Char) : readChar (unitEscape n ++ rest) = some (Char.ofNat n, rest) := by
  simp only [unitEscape, List.cons_append, List.nil_append, readChar, unitValue_hexDigits h,
    if_neg hlow]

theorem readChar_pair {n m : Nat} (hlow : 55296 ≤ n) (hhigh : n < 56320) (hm : m < 65536)
    (rest : List Char) : readChar (unitEscape n ++ unitEscape m ++ rest) =
      some (Char.ofNat (65536 + (n - 55296) * 1024 + (m - 56320)), rest) := by
  simp only [unitEscape, List.cons_append, List.nil_append, readChar,
    unitValue_hexDigits (show n < 65536 by omega), unitValue_hexDigits hm,
    if_pos (And.intro hlow hhigh)]

theorem readChar_escapeChar (c : Char) (rest : List Char) :
    readChar (escapeChar c ++ rest) = some (c, rest) := by
  have hrange := char_range c
  unfold escapeChar
  split
  · rename_i h; subst h; rfl
  split
  · rename_i h; subst h; rfl
  split
  · rename_i h; subst h; rfl
  split
  · rename_i h; subst h; rfl
  split
  · rename_i h; subst h; rfl
  split
  · rename_i h; rw [← ofNat_of_toNat_eq h]; rfl
  split
  · rename_i h; rw [← ofNat_of_toNat_eq h]; rfl
  split
  · exact readChar_plain (by assumption) rest
  split
  · rename_i h
    rw [readChar_unitEscape h (by omega), Char.ofNat_toNat]
  · rename_i h
    rw [readChar_pair (by omega) (by omega) (by omega),
      ofNat_of_toNat_eq (show c.toNat = _ by omega)]

theorem escapeChar_append_inj {c d : Char} {u v : List Char}
    (h : escapeChar c ++ u = escapeChar d ++ v) : c = d ∧ u = v := by
  have hread := readChar_escapeChar c u
  rw [h, readChar_escapeChar] at hread
  simp only [Option.some.injEq, Prod.mk.injEq] at hread
  exact ⟨hread.1.symm, hread.2.symm⟩

/-- An escape never starts with the closing quote. -/
theorem escapeChar_append_ne_quote (c : Char) (u v : List Char) :
    escapeChar c ++ u ≠ '"' :: v := by
  unfold escapeChar
  repeat' split
  all_goals simp_all [unitEscape]

theorem escapes_append_inj {cs ds u v : List Char}
    (h : cs.flatMap escapeChar ++ '"' :: u = ds.flatMap escapeChar ++ '"' :: v) :
    cs = ds ∧ u = v := by
  induction cs generalizing ds with
  | nil =>
    cases ds with
    | nil => simpa using h
    | cons d ds =>
      rw [List.flatMap_cons, List.append_assoc] at h
      exact absurd h.symm (escapeChar_append_ne_quote d _ _)
  | cons c cs ih =>
    cases ds with
    | nil =>
      rw [List.flatMap_cons, List.append_assoc] at h
      exact absurd h (escapeChar_append_ne_quote c _ _)
    | cons d ds =>
      rw [List.flatMap_cons, List.flatMap_cons, List.append_assoc, List.append_assoc] at h
      obtain ⟨rfl, htail⟩ := escapeChar_append_inj h
      obtain ⟨rfl, hrest⟩ := ih htail
      exact ⟨rfl, hrest⟩

theorem quote_append_inj {s t : String} {u v : List Char} (h : quote s ++ u = quote t ++ v) :
    s = t ∧ u = v := by
  simp only [quote, List.cons_append, List.append_assoc, List.cons.injEq, true_and,
    List.nil_append] at h
  obtain ⟨hs, h⟩ := escapes_append_inj h
  exact ⟨String.toList_inj.mp hs, h⟩

/-! ## Numbers -/

/-- What may follow a value in a text. -/
def Delimited (s : List Char) : Prop := ∀ c ∈ s.head?, c = ',' ∨ c = ']' ∨ c = '}'

def isNumeral (c : Char) : Bool := c.isDigit || c == '-'

theorem isNumeral_of_mem_toString {n : Int} {c : Char} (h : c ∈ (toString n).toList) :
    isNumeral c = true := by
  rw [Int.toString_eq_repr, Int.repr_eq_if] at h
  unfold isNumeral
  split at h
  · rw [Nat.toList_repr] at h
    simp [Nat.isDigit_of_mem_toDigits (by decide) (by decide) h]
  · rw [String.toList_append, Nat.toList_repr, List.mem_append] at h
    rcases h with h | h
    · have hc : c = '-' := by simpa using h
      simp [hc]
    · simp [Nat.isDigit_of_mem_toDigits (by decide) (by decide) h]

theorem toString_ne_nil (n : Int) : (toString n).toList ≠ [] := by
  rw [Int.toString_eq_repr, Int.repr_eq_if]
  split <;> simp

theorem takeWhile_numeral (n : Int) {s : List Char} (hs : Delimited s) :
    ((toString n).toList ++ s).takeWhile isNumeral = (toString n).toList := by
  rw [List.takeWhile_append_of_pos fun c hc => isNumeral_of_mem_toString hc]
  cases s with
  | nil => simp
  | cons c rest =>
    have hc : isNumeral c = false := by
      rcases hs c rfl with rfl | rfl | rfl <;> decide
    simp [hc]

theorem number_append_inj {n m : Int} {s t : List Char} (hs : Delimited s) (ht : Delimited t)
    (h : (toString n).toList ++ s = (toString m).toList ++ t) : n = m ∧ s = t := by
  have hdigits : (toString n).toList = (toString m).toList := by
    rw [← takeWhile_numeral n hs, h, takeWhile_numeral m ht]
  rw [hdigits] at h
  exact ⟨Int.repr_injective (String.toList_inj.mp hdigits), List.append_cancel_left h⟩

/-! ## Documents -/

/-- The first character of a text, which tells what kind of document it starts with. -/
def startsLike : Json → Char → Bool
  | null, c => c == 'n'
  | bool b, c => c == if b then 't' else 'f'
  | int _, c => isNumeral c
  | str _, c => c == '"'
  | arr _, c => c == '['
  | obj _, c => c == '{'

theorem startsLike_compact (a : Json) :
    ∃ c rest, compact a = c :: rest ∧ startsLike a c = true := by
  cases a with
  | null => exact ⟨_, _, rfl, rfl⟩
  | bool b => cases b <;> exact ⟨_, _, rfl, rfl⟩
  | int n =>
    have hne := toString_ne_nil n
    cases htext : (toString n).toList with
    | nil => exact absurd htext hne
    | cons c rest =>
      exact ⟨c, rest, htext,
        isNumeral_of_mem_toString (show c ∈ (toString n).toList by rw [htext]; simp)⟩
  | str s => exact ⟨_, _, rfl, rfl⟩
  | arr items => exact ⟨_, _, rfl, rfl⟩
  | obj fields => exact ⟨_, _, rfl, rfl⟩

/-- Documents whose texts start alike are of one kind. -/
theorem startsLike_of_append_eq {a b : Json} {s t : List Char}
    (h : compact a ++ s = compact b ++ t) : ∃ c, startsLike a c = true ∧ startsLike b c = true := by
  obtain ⟨c, rest, ha, hc⟩ := startsLike_compact a
  obtain ⟨d, rest', hb, hd⟩ := startsLike_compact b
  rw [ha, hb, List.cons_append, List.cons_append, List.cons.injEq] at h
  exact ⟨c, hc, h.1 ▸ hd⟩

theorem compact_append_ne_close (a : Json) {c : Char} (h : c = ']' ∨ c = '\x7d') (s t : List Char) :
    compact a ++ s ≠ c :: t := by
  obtain ⟨d, rest, ha, hd⟩ := startsLike_compact a
  rw [ha]
  intro heq
  rw [List.cons_append, List.cons.injEq] at heq
  rw [heq.1] at hd
  have hclose : isNumeral ']' = false ∧ isNumeral '\x7d' = false := by decide
  cases a with
  | bool b => cases b <;> rcases h with rfl | rfl <;> simp [startsLike] at hd
  | _ => rcases h with rfl | rfl <;> simp [startsLike, hclose] at hd

theorem compactItems_cons (a : Json) (rest : List Json) :
    compactItems (a :: rest) =
      compact a ++ (if rest = [] then [] else ',' :: compactItems rest) := by
  cases rest <;> simp [compactItems]

theorem compactFields_cons (f : String × Json) (rest : List (String × Json)) :
    compactFields (f :: rest) =
      quote f.1 ++ ':' :: compact f.2 ++ (if rest = [] then [] else ',' :: compactFields rest) := by
  cases rest <;> simp [compactFields]

theorem delimited_close {c : Char} (h : c = ']' ∨ c = '\x7d') (s : List Char) :
    Delimited (c :: s) := by
  rintro d ⟨⟩
  exact Or.inr h

theorem delimited_tail {α : Type} (rest : List α) (text : List Char) {c : Char}
    (h : c = ']' ∨ c = '\x7d') (s : List Char) :
    Delimited ((if rest = [] then [] else ',' :: text) ++ c :: s) := by
  split
  · exact delimited_close h s
  · rintro d ⟨⟩
    exact Or.inl rfl

mutual

theorem compact_append_inj (a b : Json) {s t : List Char} (hs : Delimited s) (ht : Delimited t)
    (h : compact a ++ s = compact b ++ t) : a = b ∧ s = t := by
  obtain ⟨c, ha, hb⟩ := startsLike_of_append_eq h
  have hnum : isNumeral 'n' = false ∧ isNumeral 't' = false ∧ isNumeral 'f' = false ∧
      isNumeral '"' = false ∧ isNumeral '[' = false ∧ isNumeral '{' = false := by decide
  cases a with
  | null =>
    cases b with
    | null => exact ⟨rfl, by simpa [compact] using h⟩
    | bool b => cases b <;> simp_all [startsLike]
    | _ => simp_all [startsLike]
  | bool a =>
    cases b with
    | bool b => cases a <;> cases b <;> simp_all [startsLike, compact]
    | _ => cases a <;> simp_all [startsLike]
  | int n =>
    cases b with
    | int m =>
      obtain ⟨rfl, hst⟩ := number_append_inj hs ht h
      exact ⟨rfl, hst⟩
    | bool b => cases b <;> simp_all [startsLike]
    | _ => simp_all [startsLike]
  | str x =>
    cases b with
    | str y =>
      obtain ⟨rfl, hst⟩ := quote_append_inj h
      exact ⟨rfl, hst⟩
    | bool b => cases b <;> simp_all [startsLike]
    | _ => simp_all [startsLike]
  | arr xs =>
    cases b with
    | arr ys =>
      simp only [compact, List.cons_append, List.append_assoc, List.nil_append, List.cons.injEq,
        true_and] at h
      obtain ⟨rfl, hst⟩ := compactItems_append_inj xs ys h
      exact ⟨rfl, hst⟩
    | bool b => cases b <;> simp_all [startsLike]
    | _ => simp_all [startsLike]
  | obj xs =>
    cases b with
    | obj ys =>
      simp only [compact, List.cons_append, List.append_assoc, List.nil_append, List.cons.injEq,
        true_and] at h
      obtain ⟨rfl, hst⟩ := compactFields_append_inj xs ys h
      exact ⟨rfl, hst⟩
    | bool b => cases b <;> simp_all [startsLike]
    | _ => simp_all [startsLike]

theorem compactItems_append_inj (xs ys : List Json) {s t : List Char}
    (h : compactItems xs ++ ']' :: s = compactItems ys ++ ']' :: t) : xs = ys ∧ s = t := by
  cases xs with
  | nil =>
    cases ys with
    | nil => simpa [compactItems] using h
    | cons b ys =>
      rw [compactItems_cons, List.append_assoc] at h
      exact absurd h.symm (compact_append_ne_close b (Or.inl rfl) _ _)
  | cons a xs =>
    cases ys with
    | nil =>
      rw [compactItems_cons, List.append_assoc] at h
      exact absurd h (compact_append_ne_close a (Or.inl rfl) _ _)
    | cons b ys =>
      rw [compactItems_cons, compactItems_cons, List.append_assoc, List.append_assoc] at h
      obtain ⟨rfl, htail⟩ := compact_append_inj a b (delimited_tail xs _ (Or.inl rfl) s)
        (delimited_tail ys _ (Or.inl rfl) t) h
      by_cases hx : xs = [] <;> by_cases hy : ys = [] <;> simp [hx, hy] at htail
      · exact ⟨by rw [hx, hy], htail⟩
      · obtain ⟨rfl, hst⟩ := compactItems_append_inj xs ys htail
        exact ⟨rfl, hst⟩

theorem compactFields_append_inj (xs ys : List (String × Json)) {s t : List Char}
    (h : compactFields xs ++ '\x7d' :: s = compactFields ys ++ '\x7d' :: t) : xs = ys ∧ s = t := by
  cases xs with
  | nil =>
    cases ys with
    | nil => simpa [compactFields] using h
    | cons f ys =>
      rw [compactFields_cons] at h
      simp [compactFields, quote] at h
  | cons f xs =>
    cases ys with
    | nil =>
      rw [compactFields_cons] at h
      simp [compactFields, quote] at h
    | cons g ys =>
      obtain ⟨k, a⟩ := f
      obtain ⟨l, b⟩ := g
      rw [compactFields_cons, compactFields_cons] at h
      simp only [List.append_assoc, List.cons_append] at h
      obtain ⟨rfl, hvalue⟩ := quote_append_inj h
      simp only [List.cons.injEq, true_and] at hvalue
      obtain ⟨rfl, htail⟩ := compact_append_inj a b (delimited_tail xs _ (Or.inr rfl) s)
        (delimited_tail ys _ (Or.inr rfl) t) hvalue
      by_cases hx : xs = [] <;> by_cases hy : ys = [] <;> simp [hx, hy] at htail
      · exact ⟨by rw [hx, hy], htail⟩
      · obtain ⟨rfl, hst⟩ := compactFields_append_inj xs ys htail
        exact ⟨rfl, hst⟩

end

theorem compact_injective {a b : Json} (h : compact a = compact b) : a = b := by
  have hempty : Delimited [] := nofun
  exact (compact_append_inj a b hempty hempty (by rw [h])).1

/-! ## Sorted documents -/

theorem field?_eq_some_of_mem {fields : List (String × Json)} (hnodup : (fields.map Prod.fst).Nodup)
    {key : String} {v : Json} (h : (key, v) ∈ fields) : field? fields key = some v := by
  induction fields with
  | nil => cases h
  | cons f rest ih =>
    obtain ⟨k, a⟩ := f
    simp only [List.map_cons, List.nodup_cons] at hnodup
    simp only [field?]
    rcases List.mem_cons.mp h with heq | hmem
    · cases heq
      simp
    · have hne : k ≠ key := fun he => hnodup.1 (List.mem_map.mpr ⟨_, hmem, he.symm⟩)
      rw [if_neg hne]
      exact ih hnodup.2 hmem

theorem sortFields_eq_map (fields : List (String × Json)) :
    sortFields fields = fields.map fun f => (f.1, sortKeys f.2) := by
  induction fields with
  | nil => rfl
  | cons f rest ih =>
    obtain ⟨k, a⟩ := f
    rw [sortFields, ih, List.map_cons]

/-- A field can be read from the canonical text of a document. -/
theorem field_eq_of_sorted_text {fields fields' : List (String × Json)}
    (hnodup : (fields.map Prod.fst).Nodup) (h : compact (sortKeys (obj fields)) =
      compact (sortKeys (obj fields'))) {key : String} {v v' : Json} (hv : (key, v) ∈ fields)
    (hv' : (key, v') ∈ fields') : sortKeys v = sortKeys v' := by
  have hsorted := compact_injective h
  simp only [sortKeys, obj.injEq, sortFields_eq_map] at hsorted
  have hmem {v : Json} {fields : List (String × Json)} (h : (key, v) ∈ fields) :
      (key, sortKeys v) ∈ (fields.map fun f => (f.1, sortKeys f.2)).insertionSort
        fun f g => f.1 ≤ g.1 :=
    (List.mem_insertionSort _).mpr (List.mem_map.mpr ⟨_, h, rfl⟩)
  have hkeys : (((fields.map fun f => (f.1, sortKeys f.2)).insertionSort
      fun f g => f.1 ≤ g.1).map Prod.fst).Nodup := by
    refine (((List.perm_insertionSort _ _).map Prod.fst).nodup_iff).mpr ?_
    simpa [List.map_map, Function.comp_def] using hnodup
  have hread := field?_eq_some_of_mem hkeys (hmem hv)
  rw [field?_eq_some_of_mem hkeys (hsorted ▸ hmem hv')] at hread
  exact (Option.some.inj hread).symm

/-- Two documents with one canonical text have the same fields. -/
theorem exists_field_of_sorted {fields fields' : List (String × Json)}
    (h : sortKeys (obj fields) = sortKeys (obj fields')) {key : String} {v : Json}
    (hv : (key, v) ∈ fields) : ∃ v', (key, v') ∈ fields' ∧ sortKeys v' = sortKeys v := by
  simp only [sortKeys, obj.injEq, sortFields_eq_map] at h
  have hmem : (key, sortKeys v) ∈ (fields.map fun f => (f.1, sortKeys f.2)).insertionSort
      fun f g => f.1 ≤ g.1 :=
    (List.mem_insertionSort _).mpr (List.mem_map.mpr ⟨_, hv, rfl⟩)
  rw [h, List.mem_insertionSort, List.mem_map] at hmem
  obtain ⟨f, hf, heq⟩ := hmem
  simp only [Prod.mk.injEq] at heq
  exact ⟨f.2, heq.1 ▸ hf, heq.2⟩

theorem mem_of_field?_eq_some {fields : List (String × Json)} {key : String} {v : Json}
    (h : field? fields key = some v) : (key, v) ∈ fields := by
  induction fields with
  | nil => cases h
  | cons f rest ih =>
    obtain ⟨k, a⟩ := f
    simp only [field?] at h
    split at h
    · rename_i heq
      cases h
      exact heq ▸ List.mem_cons_self
    · exact List.mem_cons_of_mem _ (ih h)

/-- A lookup reads the same in two documents with one canonical text, up to the order of the
fields of what it finds. -/
theorem field?_of_sorted {fields fields' : List (String × Json)}
    (hnodup : (fields.map Prod.fst).Nodup) (hnodup' : (fields'.map Prod.fst).Nodup)
    (h : sortKeys (obj fields) = sortKeys (obj fields')) (key : String) :
    (field? fields' key).map sortKeys = (field? fields key).map sortKeys := by
  cases hv : field? fields key with
  | some v =>
    obtain ⟨v', hv', heq⟩ := exists_field_of_sorted h (mem_of_field?_eq_some hv)
    rw [field?_eq_some_of_mem hnodup' hv', Option.map_some, Option.map_some, heq]
  | none =>
    cases hv' : field? fields' key with
    | none => rfl
    | some v' =>
      obtain ⟨v, hmem, -⟩ := exists_field_of_sorted h.symm (mem_of_field?_eq_some hv')
      rw [field?_eq_some_of_mem hnodup hmem] at hv
      cases hv

/-- Neither a list nor an object. -/
def isScalar : Json → Bool
  | arr _ => false
  | obj _ => false
  | _ => true

theorem eq_of_sortKeys_scalar {v w : Json} (hw : w.isScalar = true)
    (h : sortKeys v = sortKeys w) : v = w := by
  cases v <;> cases w <;> simp_all [sortKeys, isScalar]

end Library.Json
