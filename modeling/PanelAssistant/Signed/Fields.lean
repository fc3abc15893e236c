import PanelAssistant.Signed.Documents

/-!
# Reading the fields of a signed document

What `release.py` and `build_feed.py` check of a value, and what `release-verifier.mjs` checks of
it. The two languages differ in the numbers of a document and in how they compare the names of an
object (`Language`); every string that is checked is compared with an ASCII constant or matched by
an ASCII pattern, so a string with any other character is refused with the first check.
-/

namespace PanelAssistant

open Library Library.Text Library.JsonTree

variable {ν : Type}

/-! ## Values -/

/-- Equality with a constant string. -/
def isText (s : String) : JsonTree ν → Bool
  | .str u => u == units s
  | _ => false

/-- Equality with a list of constant strings. -/
def areTexts : List String → List (JsonTree ν) → Bool
  | [], [] => true
  | s :: ss, t :: ts => isText s t && areTexts ss ts
  | _, _ => false

def asciiText? (u : List CodeUnit) : Option String :=
  if u.all (fun x => x.1 < 128) then some (String.ofList (u.map fun x => Char.ofNat x.1)) else none

/-- A string, as far as a check can accept it. -/
def asciiOf : JsonTree ν → Option String
  | .str u => asciiText? u
  | _ => none

/-- A text that a check accepts. -/
abbrev Checked (p : String → Bool) := {s : String // p s = true}

/-- A string that a check accepts. -/
def checked (p : String → Bool) : JsonTree ν → Option (Checked p)
  | .str u => (asciiText? u).bind fun s => if h : p s = true then some ⟨s, h⟩ else none
  | _ => none

/-- The one list of ABIs a signed build supports. -/
def areSupportedAbis : JsonTree ν → Bool
  | .arr items => areTexts supportedAbis items
  | _ => false

def isAscii (s : String) : Bool := s.toList.all fun c => c.toNat < 128

/-- An integer within the closed bounds of a field. -/
abbrev Bounded (max : ℕ) := {n : ℕ // 1 ≤ n ∧ n ≤ max}

/-- `_bounded_integer(value, 1, max)` -/
def boundedInteger (max : ℕ) : JsonTree PyNumber → Option (Bounded max)
  | .num (.int z) => if h : 1 ≤ z.toNat ∧ z.toNat ≤ max then some ⟨z.toNat, h⟩ else none
  | _ => none

/-- `integer(value, max)` -/
def Browser.integer (max : ℕ) : JsonTree JsNumber → Option (Bounded max)
  | .num (.safe z) => if h : 1 ≤ z.toNat ∧ z.toNat ≤ max then some ⟨z.toNat, h⟩ else none
  | _ => none

theorem isText_iff {s : String} {t : JsonTree ν} : isText s t = true ↔ t = .str (units s) := by
  cases t <;> simp [isText]

theorem areTexts_iff {ss : List String} {ts : List (JsonTree ν)} :
    areTexts ss ts = true ↔ ts = ss.map fun s => .str (units s) := by
  induction ss generalizing ts with
  | nil => cases ts <;> simp [areTexts]
  | cons s ss ih => cases ts <;> simp [areTexts, isText_iff, ih]

theorem charUnits_ofAscii {c : Char} (h : c.toNat < 128) :
    ∃ u : CodeUnit, charUnits c = [u] ∧ u.1 = c.toNat := by
  have hlt : c.toNat < 65536 := by omega
  refine ⟨⟨c.toNat, hlt⟩, ?_, rfl⟩
  rw [charUnits, if_pos hlt]
  exact congrArg (· :: []) (Fin.ext (Nat.mod_eq_of_lt hlt))

/-- A string is read as a text exactly when it is the units of that text, in ASCII. -/
theorem asciiText?_iff {u : List CodeUnit} {s : String} :
    asciiText? u = some s ↔ u = units s ∧ isAscii s = true := by
  constructor
  · intro h
    unfold asciiText? at h
    split at h
    · rename_i hall
      obtain rfl := Option.some.inj h
      rw [List.all_eq_true] at hall
      have hunit : ∀ x ∈ u, (Char.ofNat x.1).toNat = x.1 ∧ charUnits (Char.ofNat x.1) = [x] := by
        intro x hx
        have hlt := hall x hx
        simp only [decide_eq_true_eq] at hlt
        have hsurrogate : isSurrogate x = false := by
          simp only [isSurrogate, isHighSurrogate, isLowSurrogate, Bool.or_eq_false_iff,
            Bool.and_eq_false_iff, decide_eq_false_iff_not]
          omega
        exact ⟨toNat_ofNat_unit hsurrogate, charUnits_ofNat hsurrogate⟩
      constructor
      · rw [units, String.toList_ofList, List.flatMap_map]
        conv_lhs => rw [← List.flatMap_singleton' u]
        apply List.flatMap_congr
        intro x hx
        exact (hunit x hx).2.symm
      · rw [isAscii, String.toList_ofList, List.all_map, List.all_eq_true]
        intro x hx
        simp only [Function.comp_apply, (hunit x hx).1]
        exact hall x hx
    · cases h
  · rintro ⟨rfl, hascii⟩
    have hlist : ∀ cs : List Char, cs.all (fun c => c.toNat < 128) = true →
        (cs.flatMap charUnits).all (fun x => x.1 < 128) = true ∧
          (cs.flatMap charUnits).map (fun x => Char.ofNat x.1) = cs := by
      intro cs
      induction cs with
      | nil => exact fun _ => ⟨rfl, rfl⟩
      | cons c cs ih =>
        intro hcs
        rw [List.all_cons, Bool.and_eq_true] at hcs
        have hc := hcs.1
        simp only [decide_eq_true_eq] at hc
        obtain ⟨v, hv, hnat⟩ := charUnits_ofAscii hc
        obtain ⟨hall, hmap⟩ := ih hcs.2
        rw [List.flatMap_cons, hv, List.singleton_append, List.all_cons, List.map_cons, hall, hmap,
          hnat, Char.ofNat_toNat]
        simp [hc]
    obtain ⟨hall, hmap⟩ := hlist s.toList hascii
    rw [asciiText?, units, if_pos hall, hmap, String.ofList_toList]

theorem asciiOf_iff {t : JsonTree ν} {s : String} :
    asciiOf t = some s ↔ t = .str (units s) ∧ isAscii s = true := by
  cases t with
  | str u => simp only [asciiOf, JsonTree.str.injEq, asciiText?_iff]
  | _ => simp [asciiOf]

theorem areSupportedAbis_iff {t : JsonTree ν} :
    areSupportedAbis t = true ↔ t = .arr (supportedAbis.map fun s => .str (units s)) := by
  cases t with
  | arr items => simp only [areSupportedAbis, areTexts_iff, JsonTree.arr.injEq]
  | _ => simp [areSupportedAbis]

theorem checked_iff {p : String → Bool} {t : JsonTree ν} {c : Checked p} :
    checked p t = some c ↔ t = .str (units c.1) ∧ isAscii c.1 = true := by
  cases t with
  | str u =>
    simp only [checked, Option.bind_eq_some_iff, JsonTree.str.injEq]
    constructor
    · rintro ⟨s, hs, hc⟩
      split at hc
      · obtain rfl := Option.some.inj hc
        exact asciiText?_iff.mp hs
      · cases hc
    · intro h
      refine ⟨c.1, asciiText?_iff.mpr h, ?_⟩
      rw [dif_pos c.2]
  | _ => simp [checked]

/-! ## The two languages -/

/-- How a language reads a bounded integer and compares the names of an object. -/
structure Language (ν : Type) where
  ofNat : ℕ → ν
  bounded : (max : ℕ) → JsonTree ν → Option (Bounded max)
  bounded_iff : ∀ {max : ℕ} {t : JsonTree ν} {b : Bounded max},
    bounded max t = some b ↔ t = .num (ofNat b.1)
  keysAre : List (List CodeUnit × JsonTree ν) → List String → Bool
  keysAre_iff : ∀ {fields : List (List CodeUnit × JsonTree ν)} {names : List String},
    (fields.map Prod.fst).Nodup → (names.map units).Nodup →
      (keysAre fields names = true ↔ (fields.map Prod.fst).Perm (names.map units))

/-- `document.keys() == names`, of a dictionary and a set. -/
def sameKeys (fields : List (List CodeUnit × JsonTree ν)) (names : List String) : Bool :=
  fields.all (fun e => (names.map units).contains e.1) &&
    names.all fun name => (fields.map Prod.fst).contains (units name)

/-- `exactKeys` of `shared.mjs` -/
def exactKeys (fields : List (List CodeUnit × JsonTree ν)) (names : List String) : Bool :=
  fields.length == names.length && names.all fun name => (fields.map Prod.fst).contains (units name)

theorem sameKeys_iff {fields : List (List CodeUnit × JsonTree ν)} {names : List String}
    (hfields : (fields.map Prod.fst).Nodup) (hnames : (names.map units).Nodup) :
    sameKeys fields names = true ↔ (fields.map Prod.fst).Perm (names.map units) := by
  rw [List.perm_ext_iff_of_nodup hfields hnames]
  simp only [sameKeys, Bool.and_eq_true, List.all_eq_true, List.contains_iff_mem]
  constructor
  · rintro ⟨hsub, hsup⟩ k
    constructor
    · intro hk
      obtain ⟨e, he, rfl⟩ := List.mem_map.mp hk
      exact hsub e he
    · intro hk
      obtain ⟨name, hname, rfl⟩ := List.mem_map.mp hk
      exact hsup name hname
  · intro h
    exact ⟨fun e he => (h _).mp (List.mem_map_of_mem he),
      fun name hname => (h _).mpr (List.mem_map_of_mem hname)⟩

theorem exactKeys_iff {fields : List (List CodeUnit × JsonTree ν)} {names : List String}
    (_ : (fields.map Prod.fst).Nodup) (hnames : (names.map units).Nodup) :
    exactKeys fields names = true ↔ (fields.map Prod.fst).Perm (names.map units) := by
  simp only [exactKeys, Bool.and_eq_true, beq_iff_eq, List.all_eq_true, List.contains_iff_mem]
  constructor
  · rintro ⟨hlength, hsup⟩
    have hsub : names.map units ⊆ fields.map Prod.fst := by
      intro k hk
      obtain ⟨name, hname, rfl⟩ := List.mem_map.mp hk
      exact hsup name hname
    have hsubperm := List.subperm_of_subset hnames hsub
    exact (hsubperm.perm_of_length_le (by simp [hlength])).symm
  · intro h
    refine ⟨by simpa using h.length_eq, fun name hname => ?_⟩
    exact h.mem_iff.mpr (List.mem_map_of_mem hname)

def python : Language PyNumber where
  ofNat n := .int n
  bounded := boundedInteger
  bounded_iff := by
    intro max t b
    constructor
    · intro h
      unfold boundedInteger at h
      split at h
      · split at h
        · rename_i z hz
          obtain rfl := Option.some.inj h
          rw [Int.toNat_of_nonneg (by omega)]
        · cases h
      · cases h
    · rintro rfl
      have hb := b.2
      rw [boundedInteger, dif_pos (by simpa using hb)]
      simp
  keysAre := sameKeys
  keysAre_iff := sameKeys_iff

def browser : Language JsNumber where
  ofNat n := .safe n
  bounded := Browser.integer
  bounded_iff := by
    intro max t b
    constructor
    · intro h
      unfold Browser.integer at h
      split at h
      · split at h
        · rename_i z hz
          obtain rfl := Option.some.inj h
          rw [Int.toNat_of_nonneg (by omega)]
        · cases h
      · cases h
    · rintro rfl
      have hb := b.2
      rw [Browser.integer, dif_pos (by simpa using hb)]
      simp
  keysAre := exactKeys
  keysAre_iff := exactKeys_iff

/-- The fields of an object with exactly the given names. -/
def Language.object (L : Language ν) (names : List String) :
    JsonTree ν → Option (List (List CodeUnit × JsonTree ν))
  | .obj fields => if L.keysAre fields names then some fields else none
  | _ => none

/-! ## Objects with known names -/

/-- The object with the given names, in that order. -/
def objectOf (names : List String) (value : String → JsonTree ν) : JsonTree ν :=
  .obj (names.map fun name => (units name, value name))

theorem map_objectOf {μ : Type} (f : ν → μ) (names : List String) (value : String → JsonTree ν) :
    (objectOf names value).map f = objectOf names fun name => (value name).map f := by
  rw [objectOf, JsonTree.map, mapFields_eq, List.map_map]
  rfl

theorem field_objectOf {names : List String} (hnames : (names.map units).Nodup)
    {value : String → JsonTree ν} {name : String} (h : name ∈ names) :
    field (names.map fun name => (units name, value name)) name = value name := by
  have hnodup : ((names.map fun name => (units name, value name)).map Prod.fst).Nodup := by
    rw [List.map_map]
    exact hnames
  have hmem : (units name, value name) ∈ names.map fun name => (units name, value name) :=
    List.mem_map_of_mem h
  rw [field, field_of_mem hnodup hmem]
  rfl

theorem Language.object_eq_some {L : Language ν} {names : List String} {t : JsonTree ν}
    {fields : List (List CodeUnit × JsonTree ν)} (h : L.object names t = some fields) :
    t = .obj fields ∧ L.keysAre fields names = true := by
  unfold Language.object at h
  split at h
  · split at h
    · obtain rfl := Option.some.inj h
      exact ⟨rfl, by assumption⟩
    · cases h
  · cases h

theorem Language.object_objectOf (L : Language ν) {names : List String}
    (hnames : (names.map units).Nodup) (value : String → JsonTree ν) :
    L.object names (objectOf names value) =
      some (names.map fun name => (units name, value name)) := by
  have hkeys : (names.map fun name => (units name, value name)).map Prod.fst = names.map units := by
    rw [List.map_map]
    rfl
  rw [objectOf, Language.object, if_pos]
  exact (L.keysAre_iff (hkeys ▸ hnames) hnames).mpr (hkeys ▸ List.Perm.refl _)

/-- A sorted object with exactly the given names, whose values are known. -/
theorem sortKeys_object {L : Language ν} {rank : List CodeUnit → List ℕ} {names : List String}
    {t : JsonTree ν} {fields : List (List CodeUnit × JsonTree ν)} {value : String → JsonTree ν}
    (hproper : Proper (fun _ => True) t) (h : L.object names t = some fields)
    (hsorted : (names.map units).Pairwise fun a b => rank a < rank b)
    (hvalue : ∀ name ∈ names, sortKeys rank (field fields name) = value name) :
    sortKeys rank t = objectOf names value := by
  obtain ⟨rfl, hkeys⟩ := L.object_eq_some h
  have hnames : (names.map units).Nodup := by
    apply hsorted.imp
    rintro a b hab rfl
    exact lt_irrefl _ hab
  rw [sortKeys_obj rank hproper.1 ((L.keysAre_iff hproper.1 hnames).mp hkeys) hsorted, objectOf]
  congr 1
  apply List.map_congr_left
  intro name hname
  rw [hvalue name hname]

end PanelAssistant
