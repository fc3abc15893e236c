import PanelAssistant.Library.Except
import PanelAssistant.Library.Separated
import PanelAssistant.Updates.Versions

/-!
# Version keys and SemVer precedence

The order of `_version_key` is compared with the precedence of Semantic Versioning 2.0, which is
stated here on the numbers and identifiers of a version (`Precedes`). One thing differs from the
standard: where an alphanumeric identifier ends with digits, its stem counts first and then the
number (`IdentifierLess`), so that `rc10` comes after `rc9`. A version has a key where `int` reads
its numerals (`versionKeyOrError_eq`), and else `_version_key` raises (`Version.raises`).
-/

namespace PanelAssistant

open Library Library.Text Library.Separated

namespace SemVer

/-! ## Versions -/

/-- The three numbers of a version. -/
def numbers (text : String) : ℕ × ℕ × ℕ :=
  match (beforeFirst '-' text.toList).splitOn '.' with
  | [major, minor, patch] => (decimal major, decimal minor, decimal patch)
  | _ => (0, 0, 0)

/-- The pre-release identifiers of a version, none for a release. -/
def identifiers (text : String) : List (List Char) :=
  if afterFirst '-' text.toList = [] then [] else (afterFirst '-' text.toList).splitOn '.'

/-- A text of `_VERSION_PATTERN` whose pre-release identifiers are not empty. -/
structure Version where
  text : String
  version : isVersion text.toList = true
  identifiers : ∀ identifier ∈ SemVer.identifiers text, identifier ≠ []

/-- What `int` is given of a version: its three numbers, and the digits that each pre-release
identifier ends with. -/
def numerals (text : String) : List (List Char) :=
  (beforeFirst '-' text.toList).splitOn '.' ++
    (identifiers text).map fun identifier => identifier.rtakeWhile isDigit

def Version.Read (v : Version) : Prop :=
  ∀ numeral ∈ numerals v.text, numeral.length ≤ maxIntDigits

/-- A version whose numerals `int` reads. -/
structure ReadVersion extends Version where
  read : toVersion.Read

/-! ## Precedence -/

def IsNumeric (identifier : List Char) : Prop := identifier.all isDigit = true

instance (identifier : List Char) : Decidable (IsNumeric identifier) :=
  inferInstanceAs (Decidable (_ = true))

def EndsWithDigit (identifier : List Char) : Prop :=
  ∃ c, identifier.getLast? = some c ∧ isDigit c = true

/-- What precedes the digits at the end. -/
def stem (identifier : List Char) : List Char := identifier.rdropWhile isDigit

/-- The digits at the end. -/
def digits (identifier : List Char) : List Char := identifier.rtakeWhile isDigit

/-- No number comes before every number. -/
def NumberLess (ds ds' : List Char) : Prop :=
  ds' ≠ [] ∧ (ds = [] ∨ decimal ds < decimal ds')

/-- The order of two alphanumeric identifiers: by their characters, but by stem and number if one
of them ends with a digit. -/
def AlphanumericLess (a b : List Char) : Prop :=
  (¬EndsWithDigit a ∧ ¬EndsWithDigit b ∧ a < b) ∨
    (EndsWithDigit a ∨ EndsWithDigit b) ∧
      (stem a < stem b ∨ stem a = stem b ∧ NumberLess (digits a) (digits b))

/-- Numeric identifiers by their numbers, and before all others. -/
def IdentifierLess (a b : List Char) : Prop :=
  if IsNumeric a then ¬IsNumeric b ∨ decimal a < decimal b
  else ¬IsNumeric b ∧ AlphanumericLess a b

/-- The first difference decides; a list comes after its own prefixes. -/
def IdentifiersLess : List (List Char) → List (List Char) → Prop
  | _, [] => False
  | [], _ :: _ => True
  | a :: as, b :: bs =>
    IdentifierLess a b ∨ ¬IdentifierLess b a ∧ IdentifiersLess as bs

/-- Major, minor and patch by their numbers. -/
def NumbersLess : ℕ × ℕ × ℕ → ℕ × ℕ × ℕ → Prop
  | (major, minor, patch), (major', minor', patch') =>
    major < major' ∨ major = major' ∧ (minor < minor' ∨ minor = minor' ∧ patch < patch')

/-- The precedence of SemVer: a pre-release comes before its release. -/
def Precedes (v w : Version) : Prop :=
  NumbersLess (numbers v.text) (numbers w.text) ∨
    numbers v.text = numbers w.text ∧ identifiers v.text ≠ [] ∧
      (identifiers w.text = [] ∨ IdentifiersLess (identifiers v.text) (identifiers w.text))

/-! ## Keys of identifiers -/

theorem endsWithDigit_iff {identifier : List Char} :
    EndsWithDigit identifier ↔ digits identifier ≠ [] := by
  rw [digits, ne_eq, List.rtakeWhile_eq_nil_iff]
  constructor
  · rintro ⟨c, hlast, hdigit⟩ h
    have hne : identifier ≠ [] := by
      rintro rfl
      cases hlast
    rw [List.getLast?_eq_some_getLast hne, Option.some.injEq] at hlast
    exact h hne (hlast ▸ hdigit)
  · intro h
    rw [not_forall] at h
    obtain ⟨hne, h⟩ := h
    exact ⟨identifier.getLast hne, List.getLast?_eq_some_getLast hne, not_not.mp h⟩

theorem drop_stem (identifier : List Char) :
    identifier.drop (identifier.rdropWhile isDigit).length = digits identifier := by
  have hsplit : stem identifier ++ digits identifier = identifier :=
    List.rdropWhile_append_rtakeWhile
  calc identifier.drop (stem identifier).length =
      (stem identifier ++ digits identifier).drop (stem identifier).length := by rw [hsplit]
    _ = digits identifier := List.drop_left

/-- The key of a numeric identifier. -/
theorem prereleaseKey_of_numeric {a : List Char} (hne : a ≠ []) (h : IsNumeric a) :
    prereleaseKey a = toLex (0, toLex ("", (decimal a : ℤ))) := by
  have hcond : (!a.isEmpty && a.all isDigit) = true := by
    rw [Bool.and_eq_true]
    exact ⟨by simpa using hne, h⟩
  rw [prereleaseKey, if_pos hcond]

/-- The number of a key: -1 where there is none. -/
def numberKey (ds : List Char) : ℤ := if ds.isEmpty then -1 else (decimal ds : ℤ)

theorem prereleaseKey_of_alphanumeric {a : List Char} (h : ¬IsNumeric a) :
    prereleaseKey a = toLex (1, toLex (String.ofList (stem a), numberKey (digits a))) := by
  have hcond : ¬((!a.isEmpty && a.all isDigit) = true) := by
    rw [Bool.and_eq_true, not_and]
    exact fun _ => h
  rw [prereleaseKey, if_neg hcond, numberKey]
  simp only [drop_stem]
  rfl

theorem numberKey_lt {ds ds' : List Char} : numberKey ds < numberKey ds' ↔ NumberLess ds ds' := by
  cases ds with
  | nil =>
    cases ds' with
    | nil => simp [numberKey, NumberLess]
    | cons d' ds' =>
      simp [numberKey, NumberLess]
      omega
  | cons d ds =>
    cases ds' with
    | nil => simp [numberKey, NumberLess]
    | cons d' ds' => simp [numberKey, NumberLess]

theorem ofList_lt {cs cs' : List Char} : String.ofList cs < String.ofList cs' ↔ cs < cs' := by
  rw [String.lt_iff_toList_lt, String.toList_ofList, String.toList_ofList]

theorem ofList_eq {cs cs' : List Char} : String.ofList cs = String.ofList cs' ↔ cs = cs' :=
  ⟨fun h => String.ofList_injective h, fun h => h ▸ rfl⟩

/-- The keys of identifiers that end without digits are in the order of the identifiers. -/
theorem alphanumericLess_iff {a b : List Char} :
    AlphanumericLess a b ↔
      stem a < stem b ∨ stem a = stem b ∧ NumberLess (digits a) (digits b) := by
  by_cases hdigit : EndsWithDigit a ∨ EndsWithDigit b
  · have hplain : ¬(¬EndsWithDigit a ∧ ¬EndsWithDigit b ∧ a < b) := fun h =>
      hdigit.elim h.1 h.2.1
    rw [AlphanumericLess, or_iff_right hplain, and_iff_right hdigit]
  · rw [not_or, endsWithDigit_iff, endsWithDigit_iff, not_not, not_not] at hdigit
    obtain ⟨ha, hb⟩ := hdigit
    have hstem : ∀ {c : List Char}, digits c = [] → stem c = c := by
      intro c hc
      have hsplit : stem c ++ digits c = c := List.rdropWhile_append_rtakeWhile
      rwa [hc, List.append_nil] at hsplit
    have hnumber : ¬NumberLess [] [] := fun h => h.1 rfl
    rw [AlphanumericLess, endsWithDigit_iff, endsWithDigit_iff, ha, hb, hstem ha, hstem hb]
    simp [hnumber]

theorem prereleaseKey_lt_iff {a b : List Char} (ha : a ≠ []) (hb : b ≠ []) :
    prereleaseKey a < prereleaseKey b ↔ IdentifierLess a b := by
  rw [IdentifierLess]
  by_cases hna : IsNumeric a <;> by_cases hnb : IsNumeric b
  · rw [prereleaseKey_of_numeric ha hna, prereleaseKey_of_numeric hb hnb, if_pos hna,
      or_iff_right (not_not.mpr hnb)]
    simp [Prod.Lex.toLex_lt_toLex]
  · rw [prereleaseKey_of_numeric ha hna, prereleaseKey_of_alphanumeric hnb, if_pos hna]
    simp [Prod.Lex.toLex_lt_toLex, hnb]
  · rw [prereleaseKey_of_alphanumeric hna, prereleaseKey_of_numeric hb hnb, if_neg hna]
    simp [Prod.Lex.toLex_lt_toLex, hnb]
  · rw [prereleaseKey_of_alphanumeric hna, prereleaseKey_of_alphanumeric hnb, if_neg hna,
      and_iff_right hnb, alphanumericLess_iff]
    simp only [Prod.Lex.toLex_lt_toLex, lt_self_iff_false, false_or, true_and, ofList_lt, ofList_eq,
      numberKey_lt]

/-- Lists of keys are compared as the lists of their identifiers. -/
theorem map_prereleaseKey_lt_iff {as bs : List (List Char)} (has : ∀ a ∈ as, a ≠ [])
    (hbs : ∀ b ∈ bs, b ≠ []) :
    as.map prereleaseKey < bs.map prereleaseKey ↔ IdentifiersLess as bs := by
  induction as generalizing bs with
  | nil =>
    cases bs with
    | nil => exact iff_of_false (lt_irrefl _) id
    | cons b bs => exact iff_of_true (List.nil_lt_cons _ _) trivial
  | cons a as ih =>
    cases bs with
    | nil => exact iff_of_false (List.not_lt_nil _) id
    | cons b bs =>
      rw [List.forall_mem_cons] at has hbs
      rw [List.map_cons, List.map_cons, List.cons_lt_cons_iff, IdentifiersLess, ih has.2 hbs.2,
        prereleaseKey_lt_iff has.1 hbs.1]
      constructor
      · rintro (hless | ⟨heq, hrest⟩)
        · exact .inl hless
        · refine .inr ⟨fun hless => ?_, hrest⟩
          rw [← prereleaseKey_lt_iff hbs.1 has.1, heq] at hless
          exact lt_irrefl _ hless
      · rintro (hless | ⟨hnot, hrest⟩)
        · exact .inl hless
        · rw [← prereleaseKey_lt_iff hbs.1 has.1, not_lt] at hnot
          rcases lt_or_eq_of_le hnot with hlt | heq
          · exact .inl ((prereleaseKey_lt_iff has.1 hbs.1).mp hlt)
          · exact .inr ⟨heq, hrest⟩

/-! ## Keys of versions -/

/-- `_version_key` of a version. -/
def Version.key (v : Version) : VersionKey := (versionKey v.text).getD VersionKey.zero

/-- The numbers as a key. -/
def numbersKey (n : ℕ × ℕ × ℕ) : ℕ ×ₗ ℕ ×ₗ ℕ := toLex (n.1, toLex (n.2.1, n.2.2))

theorem coreKey_eq (text : String) :
    coreKey (beforeFirst '-' text.toList) = numbersKey (numbers text) := by
  unfold coreKey numbers
  generalize (beforeFirst '-' text.toList).splitOn '.' = parts
  rcases parts with _ | ⟨a, _ | ⟨b, _ | ⟨c, _ | ⟨d, rest⟩⟩⟩⟩ <;> rfl

theorem numbersKey_lt {n n' : ℕ × ℕ × ℕ} : numbersKey n < numbersKey n' ↔ NumbersLess n n' := by
  obtain ⟨major, minor, patch⟩ := n
  obtain ⟨major', minor', patch'⟩ := n'
  simp only [numbersKey, Prod.Lex.toLex_lt_toLex, NumbersLess]

theorem numbersKey_inj {n n' : ℕ × ℕ × ℕ} : numbersKey n = numbersKey n' ↔ n = n' := by
  obtain ⟨major, minor, patch⟩ := n
  obtain ⟨major', minor', patch'⟩ := n'
  simp [numbersKey]

/-- No identifier of a version is left out of its key. -/
theorem filter_parts (v : Version) :
    ((afterFirst '-' v.text.toList).splitOn '.').filter (fun part => !part.isEmpty) =
      identifiers v.text := by
  have hidentifiers := v.identifiers
  unfold identifiers at hidentifiers ⊢
  split
  · rename_i hempty
    rw [hempty]
    rfl
  · rename_i hne
    rw [if_neg hne] at hidentifiers
    refine List.filter_eq_self.mpr fun part hpart => ?_
    simpa using hidentifiers part hpart

theorem versionKey_eq (v : Version) : versionKey v.text = some v.key ∧
    v.key = toLex (numbersKey (numbers v.text),
      toLex ((identifiers v.text).isEmpty, (identifiers v.text).map prereleaseKey)) := by
  have hparts := filter_parts v
  have hempty : (afterFirst '-' v.text.toList).isEmpty = (identifiers v.text).isEmpty := by
    unfold identifiers
    split
    · rename_i hempty
      rw [hempty]
      rfl
    · rename_i hne
      rw [List.isEmpty_eq_false_iff.mpr hne,
        List.isEmpty_eq_false_iff.mpr (List.splitOn_ne_nil _ _)]
  have hkey : versionKey v.text = some (toLex (numbersKey (numbers v.text),
      toLex ((identifiers v.text).isEmpty, (identifiers v.text).map prereleaseKey))) := by
    rw [← hempty, ← hparts, ← coreKey_eq]
    exact if_pos v.version
  rw [Version.key, hkey]
  exact ⟨rfl, rfl⟩

/-! ## Numerals that are read -/

theorem intOrError_eq_ok {ds : List Char} {n : ℕ} :
    intOrError ds = .ok n ↔ ds.length ≤ maxIntDigits ∧ decimal ds = n := by
  unfold intOrError
  split
  · simp_all
  · simp_all

theorem prereleaseKeyOrError_eq_ok {part : List Char} {key : PrereleaseKey} :
    prereleaseKeyOrError part = .ok key ↔
      (digits part).length ≤ maxIntDigits ∧ prereleaseKey part = key := by
  unfold prereleaseKeyOrError prereleaseKey
  by_cases hnumeric : (!part.isEmpty && part.all isDigit) = true
  · have hdigits : digits part = part := by
      rw [Bool.and_eq_true] at hnumeric
      exact List.rtakeWhile_eq_self_iff.mpr (List.all_eq_true.mp hnumeric.2)
    rw [if_pos hnumeric, if_pos hnumeric, hdigits]
    simp only [bind_eq_ok, intOrError_eq_ok, Except.ok.injEq]
    constructor
    · rintro ⟨n, ⟨hlength, rfl⟩, rfl⟩
      exact ⟨hlength, rfl⟩
    · rintro ⟨hlength, rfl⟩
      exact ⟨_, ⟨hlength, rfl⟩, rfl⟩
  · rw [if_neg hnumeric, if_neg hnumeric]
    simp only [drop_stem]
    cases hdigits : digits part with
    | nil => simp
    | cons d ds =>
      simp only [List.isEmpty_cons, Bool.false_eq_true, if_false, bind_eq_ok, intOrError_eq_ok,
        Except.ok.injEq]
      constructor
      · rintro ⟨n, ⟨hlength, rfl⟩, rfl⟩
        exact ⟨hlength, rfl⟩
      · rintro ⟨hlength, rfl⟩
        exact ⟨_, ⟨hlength, rfl⟩, rfl⟩

theorem coreKeyOrError_eq_ok {cs : List Char} (h : isTriple cs = true) {key : ℕ ×ₗ ℕ ×ₗ ℕ} :
    coreKeyOrError cs = .ok key ↔
      (∀ numeral ∈ cs.splitOn '.', numeral.length ≤ maxIntDigits) ∧ coreKey cs = key := by
  unfold isTriple at h
  unfold coreKeyOrError coreKey
  split at h
  · rename_i a b c hparts
    simp only [hparts, bind_eq_ok, intOrError_eq_ok, Except.ok.injEq, List.forall_mem_cons]
    constructor
    · rintro ⟨major, ⟨ha, rfl⟩, minor, ⟨hb, rfl⟩, patch, ⟨hc, rfl⟩, rfl⟩
      exact ⟨⟨ha, hb, hc, fun _ hnone => absurd hnone List.not_mem_nil⟩, rfl⟩
    · rintro ⟨⟨ha, hb, hc, -⟩, rfl⟩
      exact ⟨_, ⟨ha, rfl⟩, _, ⟨hb, rfl⟩, _, ⟨hc, rfl⟩, rfl⟩
  · cases h

theorem mapM_prereleaseKeyOrError {parts : List (List Char)} {keys : List PrereleaseKey} :
    parts.mapM prereleaseKeyOrError = .ok keys ↔
      (∀ part ∈ parts, (digits part).length ≤ maxIntDigits) ∧ parts.map prereleaseKey = keys := by
  rw [mapM_eq_ok]
  induction parts generalizing keys with
  | nil => cases keys <;> simp
  | cons part parts ih =>
    cases keys with
    | nil => simp
    | cons key keys =>
      rw [List.forall₂_cons, ih, prereleaseKeyOrError_eq_ok, List.forall_mem_cons, List.map_cons,
        List.cons.injEq]
      tauto

/-- **A name that matches has a key exactly where `int` reads its numerals.** -/
theorem versionKeyOrError_eq {text : String} (hversion : isVersion text.toList = true) (result) :
    versionKeyOrError text = .ok result ↔
      ((∀ numeral ∈ (beforeFirst '-' text.toList).splitOn '.', numeral.length ≤ maxIntDigits) ∧
        ∀ part ∈ ((afterFirst '-' text.toList).splitOn '.').filter (fun part => !part.isEmpty),
          (digits part).length ≤ maxIntDigits) ∧ versionKey text = result := by
  have htriple : isTriple (beforeFirst '-' text.toList) = true := by
    rw [isVersion, Bool.and_eq_true] at hversion
    exact hversion.1
  have hkey : versionKey text = some (toLex (coreKey (beforeFirst '-' text.toList),
      toLex ((afterFirst '-' text.toList).isEmpty,
        (((afterFirst '-' text.toList).splitOn '.').filter fun part => !part.isEmpty).map
          prereleaseKey))) := if_pos hversion
  have hcall : versionKeyOrError text = (do
      let numbers ← coreKeyOrError (beforeFirst '-' text.toList)
      let parts ← (((afterFirst '-' text.toList).splitOn '.').filter
        fun part => !part.isEmpty).mapM prereleaseKeyOrError
      .ok (some (toLex (numbers, toLex ((afterFirst '-' text.toList).isEmpty, parts))))) :=
    if_pos hversion
  rw [hkey, hcall]
  simp only [bind_eq_ok, coreKeyOrError_eq_ok htriple, mapM_prereleaseKeyOrError, Except.ok.injEq]
  constructor
  · rintro ⟨numbers, ⟨hnumbers, rfl⟩, parts, ⟨hparts, rfl⟩, rfl⟩
    exact ⟨⟨hnumbers, hparts⟩, rfl⟩
  · rintro ⟨⟨hnumbers, hparts⟩, rfl⟩
    exact ⟨_, ⟨hnumbers, rfl⟩, _, ⟨hparts, rfl⟩, rfl⟩

theorem Version.key_iff (v : Version) {result} :
    versionKeyOrError v.text = .ok result ↔ v.Read ∧ some v.key = result := by
  rw [versionKeyOrError_eq v.version, filter_parts, (versionKey_eq v).1, Version.Read, numerals,
    List.forall_mem_append, List.forall_mem_map]
  rfl

theorem Version.raises {v : Version} (h : ¬v.Read) : ∃ e, versionKeyOrError v.text = .error e := by
  cases hresult : versionKeyOrError v.text with
  | error e => exact ⟨e, rfl⟩
  | ok result => exact absurd (v.key_iff.mp hresult).1 h

theorem ReadVersion.key_eq (v : ReadVersion) :
    versionKeyOrError v.text = .ok (some v.key) := v.key_iff.mpr ⟨v.read, rfl⟩

theorem length_le_of_mem_splitOn {separator : Char} {cs part : List Char}
    (h : part ∈ cs.splitOn separator) : part.length ≤ cs.length := by
  rw [← @List.intercalate_splitOn Char cs _ _ separator]
  generalize cs.splitOn separator = parts at h
  induction parts with
  | nil => cases h
  | cons first rest ih =>
    cases rest with
    | nil => rw [List.mem_singleton.mp h, List.intercalate_singleton]
    | cons next rest =>
      rw [List.intercalate_cons_cons, List.length_append, List.length_append]
      rcases List.mem_cons.mp h with rfl | h
      · omega
      · have := ih h
        omega

theorem length_digits_le (part : List Char) : (digits part).length ≤ part.length :=
  (List.rtakeWhile_suffix isDigit part).length_le

/-- **Names of a bounded length have the keys of the admission policy.** -/
theorem versionKeyOrError_of_length {text : String} (h : text.length ≤ maxIntDigits) :
    versionKeyOrError text = .ok (versionKey text) := by
  by_cases hversion : isVersion text.toList = true
  · have hcore : (beforeFirst '-' text.toList).length ≤ text.length := by
      rw [← String.length_toList]
      exact (List.takeWhile_prefix _).length_le
    have htail : (afterFirst '-' text.toList).length ≤ text.length := by
      rw [← String.length_toList, afterFirst, List.length_drop]
      exact (Nat.sub_le _ _).trans (List.dropWhile_suffix _).length_le
    refine (versionKeyOrError_eq hversion _).mpr
      ⟨⟨fun numeral hnumeral => ?_, fun part hpart => ?_⟩, rfl⟩
    · exact (length_le_of_mem_splitOn hnumeral).trans (hcore.trans h)
    · have hsplit := length_le_of_mem_splitOn (List.mem_filter.mp hpart).1
      exact (length_digits_le part).trans (hsplit.trans (htail.trans h))
  · have hnone : versionKey text = none := if_neg hversion
    rw [hnone]
    exact if_neg hversion

theorem key_lt_iff (v w : Version) : v.key < w.key ↔ Precedes v w := by
  have hmap := map_prereleaseKey_lt_iff v.identifiers w.identifiers
  rw [(versionKey_eq v).2, (versionKey_eq w).2, Prod.Lex.toLex_lt_toLex, Prod.Lex.toLex_lt_toLex,
    numbersKey_lt, numbersKey_inj, Precedes, hmap]
  refine or_congr_right (and_congr_right fun _ => ?_)
  cases hv : identifiers v.text with
  | nil =>
    -- A release is below nothing of its own numbers.
    cases hw : identifiers w.text with
    | nil => simp [IdentifiersLess]
    | cons b bs => simp
  | cons a as =>
    cases hw : identifiers w.text with
    | nil => simp
    | cons b bs => simp

/-! ## Release tags -/

/-- The version name of a tag, which is what follows its `v`. -/
def tagVersion (tag : String) : String := String.ofList (tag.toList.drop 1)

/-- The version names of release tags: the three numbers, and `rc` or `preview` with a number. -/
inductive TagVersion : String → Prop
  | stable (core : List Char) (hcore : isTriple core = true) : TagVersion (String.ofList core)
  | rc (core label number : List Char) (hcore : isTriple core = true)
      (hlabel : label = "rc".toList ∨ label = "preview".toList)
      (hnumber : isPositiveNumeral number = true) :
      TagVersion (String.ofList (core ++ '-' :: (label ++ number)))

theorem after?_eq_some {literal cs rest : List Char} (h : after? literal cs = some rest) :
    cs = literal ++ rest := by
  rw [after?] at h
  split at h
  · rename_i hpre
    obtain ⟨tail, rfl⟩ := List.isPrefixOf_iff_prefix.mp hpre
    rw [List.drop_left, Option.some.injEq] at h
    rw [h]
  · cases h

theorem tag_version {tag : String} (h : isInstallReleaseTag tag = true) :
    tag = String.ofList ('v' :: (tagVersion tag).toList) ∧ TagVersion (tagVersion tag) := by
  rw [isInstallReleaseTag, Bool.and_eq_true, Bool.or_eq_true] at h
  obtain ⟨-, h | h⟩ := h
  · unfold isStableTag at h
    split at h
    · rename_i core htag
      have hversion : tagVersion tag = String.ofList core := by rw [tagVersion, htag]; rfl
      rw [hversion, String.toList_ofList, ← htag, String.ofList_toList]
      exact ⟨rfl, .stable core h⟩
    · cases h
  · rw [isRcReleaseTag, Bool.and_eq_true, isRcTag] at h
    replace h := h.2
    split at h
    · rename_i core tail htag
      rw [Bool.and_eq_true, isRcTail, Bool.or_eq_true] at h
      have hjoin : ['-'].intercalate (tag.toList.splitOn '-') = tag.toList :=
        List.intercalate_splitOn '-'
      rw [htag] at hjoin
      have htext : tag.toList = 'v' :: (core ++ '-' :: tail) := by
        rw [← hjoin]
        simp [List.intercalate]
      have hlabel : ∃ label number, tail = label ++ number ∧
          (label = "rc".toList ∨ label = "preview".toList) ∧ isPositiveNumeral number = true := by
        rcases h.2 with htail | htail
        · rw [Option.any_eq_true] at htail
          obtain ⟨number, hnumber, hpositive⟩ := htail
          exact ⟨_, number, after?_eq_some hnumber, .inl rfl, hpositive⟩
        · rw [Option.any_eq_true] at htail
          obtain ⟨number, hnumber, hpositive⟩ := htail
          exact ⟨_, number, after?_eq_some hnumber, .inr rfl, hpositive⟩
      obtain ⟨label, number, rfl, hlabel, hpositive⟩ := hlabel
      have hversion : tagVersion tag = String.ofList (core ++ '-' :: (label ++ number)) := by
        rw [tagVersion, htext]
        rfl
      rw [hversion, String.toList_ofList, ← htext, String.ofList_toList]
      exact ⟨rfl, .rc core label number h.1 hlabel hpositive⟩
    · cases h

theorem all_isDigit_of_numeral {cs : List Char} (h : isNumeral cs = true) :
    cs.all isDigit = true := by
  rw [← isNumeral_toDigits_decimal h]
  exact all_isDigit_toDigits _

/-- A triple is made of digits and points. -/
theorem not_mem_triple {core : List Char} (h : isTriple core = true) : '-' ∉ core := by
  have hall : core.all (fun c => isDigit c || c == '.') = true := by
    refine (@all_splitOn (fun c => isDigit c || c == '.') '.' (by decide) _).mp fun part hpart => ?_
    have hdigits : part.all isDigit = true := by
      unfold isTriple at h
      split at h
      · rename_i a b c hparts
        simp only [Bool.and_eq_true] at h
        simp only [hparts, List.mem_cons, List.not_mem_nil, or_false] at hpart
        rcases hpart with rfl | rfl | rfl
        · exact all_isDigit_of_numeral h.1.1
        · exact all_isDigit_of_numeral h.1.2
        · exact all_isDigit_of_numeral h.2
      · cases h
    rw [List.all_eq_true] at hdigits ⊢
    exact fun c hc => by rw [hdigits c hc]; rfl
  intro hmem
  exact absurd (List.all_eq_true.mp hall '-' hmem) (by decide)

/-- Canonical triples of the same numbers are the same. -/
theorem eq_of_coreKey {core core' : List Char} (h : isTriple core = true)
    (h' : isTriple core' = true) (heq : coreKey core = coreKey core') : core = core' := by
  have hparts : ∀ {core : List Char}, isTriple core = true → ∃ a b c,
      core.splitOn '.' = [a, b, c] ∧ isNumeral a = true ∧ isNumeral b = true ∧
        isNumeral c = true := by
    intro core h
    unfold isTriple at h
    split at h
    · rename_i a b c hparts
      simp only [Bool.and_eq_true] at h
      exact ⟨a, b, c, hparts, h.1.1, h.1.2, h.2⟩
    · cases h
  obtain ⟨a, b, c, hsplit, ha, hb, hc⟩ := hparts h
  obtain ⟨a', b', c', hsplit', ha', hb', hc'⟩ := hparts h'
  simp only [coreKey, hsplit, hsplit', toLex_inj, Prod.mk.injEq] at heq
  rw [← @List.intercalate_splitOn Char core _ _ '.', ← @List.intercalate_splitOn Char core' _ _ '.',
    hsplit, hsplit', eq_of_decimal ha ha' heq.1, eq_of_decimal hb hb' heq.2.1,
    eq_of_decimal hc hc' heq.2.2]

theorem labels_plain {label : List Char} (h : label = "rc".toList ∨ label = "preview".toList) :
    label.all isLower = true ∧ label ≠ [] := by
  rcases h with rfl | rfl <;> decide

theorem not_isDigit_of_isLower {c : Char} (h : isLower c = true) : isDigit c = false := by
  rw [← Bool.not_eq_true, isDigit_iff]
  simp only [isLower, Bool.and_eq_true, decide_eq_true_eq, Char.le_def, UInt32.le_iff_toNat_le] at h
  have hle : 'a'.toNat ≤ c.toNat := h.1
  have ha : 'a'.toNat = 97 := rfl
  omega

theorem isDigit_of_mem_numeral {number : List Char} (h : isPositiveNumeral number = true) :
    ∀ c ∈ number, isDigit c = true := by
  have hnumeral : isNumeral number = true := by
    rw [isNumeral, h, Bool.or_true]
  exact List.all_eq_true.mp (all_isDigit_of_numeral hnumeral)

/-- The parts of a label with its number. -/
theorem stem_append {label number : List Char} (hlabel : label.all isLower = true ∧ label ≠ [])
    (hnumber : isPositiveNumeral number = true) :
    stem (label ++ number) = label ∧ digits (label ++ number) = number := by
  have hlast : ∀ c, label.getLast? = some c → isDigit c = false := fun c hc =>
    not_isDigit_of_isLower (List.all_eq_true.mp hlabel.1 c (List.mem_of_getLast? hc))
  exact digits_append hlast (List.all_eq_true.mpr (isDigit_of_mem_numeral hnumber))

theorem prereleaseKey_label {label number : List Char}
    (hlabel : label.all isLower = true ∧ label ≠ []) (hnumber : isPositiveNumeral number = true) :
    prereleaseKey (label ++ number) =
      toLex (1, toLex (String.ofList label, (decimal number : ℤ))) := by
  have hnumeric : ¬IsNumeric (label ++ number) := by
    intro h
    obtain ⟨c, cs, rfl⟩ := List.exists_cons_of_ne_nil hlabel.2
    have hc := List.all_eq_true.mp h c List.mem_cons_self
    rw [not_isDigit_of_isLower (List.all_eq_true.mp hlabel.1 c List.mem_cons_self)] at hc
    cases hc
  obtain ⟨hstem, hdigits⟩ := stem_append hlabel hnumber
  have hne : number ≠ [] := by
    rintro rfl
    cases hnumber
  rw [prereleaseKey_of_alphanumeric hnumeric, hstem, hdigits, numberKey,
    List.isEmpty_eq_false_iff.mpr hne]
  rfl

theorem isVersion_append {core tail : List Char} (hcore : isTriple core = true)
    (htail : isPrereleaseTail ('-' :: tail) = true) : isVersion (core ++ '-' :: tail) = true := by
  have hplain := not_mem_triple hcore
  have htake : (core ++ '-' :: tail).takeWhile (· ≠ '-') = core := beforeFirst_append hplain tail
  rw [isVersion, htake, dropWhile_append hplain, hcore, htail]
  rfl

/-- The keys of the version names of release tags. -/
theorem versionKey_stable {core : List Char} (h : isTriple core = true) :
    versionKey (String.ofList core) = some (toLex (coreKey core, toLex (true, []))) := by
  have hplain := not_mem_triple h
  have htake : core.takeWhile (· ≠ '-') = core := beforeFirst_of_not_mem hplain
  have hdrop : core.dropWhile (· ≠ '-') = [] :=
    List.dropWhile_eq_nil_iff.mpr fun c hc => decide_eq_true fun heq => hplain (heq ▸ hc)
  have hversion : isVersion core = true := by
    rw [isVersion, htake, hdrop, h]
    rfl
  rw [versionKey, String.toList_ofList, if_pos hversion, partition, htake, hdrop]
  rfl

theorem versionKey_rc {core label number : List Char} (hcore : isTriple core = true)
    (hlabel : label = "rc".toList ∨ label = "preview".toList)
    (hnumber : isPositiveNumeral number = true) :
    versionKey (String.ofList (core ++ '-' :: (label ++ number))) =
      some (toLex (coreKey core, toLex (false,
        [toLex (1, toLex (String.ofList label, (decimal number : ℤ)))]))) := by
  have hplain := not_mem_triple hcore
  have hlower := labels_plain hlabel
  have halnum : ∀ c ∈ label ++ number, isAlnum c = true := by
    intro c hc
    rcases List.mem_append.mp hc with hc | hc
    · rw [isAlnum, List.all_eq_true.mp hlower.1 c hc, Bool.or_true, Bool.true_or]
    · rw [isAlnum, isDigit_of_mem_numeral hnumber c hc]
      rfl
  have hne : label ++ number ≠ [] := fun h => hlower.2 (List.append_eq_nil_iff.mp h).1
  have htail : isPrereleaseTail ('-' :: (label ++ number)) = true := by
    obtain ⟨c, cs, heq⟩ := List.exists_cons_of_ne_nil hne
    rw [heq] at halnum ⊢
    rw [isPrereleaseTail, halnum c List.mem_cons_self, Bool.true_and, List.all_eq_true]
    intro x hx
    rw [halnum x (List.mem_cons_of_mem _ hx)]
    rfl
  have hpoint : '.' ∉ label ++ number := fun h => absurd (halnum _ h) (by decide)
  have htake : (core ++ '-' :: (label ++ number)).takeWhile (· ≠ '-') = core :=
    beforeFirst_append hplain _
  have hparts : (((label ++ number).splitOn '.').filter fun part => !part.isEmpty) =
      [label ++ number] := by
    rw [List.splitOn_eq_singleton hpoint]
    simp [hlower.2]
  rw [versionKey, String.toList_ofList, if_pos (isVersion_append hcore htail), partition, htake,
    dropWhile_append hplain, List.drop_one, List.tail_cons]
  show some (toLex (coreKey core, toLex ((label ++ number).isEmpty,
    (((label ++ number).splitOn '.').filter fun part => !part.isEmpty).map prereleaseKey))) = _
  rw [hparts, List.isEmpty_eq_false_iff.mpr hne, List.map_singleton,
    prereleaseKey_label hlower hnumber]

/-- Version names of release tags with one key are one name. -/
theorem TagVersion.eq_of_versionKey {text text' : String} (h : TagVersion text)
    (h' : TagVersion text') (heq : versionKey text = versionKey text') : text = text' := by
  cases h with
  | stable core hcore =>
    cases h' with
    | stable core' hcore' =>
      rw [versionKey_stable hcore, versionKey_stable hcore'] at heq
      simp only [Option.some.injEq, toLex_inj, Prod.mk.injEq, and_true] at heq
      rw [eq_of_coreKey hcore hcore' heq]
    | rc core' label' number' hcore' hlabel' hnumber' =>
      rw [versionKey_stable hcore, versionKey_rc hcore' hlabel' hnumber'] at heq
      simp at heq
  | rc core label number hcore hlabel hnumber =>
    cases h' with
    | stable core' hcore' =>
      rw [versionKey_rc hcore hlabel hnumber, versionKey_stable hcore'] at heq
      simp at heq
    | rc core' label' number' hcore' hlabel' hnumber' =>
      rw [versionKey_rc hcore hlabel hnumber, versionKey_rc hcore' hlabel' hnumber'] at heq
      simp only [Option.some.injEq, toLex_inj, Prod.mk.injEq, true_and, List.cons.injEq, and_true,
        ofList_eq, Nat.cast_inj] at heq
      obtain ⟨hcores, hlabels, hnumbers⟩ := heq
      have hnumeral : ∀ {number : List Char}, isPositiveNumeral number = true →
          isNumeral number = true := fun h => by rw [isNumeral, h, Bool.or_true]
      rw [eq_of_coreKey hcore hcore' hcores, hlabels,
        eq_of_decimal (hnumeral hnumber) (hnumeral hnumber') hnumbers]

theorem identifiersLess_append {as : List (List Char)} {more : List (List Char)} (h : more ≠ [])
    (has : ∀ a ∈ as, a ≠ []) : IdentifiersLess as (as ++ more) := by
  induction as with
  | nil =>
    cases more with
    | nil => exact absurd rfl h
    | cons b bs => trivial
  | cons a as ih =>
    rw [List.forall_mem_cons] at has
    refine .inr ⟨fun hless => ?_, ih has.2⟩
    rw [← prereleaseKey_lt_iff has.1 has.1] at hless
    exact lt_irrefl _ hless

theorem length_tagVersion {tag : String} (h : isInstallReleaseTag tag = true) :
    (tagVersion tag).length ≤ maxIntDigits := by
  rw [isInstallReleaseTag, Bool.and_eq_true, decide_eq_true_eq] at h
  have hlength : (tagVersion tag).length ≤ tag.length := by
    rw [tagVersion, ← String.length_toList, String.toList_ofList, List.length_drop,
      String.length_toList]
    exact Nat.sub_le _ _
  have hbound : maxTagLength ≤ maxIntDigits := by decide
  exact hlength.trans (h.1.trans hbound)

/-- A version has a key exactly where `int` reads its numerals. The keys are in the order of SemVer,
and release tags have keys of their own. -/
theorem version_order_is_semver :
    (∀ v : Version, v.Read ∧ versionKeyOrError v.text = .ok (some v.key) ∨
      ¬v.Read ∧ ∃ e, versionKeyOrError v.text = .error e) ∧
    (∀ v w : ReadVersion, v.key ≤ w.key ∨ w.key ≤ v.key) ∧
    (∀ u v w : ReadVersion, u.key ≤ v.key → v.key ≤ w.key → u.key ≤ w.key) ∧
    (∀ v w : ReadVersion, v.key < w.key ↔ Precedes v.toVersion w.toVersion) ∧
    (∀ v w : ReadVersion, ∃ atLeast, isVersionAtLeastOrError v.text w.text = .ok (some atLeast) ∧
      (atLeast = true ↔ ¬Precedes v.toVersion w.toVersion)) ∧
    (∀ v w : ReadVersion, ∃ newer, isNewerStableVersionOrError v.text w.text = .ok newer ∧
      (newer = true ↔ identifiers v.text = [] ∧ Precedes w.toVersion v.toVersion)) ∧
    (∀ v w : ReadVersion, numbers v.text = numbers w.text → identifiers v.text = [] →
      identifiers w.text ≠ [] → w.key < v.key) ∧
    (∀ v w : ReadVersion, ∀ more, numbers v.text = numbers w.text → identifiers v.text ≠ [] →
      more ≠ [] → identifiers w.text = identifiers v.text ++ more → v.key < w.key) ∧
    ∀ tag tag', isInstallReleaseTag tag = true → isInstallReleaseTag tag' = true →
      versionKeyOrError (tagVersion tag) = versionKeyOrError (tagVersion tag') → tag = tag' := by
  refine ⟨fun v => ?_, fun v w => le_total _ _, fun u v w => le_trans, fun v w => key_lt_iff _ _,
    fun v w => ?_, fun v w => ?_, fun v w hnumbers hv hw => ?_,
    fun v w more hnumbers hv hmore hw => ?_, fun tag tag' h h' heq => ?_⟩
  · by_cases hread : v.Read
    · exact .inl ⟨hread, v.key_iff.mpr ⟨hread, rfl⟩⟩
    · exact .inr ⟨hread, Version.raises hread⟩
  · rw [isVersionAtLeastOrError, v.key_eq, w.key_eq]
    refine ⟨_, rfl, ?_⟩
    rw [decide_eq_true_eq, ← not_lt, key_lt_iff]
  · rw [isNewerStableVersionOrError, v.key_eq, w.key_eq]
    refine ⟨_, rfl, ?_⟩
    show (v.key.stable && decide (w.key < v.key)) = true ↔ _
    rw [Bool.and_eq_true, decide_eq_true_eq, key_lt_iff, VersionKey.stable, (versionKey_eq _).2]
    exact and_congr_left' List.isEmpty_iff
  · rw [key_lt_iff]
    exact .inr ⟨hnumbers.symm, hw, .inl hv⟩
  · rw [key_lt_iff]
    refine .inr ⟨hnumbers, hv, .inr ?_⟩
    rw [hw]
    exact identifiersLess_append hmore v.identifiers
  · obtain ⟨htext, htag⟩ := tag_version h
    obtain ⟨htext', htag'⟩ := tag_version h'
    rw [versionKeyOrError_of_length (length_tagVersion h),
      versionKeyOrError_of_length (length_tagVersion h'), Except.ok.injEq] at heq
    rw [htext, htext', htag.eq_of_versionKey htag' heq]

def candidate : ReadVersion where
  text := "1.0.0-rc9"
  version := by decide
  identifiers := by decide
  read := by
    show ∀ numeral ∈ numerals "1.0.0-rc9", numeral.length ≤ maxIntDigits
    decide

def amended : ReadVersion where
  text := "1.0.0-rc9.1"
  version := by decide
  identifiers := by decide
  read := by
    show ∀ numeral ∈ numerals "1.0.0-rc9.1", numeral.length ≤ maxIntDigits
    decide

def released : ReadVersion where
  text := "1.0.0"
  version := by decide
  identifiers := by decide
  read := by
    show ∀ numeral ∈ numerals "1.0.0", numeral.length ≤ maxIntDigits
    decide

theorem released_last : candidate.key < amended.key ∧ amended.key < released.key := by
  obtain ⟨-, -, -, -, -, -, hrelease, hlonger, -⟩ := version_order_is_semver
  exact ⟨hlonger candidate amended [['1']] (by decide) (by decide) (by decide) (by decide),
    hrelease released amended (by decide) (by decide) (by decide)⟩

/-! ## A name without a key -/

/-- `1.0.` and 4301 ones. -/
def onesText : List Char := '1' :: '.' :: '0' :: '.' :: List.replicate 4301 '1'

def manyOnes : Version where
  text := String.ofList onesText
  version := by
    rw [String.toList_ofList]
    decide +kernel
  identifiers := by
    rw [SemVer.identifiers, String.toList_ofList, if_pos (by decide +kernel)]
    exact fun _ hnone => absurd hnone List.not_mem_nil

theorem manyOnes_not_read : ¬manyOnes.Read := by
  intro hread
  have hmem : List.replicate 4301 '1' ∈ numerals manyOnes.text := by
    refine List.mem_append_left _ ?_
    rw [manyOnes, String.toList_ofList]
    decide +kernel
  have hlength := hread _ hmem
  rw [List.length_replicate] at hlength
  exact absurd hlength (by decide)

/-- A version that is not even compared with itself. -/
theorem manyOnes_raises : isVersion manyOnes.text.toList = true ∧
    (∀ identifier ∈ identifiers manyOnes.text, identifier ≠ []) ∧
    (∃ e, versionKeyOrError manyOnes.text = .error e) ∧
    ∃ e, isVersionAtLeastOrError manyOnes.text manyOnes.text = .error e := by
  obtain ⟨e, he⟩ := Version.raises manyOnes_not_read
  refine ⟨manyOnes.version, manyOnes.identifiers, ⟨e, he⟩, e, ?_⟩
  rw [isVersionAtLeastOrError, he]
  rfl

end SemVer

end PanelAssistant
