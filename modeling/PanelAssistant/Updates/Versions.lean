import Mathlib.Data.List.Lex
import Mathlib.Data.Prod.Lex
import Mathlib.Data.List.DropRight
import PanelAssistant.Release

/-!
# Version names, their order, and the admission policy

`_version_key` and what it decides in `client.py`, and `update_policy.py`. Python compares
the tuples of a key from the left, so a key is an element of a lexicographic product. A build
of the signed feed ranks by its version code first (`feedBuildKey`), a release by its name.

`int` raises a `ValueError` for a numeral of more than 4300 digits, and so does `_version_key`
(`versionKeyOrError`). The names that the integration admits are far shorter, so the functions
that read only such names are written over the keys themselves (`versionKey`).
-/

namespace PanelAssistant

open Library.Text

/-! ## Version keys -/

/-- A text that ends in digits, and what precedes them. -/
theorem digits_append {stem number : List Char}
    (hstem : ∀ c, stem.getLast? = some c → isDigit c = false)
    (hnumber : number.all isDigit = true) :
    (stem ++ number).rdropWhile isDigit = stem ∧ (stem ++ number).rtakeWhile isDigit = number := by
  have hall : ∀ c ∈ number.reverse, isDigit c = true := fun c hc =>
    List.all_eq_true.mp hnumber c (List.mem_reverse.mp hc)
  have hdrop : (stem ++ number).rdropWhile isDigit = stem := by
    rw [List.rdropWhile, List.reverse_append, List.dropWhile_append_of_pos hall, ← List.rdropWhile,
      List.rdropWhile_eq_self_iff]
    intro hne hdigit
    rw [hstem _ (List.getLast?_eq_some_getLast hne)] at hdigit
    cases hdigit
  have hsplit : (stem ++ number).rdropWhile isDigit ++ (stem ++ number).rtakeWhile isDigit =
      stem ++ number := List.rdropWhile_append_rtakeWhile
  rw [hdrop] at hsplit
  exact ⟨hdrop, List.append_cancel_left hsplit⟩

abbrev PrereleaseKey := ℕ ×ₗ String ×ₗ ℤ

/-- The three numbers, whether the version is stable, and its pre-release identifiers. -/
abbrev VersionKey := (ℕ ×ₗ ℕ ×ₗ ℕ) ×ₗ Bool ×ₗ List PrereleaseKey

/-- The key of one pre-release identifier, `rc10` after `rc9`. -/
def prereleaseKey (identifier : List Char) : PrereleaseKey :=
  if !identifier.isEmpty && identifier.all isDigit then
    toLex (0, toLex ("", (decimal identifier : ℤ)))
  else
    let stem := identifier.rdropWhile isDigit
    let digits := identifier.drop stem.length
    toLex (1, toLex (String.ofList stem, if digits.isEmpty then -1 else (decimal digits : ℤ)))

/-- What precedes the first separator, and what follows it: `str.partition`. -/
def partition (separator : Char) (cs : List Char) : List Char × List Char :=
  (cs.takeWhile (· ≠ separator), (cs.dropWhile (· ≠ separator)).drop 1)

/-- `(?:-[0-9A-Za-z][0-9A-Za-z.-]*)?` after the three numbers. -/
def isPrereleaseTail : List Char → Bool
  | [] => true
  | '-' :: c :: rest => isAlnum c && rest.all fun x => isAlnum x || x == '.' || x == '-'
  | _ => false

/-- `_VERSION_PATTERN` -/
def isVersion (cs : List Char) : Bool :=
  isTriple (cs.takeWhile (· ≠ '-')) && isPrereleaseTail (cs.dropWhile (· ≠ '-'))

/-- The three numbers of `N.N.N`. -/
def coreKey (cs : List Char) : ℕ ×ₗ ℕ ×ₗ ℕ :=
  match cs.splitOn '.' with
  | [a, b, c] => toLex (decimal a, toLex (decimal b, decimal c))
  | _ => toLex (0, toLex (0, 0))

/-- The key of a name whose numerals `int` reads. -/
def versionKey (value : String) : Option VersionKey :=
  let cs := value.toList
  if isVersion cs then
    let (core, prerelease) := partition '-' cs
    some (toLex (coreKey core, toLex (prerelease.isEmpty,
      ((prerelease.splitOn '.').filter fun part => !part.isEmpty).map prereleaseKey)))
  else none

namespace VersionKey

def core (key : VersionKey) : ℕ ×ₗ ℕ ×ₗ ℕ := (ofLex key).1

def stable (key : VersionKey) : Bool := (ofLex (ofLex key).2).1

/-- `((0, 0, 0), False, ())`, which stands in for a name without a key. -/
def zero : VersionKey := toLex (toLex (0, toLex (0, 0)), toLex (false, []))

theorem core_mono {key key' : VersionKey} (h : key ≤ key') : key.core ≤ key'.core :=
  Prod.Lex.monotone_fst key key' h

end VersionKey

example : (versionKey "0.9.11-rc9").get! < (versionKey "0.9.11-rc10").get! ∧
    (versionKey "1.0.0-rc1").get! < (versionKey "1.0.0").get! := by decide

/-! ## Numerals that `int` does not read -/

/-- What `int` raises, with the number of digits that it was given. -/
structure ValueError where
  digits : ℕ
  deriving DecidableEq

/-- `int`, of decimal digits. -/
def intOrError (digits : List Char) : Except ValueError ℕ :=
  if digits.length ≤ maxIntDigits then .ok (decimal digits) else .error ⟨digits.length⟩

/-- `_prerelease_key` -/
def prereleaseKeyOrError (identifier : List Char) : Except ValueError PrereleaseKey :=
  if !identifier.isEmpty && identifier.all isDigit then do
    let number ← intOrError identifier
    .ok (toLex (0, toLex ("", (number : ℤ))))
  else
    let stem := identifier.rdropWhile isDigit
    let digits := identifier.drop stem.length
    if digits.isEmpty then .ok (toLex (1, toLex (String.ofList stem, -1)))
    else do
      let number ← intOrError digits
      .ok (toLex (1, toLex (String.ofList stem, (number : ℤ))))

def coreKeyOrError (cs : List Char) : Except ValueError (ℕ ×ₗ ℕ ×ₗ ℕ) :=
  match cs.splitOn '.' with
  | [a, b, c] => do
    let major ← intOrError a
    let minor ← intOrError b
    let patch ← intOrError c
    .ok (toLex (major, toLex (minor, patch)))
  | _ => .ok (toLex (0, toLex (0, 0)))

/-- `_version_key` -/
def versionKeyOrError (value : String) : Except ValueError (Option VersionKey) :=
  let cs := value.toList
  if isVersion cs then do
    let (core, prerelease) := partition '-' cs
    let numbers ← coreKeyOrError core
    let parts ← ((prerelease.splitOn '.').filter fun part => !part.isEmpty).mapM
      prereleaseKeyOrError
    .ok (some (toLex (numbers, toLex (prerelease.isEmpty, parts))))
  else .ok none

/-- `is_newer_stable_version` -/
def isNewerStableVersionOrError (candidate installed : String) : Except ValueError Bool := do
  let candidateKey ← versionKeyOrError candidate
  let installedKey ← versionKeyOrError installed
  .ok (match candidateKey, installedKey with
    | some candidateKey, some installedKey =>
      candidateKey.stable && decide (installedKey < candidateKey)
    | _, _ => false)

/-- `is_version_at_least` -/
def isVersionAtLeastOrError (version minimum : String) : Except ValueError (Option Bool) := do
  let current ← versionKeyOrError version
  let required ← versionKeyOrError minimum
  .ok (match current, required with
    | some current, some required => some (decide (required ≤ current))
    | _, _ => none)

/-! ## Comparisons -/

/-- Whether a panel's version is the minimum or later, and nothing if that is unknown. -/
def isVersionAtLeast (version minimum : String) : Option Bool :=
  match versionKey version, versionKey minimum with
  | some current, some required => some (decide (required ≤ current))
  | _, _ => none

/-- Compare a stable candidate with a current version, candidates for release included. -/
def isNewerStableVersion (candidate installed : String) : Bool :=
  match versionKey candidate, versionKey installed with
  | some candidateKey, some installedKey =>
    candidateKey.stable && decide (installedKey < candidateKey)
  | _, _ => false

def maxVersionLength : ℕ := 63

def isValidPanelVersion (value : String) : Bool :=
  decide (value.length ≤ maxVersionLength) && isVersion value.toList || isBuildVersionName value

/-! ## The admission policy -/

/-- The number of one build, as `_bounded_integer` and `_VERSION_CODE_PATTERN` admit it. -/
abbrev VersionCode := {n : ℕ // 1 ≤ n ∧ n ≤ maxAndroidVersionCode}

/-- The number of the running build, which `parse_diag_version` reads with up to ten digits. -/
abbrev RunningCode := {n : ℕ // 1 ≤ n ∧ n ≤ 9999999999}

def protocolMin : ℤ := 5

def protocolMax : ℤ := 5

def overlaps (low high : ℤ) : Bool := decide (low ≤ protocolMax) && decide (protocolMin ≤ high)

/-- Whether a pre-release identifier is empty, or a numeral with a leading zero. -/
def malformedPart (part : List Char) : Bool :=
  part.isEmpty || (part.all isDigit && decide (1 < part.length) && part.head? == some '0')

def buildAllowed (versionName : String) (low high : Option ℤ) (allowPrerelease : Bool) : Bool :=
  match low, high with
  | some low, some high =>
    isValidPanelVersion versionName &&
      decide (1 ≤ low ∧ low ≤ high ∧ high ≤ maxAndroidVersionCode) && overlaps low high &&
      !(versionName.toList.contains '-' &&
        ((partition '-' versionName.toList).2.splitOn '.').any malformedPart) &&
      (versionKey versionName).any fun version => version.stable || allowPrerelease
  | _, _ => false

theorem versionKey_of_buildAllowed {name : String} {low high : Option ℤ} {pre : Bool}
    (h : buildAllowed name low high pre = true) :
    (∃ key, versionKey name = some key) ∧ isValidPanelVersion name = true := by
  unfold buildAllowed at h
  split at h
  · simp only [Bool.and_eq_true] at h
    obtain ⟨⟨⟨⟨hvalid, -⟩, -⟩, -⟩, hkey⟩ := h
    cases hversion : versionKey name with
    | none => simp [hversion] at hkey
    | some key => exact ⟨⟨key, rfl⟩, hvalid⟩
  · cases h

/-- Order signed build feed entries by version code, then by name. -/
def feedBuildKey (versionName : String) (versionCode : ℕ) : ℕ ×ₗ VersionKey :=
  toLex (versionCode, (versionKey versionName).getD VersionKey.zero)

/-- A feed build is an upgrade only when it ranks above the installed build. -/
def feedBuildNewer (versionName : String) (versionCode : Option ℕ)
    (installedVersion : String) (installedCode : Option ℕ) : Bool :=
  match versionCode, installedCode with
  | some code, some installed =>
    decide (feedBuildKey installedVersion installed < feedBuildKey versionName code)
  | _, _ => false

/-- The build is the installed release or a later one, by name and code. -/
def versionNotOlder (versionName : String) (versionCode : Option ℕ)
    (installedVersion : String) (installedCode : Option ℕ) : Bool :=
  match versionKey installedVersion, versionKey versionName with
  | some installed, some candidate =>
    decide (installed ≤ candidate) &&
      match versionCode, installedCode with
      | some code, some installed => decide (installed ≤ code)
      | _, _ => true
  | _, _ => false

/-- `(1, 0, 0)` -/
def firstGuarded : ℕ ×ₗ ℕ ×ₗ ℕ := toLex (1, toLex (0, 0))

/-- Never older than the installed build once it runs 1.0 or later. -/
def versionAllowed (versionName : String) (versionCode : Option ℕ)
    (installedVersion : String) (installedCode : Option ℕ) (feed : Bool) : Bool :=
  match versionKey installedVersion, versionKey versionName with
  | some installed, some _ =>
    if installed.core < firstGuarded then true
    else
      match feed, installedCode with
      | true, some current =>
        versionCode.any fun code =>
          decide (feedBuildKey installedVersion current ≤ feedBuildKey versionName code)
      | _, _ => versionNotOlder versionName versionCode installedVersion installedCode
  | _, _ => false

end PanelAssistant
