import PanelAssistant.Adb.Admission
import PanelAssistant.Usb.ShellSession

/-!
# The preflight of the USB installer

`parsePreflight` of `preflight.mjs`. It reads the frame that `_parse_preflight` of
`adb_protocol.py` reads (`sectionNames_eq`), so what its sections say is stated in the words of
`Adb.Admission`: a package pair that is `Unreported`, a data probe that is `Absent`, an app id that
is `Vacant`.
-/

namespace PanelAssistant.Usb.Preflight

open Library Library.Text Library.Lines Adb

/-! ## Failures -/

/-- The codes of `PreflightError`. -/
inductive Code where
  | invalidRequest
  | targetResponseInvalid
  | targetInstalled
  | targetNotClean
  | rootStateAmbiguous
  | targetIncompatible
  deriving DecidableEq

inductive Failure where
  | preflight (code : Code)
  /-- A property of a section that is not there. -/
  | typeError
  deriving DecidableEq

/-- `fail(code)` -/
def fail {α : Type} (code : Code) : Except Failure α := .error (.preflight code)

/-- `fail()` -/
def invalid : Failure := .preflight .targetResponseInvalid

/-! ## The program -/

/-- `MAX_PREFLIGHT_BYTES` -/
def maxPreflightBytes : ℕ := 32 * 1024

/-- `BASES` -/
def bases : List String := ["/data/user/0", "/data/data", "/data/user_de/0"]

/-- `PROBED_PACKAGE_IDS` -/
def probedPackageIds : List String := [legacyPackageId, packageId]

/-- `RESIDUE_PROBES` -/
def residueProbes : List (String × String) :=
  probedPackageIds.flatMap fun id => bases.map fun base => (id, base ++ "/" ++ id)

/-- The names of `IDENTITY_SECTIONS`. -/
def identityNames : List Word :=
  [modelName, serialName, abiName, sdkName, uidName, secureName, debuggableName, suName]

/-- `NAMES` -/
def sectionNames : List Word :=
  identityNames ++ [liveName] ++
    ((List.range probedPackageIds.length).flatMap fun i => [packageName i, retainedName i]) ++
    (List.range bases.length).map baseName ++ (List.range residueProbes.length).map residueName

/-! ## Identity and root -/

/-- The characters that `trim` removes, which are those of `\s`. -/
def isSpace (c : Char) : Bool :=
  (9 ≤ c.toNat && c.toNat ≤ 13) ||
    [32, 160, 5760, 8232, 8233, 8239, 8287, 12288, 65279].contains c.toNat ||
    (8192 ≤ c.toNat && c.toNat ≤ 8202)

def trim (cs : List Char) : List Char :=
  ((cs.dropWhile isSpace).reverse.dropWhile isSpace).reverse

structure Identity where
  model : String
  serial : String
  primaryAbi : String
  androidSdk : ℕ
  deriving DecidableEq

variable (U : UnicodeTables)

def validIdentity (identity : Identity) : Bool :=
  identity.model.toList == trim identity.model.toList &&
    decide (1 ≤ identity.model.length) && decide (identity.model.length ≤ 128) &&
    !(identity.model.toList.any fun c => U.isOther c || isSpace c && c != ' ') &&
    isAdbSerial identity.serial && isAbi identity.primaryAbi &&
    decide (1 ≤ identity.androidSdk) && decide (identity.androidSdk ≤ 100)

variable (s : Sections)

/-- `s[name]` -/
def item (name : Word) : Except Failure Reading :=
  match s.get? name with
  | some reading => .ok reading
  | none => .error .typeError

/-- `one(s[name], allowed)` -/
def one (name : Word) (allowed : Option (List String)) : Except Failure String := do
  match ← item s name with
  | ([value], 0) =>
    match allowed with
    | some values => if value ∈ values then .ok value else fail .targetResponseInvalid
    | none => .ok value
  | _ => fail .targetResponseInvalid

def readIdentity : Except Failure Identity := do
  let sdk ← one s sdkName none
  let model ← one s modelName none
  let serial ← one s serialName none
  let primaryAbi ← one s abiName none
  let identity : Identity := ⟨model, serial, primaryAbi, decimal sdk.toList⟩
  if repeats isDigit 1 3 sdk.toList = false ∨ validIdentity U identity = false then
    fail .targetResponseInvalid
  else .ok identity

def readRootMode : Except Failure AdbRootMode := do
  let uid ← one s uidName none
  let secure ← one s secureName (some ["0", "1"])
  let debuggable ← one s debuggableName (some ["0", "1"])
  let su ← one s suName (some ["absent", "present"])
  if uid = "0" then .ok .rootAdbd
  else if uid = "2000" ∧ su = "present" then .ok .rootSu
  else if uid = "2000" ∧ secure = "1" ∧ debuggable = "0" ∧ su = "absent" then .ok .rootless
  else fail .rootStateAmbiguous

/-! ## Packages and data -/

/-- The installed and the live ones of the probed app ids, from the one numbered `index` on. An id
that is found is not asked for its statuses. -/
def observePackages : ℕ → List String → List String → List String →
    Except Failure (List String × List String)
  | _, [], installed, live => .ok (installed, live)
  | index, id :: ids, installed, live => do
    let path ← item s (packageName index)
    let retained ← item s (retainedName index)
    let live := if path.1.any isPackagePath then live ++ [id] else live
    if "package:" ++ id ∈ retained.1 ∨ id ∈ live then
      observePackages (index + 1) ids (installed ++ [id]) live
    else if path.2 ∉ [0, 1] ∨ path.1 ≠ [] ∨ retained.2 ≠ 0 ∨ retained.1 ≠ [] then
      fail .targetResponseInvalid
    else observePackages (index + 1) ids installed live

/-- The app ids whose data a probe found, with the number of the first probe. -/
def residueIds : ℕ → List (String × String) → Except Failure (List String)
  | _, [] => .ok []
  | index, probe :: probes => do
    let answer ← one s (residueName index) (some ["absent", "present"])
    let rest ← residueIds (index + 1) probes
    .ok (if answer = "present" then probe.1 :: rest else rest)

/-- A panel that holds this app alone is told apart from one that holds anything else of either. -/
def classifyTarget (targetPackageId : String) (installed residue live : List String) :
    Except Failure Bool :=
  if targetPackageId ≠ packageId then fail .invalidRequest
  else if installed = [packageId] ∧ packageId ∈ live ∧ residue.all (· == packageId) then
    fail .targetInstalled
  else if installed ≠ [] ∨ residue ≠ [] then fail .targetNotClean
  else .ok false

/-! ## The whole answer -/

/-- The fields of a descriptor that are read. -/
structure Descriptor where
  packageId : String
  minSdk : ℤ
  supportedAbis : List String

inductive InstallationAdmission where
  | delegatedRootProofRequired
  | cleanPreflight
  deriving DecidableEq

structure Result where
  identity : Identity
  rootMode : AdbRootMode
  installationAdmission : InstallationAdmission
  deriving DecidableEq

def isNonce (nonce : String) : Bool := repeats isHex 32 32 nonce.toList

theorem isWordChar_of_isHex {c : Char} (h : isHex c = true) : isWordChar c = true := by
  simp only [isHex, Bool.or_eq_true, Bool.and_eq_true, decide_eq_true_eq] at h
  simp only [isWordChar, isAlnum, isLower, Bool.or_eq_true, Bool.and_eq_true, decide_eq_true_eq]
  rcases h with h | h
  · exact .inl (.inl (.inl h))
  · exact .inl (.inl (.inr ⟨h.1, h.2.trans (by decide)⟩))

/-- A nonce, after `checkNonce`. -/
def nonceWord (nonce : String) (h : isNonce nonce = true) : Word where
  text := nonce
  word := by
    rw [isNonce, repeats, Bool.and_eq_true, List.all_eq_true] at h
    exact List.all_eq_true.mpr fun c hc => isWordChar_of_isHex (h.2 c hc)

/-- `parsePreflight`, from the sections on. -/
def admitTarget (descriptor : Descriptor) : Except Failure Result := do
  let identity ← readIdentity U s
  let live ← item s liveName
  if live.2 ≠ 0 ∨ live.1 = [] ∨ live.1.all isPackagePath = false then fail .targetResponseInvalid
  else do
    let (installed, live) ← observePackages s 0 probedPackageIds [] []
    let readable ← ((List.range bases.length).map baseName).mapM
      fun name => one s name (some ["readable", "unreadable"])
    let residue ← residueIds s 0 residueProbes
    let _ ← classifyTarget descriptor.packageId installed residue live
    let rootMode ← readRootMode s
    if rootMode = .rootAdbd ∧ "unreadable" ∈ readable then fail .rootStateAmbiguous
    else if (identity.androidSdk : ℤ) < descriptor.minSdk ∨
        identity.primaryAbi ∉ descriptor.supportedAbis then
      fail .targetIncompatible
    else
      .ok {
        identity := identity
        rootMode := rootMode
        installationAdmission :=
          if rootMode = .rootSu then .delegatedRootProofRequired else .cleanPreflight }

def parsePreflight (body : Body) (nonce : String) (descriptor : Option Descriptor) :
    Except Failure Result :=
  if hnonce : isNonce nonce = true then
    match descriptor with
    | none => fail .invalidRequest
    | some descriptor =>
      if ¬(1 ≤ descriptor.minSdk ∧ descriptor.minSdk ≤ 100) ∨
          descriptor.supportedAbis ≠ ["arm64-v8a", "armeabi-v7a"] then
        fail .invalidRequest
      else do
        let lines ← decodeLines U body maxPreflightBytes invalid .unicode
        let s ← readSections lines (nonceWord nonce hnonce) preflightLabel sectionNames invalid
        admitTarget U s descriptor
  else fail .invalidRequest

/-! ## What the parsers return -/

section

variable {U s}

theorem item_eq_ok {name : Word} {reading : Reading} :
    item s name = .ok reading ↔ s.get? name = some reading := by
  unfold item
  split
  · rename_i found hfound
    rw [hfound, Except.ok.injEq, Option.some.injEq]
  · rename_i hnone
    simp [hnone]

theorem one_eq_ok {name : Word} {allowed : Option (List String)} {value : String}
    (h : one s name allowed = .ok value) :
    s.get? name = some ([value], 0) ∧ ∀ values, allowed = some values → value ∈ values := by
  obtain ⟨reading, hget, h⟩ := bind_eq_ok.mp h
  rw [item_eq_ok] at hget
  split at h
  · split at h
    · split at h
      · rename_i hmem
        cases h
        refine ⟨hget, fun values heq => ?_⟩
        cases heq
        exact hmem
      · cases h
    · cases h
      exact ⟨hget, fun values heq => by cases heq⟩
  · cases h

/-- The sections name the identity. -/
structure Identified (s : Sections) (identity : Identity) : Prop where
  model : s.get? modelName = some ([identity.model], 0)
  serial : s.get? serialName = some ([identity.serial], 0)
  primaryAbi : s.get? abiName = some ([identity.primaryAbi], 0)
  androidSdk : ∃ text : String, s.get? sdkName = some ([text], 0) ∧
    repeats isDigit 1 3 text.toList = true ∧ decimal text.toList = identity.androidSdk

theorem readIdentity_eq_ok {identity : Identity} (h : readIdentity U s = .ok identity) :
    Identified s identity ∧ validIdentity U identity = true := by
  obtain ⟨sdk, hsdk, h⟩ := bind_eq_ok.mp h
  obtain ⟨model, hmodel, h⟩ := bind_eq_ok.mp h
  obtain ⟨serial, hserial, h⟩ := bind_eq_ok.mp h
  obtain ⟨primaryAbi, habi, h⟩ := bind_eq_ok.mp h
  simp only at h
  split at h
  · cases h
  · rename_i hvalid
    simp only [not_or, Bool.not_eq_false] at hvalid
    cases h
    exact ⟨⟨(one_eq_ok hmodel).1, (one_eq_ok hserial).1, (one_eq_ok habi).1, sdk,
      (one_eq_ok hsdk).1, hvalid.1, rfl⟩, hvalid.2⟩

/-- What the four root sections say, for each mode. -/
structure RootFacts (s : Sections) (mode : AdbRootMode) : Prop where
  facts : ∃ uid secure debuggable su, s.get? uidName = some ([uid], 0) ∧
    s.get? secureName = some ([secure], 0) ∧ secure ∈ ["0", "1"] ∧
    s.get? debuggableName = some ([debuggable], 0) ∧ debuggable ∈ ["0", "1"] ∧
    s.get? suName = some ([su], 0) ∧ su ∈ ["absent", "present"] ∧
    match mode with
    | .rootAdbd => uid = "0"
    | .rootSu => uid = "2000" ∧ su = "present"
    | .rootless => uid = "2000" ∧ secure = "1" ∧ debuggable = "0" ∧ su = "absent"

theorem readRootMode_eq_ok {mode : AdbRootMode} (h : readRootMode s = .ok mode) :
    RootFacts s mode := by
  obtain ⟨uid, huid, h⟩ := bind_eq_ok.mp h
  obtain ⟨secure, hsecure, h⟩ := bind_eq_ok.mp h
  obtain ⟨debuggable, hdebuggable, h⟩ := bind_eq_ok.mp h
  obtain ⟨su, hsu, h⟩ := bind_eq_ok.mp h
  obtain ⟨huid, -⟩ := one_eq_ok huid
  obtain ⟨hsecure, hsecure'⟩ := one_eq_ok hsecure
  obtain ⟨hdebuggable, hdebuggable'⟩ := one_eq_ok hdebuggable
  obtain ⟨hsu, hsu'⟩ := one_eq_ok hsu
  refine ⟨uid, secure, debuggable, su, huid, hsecure, hsecure' _ rfl, hdebuggable,
    hdebuggable' _ rfl, hsu, hsu' _ rfl, ?_⟩
  split at h
  · cases h
    assumption
  split at h
  · cases h
    assumption
  split at h
  · cases h
    assumption
  · cases h

/-- The facts determine the mode. -/
theorem RootFacts.unique {mode mode' : AdbRootMode} (h : RootFacts s mode)
    (h' : RootFacts s mode') : mode = mode' := by
  obtain ⟨uid, secure, debuggable, su, huid, hsecure, -, hdebuggable, -, hsu, -, hmode⟩ := h.facts
  obtain ⟨uid', secure', debuggable', su', huid', hsecure', -, hdebuggable', -, hsu', -, hmode'⟩ :=
    h'.facts
  rw [huid, Option.some.injEq, Prod.mk.injEq, List.singleton_inj] at huid'
  rw [hsu, Option.some.injEq, Prod.mk.injEq, List.singleton_inj] at hsu'
  obtain ⟨rfl, -⟩ := huid'
  obtain ⟨rfl, -⟩ := hsu'
  have hroot : ("0" : String) ≠ "2000" := by decide
  have hfound : ("absent" : String) ≠ "present" := by decide
  cases mode <;> cases mode' <;> simp only at hmode hmode' <;> try rfl
  · exact absurd (hmode.symm.trans hmode'.1) hroot
  · exact absurd (hmode.symm.trans hmode'.1) hroot
  · exact absurd (hmode'.symm.trans hmode.1) hroot
  · exact absurd (hmode.2.2.2.symm.trans hmode'.2) hfound
  · exact absurd (hmode'.symm.trans hmode.1) hroot
  · exact absurd (hmode'.2.2.2.symm.trans hmode.2) hfound

/-- Where no app id is installed, every pair of sections says so with its statuses. -/
theorem observePackages_eq_ok {index : ℕ} {ids installed live installed' live' : List String}
    (h : observePackages s index ids installed live = .ok (installed', live')) :
    installed <+: installed' ∧ (installed' = installed →
      ∀ i id, ids[i]? = some id → Unreported s (index + i)) := by
  induction ids generalizing index installed live with
  | nil =>
    cases h
    exact ⟨List.prefix_rfl, fun _ i id hid => by simp at hid⟩
  | cons id ids ih =>
    obtain ⟨⟨pathLines, pathStatus⟩, hpath, h⟩ := bind_eq_ok.mp h
    obtain ⟨⟨retainedLines, retainedStatus⟩, hretained, h⟩ := bind_eq_ok.mp h
    rw [item_eq_ok] at hpath hretained
    simp only at h
    generalize (if pathLines.any isPackagePath then live ++ [id] else live) = live₁ at h
    split at h
    · obtain ⟨hpre, -⟩ := ih h
      refine ⟨(List.prefix_append _ _).trans hpre, fun heq => ?_⟩
      rw [heq] at hpre
      have hlength := hpre.length_le
      rw [List.length_append, List.length_singleton] at hlength
      omega
    · split at h
      · cases h
      · rename_i hempty
        obtain ⟨hpre, hrest⟩ := ih h
        simp only [not_or, not_not] at hempty
        obtain ⟨hstatus, rfl, rfl, rfl⟩ := hempty
        refine ⟨hpre, fun heq i id' hid' => ?_⟩
        cases i with
        | zero =>
          simp only [List.mem_cons, List.not_mem_nil, or_false] at hstatus
          refine ⟨?_, hretained⟩
          rcases hstatus with rfl | rfl
          · exact .inl hpath
          · exact .inr hpath
        | succ i =>
          rw [show index + (i + 1) = index + 1 + i by omega]
          exact hrest heq i id' hid'

theorem residueIds_eq_nil {index : ℕ} {probes : List (String × String)}
    (h : residueIds s index probes = .ok []) :
    ∀ i < probes.length, Absent s (index + i) := by
  induction probes generalizing index with
  | nil => exact fun i hi => absurd hi (Nat.not_lt_zero i)
  | cons probe probes ih =>
    obtain ⟨answer, hanswer, h⟩ := bind_eq_ok.mp h
    obtain ⟨rest, hrest, h⟩ := bind_eq_ok.mp h
    obtain ⟨hget, hallowed⟩ := one_eq_ok hanswer
    split at h
    · cases h
    · rename_i hpresent
      cases h
      intro i hi
      cases i with
      | zero =>
        have hmem := hallowed _ rfl
        simp only [List.mem_cons, List.not_mem_nil, or_false] at hmem
        rw [hmem.resolve_right hpresent] at hget
        exact hget
      | succ i =>
        rw [show index + (i + 1) = index + 1 + i by omega]
        exact ih hrest i (by simpa using hi)

theorem classifyTarget_eq_ok {target : String} {installed residue live : List String} {held : Bool}
    (h : classifyTarget target installed residue live = .ok held) :
    target = packageId ∧ installed = [] ∧ residue = [] := by
  unfold classifyTarget at h
  split at h
  · cases h
  split at h
  · cases h
  split at h
  · cases h
  · rename_i htarget _ hclean
    simp only [not_or, not_not] at hclean htarget
    exact ⟨htarget, hclean⟩

/-- What an admitted answer says. -/
structure Admitted (U : UnicodeTables) (s : Sections) (descriptor : Descriptor) (result : Result) :
    Prop where
  target : descriptor.packageId = packageId
  packages : ∀ index id, probedPackageIds[index]? = some id →
    Unreported s index ∧ ¬Adb.Reported s index id
  residue : ∀ index probe, residueProbes[index]? = some probe → Absent s index
  identified : Identified s result.identity
  identity : validIdentity U result.identity = true
  rootMode : RootFacts s result.rootMode
  determined : ∀ mode, RootFacts s mode → mode = result.rootMode
  delegated : result.installationAdmission = .delegatedRootProofRequired ↔ result.rootMode = .rootSu
  sdk : descriptor.minSdk ≤ result.identity.androidSdk
  abi : result.identity.primaryAbi ∈ descriptor.supportedAbis

theorem admit_admitted {descriptor : Descriptor} {result : Result}
    (h : admitTarget U s descriptor = .ok result) : Admitted U s descriptor result := by
  obtain ⟨identity, hidentity, h⟩ := bind_eq_ok.mp h
  obtain ⟨live, -, h⟩ := bind_eq_ok.mp h
  split at h
  · cases h
  obtain ⟨⟨installed, found⟩, hinstalled, h⟩ := bind_eq_ok.mp h
  obtain ⟨readable, -, h⟩ := bind_eq_ok.mp h
  obtain ⟨residue, hresidue, h⟩ := bind_eq_ok.mp h
  obtain ⟨held, hheld, h⟩ := bind_eq_ok.mp h
  obtain ⟨rootMode, hmode, h⟩ := bind_eq_ok.mp h
  split at h
  · cases h
  split at h
  · cases h
  rename_i hcompatible
  obtain ⟨hsdk, habi⟩ := not_or.mp hcompatible
  cases h
  obtain ⟨htarget, hnone, hempty⟩ := classifyTarget_eq_ok hheld
  subst hnone hempty
  obtain ⟨hidentified, hvalid⟩ := readIdentity_eq_ok hidentity
  have hfacts := readRootMode_eq_ok hmode
  refine ⟨htarget, fun index id hid => ?_, fun index probe hprobe => ?_, hidentified, hvalid,
    hfacts, fun mode hother => hother.unique hfacts, ?_, not_lt.mp hsdk, not_not.mp habi⟩
  · have hunreported := (observePackages_eq_ok hinstalled).2 rfl index id hid
    rw [Nat.zero_add] at hunreported
    exact ⟨hunreported, hunreported.not_reported⟩
  · have habsent := residueIds_eq_nil hresidue index (List.getElem?_eq_some_iff.mp hprobe).1
    rwa [Nat.zero_add] at habsent
  · change (if rootMode = .rootSu then _ else _) = _ ↔ rootMode = .rootSu
    split
    · simp [*]
    · simp [*]

end

/-- Both installers read one frame. -/
theorem sectionNames_eq : sectionNames = preflightNames := by
  decide

/-- A frame the browser accepts is read in one way, and each of its lines stands in one place of it:
it opens or closes the frame or one section, or it is a value of one section. A preflight that
returns found nothing of the two app ids and reports what its sections say. -/
theorem preflight_unambiguous_and_sound (U : UnicodeTables) :
    (∀ (ε : Type) (fail : ε) (body : Body) (maximum : ℕ) (accept : Accept) (lines : List String)
        (nonce label : Word) (names : List Word) (s : Sections), names.Nodup →
      decodeLines U body maximum fail accept = .ok lines →
      readSections lines nonce label names fail = .ok s →
      (∃ cs, bodyText maximum body = some cs ∧ (accept ≠ .splitlines →
        dropReturns cs = terminate (lines.map String.toList))) ∧
      (∃ parts : List Part, parts.map Part.name = names ∧ lines = frameLines label nonce parts ∧
        s.entries = parts.map (fun p => (p.name, p.reading)) ∧
        ∀ parts' : List Part, parts'.map Part.name = names → lines = frameLines label nonce parts' →
          parts' = parts) ∧
      (lines.filter isMarker).Nodup ∧
      ∀ reading ∈ s.values, ∀ value ∈ reading.1, isMarker value = false) ∧
    ∀ (body : Body) (nonce : String) (descriptor : Option Descriptor) (result : Result),
      parsePreflight U body nonce descriptor = .ok result →
      ∃ (hnonce : isNonce nonce = true) (lines : List String) (s : Sections) (d : Descriptor),
        decodeLines U body maxPreflightBytes invalid .unicode = .ok lines ∧
        readSections lines (nonceWord nonce hnonce) preflightLabel sectionNames invalid = .ok s ∧
        descriptor = some d ∧ Admitted U s d result := by
  constructor
  · intro ε fail body maximum accept lines nonce label names s hnames hlines hsections
    obtain ⟨parts, rfl, rfl, rfl⟩ := readSections_eq_ok.mp hsections
    refine ⟨?_, ⟨parts, rfl, rfl, entries_readings hnames, fun parts' hnames' h => ?_⟩,
      nodup_marker_lines hnames, fun reading hreading => ?_⟩
    · by_cases haccept : accept = .splitlines
      · cases hcs : bodyText maximum body with
        | none =>
          rw [decodeLines, hcs] at hlines
          cases hlines
        | some cs => exact ⟨cs, rfl, fun h => absurd haccept h⟩
      · obtain ⟨cs, hcs, htext⟩ := decodeLines_text U haccept hlines
        exact ⟨cs, hcs, fun _ => htext⟩
    · rw [frameLines, frameLines, List.cons_append, List.cons_append, List.cons.injEq] at h
      exact parts_unique hnames' h.2.symm
    · rw [Dict.values, entries_readings hnames, List.map_map] at hreading
      obtain ⟨p, -, rfl⟩ := List.mem_map.mp hreading
      exact p.plain
  · intro body nonce descriptor result h
    unfold parsePreflight at h
    split at h
    · rename_i hnonce
      split at h
      · cases h
      · rename_i d
        split at h
        · cases h
        · obtain ⟨lines, hlines, h⟩ := bind_eq_ok.mp h
          obtain ⟨s, hs, h⟩ := bind_eq_ok.mp h
          exact ⟨hnonce, lines, s, d, hlines, hs, rfl, admit_admitted h⟩
    · cases h

/-! ### An answer that is admitted -/

def cleanNonce : String := "0123456789abcdef0123456789abcdef"

theorem isNonce_cleanNonce : isNonce cleanNonce = true := by decide

def cleanWord : Word := nonceWord cleanNonce isNonce_cleanNonce

/-- What a panel answers that delegates root and has neither app. -/
def cleanReadings : List Reading :=
  [(["Panel"], 0), (["0123456789ABCDEF"], 0), (["arm64-v8a"], 0), (["30"], 0),
    (["2000"], 0), (["1"], 0), (["0"], 0), (["present"], 0),
    (["package:/system/framework/framework-res.apk"], 0),
    ([], 1), ([], 0), ([], 1), ([], 0),
    (["readable"], 0), (["readable"], 0), (["unreadable"], 0),
    (["absent"], 0), (["absent"], 0), (["absent"], 0),
    (["absent"], 0), (["absent"], 0), (["absent"], 0)]

def cleanAnswer : Sections where
  entries := sectionNames.zip cleanReadings
  nodup := by
    rw [List.map_fst_zip (by decide), sectionNames_eq]
    exact nodup_preflightNames

theorem keys_cleanAnswer : cleanAnswer.keys = sectionNames := List.map_fst_zip (by decide)

def cleanDescriptor : Descriptor := ⟨packageId, 26, ["arm64-v8a", "armeabi-v7a"]⟩

def cleanResult : Result :=
  ⟨⟨"Panel", "0123456789ABCDEF", "arm64-v8a", 30⟩, .rootSu, .delegatedRootProofRequired⟩

theorem readable_cleanAnswer : ∀ e ∈ cleanAnswer.entries, Clean e.2 ∧
    ∀ value ∈ e.2.1, ∀ c ∈ value.toList, isRefused asciiTables .unicode c = false := by
  have hreadings : ∀ reading ∈ cleanReadings, reading.2 ≤ 999 ∧ ∀ value ∈ reading.1,
      value.toList.all (fun c => !isBreak c) = true ∧ isMarker value = false ∧
        value.toList.all (fun c => !isRefused asciiTables .unicode c) = true := by
    decide
  intro e he
  obtain ⟨hstatus, hvalues⟩ := hreadings e.2 (List.of_mem_zip he).2
  refine ⟨⟨hstatus, fun value hvalue => unbroken_of_all (hvalues value hvalue).1,
    fun value hvalue => (hvalues value hvalue).2.1⟩, fun value hvalue c hc => ?_⟩
  have hc := List.all_eq_true.mp (hvalues value hvalue).2.2 c hc
  rwa [Bool.not_eq_true'] at hc

theorem size_cleanAnswer {frame : ByteArray}
    (h : sectionsAsFrame cleanAnswer preflightLabel cleanWord sectionNames = .ok frame) :
    frame.size ≤ maxPreflightBytes := by
  obtain ⟨lines, hlines, h⟩ := bind_eq_ok.mp h
  cases h
  have hsize : ((sectionNames.mapM fun name => do
      let reading ← Adb.item cleanAnswer name
      .ok (sectionLines preflightLabel cleanWord name reading) :
        Except Adb.Failure (List (List String))).toOption.all fun lines =>
      decide (((beginLine preflightLabel cleanWord :: lines.flatten ++
        [endLine preflightLabel cleanWord]).map fun line => line.utf8ByteSize + 1).sum ≤
          maxPreflightBytes)) = true := by
    decide +kernel
  rw [hlines] at hsize
  rw [size_encodeLines, List.map_congr_left fun line _ => lineBytes_eq line]
  exact of_decide_eq_true hsize

theorem admitTarget_cleanAnswer :
    admitTarget asciiTables cleanAnswer cleanDescriptor = .ok cleanResult := by
  decide

/-- A panel with neither app is admitted, and its root is still to be proven. -/
theorem preflight_unambiguous_and_sound_clean : ∃ (body : Body) (lines : List String),
    parsePreflight asciiTables body cleanNonce (some cleanDescriptor) = .ok cleanResult ∧
      readSections lines cleanWord preflightLabel sectionNames invalid = .ok cleanAnswer ∧
      Admitted asciiTables cleanAnswer cleanDescriptor cleanResult ∧
      (lines.filter isMarker).Nodup := by
  obtain ⟨frame, hframe, hread⟩ := readSections_of_clean asciiTables preflightLabel cleanWord
    maxPreflightBytes invalid (show Accept.unicode ≠ .splitlines by decide) admits_markerChar
    (fun e he => (readable_cleanAnswer e he).1) (fun e he => (readable_cleanAnswer e he).2)
  rw [keys_cleanAnswer] at hframe hread
  obtain ⟨lines, hlines, hsections⟩ := hread (size_cleanAnswer hframe)
  have hok : parsePreflight asciiTables (.bytes frame) cleanNonce (some cleanDescriptor) =
      .ok cleanResult := by
    rw [parsePreflight, dif_pos isNonce_cleanNonce]
    simp only
    rw [if_neg (by decide), hlines]
    change (readSections lines cleanWord preflightLabel sectionNames invalid >>= _) = _
    rw [hsections]
    exact admitTarget_cleanAnswer
  obtain ⟨hframes, hpreflight⟩ := preflight_unambiguous_and_sound asciiTables
  obtain ⟨-, -, hmarkers, -⟩ := hframes _ _ _ _ _ lines _ _ _ _
    (sectionNames_eq ▸ nodup_preflightNames) hlines hsections
  obtain ⟨hnonce, lines', s, d, hlines', hs, hd, hadmitted⟩ := hpreflight _ _ _ _ hok
  rw [hlines] at hlines'
  cases hlines'
  cases hd
  rw [show nonceWord cleanNonce hnonce = cleanWord from rfl, hsections] at hs
  cases hs
  exact ⟨_, lines, hok, hsections, hadmitted, hmarkers⟩

end PanelAssistant.Usb.Preflight
