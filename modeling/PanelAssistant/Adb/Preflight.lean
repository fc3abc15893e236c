import PanelAssistant.Adb.FrameRoundTrip
import PanelAssistant.Updates.Sources

/-!
# The preflight answer

The parsers of `adb_protocol.py` that read a panel's identity, its root mode and its installed
packages from the sections of one answer. The identity is read from its sections written back as
a frame of their own, which reads the same as the sections do (`section_frames_faithful`).
-/

namespace PanelAssistant.Adb

open Library Library.Text Library.Lines

/-! ## Names -/

/-- `f"{name}{index}"` -/
def Word.numbered (name : Word) (index : ℕ) : Word where
  text := name.text ++ index.repr
  word := by
    rw [String.toList_append, List.all_append, name.word, Nat.toList_repr, Bool.true_and]
    exact List.all_eq_true.mpr fun c hc =>
      isWordChar_of_isDigit (List.all_eq_true.mp (all_isDigit_toDigits index) c hc)

def preflightLabel : Word := ⟨"PREFLIGHT", by decide⟩

def postureLabel : Word := ⟨"POSTURE", by decide⟩

def modelName : Word := ⟨"MODEL", by decide⟩

def serialName : Word := ⟨"SERIAL", by decide⟩

def abiName : Word := ⟨"ABI", by decide⟩

def sdkName : Word := ⟨"SDK", by decide⟩

def uidName : Word := ⟨"UID", by decide⟩

def secureName : Word := ⟨"SECURE", by decide⟩

def debuggableName : Word := ⟨"DEBUGGABLE", by decide⟩

def suName : Word := ⟨"SU", by decide⟩

def liveName : Word := ⟨"LIVE", by decide⟩

def packageName (index : ℕ) : Word := Word.numbered ⟨"PACKAGE", by decide⟩ index

def retainedName (index : ℕ) : Word := Word.numbered ⟨"RETAINED", by decide⟩ index

def residueName (index : ℕ) : Word := Word.numbered ⟨"RESIDUE", by decide⟩ index

def baseName (index : ℕ) : Word := Word.numbered ⟨"BASE", by decide⟩ index

/-- The names of `_property_sections`. -/
def propertyNames : List Word := [modelName, serialName, abiName, sdkName]

def rootNames : List Word := [uidName, secureName, debuggableName, suName]

/-- `PROBED_PACKAGE_IDS` -/
def probedPackageIds : List String := [legacyPackageId, packageId]

/-- `_ROOT_DATA_BASES` -/
def rootDataBases : List String := ["/data/user/0", "/data/data", "/data/user_de/0"]

/-- `_RESIDUE_PROBES` -/
def residueProbes : List (String × String) :=
  probedPackageIds.flatMap fun id => rootDataBases.map fun base => (id, base ++ "/" ++ id)

def otherNames : List Word :=
  rootNames ++ [liveName] ++ (List.range probedPackageIds.length).flatMap fun index =>
    [packageName index, retainedName index]

def residueNames : List Word := (List.range residueProbes.length).map residueName

def baseNames : List Word := (List.range rootDataBases.length).map baseName

/-- The sections of a preflight answer. -/
def preflightNames : List Word := propertyNames ++ otherNames ++ baseNames ++ residueNames

/-! ## Identity -/

structure ObservedTarget where
  model : String
  serial : String
  primaryAbi : String
  androidSdk : ℕ

/-- The one line of a section whose command succeeded. -/
def singleValue (sections : Sections) (name : Word) : Except Failure String := do
  match ← item sections name with
  | ([line], 0) => .ok line
  | _ => .error .malformed

/-- `int(text)` of a text of decimal digits. -/
def intOf (text : String) : Except Failure ℕ :=
  if text.toList ≠ [] ∧ text.toList.all isDigit then .ok (decimal text.toList)
  else .error .valueError

/-- `_parse_identity`, from its sections on. -/
def readIdentity (P : Platform) (sections : Sections) : Except Failure ObservedTarget := do
  let model ← singleValue sections modelName
  let serial ← singleValue sections serialName
  let primaryAbi ← singleValue sections abiName
  let sdk ← singleValue sections sdkName
  if model.toList ≠ strip model.toList ∨ ¬ (1 ≤ model.length ∧ model.length ≤ 128) ∨
      P.isPrintable model = false ∨ isAdbSerial serial = false ∨ isAbi primaryAbi = false ∨
      repeats isDigit 1 3 sdk.toList = false then
    .error .malformed
  else do
    let androidSdk ← intOf sdk
    if 1 ≤ androidSdk ∧ androidSdk ≤ 100 then .ok ⟨model, serial, primaryAbi, androidSdk⟩
    else .error .malformed

/-- `_parse_identity` -/
def parseIdentity (P : Platform) (body : ByteArray) (nonce label : Word) :
    Except Failure ObservedTarget := do
  let sections ← parseSections body label nonce propertyNames
  readIdentity P sections

/-- `same_physical_target` -/
def samePhysicalTarget (observed : ObservedTarget) (expected : AdbInstallTarget) : Prop :=
  observed.serial = expected.serial ∧ observed.model = expected.model ∧
    observed.primaryAbi = expected.primaryAbi ∧ (observed.androidSdk : ℤ) = expected.androidSdk

instance (observed : ObservedTarget) (expected : AdbInstallTarget) :
    Decidable (samePhysicalTarget observed expected) :=
  inferInstanceAs (Decidable (_ ∧ _))

/-- `_require_same_target` -/
def requireSameTarget (observed : ObservedTarget) (expected : AdbInstallTarget) :
    Except Failure Unit :=
  if samePhysicalTarget observed expected then .ok () else .error (.adb .targetChanged)

/-! ## Root mode -/

/-- `_parse_root_mode` -/
def parseRootMode (sections : Sections) : Except Failure AdbRootMode := do
  let (uidLines, uidStatus) ← item sections uidName
  let (secureLines, secureStatus) ← item sections secureName
  let (debuggableLines, debuggableStatus) ← item sections debuggableName
  let (suLines, suStatus) ← item sections suName
  if uidStatus ≠ 0 ∨ uidLines.length ≠ 1 ∨
      secureStatus ≠ 0 ∨ secureLines ∉ [["0"], ["1"]] ∨
      debuggableStatus ≠ 0 ∨ debuggableLines ∉ [["0"], ["1"]] ∨
      suStatus ≠ 0 ∨ suLines ∉ [["absent"], ["present"], ["abnormal"]] then
    .error .malformed
  else if suLines = ["abnormal"] then .error .malformed
  else if uidLines = ["0"] then .ok .rootAdbd
  -- only a candidate: the admission still has to prove the delegated root
  else if uidLines = ["2000"] ∧ suLines = ["present"] then .ok .rootSu
  else if uidLines = ["2000"] ∧ secureLines = ["1"] ∧ debuggableLines = ["0"] ∧
      suLines = ["absent"] then
    .ok .rootless
  else .error (.adb .rootStateAmbiguous)

/-- `_parse_identity_root` -/
def parseIdentityRoot (P : Platform) (body : ByteArray) (nonce : Word) (target : AdbInstallTarget) :
    Except Failure AdbRootMode := do
  let sections ← parseSections body postureLabel nonce (propertyNames ++ rootNames)
  let identityBody ← sectionsAsFrame sections postureLabel nonce propertyNames
  let observed ← parseIdentity P identityBody nonce postureLabel
  requireSameTarget observed target
  parseRootMode sections

/-! ## Packages -/

/-- `_is_package_path` -/
def isPackagePath (line : String) : Bool :=
  match after? "package:/".toList line.toList with
  | some rest => !rest.isEmpty && rest.all fun c => c != ' ' && c != '\t'
  | none => false

/-- Whether one app id is installed; neither installed nor absent is malformed. -/
def observePackage (sections : Sections) (index : ℕ) (id : String) : Except Failure Bool := do
  let (packageLines, packageStatus) ← item sections (packageName index)
  let (retainedLines, retainedStatus) ← item sections (retainedName index)
  if "package:" ++ id ∈ retainedLines ∨ packageLines.any isPackagePath then .ok true
  else if packageStatus ∉ [0, 1] ∨ packageLines ≠ [] ∨ retainedStatus ≠ 0 ∨ retainedLines ≠ [] then
    .error .malformed
  else .ok false

/-- The installed ones of the app ids whose sections are numbered from `index` on. -/
def installedPackages (sections : Sections) : ℕ → List String → Except Failure (List String)
  | _, [] => .ok []
  | index, id :: ids => do
    let present ← observePackage sections index id
    let rest ← installedPackages sections (index + 1) ids
    .ok (if present then id :: rest else rest)

/-- Whether every data base was readable. -/
def basesReadable (sections : Sections) : List Word → Except Failure Bool
  | [] => .ok true
  | name :: names => do
    let (lines, status) ← item sections name
    if status ≠ 0 ∨ lines ∉ [["readable"], ["unreadable"]] then .error .malformed
    else do
      let rest ← basesReadable sections names
      .ok (lines = ["readable"] && rest)

/-- The app ids whose data a probe found. -/
def residuePackages (sections : Sections) : List (Word × ℕ) → Except Failure (List String)
  | [] => .ok []
  | (name, index) :: probes => do
    let (lines, status) ← item sections name
    if status ≠ 0 ∨ lines ∉ [["absent"], ["present"]] then .error .malformed
    else if lines = ["present"] then
      match residueProbes[index]? with
      | none => .error .indexError
      | some probe => do
        let rest ← residuePackages sections probes
        .ok (probe.1 :: rest)
    else residuePackages sections probes

/-- `_classify_target_packages` -/
def classifyTargetPackages (targetPackageId : String) (installed residue : List String)
    (admitInstalledTarget : Bool) : Except Failure Bool :=
  if targetPackageId ∈ installed then
    if admitInstalledTarget = false ∨ (installed ++ residue).any (· != targetPackageId) then
      .error (.adb .targetNotClean)
    else .ok true
  else if installed ≠ [] ∨ residue ≠ [] then .error (.adb .targetNotClean)
  else .ok false

/-- `_parse_preflight`, from the identity on. -/
def admitPreflight (sections : Sections) (observed : ObservedTarget) (target : AdbInstallTarget)
    (descriptor : InstallDescriptor) (admitInstalledTarget : Bool) :
    Except Failure AdbPreflight := do
  requireSameTarget observed target
  let (liveLines, liveStatus) ← item sections liveName
  if liveStatus ≠ 0 ∨ liveLines = [] ∨ liveLines.any (fun line => !isPackagePath line) then
    .error .malformed
  else do
    let installed ← installedPackages sections 0 probedPackageIds
    let readable ← basesReadable sections baseNames
    let residue ← residuePackages sections residueNames.zipIdx
    let targetInstalled ←
      classifyTargetPackages descriptor.packageId installed residue admitInstalledTarget
    let rootMode ← parseRootMode sections
    if rootMode = .rootAdbd ∧ readable = false then .error (.adb .rootStateAmbiguous)
    else if observed.androidSdk < descriptor.minSdk ∨
        observed.primaryAbi ∉ descriptor.supportedAbis then
      .error (.adb .targetIncompatible)
    else
      .ok {
        serial := observed.serial
        model := observed.model
        primaryAbi := observed.primaryAbi
        androidSdk := observed.androidSdk
        rootMode := rootMode
        targetInstalled := targetInstalled }

/-- `_parse_preflight` -/
def parsePreflight (P : Platform) (body : ByteArray) (nonce : Word) (target : AdbInstallTarget)
    (descriptor : InstallDescriptor) (admitInstalledTarget : Bool) :
    Except Failure AdbPreflight := do
  let sections ← parseSections body preflightLabel nonce preflightNames
  let identityBody ← sectionsAsFrame sections preflightLabel nonce propertyNames
  let observed ← parseIdentity P identityBody nonce preflightLabel
  admitPreflight sections observed target descriptor admitInstalledTarget

/-! ## The re-framed identity -/

section

variable {P : Platform} {sections sections' : Sections}

theorem singleValue_congr {name : Word} (h : sections.get? name = sections'.get? name) :
    singleValue sections name = singleValue sections' name := by
  rw [singleValue, singleValue, item, item, h]

theorem readIdentity_congr (h : ∀ name ∈ propertyNames, sections.get? name = sections'.get? name) :
    readIdentity P sections = readIdentity P sections' := by
  have hmodel := singleValue_congr (h modelName (by simp [propertyNames]))
  have hserial := singleValue_congr (h serialName (by simp [propertyNames]))
  have habi := singleValue_congr (h abiName (by simp [propertyNames]))
  have hsdk := singleValue_congr (h sdkName (by simp [propertyNames]))
  rw [readIdentity, readIdentity, hmodel, hserial, habi, hsdk]

/-- The identity read through a frame of its own is the identity the sections say. -/
theorem parseIdentity_reframed {body : ByteArray} {label nonce : Word} {names : List Word}
    (hnames : names.Nodup) (hsub : propertyNames.Sublist names)
    (h : parseSections body label nonce names = .ok sections) :
    (do
      let identityBody ← sectionsAsFrame sections label nonce propertyNames
      parseIdentity P identityBody nonce label) = readIdentity P sections := by
  obtain ⟨frame, sections', hframe, hparse, -, hget⟩ := parseSections_sectionsAsFrame hnames h hsub
  rw [hframe]
  calc parseIdentity P frame nonce label = readIdentity P sections' := by
        rw [parseIdentity, hparse]
        rfl
    _ = readIdentity P sections := readIdentity_congr hget

end

theorem nodup_preflightNames : preflightNames.Nodup := by
  decide

theorem nodup_postureNames : (propertyNames ++ rootNames).Nodup := by
  decide

theorem parsePreflight_eq (P : Platform) (body : ByteArray) (nonce : Word)
    (target : AdbInstallTarget)
    (descriptor : InstallDescriptor) (admits : Bool) :
    parsePreflight P body nonce target descriptor admits = (do
      let sections ← parseSections body preflightLabel nonce preflightNames
      let observed ← readIdentity P sections
      admitPreflight sections observed target descriptor admits) := by
  cases hparse : parseSections body preflightLabel nonce preflightNames with
  | error e => rw [parsePreflight, hparse]; rfl
  | ok sections =>
    have hsub : propertyNames.Sublist preflightNames := by
      simp only [preflightNames, List.append_assoc]
      exact List.sublist_append_left _ _
    have hidentity := parseIdentity_reframed (P := P) nodup_preflightNames hsub hparse
    rw [parsePreflight, hparse]
    change (_ >>= fun identityBody => _ >>= _) = (readIdentity P sections >>= _)
    rw [← hidentity, bind_assoc]
    rfl

theorem parseIdentityRoot_eq (P : Platform) (body : ByteArray) (nonce : Word)
    (target : AdbInstallTarget) :
    parseIdentityRoot P body nonce target = (do
      let sections ← parseSections body postureLabel nonce (propertyNames ++ rootNames)
      let observed ← readIdentity P sections
      requireSameTarget observed target
      parseRootMode sections) := by
  cases hparse : parseSections body postureLabel nonce (propertyNames ++ rootNames) with
  | error e => rw [parseIdentityRoot, hparse]; rfl
  | ok sections =>
    have hidentity := parseIdentity_reframed (P := P) nodup_postureNames
      (List.sublist_append_left _ _) hparse
    rw [parseIdentityRoot, hparse]
    change (_ >>= fun identityBody => _ >>= _) = (readIdentity P sections >>= _)
    rw [← hidentity, bind_assoc]
    rfl

/-- A frame that parses is its sections in the order of their names and nothing else, with no value
that could be a marker. Some of the sections written back read the same, so that the identity of a
preflight is the one its sections say; and clean sections are what their frame reads as. -/
theorem section_frames_faithful (P : Platform) (label nonce : Word) :
    (∀ (body : ByteArray) (names : List Word) (sections : Sections), names.Nodup →
      parseSections body label nonce names = .ok sections →
      (∃ parts : List Part, parts.map Part.name = names ∧
        decodeLines body = .ok (frameLines label nonce parts) ∧
        sections.entries = parts.map fun p => (p.name, p.reading)) ∧
      (∀ reading ∈ sections.values, ∀ value ∈ reading.1, isMarker value = false) ∧
      ∀ names' : List Word, names'.Sublist names → ∃ frame sections',
        sectionsAsFrame sections label nonce names' = .ok frame ∧
        parseSections frame label nonce names' = .ok sections' ∧ sections'.keys = names' ∧
        ∀ name ∈ names', sections'.get? name = sections.get? name) ∧
    (∀ sections : Sections, (∀ reading ∈ sections.values, Clean reading) → ∃ frame,
      sectionsAsFrame sections label nonce sections.keys = .ok frame ∧
      (frame.size ≤ maxShellResponseBytes →
        parseSections frame label nonce sections.keys = .ok sections)) ∧
    (∀ (body : ByteArray) (target : AdbInstallTarget) (descriptor : InstallDescriptor)
      (admits : Bool),
      parsePreflight P body nonce target descriptor admits = (do
        let sections ← parseSections body preflightLabel nonce preflightNames
        let observed ← readIdentity P sections
        admitPreflight sections observed target descriptor admits)) ∧
    ∀ (body : ByteArray) (target : AdbInstallTarget),
      parseIdentityRoot P body nonce target = (do
        let sections ← parseSections body postureLabel nonce (propertyNames ++ rootNames)
        let observed ← readIdentity P sections
        requireSameTarget observed target
        parseRootMode sections) := by
  refine ⟨fun body names sections hnames h => ⟨?_, ?_, fun names' hsub => ?_⟩,
    fun sections hclean => ?_, fun body target descriptor admits => ?_, fun body target => ?_⟩
  · obtain ⟨parts, rfl, hlines, rfl⟩ := parseSections_eq_ok.mp h
    exact ⟨parts, rfl, hlines, entries_readings hnames⟩
  · obtain ⟨parts, rfl, -, rfl⟩ := parseSections_eq_ok.mp h
    intro reading hreading
    rw [Dict.values, entries_readings hnames, List.map_map] at hreading
    obtain ⟨p, -, rfl⟩ := List.mem_map.mp hreading
    exact p.plain
  · exact parseSections_sectionsAsFrame hnames h hsub
  · exact parseSections_of_clean label nonce fun e he => hclean e.2 (List.mem_map_of_mem he)
  · exact parsePreflight_eq P body nonce target descriptor admits
  · exact parseIdentityRoot_eq P body nonce target

/-! ### An answer -/

/-- What Python makes of the texts of the answer, which are ASCII. -/
def asciiPlatform : Platform where
  urlsplit _ := none
  ipAddress _ := none
  ipText _ := ""
  inetAton _ := false
  lower text := String.ofList (text.toList.map Char.toLower)
  isPrintable text := text.toList.all fun c => 32 ≤ c.toNat && c.toNat < 127
  sha256 _ := ""
  executionDigest _ _ := ""
  remoteStagingSlotId := ""
  ulidToBytesOrNone _ := none
  bytesToUlid _ := ""

def answerNonce : Word := ⟨"0123456789abcdef", by decide⟩

/-- What a panel answers that can delegate root and has the app. -/
def answered : List Reading :=
  [(["Panel"], 0), (["0123456789ABCDEF"], 0), (["arm64-v8a"], 0), (["30"], 0),
    (["2000"], 0), (["1"], 0), (["0"], 0), (["present"], 0),
    (["package:/system/framework/framework-res.apk"], 0),
    ([], 1), ([], 0),
    (["package:/data/app/io.panelassistant.android/base.apk"], 0),
    (["package:io.panelassistant.android"], 0),
    (["readable"], 0), (["readable"], 0), (["unreadable"], 0),
    (["absent"], 0), (["absent"], 0), (["absent"], 0),
    (["present"], 0), (["present"], 0), (["absent"], 0)]

def answer : Sections where
  entries := preflightNames.zip answered
  nodup := by
    rw [List.map_fst_zip (by decide)]
    exact nodup_preflightNames

theorem keys_answer : answer.keys = preflightNames := List.map_fst_zip (by decide)

theorem clean_answer : ∀ reading ∈ answer.values, Clean reading := by
  have hanswered : ∀ reading ∈ answered, reading.2 ≤ 999 ∧ ∀ value ∈ reading.1,
      value.toList.all (fun c => !isBreak c) = true ∧ isMarker value = false := by
    decide
  intro reading hreading
  rw [Dict.values, answer, List.map_snd_zip (by decide)] at hreading
  obtain ⟨hstatus, hvalues⟩ := hanswered reading hreading
  exact ⟨hstatus, fun value hvalue => unbroken_of_all (hvalues value hvalue).1,
    fun value hvalue => (hvalues value hvalue).2⟩

theorem size_answer {frame : ByteArray}
    (h : sectionsAsFrame answer preflightLabel answerNonce preflightNames = .ok frame) :
    frame.size ≤ maxShellResponseBytes := by
  obtain ⟨lines, hlines, h⟩ := bind_eq_ok.mp h
  cases h
  have hsize : ((preflightNames.mapM fun name => do
      let reading ← item answer name
      .ok (sectionLines preflightLabel answerNonce name reading) :
        Except Failure (List (List String))).toOption.all fun lines =>
      decide (((beginLine preflightLabel answerNonce :: lines.flatten ++
        [endLine preflightLabel answerNonce]).map fun line => line.utf8ByteSize + 1).sum ≤
          maxShellResponseBytes)) = true := by
    decide
  rw [hlines] at hsize
  rw [size_encodeLines, List.map_congr_left fun line _ => lineBytes_eq line]
  exact of_decide_eq_true hsize

/-- The answer is written and read, and the sections of its identity are written back. -/
theorem section_frames_faithful_answer : ∃ frame part sections',
    sectionsAsFrame answer preflightLabel answerNonce preflightNames = .ok frame ∧
      parseSections frame preflightLabel answerNonce preflightNames = .ok answer ∧
      sectionsAsFrame answer preflightLabel answerNonce propertyNames = .ok part ∧
      parseSections part preflightLabel answerNonce propertyNames = .ok sections' ∧
      sections'.get? modelName = some (["Panel"], 0) := by
  obtain ⟨hread, hwritten, -⟩ := section_frames_faithful asciiPlatform preflightLabel answerNonce
  obtain ⟨frame, hframe, hparse⟩ := hwritten answer clean_answer
  rw [keys_answer] at hframe hparse
  have hsections := hparse (size_answer hframe)
  have hsub : propertyNames.Sublist preflightNames := by
    simp only [preflightNames, List.append_assoc]
    exact List.sublist_append_left _ _
  obtain ⟨-, -, hreframed⟩ := hread frame preflightNames answer nodup_preflightNames hsections
  obtain ⟨part, sections', hpart, hagain, -, hget⟩ := hreframed propertyNames hsub
  have hmodel : sections'.get? modelName = answer.get? modelName :=
    hget modelName (by simp [propertyNames])
  exact ⟨frame, part, sections', hframe, hsections, hpart, hagain, hmodel.trans (by decide)⟩

end PanelAssistant.Adb
