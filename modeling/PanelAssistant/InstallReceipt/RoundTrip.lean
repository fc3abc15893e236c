import Mathlib.Data.List.TakeWhile
import PanelAssistant.InstallReceipt.Rules
import PanelAssistant.Library.JsonText

/-!
# Receipts survive their documents

For each of the three records, what a document must say of it (`TargetRead`, `ArtifactRead`,
`ReceiptRead`) is kept apart from what its fields must satisfy (`TargetOk`, `ArtifactOk`,
`FieldsOk`). A parser accepts a document exactly when both hold, and the document a record is
written as says of it what it must. So a receipt whose fields parse is read back as it was
written, without its detail (`parseReceipt_serializeReceipt`), and the document whose digest
binds a plan determines the plan (`planText_injective`).
-/

namespace PanelAssistant

open Library Library.Text InstallPhase

variable (P : Platform)

/-! ## Field parsers return what they read -/

theorem safeText_eq_ok {value : Json} {n : Nat} {text : String} (h : safeText value n = .ok text) :
    value = .str text := by
  unfold safeText at h
  split at h
  · simp only at h
    split at h
    · simp at h
    · rw [pure_eq_ok] at h
      rw [h]
  · simp at h

/-- A hexadecimal digit is printable and no white space. -/
theorem isHex_visible {c : Char} (h : isHex c = true) :
    isSpace c = false ∧ 32 ≤ c.toNat ∧ c.toNat ≠ 127 := by
  have hrange : 48 ≤ c.toNat ∧ c.toNat ≤ 57 ∨ 97 ≤ c.toNat ∧ c.toNat ≤ 102 := by
    simp only [isHex, isDigit, Bool.or_eq_true, Bool.and_eq_true, decide_eq_true_eq] at h
    exact h
  refine ⟨?_, by omega, by omega⟩
  have hlist : [133, 160, 5760, 8232, 8233, 8239, 8287, 12288].contains c.toNat = false := by
    rw [List.contains_eq_mem, decide_eq_false_iff_not]
    simp only [List.mem_cons, List.not_mem_nil, or_false]
    omega
  simp only [isSpace, hlist, Bool.or_false, Bool.or_eq_false_iff, Bool.and_eq_false_iff,
    decide_eq_false_iff_not]
  omega

/-- A hexadecimal text is safe. -/
theorem safeText_of_hex {text : String} {n maximum : Nat} (hn : 0 < n) (hle : n ≤ maximum)
    (h : repeats isHex n n text.toList = true) : safeText (.str text) maximum = .ok text := by
  simp only [repeats, Bool.and_eq_true, decide_eq_true_eq, List.all_eq_true] at h
  obtain ⟨⟨hlow, hhigh⟩, hall⟩ := h
  have hkeep : ∀ cs : List Char, (∀ c ∈ cs, isHex c = true) → cs.dropWhile isSpace = cs := by
    intro cs hcs
    rw [List.dropWhile_eq_self_iff]
    intro hpos
    simp [(isHex_visible (hcs _ (List.getElem_mem hpos))).1]
  have hstrip : strip text.toList = text.toList := by
    rw [strip, hkeep _ hall, hkeep _ fun c hc => hall c (List.mem_reverse.mp hc),
      List.reverse_reverse]
  have hvisible : (text.toList.any fun c => decide (c.toNat < 32) || decide (c.toNat = 127)) =
      false := by
    rw [List.any_eq_false]
    intro c hc
    have hc' := (isHex_visible (hall c hc)).2
    simp only [Bool.or_eq_true, decide_eq_true_eq]
    omega
  have hempty : text.toList.isEmpty = false := by
    rw [List.isEmpty_eq_false_iff, ← List.length_pos_iff]
    omega
  have hmax : ¬ maximum < text.toList.length := by omega
  simp only [safeText, hstrip, hvisible, hempty]
  simp [hmax]

theorem integer_eq_int {value : Json} {low high n : Int} (h : integer value low high = .ok n) :
    value = .int n := by
  unfold integer at h
  split at h
  · split at h
    · rw [pure_eq_ok] at h
      rw [h]
    · simp at h
  · simp at h

theorem timestamp_eq_ok {value : Json} {text : String} (h : timestamp value = .ok text) :
    value = .str text := by
  simp only [timestamp, bind_eq_ok] at h
  obtain ⟨text', hsafe, h⟩ := h
  split at h
  · rw [pure_eq_ok] at h
    rw [safeText_eq_ok hsafe, h]
  · simp at h

theorem ofValue?_value (p : InstallPhase) : InstallPhase.ofValue? p.value = some p := by
  cases p <;> decide

theorem parsePhase_value (p : InstallPhase) : parsePhase (.str p.value) = .ok p := by
  rw [parsePhase, ofValue?_value]
  rfl

theorem parseResultCode_value (c : InstallResultCode) :
    parseResultCode (.str c.value) = .ok c := by
  cases c <;> rfl

theorem parseRootMode_iff {mode : String} :
    parseRootMode (.str mode) = .ok mode ↔ preflightRootModes.contains mode = true := by
  simp only [parseRootMode]
  by_cases h : preflightRootModes.contains mode = true
  · rw [if_pos h]
    exact iff_of_true rfl h
  · rw [if_neg h]
    exact iff_of_false (by simp) h

theorem parseRootMode_eq_ok {value : Json} {mode : String} (h : parseRootMode value = .ok mode) :
    value = .str mode := by
  unfold parseRootMode at h
  split at h
  · split at h
    · rw [pure_eq_ok] at h
      rw [h]
    · simp at h
  · simp at h

theorem parseEntryId_eq_ok {value : Json} {text : String} (h : parseEntryId P value = .ok text) :
    value = .str text := by
  simp only [parseEntryId, bind_eq_ok, pure_eq_ok] at h
  obtain ⟨text', hsafe, _, -, rfl⟩ := h
  exact safeText_eq_ok hsafe

/-- A value that may be absent is written as it is read, if a present one is. -/
theorem optional_jsonOf {α : Type} {p : Json → Except InstallJobError α} {w : α → Json}
    (hnull : ∀ a, w a ≠ .null) {o : Option α} (h : ∀ a, o = some a → p (w a) = .ok a) :
    optional p (jsonOf w o) = .ok o := by
  cases o with
  | none => rfl
  | some a =>
    have hparse := h a rfl
    simp only [jsonOf]
    unfold optional
    split
    · rename_i hw
      exact absurd hw (hnull a)
    · rw [hparse]
      rfl

theorem optional_eq_ok {α : Type} {p : Json → Except InstallJobError α} {w : α → Json}
    (hwrite : ∀ value a, p value = .ok a → value = w a) {value : Json} {o : Option α}
    (h : optional p value = .ok o) :
    value = jsonOf w o ∧ ∀ a, o = some a → p (w a) = .ok a := by
  unfold optional at h
  split at h
  · rw [pure_eq_ok] at h
    subst h
    exact ⟨rfl, nofun⟩
  · cases hp : p value with
    | error e => simp [hp] at h
    | ok a =>
      simp only [hp, Functor.map, Except.map, Except.ok.injEq] at h
      subst h
      have hvalue := hwrite value a hp
      refine ⟨hvalue, ?_⟩
      rintro _ ⟨⟩
      rw [← hvalue, hp]

/-! ## Targets -/

/-- What the fields of a stored target satisfy. -/
structure TargetOk (t : InstallTarget) : Prop where
  address : safeText (.str t.address) 255 = .ok t.address
  pinnedAddress : safeText (.str t.pinnedAddress) 255 = .ok t.pinnedAddress
  admissible : addressesAdmissible P t.address t.pinnedAddress = true
  model : safeText (.str t.model) 128 = .ok t.model
  adbSerial : safeText (.str t.adbSerial) 128 = .ok t.adbSerial
  primaryAbi : safeText (.str t.primaryAbi) 64 = .ok t.primaryAbi
  shape : (P.isPrintable t.model && isAdbSerial t.adbSerial && isAbi t.primaryAbi) = true
  androidSdk : integer (.int t.androidSdk) 1 maxAndroidSdk = .ok t.androidSdk

/-- What a document says of a target. -/
structure TargetRead (fields : List (String × Json)) (t : InstallTarget) : Prop where
  address : fieldOf fields "address" = .str t.address
  pinnedAddress : fieldOf fields "pinned_address" = .str t.pinnedAddress
  adbSerial : fieldOf fields "adb_serial" = .str t.adbSerial
  model : fieldOf fields "model" = .str t.model
  primaryAbi : fieldOf fields "primary_abi" = .str t.primaryAbi
  androidSdk : fieldOf fields "android_sdk" = .int t.androidSdk

theorem parseTarget_eq_ok {fields : List (String × Json)} {t : InstallTarget}
    (h : parseTarget P (.obj fields) = .ok t) : TargetRead fields t ∧ TargetOk P t := by
  simp only [parseTarget, bind_eq_ok, check_eq_ok, pure_eq_ok] at h
  obtain ⟨_, -, address, haddress, pin, hpin, _, hadmissible, model, hmodel, serial, hserial, abi,
    habi, _, hshape, sdk, hsdk, rfl⟩ := h
  have h₁ := safeText_eq_ok haddress
  have h₂ := safeText_eq_ok hpin
  have h₃ := safeText_eq_ok hmodel
  have h₄ := safeText_eq_ok hserial
  have h₅ := safeText_eq_ok habi
  have h₆ := integer_eq_int hsdk
  exact ⟨⟨h₁, h₂, h₄, h₃, h₅, h₆⟩, h₁ ▸ haddress, h₂ ▸ hpin, hadmissible, h₃ ▸ hmodel,
    h₄ ▸ hserial, h₅ ▸ habi, hshape, h₆ ▸ hsdk⟩

theorem targetOk_of_parseTarget {value : Json} {t : InstallTarget}
    (h : parseTarget P value = .ok t) : TargetOk P t := by
  cases value with
  | obj fields => exact (parseTarget_eq_ok P h).2
  | _ => simp [parseTarget] at h

theorem targetRead_asdict (t : InstallTarget) :
    ∃ fields, t.asdict = .obj fields ∧ (fields.map Prod.fst).Nodup ∧ TargetRead fields t :=
  ⟨_, rfl, by simp only [List.map_cons, List.map_nil]; decide, rfl, rfl, rfl, rfl, rfl, rfl⟩

theorem TargetRead.unique {fields : List (String × Json)} {t t' : InstallTarget}
    (h : TargetRead fields t) (h' : TargetRead fields t') : t' = t := by
  have h₁ := Json.str.inj (h'.address.symm.trans h.address)
  have h₂ := Json.str.inj (h'.pinnedAddress.symm.trans h.pinnedAddress)
  have h₃ := Json.str.inj (h'.adbSerial.symm.trans h.adbSerial)
  have h₄ := Json.str.inj (h'.model.symm.trans h.model)
  have h₅ := Json.str.inj (h'.primaryAbi.symm.trans h.primaryAbi)
  have h₆ := Json.int.inj (h'.androidSdk.symm.trans h.androidSdk)
  cases t
  cases t'
  rw [InstallTarget.mk.injEq]
  exact ⟨h₁, h₂, h₃, h₄, h₅, h₆⟩

/-- A document that says of a target what it must is parsed to that target. -/
theorem parseTarget_of_read {fields : List (String × Json)} {t : InstallTarget}
    (hkeys : Json.keysAre fields
      ["address", "pinned_address", "adb_serial", "model", "primary_abi", "android_sdk"] = true)
    (hread : TargetRead fields t) (h : TargetOk P t) : parseTarget P (.obj fields) = .ok t := by
  simp only [parseTarget, hkeys, hread.address, hread.pinnedAddress, hread.adbSerial, hread.model,
    hread.primaryAbi, hread.androidSdk, h.address, h.pinnedAddress, h.admissible, h.model,
    h.adbSerial, h.primaryAbi, h.shape, h.androidSdk, check, ok_bind, if_true]
  rfl

theorem parseTarget_asdict {t : InstallTarget} (h : TargetOk P t) :
    parseTarget P t.asdict = .ok t :=
  parseTarget_of_read P rfl ⟨rfl, rfl, rfl, rfl, rfl, rfl⟩ h

/-! ## Artifacts -/

/-- What the fields of a stored artifact satisfy. -/
structure ArtifactOk (a : InstallArtifact) : Prop where
  range : parseRange (jsonOf .int a.protocolMin) (jsonOf .int a.protocolMax) =
    .ok (a.protocolMin, a.protocolMax)
  releaseTag : safeText (.str a.releaseTag) 128 = .ok a.releaseTag
  versionName : safeText (.str a.versionName) 128 = .ok a.versionName
  apkName : safeText (.str a.apkName) 255 = .ok a.apkName
  apkSha256 : safeText (.str a.apkSha256) 64 = .ok a.apkSha256
  signer : safeText (.str a.signerCertificateSha256) 64 = .ok a.signerCertificateSha256
  database : safeText (.str a.databaseCompatibility) 128 = .ok a.databaseCompatibility
  schema : a.descriptorSchema ∈ installDescriptorSchemas
  launch : isLaunchComponent (.str a.packageId) (.str a.launchComponent) = true ∨
    a.packageId = legacyPackageId ∧ a.launchComponent = legacyLaunchComponent
  release : a.signerCertificateSha256 = releaseSignerCertificateSha256
  abis : a.supportedAbis = supportedAbis
  identity : artifactIdentityMatches a.releaseTag a.versionName (.int a.versionCode) a.apkName
    a.apkSha256 (.str a.packageId) = true
  shape : (isApkName a.apkName && isSha256 a.apkSha256 &&
    databaseRangeValid a.databaseCompatibility) = true
  versionCode : integer (.int a.versionCode) 1 (2 ^ 31 - 1) = .ok a.versionCode
  apkSize : integer (.int a.apkSize) 1 maxApkBytes = .ok a.apkSize
  minSdk : integer (.int a.minSdk) 1 maxAndroidSdk = .ok a.minSdk

/-- What a document says of an artifact. -/
structure ArtifactRead (fields : List (String × Json)) (a : InstallArtifact) : Prop where
  schema : fieldOf fields "descriptor_schema" = .str a.descriptorSchema
  releaseTag : fieldOf fields "release_tag" = .str a.releaseTag
  versionName : fieldOf fields "version_name" = .str a.versionName
  versionCode : fieldOf fields "version_code" = .int a.versionCode
  apkName : fieldOf fields "apk_name" = .str a.apkName
  apkSha256 : fieldOf fields "apk_sha256" = .str a.apkSha256
  apkSize : fieldOf fields "apk_size" = .int a.apkSize
  packageId : fieldOf fields "package_id" = .str a.packageId
  signer : fieldOf fields "signer_certificate_sha256" = .str a.signerCertificateSha256
  minSdk : fieldOf fields "min_sdk" = .int a.minSdk
  abis : fieldOf fields "supported_abis" = .arr (a.supportedAbis.map .str)
  database : fieldOf fields "database_compatibility" = .str a.databaseCompatibility
  launchComponent : fieldOf fields "launch_component" = .str a.launchComponent
  protocolMin : fieldOf fields "protocol_min" = jsonOf .int a.protocolMin
  protocolMax : fieldOf fields "protocol_max" = jsonOf .int a.protocolMax
  optIn : (Json.field? fields "prerelease_opt_in").getD (.bool false) = .bool a.prereleaseOptIn

theorem parseRange_eq_ok {low high : Json} {a b : Option Int}
    (h : parseRange low high = .ok (a, b)) : low = jsonOf .int a ∧ high = jsonOf .int b := by
  unfold parseRange at h
  split at h
  · rw [pure_eq_ok] at h
    cases h
    exact ⟨rfl, rfl⟩
  · simp only [bind_eq_ok, pure_eq_ok] at h
    obtain ⟨n, hn, m, hm, h⟩ := h
    cases h
    exact ⟨integer_eq_int hn, integer_eq_int hm⟩

/-- The package and the launcher that an accepted artifact names are texts. -/
theorem launch_eq_str {package component : Json}
    (h : (isLaunchComponent package component ||
      package == .str legacyPackageId && component == .str legacyLaunchComponent) = true) :
    ∃ p c, package = .str p ∧ component = .str c ∧
      (isLaunchComponent (.str p) (.str c) = true ∨
        p = legacyPackageId ∧ c = legacyLaunchComponent) := by
  simp only [Bool.or_eq_true, Bool.and_eq_true, beq_iff_eq] at h
  rcases h with hnew | ⟨rfl, rfl⟩
  · have hparts := hnew
    simp only [isLaunchComponent, Bool.and_eq_true, beq_iff_eq, List.any_eq_true] at hparts
    obtain ⟨rfl, c, -, rfl⟩ := hparts
    exact ⟨_, c, rfl, rfl, Or.inl hnew⟩
  · exact ⟨_, _, rfl, rfl, Or.inr ⟨rfl, rfl⟩⟩

theorem parseArtifact_eq_ok {fields : List (String × Json)} {a : InstallArtifact}
    (h : parseArtifact (.obj fields) = .ok a) : ArtifactRead fields a ∧ ArtifactOk a := by
  unfold parseArtifact at h
  simp only [bind_eq_ok, check_eq_ok] at h
  obtain ⟨_, -, h⟩ := h
  split at h
  · rename_i optIn hoptIn
    simp only [bind_eq_ok, check_eq_ok, pure_eq_ok, Bool.and_eq_true, Prod.exists] at h
    obtain ⟨low, high, hrange, tag, htag, version, hversion, name, hname, sha,
      hsha, signer, hsigner, database, hdatabase, _,
      ⟨⟨⟨⟨⟨⟨⟨hschema, hlaunch⟩, hrelease⟩, habis⟩, hidentity⟩, hapk⟩,
        hhash⟩, hrangeText⟩, code, hcode, size, hsize, sdk, hsdk, rfl⟩ := h
    obtain ⟨package, component, hpackage, hcomponent, hlaunched⟩ := launch_eq_str hlaunch
    obtain ⟨schema, hmem, hschema⟩ := List.any_eq_true.mp hschema
    rw [beq_iff_eq] at hschema habis hrelease
    obtain ⟨hlow, hhigh⟩ := parseRange_eq_ok hrange
    have h₁ := safeText_eq_ok htag
    have h₂ := safeText_eq_ok hversion
    have h₃ := safeText_eq_ok hname
    have h₄ := safeText_eq_ok hsha
    have h₅ := safeText_eq_ok hsigner
    have h₆ := safeText_eq_ok hdatabase
    have h₇ := integer_eq_int hcode
    have h₈ := integer_eq_int hsize
    have h₉ := integer_eq_int hsdk
    refine ⟨⟨?_, h₁, h₂, h₇, h₃, h₄, h₈, ?_, h₅, h₉, habis, h₆, ?_, hlow, hhigh, hoptIn⟩,
      ⟨?_, h₁ ▸ htag, h₂ ▸ hversion, h₃ ▸ hname, h₄ ▸ hsha, h₅ ▸ hsigner, h₆ ▸ hdatabase, ?_, ?_,
        hrelease, rfl, ?_, ?_, h₇ ▸ hcode, h₈ ▸ hsize, h₉ ▸ hsdk⟩⟩
    · simp only [hschema, textOf]
    · simp only [hpackage, textOf]
    · simp only [hcomponent, textOf]
    · rw [← hlow, ← hhigh, hrange]
    · simpa only [hschema, textOf] using hmem
    · simpa only [hpackage, hcomponent, textOf] using hlaunched
    · simpa only [hpackage, h₇, textOf] using hidentity
    · simp only [hapk, hhash, hrangeText, Bool.and_self]
  · simp at h

theorem artifactOk_of_parseArtifact {value : Json} {a : InstallArtifact}
    (h : parseArtifact value = .ok a) : ArtifactOk a := by
  cases value with
  | obj fields => exact (parseArtifact_eq_ok h).2
  | _ => simp [parseArtifact] at h

theorem artifactRead_fields (a : InstallArtifact) {withRange withOptIn : Bool}
    (hrange : withRange = false → a.protocolMin = none ∧ a.protocolMax = none)
    (hoptIn : withOptIn = false → a.prereleaseOptIn = false) :
    ArtifactRead (a.fields withRange withOptIn) a := by
  cases withRange <;> cases withOptIn
  · obtain ⟨hmin, hmax⟩ := hrange rfl
    exact ⟨rfl, rfl, rfl, rfl, rfl, rfl, rfl, rfl, rfl, rfl, rfl, rfl, rfl, by rw [hmin]; rfl,
      by rw [hmax]; rfl, by rw [hoptIn rfl]; rfl⟩
  · obtain ⟨hmin, hmax⟩ := hrange rfl
    exact ⟨rfl, rfl, rfl, rfl, rfl, rfl, rfl, rfl, rfl, rfl, rfl, rfl, rfl, by rw [hmin]; rfl,
      by rw [hmax]; rfl, rfl⟩
  · exact ⟨rfl, rfl, rfl, rfl, rfl, rfl, rfl, rfl, rfl, rfl, rfl, rfl, rfl, rfl, rfl,
      by rw [hoptIn rfl]; rfl⟩
  · exact ⟨rfl, rfl, rfl, rfl, rfl, rfl, rfl, rfl, rfl, rfl, rfl, rfl, rfl, rfl, rfl, rfl⟩

theorem ArtifactRead.unique {fields : List (String × Json)} {a a' : InstallArtifact}
    (h : ArtifactRead fields a) (h' : ArtifactRead fields a')
    (habis : a.supportedAbis = a'.supportedAbis) : a' = a := by
  have hjson : ∀ o o' : Option Int, jsonOf Json.int o = jsonOf .int o' → o = o' := by
    intro o o' heq
    cases o <;> cases o' <;> simp_all [jsonOf]
  have h₁ := Json.str.inj (h'.schema.symm.trans h.schema)
  have h₂ := Json.str.inj (h'.releaseTag.symm.trans h.releaseTag)
  have h₃ := Json.str.inj (h'.versionName.symm.trans h.versionName)
  have h₄ := Json.int.inj (h'.versionCode.symm.trans h.versionCode)
  have h₅ := Json.str.inj (h'.apkName.symm.trans h.apkName)
  have h₆ := Json.str.inj (h'.apkSha256.symm.trans h.apkSha256)
  have h₇ := Json.int.inj (h'.apkSize.symm.trans h.apkSize)
  have h₈ := Json.str.inj (h'.packageId.symm.trans h.packageId)
  have h₉ := Json.str.inj (h'.signer.symm.trans h.signer)
  have h₁₀ := Json.int.inj (h'.minSdk.symm.trans h.minSdk)
  have h₁₁ := Json.str.inj (h'.database.symm.trans h.database)
  have h₁₂ := Json.str.inj (h'.launchComponent.symm.trans h.launchComponent)
  have h₁₃ := hjson _ _ (h'.protocolMin.symm.trans h.protocolMin)
  have h₁₄ := hjson _ _ (h'.protocolMax.symm.trans h.protocolMax)
  have h₁₅ := Json.bool.inj (h'.optIn.symm.trans h.optIn)
  cases a
  cases a'
  rw [InstallArtifact.mk.injEq]
  exact ⟨h₁, h₂, h₃, h₄, h₅, h₆, h₇, h₈, h₉, h₁₀, habis.symm, h₁₁, h₁₂, h₁₃, h₁₄, h₁₅⟩

/-- A document that says of an artifact what it must is parsed to that artifact. -/
theorem parseArtifact_of_read {fields : List (String × Json)} {a : InstallArtifact}
    (hkeys : (Json.keysAre fields artifactKeys ||
      Json.keysAre fields (artifactKeys ++ ["prerelease_opt_in"]) ||
      Json.keysAre fields (artifactKeys ++ rangeKeys) ||
      Json.keysAre fields (artifactKeys ++ rangeKeys ++ ["prerelease_opt_in"])) = true)
    (hread : ArtifactRead fields a) (h : ArtifactOk a) : parseArtifact (.obj fields) = .ok a := by
  have hlaunch : (isLaunchComponent (.str a.packageId) (.str a.launchComponent) ||
      Json.str a.packageId == .str legacyPackageId &&
        Json.str a.launchComponent == .str legacyLaunchComponent) = true := by
    rcases h.launch with hnew | ⟨hpackage, hcomponent⟩
    · rw [hnew, Bool.true_or]
    · simp [hpackage, hcomponent]
  have hschema : (installDescriptorSchemas.any fun s => Json.str a.descriptorSchema == .str s) =
      true := by
    simp only [List.any_eq_true, beq_iff_eq, Json.str.injEq]
    exact ⟨_, h.schema, rfl⟩
  have habis : (Json.arr (a.supportedAbis.map .str) == .arr (supportedAbis.map .str)) = true := by
    simp [h.abis]
  have hrelease : (a.signerCertificateSha256 == releaseSignerCertificateSha256) = true := by
    simp [h.release]
  have hshape := h.shape
  simp only [Bool.and_eq_true] at hshape
  simp only [parseArtifact, hkeys, hread.optIn, hread.protocolMin, hread.protocolMax, h.range,
    hread.releaseTag, hread.versionName, hread.apkName, hread.apkSha256, hread.signer,
    hread.database, hread.schema, hread.packageId, hread.launchComponent, hread.versionCode,
    hread.apkSize, hread.minSdk, hread.abis, h.releaseTag, h.versionName, h.apkName, h.apkSha256,
    h.signer, h.database, h.versionCode, h.apkSize, h.minSdk, hschema, hlaunch, hrelease, habis,
    h.identity, hshape.1.1, hshape.1.2, hshape.2, check, ok_bind, Bool.and_self, if_true, textOf]
  rw [← h.abis]
  rfl

theorem keysAre_artifact (a : InstallArtifact) (withRange withOptIn : Bool) :
    (Json.keysAre (a.fields withRange withOptIn) artifactKeys ||
      Json.keysAre (a.fields withRange withOptIn) (artifactKeys ++ ["prerelease_opt_in"]) ||
      Json.keysAre (a.fields withRange withOptIn) (artifactKeys ++ rangeKeys) ||
      Json.keysAre (a.fields withRange withOptIn)
        (artifactKeys ++ rangeKeys ++ ["prerelease_opt_in"])) = true := by
  cases withRange <;> cases withOptIn <;> rfl

theorem parseArtifact_asdict {a : InstallArtifact} (h : ArtifactOk a) :
    parseArtifact a.asdict = .ok a :=
  parseArtifact_of_read (keysAre_artifact a true true) (artifactRead_fields a nofun nofun) h

theorem parseArtifact_artifactDocument {a : InstallArtifact} (h : ArtifactOk a) :
    parseArtifact (artifactDocument a) = .ok a := by
  refine parseArtifact_of_read (keysAre_artifact a _ _) (artifactRead_fields a ?_ ?_) h
  · intro hnone
    simpa using hnone
  · exact fun hoptIn => hoptIn

/-! ## Receipts -/

/-- The fields of a receipt pass the field parsers. -/
structure FieldsOk (r : InstallJobReceipt) : Prop where
  jobId : safeText (.str r.jobId) 32 = .ok r.jobId
  planSha256 : safeText (.str r.planSha256) 64 = .ok r.planSha256
  adbCredentialId : safeText (.str r.adbCredentialId) 64 = .ok r.adbCredentialId
  ids : (isHex32 r.jobId && isSha256 r.planSha256 && isSha256 r.adbCredentialId) = true
  rootMode : ∀ mode, r.preflightRootMode = some mode → parseRootMode (.str mode) = .ok mode
  actual : ∀ bytes, r.actualApkBytes = some bytes → integer (.int bytes) 1 maxApkBytes = .ok bytes
  health : ∀ checked, r.healthCheckedAt = some checked → timestamp (.str checked) = .ok checked
  entry : ∀ entryId, r.consumedEntryId = some entryId → parseEntryId P (.str entryId) = .ok entryId
  revision : integer (.int r.revision) 0 (2 ^ 63 - 1) = .ok r.revision
  generation : integer (.int r.executorGeneration) 0 maxExecutorGeneration =
    .ok r.executorGeneration
  createdAt : timestamp (.str r.createdAt) = .ok r.createdAt
  updatedAt : timestamp (.str r.updatedAt) = .ok r.updatedAt
  attempt : integer (.int r.attempt) 0 maxAttempts = .ok r.attempt
  target : parseTarget P r.target.asdict = .ok r.target
  artifact : parseArtifact r.artifact.asdict = .ok r.artifact

theorem FieldsOk.targetOk {r : InstallJobReceipt} (h : FieldsOk P r) : TargetOk P r.target :=
  targetOk_of_parseTarget P h.target

theorem FieldsOk.artifactOk {r : InstallJobReceipt} (h : FieldsOk P r) : ArtifactOk r.artifact :=
  artifactOk_of_parseArtifact h.artifact

theorem FieldsOk.clearDetail {r : InstallJobReceipt} :
    FieldsOk P r.clearDetail ↔ FieldsOk P r :=
  ⟨fun ⟨h₁, h₂, h₃, h₄, h₅, h₆, h₇, h₈, h₉, h₁₀, h₁₁, h₁₂, h₁₃, h₁₄, h₁₅⟩ =>
      ⟨h₁, h₂, h₃, h₄, h₅, h₆, h₇, h₈, h₉, h₁₀, h₁₁, h₁₂, h₁₃, h₁₄, h₁₅⟩,
    fun ⟨h₁, h₂, h₃, h₄, h₅, h₆, h₇, h₈, h₉, h₁₀, h₁₁, h₁₂, h₁₃, h₁₄, h₁₅⟩ =>
      ⟨h₁, h₂, h₃, h₄, h₅, h₆, h₇, h₈, h₉, h₁₀, h₁₁, h₁₂, h₁₃, h₁₄, h₁₅⟩⟩

/-- What a document says of a receipt, the detail apart. -/
structure ReceiptRead (fields : List (String × Json)) (r : InstallJobReceipt) : Prop where
  jobId : fieldOf fields "job_id" = .str r.jobId
  revision : fieldOf fields "revision" = .int r.revision
  generation : fieldOf fields "executor_generation" = .int r.executorGeneration
  createdAt : fieldOf fields "created_at" = .str r.createdAt
  updatedAt : fieldOf fields "updated_at" = .str r.updatedAt
  phase : fieldOf fields "phase" = .str r.phase.value
  cancelRequested : fieldOf fields "cancel_requested" = .bool r.cancelRequested
  attempt : fieldOf fields "attempt" = .int r.attempt
  target : parseTarget P (fieldOf fields "target") = .ok r.target
  artifact : parseArtifact (fieldOf fields "artifact") = .ok r.artifact
  planSha256 : fieldOf fields "plan_sha256" = .str r.planSha256
  adbCredentialId : fieldOf fields "adb_credential_id" = .str r.adbCredentialId
  rootMode : fieldOf fields "preflight_root_mode" = jsonOf .str r.preflightRootMode
  actual : fieldOf fields "actual_apk_bytes" = jsonOf .int r.actualApkBytes
  health : fieldOf fields "health_checked_at" = jsonOf .str r.healthCheckedAt
  resultCode : fieldOf fields "result_code" = jsonOf (fun code => .str code.value) r.resultCode
  entry : fieldOf fields "consumed_entry_id" = jsonOf .str r.consumedEntryId
  deferred : (Json.field? fields "home_claim_deferred").getD (.bool false) =
    .bool r.homeClaimDeferred

theorem keysAre_serializeReceipt (r : InstallJobReceipt) :
    ∃ fields, serializeReceipt r = .obj fields ∧
      (Json.keysAre fields receiptKeys ||
        Json.keysAre fields (receiptKeys ++ ["home_claim_deferred"])) = true ∧
      (FieldsOk P r → ReceiptRead P fields r) := by
  refine ⟨_, rfl, ?_, fun h => ?_⟩
  · cases r.homeClaimDeferred <;> rfl
  · refine ⟨rfl, rfl, rfl, rfl, rfl, rfl, rfl, rfl, parseTarget_asdict P h.targetOk,
      parseArtifact_artifactDocument h.artifactOk, rfl, rfl, rfl, rfl, rfl, rfl, rfl, ?_⟩
    cases r.homeClaimDeferred <;> rfl

theorem parseReceipt_of_read {fields : List (String × Json)} {r : InstallJobReceipt}
    (hkeys : (Json.keysAre fields receiptKeys ||
      Json.keysAre fields (receiptKeys ++ ["home_claim_deferred"])) = true)
    (hread : ReceiptRead P fields r) (h : FieldsOk P r)
    (hvalid : validateReceiptInvariants P r.clearDetail = .ok ()) :
    parseReceipt P (.obj fields) = .ok r.clearDetail := by
  have hcode : optional parseResultCode (jsonOf (fun code => .str code.value) r.resultCode) =
      .ok r.resultCode := optional_jsonOf (by simp) fun c _ => parseResultCode_value c
  have hroot := optional_jsonOf (w := .str) (by simp) h.rootMode
  have hactual := optional_jsonOf (p := (integer · 1 maxApkBytes)) (w := .int) (by simp)
    h.actual
  have hhealth := optional_jsonOf (w := .str) (by simp) h.health
  have hentry := optional_jsonOf (w := .str) (by simp) h.entry
  simp only [parseReceipt, hkeys, hread.deferred, hread.jobId, hread.planSha256,
    hread.adbCredentialId, hread.phase, hread.resultCode, hread.cancelRequested, hread.rootMode,
    hread.actual, hread.health, hread.entry, hread.revision, hread.generation, hread.createdAt,
    hread.updatedAt, hread.attempt, hread.target, hread.artifact, h.jobId, h.planSha256,
    h.adbCredentialId, h.ids, parsePhase_value, hcode, hroot, hactual, hhealth, hentry, h.revision,
    h.generation, h.createdAt, h.updatedAt, h.attempt, check, ok_bind, if_true]
  exact congrArg (· >>= fun _ => pure r.clearDetail) hvalid

/-- The parser reads back the document a receipt is written as, without the detail. -/
theorem parseReceipt_serializeReceipt {r : InstallJobReceipt} (h : FieldsOk P r)
    (hvalid : validateReceiptInvariants P r = .ok ()) :
    parseReceipt P (serializeReceipt r) = .ok r.clearDetail := by
  obtain ⟨fields, heq, hkeys, hread⟩ := keysAre_serializeReceipt P r
  rw [heq]
  exact parseReceipt_of_read P hkeys (hread h) h ((validate_ok_iff P).mpr
    ⟨detailViolated_clearDetail r,
      (primaryValid_clearDetail P).mpr ((validate_ok_iff P).mp hvalid).2⟩)

/-- What the parser returns parses again. -/
theorem fieldsOk_of_parseReceipt {value : Json} {r : InstallJobReceipt}
    (h : parseReceipt P value = .ok r) : FieldsOk P r := by
  unfold parseReceipt at h
  split at h
  · simp only [bind_eq_ok, check_eq_ok] at h
    obtain ⟨_, _, h⟩ := h
    split at h
    · simp only [bind_eq_ok, check_eq_ok] at h
      obtain ⟨jobId, hjobId, plan, hplan, credential, hcredential, _, hids, phase, -, code, -, h⟩ :=
        h
      split at h
      · simp only [bind_eq_ok, pure_eq_ok] at h
        obtain ⟨root, hroot, actual, hactual, health, hhealth, entry, hentry, revision, hrevision,
          generation, hgeneration, created, hcreated, updated, hupdated, attempt, hattempt, target,
          htarget, artifact, hartifact, _, -, rfl⟩ := h
        refine ⟨safeText_eq_ok hjobId ▸ hjobId, safeText_eq_ok hplan ▸ hplan,
          safeText_eq_ok hcredential ▸ hcredential, hids,
          (optional_eq_ok (fun _ _ => parseRootMode_eq_ok) hroot).2,
          (optional_eq_ok (fun _ _ => integer_eq_int) hactual).2,
          (optional_eq_ok (fun _ _ => timestamp_eq_ok) hhealth).2,
          (optional_eq_ok (fun _ _ => parseEntryId_eq_ok P) hentry).2,
          integer_eq_int hrevision ▸ hrevision, integer_eq_int hgeneration ▸ hgeneration,
          timestamp_eq_ok hcreated ▸ hcreated, timestamp_eq_ok hupdated ▸ hupdated,
          integer_eq_int hattempt ▸ hattempt, ?_, ?_⟩
        · exact parseTarget_asdict P (targetOk_of_parseTarget P htarget)
        · exact parseArtifact_asdict (artifactOk_of_parseArtifact hartifact)
      · cases h
    · cases h
  · cases h

/-! ## The plan document -/

/-- The text that `install_plan_sha256` hashes. -/
def planText (target : InstallTarget) (artifact : InstallArtifact)
    (adbCredentialId schema : String) : Except InstallJobError String := do
  let parsedTarget ← parseTarget P target.asdict
  let parsedArtifact ← parseArtifact artifact.asdict
  let credentialId ← safeText (.str adbCredentialId) 64
  check .store (isSha256 credentialId)
  let document : Json :=
    .obj [("schema", .str schema), ("target", parsedTarget.asdict),
      ("artifact", artifactDocument parsedArtifact), ("adb_credential_id", .str credentialId)]
  return String.ofList (document.sortKeys.compact ++ ['\n'])

theorem installPlanSha256_eq (target : InstallTarget) (artifact : InstallArtifact)
    (adbCredentialId schema : String) :
    installPlanSha256 P target artifact adbCredentialId schema =
      P.sha256 <$> planText P target artifact adbCredentialId schema := by
  simp only [installPlanSha256, planText]
  cases parseTarget P target.asdict <;> try rfl
  cases parseArtifact artifact.asdict <;> try rfl
  cases safeText (.str adbCredentialId) 64 <;> try rfl
  rename_i credentialId
  simp only [ok_bind, check]
  cases isSha256 credentialId <;> rfl

/-- The document of a plan. -/
def planDocument (target : InstallTarget) (artifact : InstallArtifact)
    (adbCredentialId schema : String) : Json :=
  .obj [("schema", .str schema), ("target", target.asdict),
    ("artifact", artifactDocument artifact), ("adb_credential_id", .str adbCredentialId)]

theorem parseTarget_asdict_eq {t t' : InstallTarget} (h : parseTarget P t.asdict = .ok t') :
    t' = t ∧ TargetOk P t := by
  obtain ⟨hread, hok⟩ := parseTarget_eq_ok P h
  obtain rfl : t' = t := TargetRead.unique ⟨rfl, rfl, rfl, rfl, rfl, rfl⟩ hread
  exact ⟨rfl, hok⟩

theorem parseArtifact_asdict_eq {a a' : InstallArtifact} (h : parseArtifact a.asdict = .ok a') :
    a' = a ∧ ArtifactOk a := by
  obtain ⟨hread, hok⟩ := parseArtifact_eq_ok h
  have hself : ArtifactRead (a.fields true true) a := artifactRead_fields a nofun nofun
  have habis : a.supportedAbis = a'.supportedAbis := by
    have := hself.abis.symm.trans hread.abis
    simpa [List.map_inj_right] using this
  obtain rfl : a' = a := hself.unique hread habis
  exact ⟨rfl, hok⟩

theorem planText_eq_ok {target : InstallTarget} {artifact : InstallArtifact}
    {adbCredentialId schema text : String}
    (h : planText P target artifact adbCredentialId schema = .ok text) :
    text = String.ofList
      ((planDocument target artifact adbCredentialId schema).sortKeys.compact ++ ['\n']) ∧
      ArtifactOk artifact := by
  simp only [planText, bind_eq_ok, pure_eq_ok] at h
  obtain ⟨target', htarget, artifact', hartifact, credential, hcredential, _, -, rfl⟩ := h
  obtain ⟨rfl, -⟩ := parseTarget_asdict_eq P htarget
  obtain ⟨rfl, hok⟩ := parseArtifact_asdict_eq hartifact
  obtain rfl := Json.str.inj (safeText_eq_ok hcredential)
  exact ⟨rfl, hok⟩

/-- The fields of two documents with one canonical text. -/
structure SameFields (fields fields' : List (String × Json)) : Prop where
  lookup : ∀ key, (Json.field? fields' key).map Json.sortKeys =
    (Json.field? fields key).map Json.sortKeys

theorem SameFields.fieldOf {fields fields' : List (String × Json)} (h : SameFields fields fields')
    {key : String} {v : Json} (hv : fieldOf fields key = v) (hscalar : v.isScalar = true) :
    fieldOf fields' key = v := by
  refine Json.eq_of_sortKeys_scalar hscalar ?_
  have hread : ∀ l : List (String × Json), (PanelAssistant.fieldOf l key).sortKeys =
      ((Json.field? l key).map Json.sortKeys).getD .null := by
    intro l
    simp only [PanelAssistant.fieldOf]
    cases Json.field? l key <;> rfl
  rw [hread, h.lookup key, ← hread, hv]

theorem isScalar_jsonOf {α : Type} {w : α → Json} (h : ∀ a, (w a).isScalar = true)
    (o : Option α) : (jsonOf w o).isScalar = true := by
  cases o with
  | none => rfl
  | some a => exact h a

theorem TargetRead.sameFields {fields fields' : List (String × Json)} {t : InstallTarget}
    (h : TargetRead fields t) (hsame : SameFields fields fields') : TargetRead fields' t :=
  ⟨hsame.fieldOf h.address rfl, hsame.fieldOf h.pinnedAddress rfl, hsame.fieldOf h.adbSerial rfl,
    hsame.fieldOf h.model rfl, hsame.fieldOf h.primaryAbi rfl, hsame.fieldOf h.androidSdk rfl⟩

theorem ArtifactRead.sameFields {fields fields' : List (String × Json)} {a : InstallArtifact}
    (h : ArtifactRead fields a) (hsame : SameFields fields fields')
    (habis : PanelAssistant.fieldOf fields' "supported_abis" =
      .arr (a.supportedAbis.map .str)) : ArtifactRead fields' a := by
  refine ⟨hsame.fieldOf h.schema rfl, hsame.fieldOf h.releaseTag rfl,
    hsame.fieldOf h.versionName rfl, hsame.fieldOf h.versionCode rfl, hsame.fieldOf h.apkName rfl,
    hsame.fieldOf h.apkSha256 rfl, hsame.fieldOf h.apkSize rfl, hsame.fieldOf h.packageId rfl,
    hsame.fieldOf h.signer rfl, hsame.fieldOf h.minSdk rfl, habis, hsame.fieldOf h.database rfl,
    hsame.fieldOf h.launchComponent rfl,
    hsame.fieldOf h.protocolMin (isScalar_jsonOf (fun _ => rfl) _),
    hsame.fieldOf h.protocolMax (isScalar_jsonOf (fun _ => rfl) _), ?_⟩
  refine Json.eq_of_sortKeys_scalar rfl ?_
  have hread : ∀ l : List (String × Json),
      ((Json.field? l "prerelease_opt_in").getD (.bool false)).sortKeys =
        ((Json.field? l "prerelease_opt_in").map Json.sortKeys).getD (.bool false) := by
    intro l
    cases Json.field? l "prerelease_opt_in" <;> rfl
  rw [hread, hsame.lookup, ← hread, h.optIn]

theorem nodup_artifactFields (a : InstallArtifact) (withRange withOptIn : Bool) :
    ((a.fields withRange withOptIn).map Prod.fst).Nodup := by
  cases withRange <;> cases withOptIn <;>
    simp only [InstallArtifact.fields, List.map_append, List.map_cons, List.map_nil, if_true,
      Bool.false_eq_true, if_false] <;> decide

theorem artifactRead_artifactDocument (a : InstallArtifact) :
    ∃ fields, artifactDocument a = .obj fields ∧ (fields.map Prod.fst).Nodup ∧
      ArtifactRead fields a := by
  refine ⟨_, rfl, nodup_artifactFields a _ _, artifactRead_fields a ?_ fun h => h⟩
  intro hnone
  simpa using hnone

/-- The document of a plan determines the plan. -/
theorem planText_injective {t t' : InstallTarget} {a a' : InstallArtifact}
    {c c' schema schema' text : String} (h : planText P t a c schema = .ok text)
    (h' : planText P t' a' c' schema' = .ok text) :
    t = t' ∧ a = a' ∧ c = c' ∧ schema = schema' := by
  obtain ⟨htext, hok⟩ := planText_eq_ok P h
  obtain ⟨htext', hok'⟩ := planText_eq_ok P h'
  have hsorted : (planDocument t a c schema).sortKeys =
    (planDocument t' a' c' schema').sortKeys := by
    rw [htext, String.ofList_inj, List.append_cancel_right_eq] at htext'
    exact Json.compact_injective htext'
  have hlookup := Json.field?_of_sorted (by simp only [List.map_cons, List.map_nil]; decide)
    (by simp only [List.map_cons, List.map_nil]; decide) hsorted
  have hschema := Json.str.inj (Option.some.inj (hlookup "schema"))
  have hcredential := Json.str.inj (Option.some.inj (hlookup "adb_credential_id"))
  have htarget : t'.asdict.sortKeys = t.asdict.sortKeys := Option.some.inj (hlookup "target")
  have hartifact : (artifactDocument a').sortKeys = (artifactDocument a).sortKeys :=
    Option.some.inj (hlookup "artifact")
  refine ⟨?_, ?_, hcredential.symm, hschema.symm⟩
  · obtain ⟨fields, hdocument, hnodup, hread⟩ := targetRead_asdict t
    obtain ⟨fields', hdocument', hnodup', hread'⟩ := targetRead_asdict t'
    rw [hdocument, hdocument'] at htarget
    have hsame : SameFields fields' fields := ⟨Json.field?_of_sorted hnodup' hnodup htarget⟩
    exact (hread.unique (hread'.sameFields hsame)).symm
  · obtain ⟨fields, hdocument, hnodup, hread⟩ := artifactRead_artifactDocument a
    obtain ⟨fields', hdocument', hnodup', hread'⟩ := artifactRead_artifactDocument a'
    rw [hdocument, hdocument'] at hartifact
    have hsame : SameFields fields' fields := ⟨Json.field?_of_sorted hnodup' hnodup hartifact⟩
    have habis : a.supportedAbis = a'.supportedAbis := hok.abis.trans hok'.abis.symm
    exact hread.unique (hread'.sameFields hsame (habis ▸ hread.abis)) habis |>.symm

end PanelAssistant
