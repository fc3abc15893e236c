import PanelAssistant.Library.Except
import PanelAssistant.InstallReceipt.Basic

/-!
# The one-receipt codec

`_parse_target`, `_parse_artifact`, `install_plan_sha256`, `_parse_receipt`,
`_validate_receipt_invariants` and `_serialize_receipt` of `install_receipt.py`, over
documents. Parsing re-checks every stored field; a field is returned as it was read.
-/

namespace PanelAssistant

open Library Library.Text InstallPhase

variable (P : Platform)

/-- `value[key]` of a document whose field names were checked. -/
def fieldOf (fields : List (String × Json)) (key : String) : Json :=
  (Json.field? fields key).getD .null

def jsonOf {α : Type} (f : α → Json) : Option α → Json
  | none => .null
  | some a => f a

/-! ## Targets and artifacts -/

/-- `asdict(target)` -/
def InstallTarget.asdict (t : InstallTarget) : Json :=
  .obj [("address", .str t.address), ("pinned_address", .str t.pinnedAddress),
    ("adb_serial", .str t.adbSerial), ("model", .str t.model),
    ("primary_abi", .str t.primaryAbi), ("android_sdk", .int t.androidSdk)]

def parseTarget (value : Json) : Except InstallJobError InstallTarget := do
  let .obj fields := value | throw .store
  check .store (Json.keysAre fields ["address", "pinned_address", "adb_serial", "model",
    "primary_abi", "android_sdk"])
  let address ← safeText (fieldOf fields "address") 255
  let pinnedAddress ← safeText (fieldOf fields "pinned_address") 255
  check .store (addressesAdmissible P address pinnedAddress)
  let model ← safeText (fieldOf fields "model") 128
  let adbSerial ← safeText (fieldOf fields "adb_serial") 128
  let primaryAbi ← safeText (fieldOf fields "primary_abi") 64
  check .store (P.isPrintable model && isAdbSerial adbSerial && isAbi primaryAbi)
  let androidSdk ← integer (fieldOf fields "android_sdk") 1 maxAndroidSdk
  return { address, pinnedAddress, adbSerial, model, primaryAbi, androidSdk }

/-- The fields of `asdict(artifact)`, with the optional ones kept or popped. -/
def InstallArtifact.fields (a : InstallArtifact) (withRange withOptIn : Bool) :
    List (String × Json) :=
  [("descriptor_schema", .str a.descriptorSchema), ("release_tag", .str a.releaseTag),
    ("version_name", .str a.versionName), ("version_code", .int a.versionCode),
    ("apk_name", .str a.apkName), ("apk_sha256", .str a.apkSha256), ("apk_size", .int a.apkSize),
    ("package_id", .str a.packageId),
    ("signer_certificate_sha256", .str a.signerCertificateSha256), ("min_sdk", .int a.minSdk),
    ("supported_abis", .arr (a.supportedAbis.map .str)),
    ("database_compatibility", .str a.databaseCompatibility),
    ("launch_component", .str a.launchComponent)] ++
  (if withRange then
    [("protocol_min", jsonOf .int a.protocolMin), ("protocol_max", jsonOf .int a.protocolMax)]
  else []) ++
  (if withOptIn then [("prerelease_opt_in", .bool a.prereleaseOptIn)] else [])

/-- `asdict(artifact)` -/
def InstallArtifact.asdict (a : InstallArtifact) : Json := .obj (a.fields true true)

/-- `_artifact_document`: plan hashes written before a field existed are preserved. -/
def artifactDocument (a : InstallArtifact) : Json :=
  .obj (a.fields (a.protocolMin.isSome || a.protocolMax.isSome) a.prereleaseOptIn)

def artifactKeys : List String :=
  ["descriptor_schema", "release_tag", "version_name", "version_code", "apk_name", "apk_sha256",
    "apk_size", "package_id", "signer_certificate_sha256", "min_sdk", "supported_abis",
    "database_compatibility", "launch_component"]

def rangeKeys : List String := ["protocol_min", "protocol_max"]

/-- The protocol range, both ends or neither. -/
def parseRange (low high : Json) : Except InstallJobError (Option Int × Option Int) :=
  match low, high with
  | .null, .null => return (none, none)
  | _, _ => do
    let protocolMin ← integer low 1 (2 ^ 31 - 1)
    let protocolMax ← integer high protocolMin (2 ^ 31 - 1)
    return (some protocolMin, some protocolMax)

def textOf : Json → String
  | .str text => text
  | _ => ""

def parseArtifact (value : Json) : Except InstallJobError InstallArtifact := do
  let .obj fields := value | throw .store
  check .store (Json.keysAre fields artifactKeys ||
    Json.keysAre fields (artifactKeys ++ ["prerelease_opt_in"]) ||
    Json.keysAre fields (artifactKeys ++ rangeKeys) ||
    Json.keysAre fields (artifactKeys ++ rangeKeys ++ ["prerelease_opt_in"]))
  let .bool prereleaseOptIn := (Json.field? fields "prerelease_opt_in").getD (.bool false)
    | throw .store
  let (protocolMin, protocolMax) ←
    parseRange (fieldOf fields "protocol_min") (fieldOf fields "protocol_max")
  let releaseTag ← safeText (fieldOf fields "release_tag") 128
  let versionName ← safeText (fieldOf fields "version_name") 128
  let apkName ← safeText (fieldOf fields "apk_name") 255
  let apkSha256 ← safeText (fieldOf fields "apk_sha256") 64
  let signer ← safeText (fieldOf fields "signer_certificate_sha256") 64
  let database ← safeText (fieldOf fields "database_compatibility") 128
  let schema := fieldOf fields "descriptor_schema"
  let package := fieldOf fields "package_id"
  let component := fieldOf fields "launch_component"
  let code := fieldOf fields "version_code"
  -- A stored receipt may name the old app and its one launcher, which is read back.
  check .store (installDescriptorSchemas.any (fun s => schema == .str s) &&
    (isLaunchComponent package component ||
      package == .str legacyPackageId && component == .str legacyLaunchComponent) &&
    signer == releaseSignerCertificateSha256 &&
    fieldOf fields "supported_abis" == .arr (supportedAbis.map .str) &&
    artifactIdentityMatches releaseTag versionName code apkName apkSha256 package &&
    isApkName apkName && isSha256 apkSha256 && databaseRangeValid database)
  let versionCode ← integer code 1 (2 ^ 31 - 1)
  let apkSize ← integer (fieldOf fields "apk_size") 1 maxApkBytes
  let minSdk ← integer (fieldOf fields "min_sdk") 1 maxAndroidSdk
  return { descriptorSchema := textOf schema, releaseTag, versionName, versionCode, apkName,
           apkSha256, apkSize, packageId := textOf package, signerCertificateSha256 := signer,
           minSdk, supportedAbis, databaseCompatibility := database,
           launchComponent := textOf component, protocolMin, protocolMax, prereleaseOptIn }

/-- Bind every frozen mutation input into one canonical plan digest. -/
def installPlanSha256 (target : InstallTarget) (artifact : InstallArtifact)
    (adbCredentialId schema : String) : Except InstallJobError String := do
  let parsedTarget ← parseTarget P target.asdict
  let parsedArtifact ← parseArtifact artifact.asdict
  let credentialId ← safeText (.str adbCredentialId) 64
  check .store (isSha256 credentialId)
  let document : Json :=
    .obj [("schema", .str schema), ("target", parsedTarget.asdict),
      ("artifact", artifactDocument parsedArtifact), ("adb_credential_id", .str credentialId)]
  return P.sha256 (String.ofList (document.sortKeys.compact ++ ['\n']))

/-! ## Receipt invariants -/

namespace InstallJobReceipt

/-- The checks on the failure detail. -/
def detailViolated (r : InstallJobReceipt) : Bool :=
  r.resultSubcode.isSome && r.failureStage.isNone ||
  r.resultSubcode.any (fun subcode =>
    decide (96 < subcode.length) || !isSubcode subcode ||
      r.failureStage.any (fun stage => decide (stage ∈ terminalPhases))) ||
  decide (r.phase ≠ .failed ∧ r.phase ≠ .recoveryRequired) &&
    (r.failureStage.isSome || r.resultSubcode.isSome) ||
  decide (r.phase = .failed) &&
    r.failureStage.any (fun stage =>
      !r.resultCode.any fun code => decide (code ∈ failureCodesByPhase stage))

/-- Whether the plan digest is the one of the frozen facts, under either schema name. -/
def planBound (r : InstallJobReceipt) : Bool :=
  installPlanSchemas.any fun schema =>
    match installPlanSha256 P r.target r.artifact r.adbCredentialId schema with
    | .ok digest => r.planSha256 == digest
    | .error _ => false

/-- What each phase requires of the outcome fields. -/
def outcomeViolated (r : InstallJobReceipt) : Bool :=
  (if r.phase = .consumed then
    r.resultCode != some .entryCreated || r.consumedEntryId.isNone || r.healthCheckedAt.isNone
  else r.consumedEntryId.isSome) ||
  (if r.phase = .cancelled then
    !(r.resultCode == some .cancelledByUser ||
      r.resultCode == some .cancelledAfterStagingCleanup) || !r.cancelRequested
  else if r.phase = .failed then !r.resultCode.any fun code => decide (code ∈ failureCodes)
  else if r.phase = .recoveryRequired then
    !r.resultCode.any fun code => decide (code ∈ recoveryCodes)
  else decide (r.phase ≠ .consumed) && r.resultCode.isSome)

/-- The checks that read no failure detail. -/
def primaryViolated (r : InstallJobReceipt) : Bool :=
  decide (r.updatedAt < r.createdAt) ||
  r.actualApkBytes.any (fun bytes => bytes != r.artifact.apkSize) ||
  !r.planBound P ||
  (!r.artifact.supportedAbis.contains r.target.primaryAbi ||
    decide (r.target.androidSdk < r.artifact.minSdk)) ||
  decide (r.attempt ≠ r.executorGeneration ∨ r.revision < r.executorGeneration) ||
  (decide (r.phase ∈ preflightRootModeForbiddenPhases) && r.preflightRootMode.isSome ||
    decide (r.phase ∈ preflightRootModeRequiredPhases) &&
      !r.preflightRootMode.any preflightRootModes.contains) ||
  decide (r.phase ∈ artifactRequiredPhases) && r.actualApkBytes.isNone ||
  decide (r.phase ∉ artifactRequiredPhases ∧ r.phase ∉ terminalPhases) &&
    r.actualApkBytes.isSome ||
  r.outcomeViolated ||
  (if r.phase = .healthyUnclaimed ∨ r.phase = .consumed then r.healthCheckedAt.isNone
  else r.healthCheckedAt.isSome) ||
  r.healthCheckedAt.any fun checked => !decide (r.createdAt ≤ checked ∧ checked ≤ r.updatedAt)

end InstallJobReceipt

def validateReceiptInvariants (r : InstallJobReceipt) : Except InstallJobError Unit :=
  if r.detailViolated || r.primaryViolated P then throw .store else pure ()

/-! ## Receipts -/

/-- Accept both legacy hexadecimal ids and canonical current ULIDs. -/
def isConfigEntryId (value : String) : Bool :=
  isHex32 value ||
    decide (value.length = 26) &&
      (P.ulidToBytesOrNone value).any fun decoded => P.bytesToUlid decoded == value

/-- `_serialize_receipt`: the detail stays out, and `home_claim_deferred` is written only
when set. -/
def serializeReceipt (r : InstallJobReceipt) : Json :=
  .obj ([("job_id", .str r.jobId), ("revision", .int r.revision),
    ("executor_generation", .int r.executorGeneration), ("created_at", .str r.createdAt),
    ("updated_at", .str r.updatedAt), ("phase", .str r.phase.value),
    ("cancel_requested", .bool r.cancelRequested), ("attempt", .int r.attempt),
    ("target", r.target.asdict), ("artifact", artifactDocument r.artifact),
    ("plan_sha256", .str r.planSha256), ("adb_credential_id", .str r.adbCredentialId),
    ("preflight_root_mode", jsonOf .str r.preflightRootMode),
    ("actual_apk_bytes", jsonOf .int r.actualApkBytes),
    ("health_checked_at", jsonOf .str r.healthCheckedAt),
    ("result_code", jsonOf (fun code => .str code.value) r.resultCode),
    ("consumed_entry_id", jsonOf .str r.consumedEntryId)] ++
    (if r.homeClaimDeferred then [("home_claim_deferred", .bool true)] else []))

def receiptKeys : List String :=
  ["job_id", "revision", "executor_generation", "created_at", "updated_at", "phase",
    "cancel_requested", "attempt", "target", "artifact", "plan_sha256", "adb_credential_id",
    "preflight_root_mode", "actual_apk_bytes", "health_checked_at", "result_code",
    "consumed_entry_id"]

/-- Parse a field that may be `None`. -/
def optional {α : Type} (parse : Json → Except InstallJobError α) :
    Json → Except InstallJobError (Option α)
  | .null => pure none
  | value => some <$> parse value

def parsePhase (value : Json) : Except InstallJobError InstallPhase :=
  match value with
  | .str text => (InstallPhase.ofValue? text).elim (throw .store) pure
  | _ => throw .store

def parseResultCode (value : Json) : Except InstallJobError InstallResultCode :=
  match value with
  | .str text => (InstallResultCode.ofValue? text).elim (throw .store) pure
  | _ => throw .store

def parseRootMode (value : Json) : Except InstallJobError String :=
  match value with
  | .str text => if preflightRootModes.contains text then pure text else throw .store
  | _ => throw .store

def parseEntryId (value : Json) : Except InstallJobError String := do
  let text ← safeText value 32
  check .store (isConfigEntryId P text)
  return text

def parseReceipt (value : Json) : Except InstallJobError InstallJobReceipt := do
  let .obj fields := value | throw .store
  check .store (Json.keysAre fields receiptKeys ||
    Json.keysAre fields (receiptKeys ++ ["home_claim_deferred"]))
  let .bool homeClaimDeferred := (Json.field? fields "home_claim_deferred").getD (.bool false)
    | throw .store
  let jobId ← safeText (fieldOf fields "job_id") 32
  let planSha256 ← safeText (fieldOf fields "plan_sha256") 64
  let adbCredentialId ← safeText (fieldOf fields "adb_credential_id") 64
  check .store (isHex32 jobId && isSha256 planSha256 && isSha256 adbCredentialId)
  let phase ← parsePhase (fieldOf fields "phase")
  let resultCode ← optional parseResultCode (fieldOf fields "result_code")
  let .bool cancelRequested := fieldOf fields "cancel_requested" | throw .store
  let preflightRootMode ← optional parseRootMode (fieldOf fields "preflight_root_mode")
  let actualApkBytes ← optional (integer · 1 maxApkBytes) (fieldOf fields "actual_apk_bytes")
  let healthCheckedAt ← optional timestamp (fieldOf fields "health_checked_at")
  let consumedEntryId ← optional (parseEntryId P) (fieldOf fields "consumed_entry_id")
  let revision ← integer (fieldOf fields "revision") 0 (2 ^ 63 - 1)
  let executorGeneration ← integer (fieldOf fields "executor_generation") 0 maxExecutorGeneration
  let createdAt ← timestamp (fieldOf fields "created_at")
  let updatedAt ← timestamp (fieldOf fields "updated_at")
  let attempt ← integer (fieldOf fields "attempt") 0 maxAttempts
  let target ← parseTarget P (fieldOf fields "target")
  let artifact ← parseArtifact (fieldOf fields "artifact")
  let receipt : InstallJobReceipt :=
    { jobId, revision, executorGeneration, createdAt, updatedAt, phase, cancelRequested, attempt,
      target, artifact, planSha256, adbCredentialId, preflightRootMode, actualApkBytes,
      healthCheckedAt, resultCode, consumedEntryId, failureStage := none, resultSubcode := none,
      homeClaimDeferred }
  validateReceiptInvariants P receipt
  return receipt

end PanelAssistant
