import PanelAssistant.InstallNetwork
import PanelAssistant.Release

/-!
# Install receipts: phases, result codes and rules

The enumerations, the frozen tables and the dataclasses of `install_receipt.py`, and
`_validate_receipt_invariants`. Every check of that function raises the same exception
without a message, so it is the disjunction of the violations, in source order; the
checks of the failure detail come first and are kept apart (`detailViolated`), because
the primary store never sees a detail.
-/

namespace PanelAssistant

open Library Library.Text

/-- The exceptions a receipt operation raises. -/
inductive InstallJobError where
  | store
  | conflict
  | capacity
  | notFound
  | revision
  | cleanupRequired
  | transition
  /-- `KeyError`, from a lookup in the receipts just saved. -/
  | key
  /-- `OverflowError`, from a date before the first year. -/
  | overflow
  /-- `asyncio.CancelledError`, from a caller that was cancelled. -/
  | cancelled
  deriving DecidableEq

/-- Durable phases for the first-install workflow. -/
inductive InstallPhase where
  | approved
  | authorizing
  | preflight
  | downloading
  | artifactReady
  | revalidating
  | staging
  | installing
  | installed
  | launching
  | healthCheck
  | healthyUnclaimed
  | consumed
  | cancelled
  | failed
  | recoveryRequired
  deriving DecidableEq

namespace InstallPhase

def value : InstallPhase → String
  | approved => "approved"
  | authorizing => "authorizing"
  | preflight => "preflight"
  | downloading => "downloading"
  | artifactReady => "artifact_ready"
  | revalidating => "revalidating"
  | staging => "staging"
  | installing => "installing"
  | installed => "installed"
  | launching => "launching"
  | healthCheck => "health_check"
  | healthyUnclaimed => "healthy_unclaimed"
  | consumed => "consumed"
  | cancelled => "cancelled"
  | failed => "failed"
  | recoveryRequired => "recovery_required"

def all : List InstallPhase :=
  [approved, authorizing, preflight, downloading, artifactReady, revalidating, staging,
    installing, installed, launching, healthCheck, healthyUnclaimed, consumed, cancelled,
    failed, recoveryRequired]

/-- `InstallPhase(value)`; `none` is `ValueError`. -/
def ofValue? (text : String) : Option InstallPhase := all.find? fun p => p.value == text

end InstallPhase

/-- Privacy-safe terminal outcomes. -/
inductive InstallResultCode where
  | entryCreated
  | cancelledByUser
  | cancelledAfterStagingCleanup
  | authorizationFailed
  | preflightRejected
  | artifactRejected
  | transportFailed
  | installFailed
  | launchFailed
  | healthCheckFailed
  | ambiguousMutation
  | verificationRequired
  deriving DecidableEq

namespace InstallResultCode

def value : InstallResultCode → String
  | entryCreated => "entry_created"
  | cancelledByUser => "cancelled_by_user"
  | cancelledAfterStagingCleanup => "cancelled_after_staging_cleanup"
  | authorizationFailed => "authorization_failed"
  | preflightRejected => "preflight_rejected"
  | artifactRejected => "artifact_rejected"
  | transportFailed => "transport_failed"
  | installFailed => "install_failed"
  | launchFailed => "launch_failed"
  | healthCheckFailed => "health_check_failed"
  | ambiguousMutation => "ambiguous_mutation"
  | verificationRequired => "verification_required"

def all : List InstallResultCode :=
  [entryCreated, cancelledByUser, cancelledAfterStagingCleanup, authorizationFailed,
    preflightRejected, artifactRejected, transportFailed, installFailed, launchFailed,
    healthCheckFailed, ambiguousMutation, verificationRequired]

/-- `InstallResultCode(value)`; `none` is `ValueError`. -/
def ofValue? (text : String) : Option InstallResultCode := all.find? fun c => c.value == text

end InstallResultCode

/-! ## Tables -/

open InstallPhase InstallResultCode

def maxAttempts : Int := 32

def maxExecutorGeneration : Int := 2 ^ 31 - 1

def terminalPhases : List InstallPhase := [.consumed, .cancelled, .failed, .recoveryRequired]

def mutationBarriers : List InstallPhase := [staging, installing, launching, healthCheck]

/-- `_CLEANUP_BARRIER_CANCEL_POLARITY` -/
def cleanupBarrierCancelPolarity : InstallPhase → Option Bool
  | staging => some true
  | installing => some false
  | launching => some false
  | _ => none

def artifactRequiredPhases : List InstallPhase :=
  [artifactReady, revalidating, staging, installing, installed, launching, healthCheck,
    healthyUnclaimed, consumed]

def preflightRootModeRequiredPhases : List InstallPhase :=
  [downloading, artifactReady, revalidating, staging, installing, installed, launching,
    healthCheck, healthyUnclaimed, consumed]

def preflightRootModeForbiddenPhases : List InstallPhase := [approved, authorizing, preflight]

def cancellablePhases : List InstallPhase :=
  [approved, authorizing, preflight, downloading, artifactReady, revalidating, staging]

def failureCodes : List InstallResultCode :=
  [authorizationFailed, preflightRejected, artifactRejected, transportFailed, installFailed,
    launchFailed, healthCheckFailed]

def recoveryCodes : List InstallResultCode := [ambiguousMutation, verificationRequired]

/-- `_FAILURE_CODES_BY_PHASE.get(phase, frozenset())` -/
def failureCodesByPhase : InstallPhase → List InstallResultCode
  | authorizing => [authorizationFailed, transportFailed]
  | preflight => [preflightRejected, transportFailed]
  | downloading => [artifactRejected, transportFailed]
  | artifactReady => [artifactRejected, transportFailed]
  | revalidating => [artifactRejected, preflightRejected, transportFailed]
  | staging => [artifactRejected, transportFailed]
  | installing => [installFailed]
  | installed => [installFailed]
  | launching => [launchFailed, transportFailed]
  | healthCheck => [healthCheckFailed, transportFailed]
  | _ => []

def restartAmbiguousPhases : List InstallPhase := [staging, installing, launching]

/-- `_NEXT_PHASE.get(phase, frozenset())` -/
def nextPhase : InstallPhase → List InstallPhase
  | approved => [authorizing, .cancelled, failed]
  | authorizing => [preflight, .cancelled, failed]
  | preflight => [downloading, installed, .cancelled, failed]
  | downloading => [artifactReady, .cancelled, failed]
  | artifactReady => [revalidating, .cancelled, failed]
  | revalidating => [staging, .cancelled, failed]
  | staging => [installing, .cancelled, failed, recoveryRequired]
  | installing => [installed, failed, recoveryRequired]
  | installed => [launching, failed, recoveryRequired]
  | launching => [healthCheck, failed, recoveryRequired]
  | healthCheck => [healthyUnclaimed, failed, recoveryRequired]
  | healthyUnclaimed => [consumed, recoveryRequired]
  | _ => []

def preflightRootModes : List String := ["root_adbd", "rootless", "root_su"]

/-! ## Receipts -/

/-- Frozen identity and compatibility facts for one Android target. -/
structure InstallTarget where
  address : String
  pinnedAddress : String
  adbSerial : String
  model : String
  primaryAbi : String
  androidSdk : Int
  deriving DecidableEq

/-- Authenticated install descriptor retained without a download URL. -/
structure InstallArtifact where
  descriptorSchema : String
  releaseTag : String
  versionName : String
  versionCode : Int
  apkName : String
  apkSha256 : String
  apkSize : Int
  packageId : String
  signerCertificateSha256 : String
  minSdk : Int
  supportedAbis : List String
  databaseCompatibility : String
  launchComponent : String
  protocolMin : Option Int
  protocolMax : Option Int
  prereleaseOptIn : Bool
  deriving DecidableEq

/-- One immutable snapshot of a durable first-install job. -/
structure InstallJobReceipt where
  jobId : String
  revision : Int
  executorGeneration : Int
  createdAt : String
  updatedAt : String
  phase : InstallPhase
  cancelRequested : Bool
  attempt : Int
  target : InstallTarget
  artifact : InstallArtifact
  planSha256 : String
  adbCredentialId : String
  preflightRootMode : Option String
  actualApkBytes : Option Int
  healthCheckedAt : Option String
  resultCode : Option InstallResultCode
  consumedEntryId : Option String
  failureStage : Option InstallPhase
  resultSubcode : Option String
  homeClaimDeferred : Bool
  deriving DecidableEq

namespace InstallJobReceipt

def isTerminal (r : InstallJobReceipt) : Bool := r.phase ∈ terminalPhases

/-- `replace(receipt, failure_stage=None, result_subcode=None)` -/
def clearDetail (r : InstallJobReceipt) : InstallJobReceipt :=
  { r with failureStage := none, resultSubcode := none }

end InstallJobReceipt

/-! ## Field parsers -/

/-- `_HEX_32` -/
def isHex32 (text : String) : Bool := repeats isHex 32 32 text.toList

/-- `_ADB_SERIAL` -/
def isAdbSerial (text : String) : Bool :=
  repeats (fun c => isAlnum c || "._:-".toList.contains c) 1 128 text.toList

/-- `_ABI` -/
def isAbi (text : String) : Bool :=
  repeats (fun c => isAlnum c || "_.-".toList.contains c) 1 64 text.toList

/-- `_SUBCODE`: two lower-case words around one colon. -/
def isSubcode (text : String) : Bool :=
  match text.toList.splitOn ':' with
  | [a, b] => word a && word b
  | _ => false
where
  word : List Char → Bool
    | [] => false
    | c :: rest => isLower c && rest.all fun x => isLower x || isDigit x || x == '_'

/-- `_APK_NAME` -/
def isApkName (text : String) : Bool :=
  let stem := (before? ".apk".toList text.toList).orElse fun _ =>
    before? ".apk.bin".toList text.toList
  match stem with
  | some (c :: rest) => isAlnum c && rest.all fun x => isAlnum x || "._-".toList.contains x
  | _ => false

def safeText (value : Json) (maximum : Nat) : Except InstallJobError String :=
  match value with
  | .str text =>
    let cs := text.toList
    if cs.isEmpty || cs != strip cs || decide (maximum < cs.length) ||
        cs.any (fun c => decide (c.toNat < 32) || decide (c.toNat = 127)) then
      throw .store
    else pure text
  | _ => throw .store

def integer (value : Json) (minimum maximum : Int) : Except InstallJobError Int :=
  match value with
  | .int n => if minimum ≤ n ∧ n ≤ maximum then pure n else throw .store
  | _ => throw .store

/-! ### Timestamps -/

def daysInMonth (year month : Nat) : Nat :=
  if month = 2 then (if year % 4 = 0 ∧ (year % 100 ≠ 0 ∨ year % 400 = 0) then 29 else 28)
  else if month = 4 ∨ month = 6 ∨ month = 9 ∨ month = 11 then 30 else 31

/-- Days before the first of the month, from the first day of year 1. -/
def daysBefore (year month : Nat) : Nat :=
  365 * (year - 1) + (year - 1) / 4 - (year - 1) / 100 + (year - 1) / 400 +
    ((List.range month).tail.map (daysInMonth year)).sum

/-- `datetime.fromisoformat` on the one shape whose `isoformat(timespec="seconds")` in UTC is
the text itself, as seconds from the first instant of year 1. -/
def fromIsoFormat (text : String) : Option Int :=
  let cs := text.toList
  let shape := "dddd-dd-ddTdd:dd:dd+00:00".toList
  let part (start length : Nat) : Nat := decimal ((cs.drop start).take length)
  if cs.length = shape.length ∧
      (cs.zip shape).all (fun p => if p.2 = 'd' then isDigit p.1 else p.1 == p.2) then
    let year := part 0 4
    let month := part 5 2
    let day := part 8 2
    let hour := part 11 2
    let minute := part 14 2
    let second := part 17 2
    if 1 ≤ year ∧ 1 ≤ month ∧ month ≤ 12 ∧ 1 ≤ day ∧ day ≤ daysInMonth year month ∧ hour < 24 ∧
        minute < 60 ∧ second < 60 then
      some ((daysBefore year month + (day - 1) : Nat) * 86400 + hour * 3600 + minute * 60 + second)
    else none
  else none

example : fromIsoFormat "0001-01-08T00:00:01+00:00" = some (7 * 86400 + 1) := by decide

def timestamp (value : Json) : Except InstallJobError String := do
  let text ← safeText value 40
  match fromIsoFormat text with
  | some _ => pure text
  | none => throw .store

end PanelAssistant
