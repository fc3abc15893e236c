import PanelAssistant.InstallReceipt.Rules
import PanelAssistant.InstallJobs.Manager

/-!
# What the install worker sees of its panel

The error codes of the installer's steps, the facts those steps report, and the functions
at the end of `install_executor.py` that check the facts and choose result codes. A step
error is one of the four exceptions the worker's handlers catch.
-/

namespace PanelAssistant

open Library InstallPhase InstallResultCode

variable (P : Platform)

/-! ## Error codes -/

/-- Stable failure codes of the ADB installer. -/
inductive InstallAdbErrorCode where
  | invalidRequest
  | targetUnreachable
  | authorizationRequired
  | targetChanged
  | rootModeChanged
  | targetResponseInvalid
  | targetIncompatible
  | targetNotClean
  | installedPackageMissing
  | rootStateAmbiguous
  | localArtifactInvalid
  | filesyncUnsafe
  | stagingPathOccupied
  | stageAmbiguous
  | stageInterrupted
  | stageVerificationFailed
  | installAmbiguous
  | launchAmbiguous
  | cleanupAmbiguous
  deriving DecidableEq

namespace InstallAdbErrorCode

def value : InstallAdbErrorCode → String
  | invalidRequest => "invalid_request"
  | targetUnreachable => "target_unreachable"
  | authorizationRequired => "authorization_required"
  | targetChanged => "target_changed"
  | rootModeChanged => "root_mode_changed"
  | targetResponseInvalid => "target_response_invalid"
  | targetIncompatible => "target_incompatible"
  | targetNotClean => "target_not_clean"
  | installedPackageMissing => "installed_package_missing"
  | rootStateAmbiguous => "root_state_ambiguous"
  | localArtifactInvalid => "local_artifact_invalid"
  | filesyncUnsafe => "filesync_unsafe"
  | stagingPathOccupied => "staging_path_occupied"
  | stageAmbiguous => "stage_ambiguous"
  | stageInterrupted => "stage_interrupted"
  | stageVerificationFailed => "stage_verification_failed"
  | installAmbiguous => "install_ambiguous"
  | launchAmbiguous => "launch_ambiguous"
  | cleanupAmbiguous => "cleanup_ambiguous"

end InstallAdbErrorCode

/-- Stable artifact custody failures. -/
inductive ArtifactErrorCode where
  | descriptorRequired
  | contractInvalid
  | jobIdInvalid
  | pathInvalid
  | readyInvalid
  | busy
  | redirectInvalid
  | httpStatus
  | responseInvalid
  | tooLarge
  | sizeMismatch
  | digestMismatch
  | timeout
  | downloadFailed
  | ioFailed
  deriving DecidableEq

namespace ArtifactErrorCode

def value : ArtifactErrorCode → String
  | descriptorRequired => "descriptor_required"
  | contractInvalid => "artifact_contract_invalid"
  | jobIdInvalid => "artifact_job_id_invalid"
  | pathInvalid => "artifact_path_invalid"
  | readyInvalid => "artifact_ready_invalid"
  | busy => "artifact_busy"
  | redirectInvalid => "artifact_redirect_invalid"
  | httpStatus => "artifact_http_status"
  | responseInvalid => "artifact_response_invalid"
  | tooLarge => "artifact_too_large"
  | sizeMismatch => "artifact_size_mismatch"
  | digestMismatch => "artifact_digest_mismatch"
  | timeout => "artifact_timeout"
  | downloadFailed => "artifact_download_failed"
  | ioFailed => "artifact_io_failed"

end ArtifactErrorCode

/-- Stable installer network failure codes. -/
inductive InstallNetworkErrorCode where
  | invalidHost
  | resolutionFailed
  | resolutionTimeout
  | tooManyResults
  | unsafeTarget
  | pinnedTargetRemoved
  deriving DecidableEq

namespace InstallNetworkErrorCode

def value : InstallNetworkErrorCode → String
  | invalidHost => "invalid_host"
  | resolutionFailed => "resolution_failed"
  | resolutionTimeout => "resolution_timeout"
  | tooManyResults => "too_many_results"
  | unsafeTarget => "unsafe_target"
  | pinnedTargetRemoved => "pinned_target_removed"

end InstallNetworkErrorCode

/-- The exceptions a step raises. -/
inductive StepError where
  | credential
  | network (code : InstallNetworkErrorCode)
  | adb (code : InstallAdbErrorCode)
  | artifact (code : ArtifactErrorCode)
  deriving DecidableEq

/-- `_result_subcode` -/
def resultSubcode : StepError → String
  | .credential => "credential:unavailable"
  | .network code => "network:" ++ code.value
  | .adb code => "adb:" ++ code.value
  | .artifact code => "artifact:" ++ code.value

/-! ## Result codes -/

/-! ## Facts -/

/-- ADB privilege postures. -/
inductive AdbRootMode where
  | rootAdbd
  | rootless
  | rootSu
  deriving DecidableEq

namespace AdbRootMode

def value : AdbRootMode → String
  | rootAdbd => "root_adbd"
  | rootless => "rootless"
  | rootSu => "root_su"

end AdbRootMode

/-- Clean-install admission facts from one ADB connection. -/
structure AdbPreflight where
  serial : String
  model : String
  primaryAbi : String
  androidSdk : Int
  rootMode : AdbRootMode
  targetInstalled : Bool
  deriving DecidableEq

/-- The parts of a health line that the installer reads. -/
structure InstallHealth where
  version : String
  package : Option String

/-- The two ways a panel's client fails. -/
inductive ClientError where
  | cannotConnect
  | invalidResponse

structure AdbInstallTarget where
  address : PanelAddress
  serial : String
  model : String
  primaryAbi : String
  androidSdk : Int

/-! ## Checks of the facts -/

/-- `health_is_installed_app` -/
def healthIsInstalledApp (health : InstallHealth) (installed : InstallArtifact) : Bool :=
  health.version == installed.versionName && reportsPackage health.package installed.packageId

/-- `home_ui_allows(status, setup=True)`, of the state the HOME proof reports. -/
def homeUiAllowsSetup (homeUiState : Option String) : Bool :=
  homeUiState == some "ready" || homeUiState == some "setup"

end PanelAssistant
