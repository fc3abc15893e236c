import PanelAssistant.HealthLine
import PanelAssistant.Library.Handlers
import PanelAssistant.Usb.PanelPrograms
import PanelAssistant.Usb.Programs
import PanelAssistant.Usb.Records

/-!
# The ports of a preview

`usb-transaction-ports.mjs`, as far as a preview goes: `authenticate`, `inspect` and
`inspectRecovery`, with the observations they are made of. A call of the ports is the guard of the
session, the release bytes, the caller's `quarantine`, or one program that the panel runs. `serve`
gives the awaits of `Usb.Calls` to these ports; what a preview does not ask of them stays a call of
the controller.

What a program writes is a response. It is kept as what its parser makes of it.
-/

namespace PanelAssistant.Usb

open Library Library.Coop

/-! ## Responses -/

/-- What a panel says of itself. -/
structure Observed where
  model : String
  serial : String
  primaryAbi : String
  androidSdk : ℕ
  rootMode : AdbRootMode
  deriving DecidableEq

/-- The keys that are compared. -/
def Observed.agrees (observed : Observed) (target : Records.Target) : Bool :=
  observed.model == target.model && observed.serial == target.serial &&
    observed.primaryAbi == target.primaryAbi && observed.androidSdk == target.androidSdk &&
    observed.rootMode.value == target.rootMode

/-- What a preflight finds. -/
inductive Inventory where
  /-- Nothing but the app. -/
  | installed
  /-- Neither app nor data. -/
  | clean (observed : Observed)
  deriving DecidableEq

/-- A regular file of the panel, a staged one of mode 0644. -/
structure PanelFile where
  size : ℕ
  sha256 : String
  deriving DecidableEq

/-- What the parser of a program returns. -/
abbrev Program.Output : Program → Type
  | posture => Observed
  | preflight => Inventory
  | delegatedProof _ => Bool
  | pathState _ => Bool
  | stagedPreparation _ => Unit
  | stagedObservation _ => PanelFile
  | installedObservation _ => Option PanelFile
  | appReady _ => Option ℕ

/-- The checks of the builders. -/
def Program.admitted : Program → Bool
  | posture => true
  | preflight => true
  | delegatedProof suPrefix => suPrefixes.contains suPrefix
  | pathState jobId => isHex32 jobId
  | stagedPreparation jobId => isHex32 jobId
  | stagedObservation jobId => isHex32 jobId
  | installedObservation id => id == packageId
  | appReady id => HealthLine.isPackageName id.toList

/-- What a port or its caller throws. -/
inductive Fault where
  | failure (f : Failure)
  | targetInstalled
  | shellTimeout
  deriving DecidableEq

def Fault.thrown : Fault := .failure .thrown

/-- The fault, as a failure of the controller. -/
def Fault.toFailure : Fault → Failure
  | failure f => f
  | targetInstalled => .thrown
  | shellTimeout => .thrown

/-! ## Calls -/

abbrev UsbRelease : Type := Release InstallDescriptor

abbrev UsbReceipt : Type := Receipt Records.Target InstallDescriptor

abbrev UsbCall : Type := Call Records.Target InstallDescriptor

/-- `receipt.id` -/
def Subject.id? {Target Artifact : Type} : Subject Target Artifact → Option JobId
  | .saved receipt => some receipt.id
  | .proposed .. => none

abbrev UsbSubject : Type := Subject Records.Target InstallDescriptor

inductive PortCall where
  | ensureCurrent
  | authenticate
  | quarantine
  /-- `readShell(adb, program)` -/
  | read (program : Program)
  /-- `GET /api/v1/health`: whether the app answers with this version. -/
  | health (versionName : String) (port : ℕ)
  | controller (c : UsbCall)

/-- The response of a program, as its parser reads it. -/
abbrev Program.Response (program : Program) : Type := Except Fault program.Output

abbrev PortReply : PortCall → Type
  | .ensureCurrent => Except Fault Unit
  | .authenticate => Except Fault UsbRelease
  | .quarantine => Unit
  | .read program => Except Fault program.Response
  | .health _ _ => Except Fault Bool
  | .controller c => Reply c

/-- A call that writes to the job store or acts on the panel. -/
def Call.changes {Target Artifact : Type} : Call Target Artifact → Bool
  | .put .. | .add .. | .remove .. | .actuate .. | .removeSetAside .. | .commissionPermissions .. |
    .completeSetup .. => true
  | _ => false

/-- A call that changes nothing, in the browser's store or on the panel. -/
def PortCall.ReadsOnly : PortCall → Prop
  | .read program => program.ReadOnly
  | .controller c => c.changes = false
  | _ => True

namespace Ports

/-- An action of the ports. -/
abbrev PortProg (α : Type) : Type := Coop PortCall PortReply Fault α

def portFail {α : Type} (c : Code) : PortProg α := .raise (.failure (.code c))

/-- A code of another module than the controller's. -/
def refuse {α : Type} : PortProg α := .raise .thrown

/-- `readShell(adb, build(…))`, where the builder admits its arguments. -/
def send (program : Program) : PortProg program.Response :=
  if program.admitted then .perform (.read program) ofExcept else refuse

/-! ## State -/

structure UsbDevice where
  vendorId : ℕ
  productId : ℕ
  serialNumber : Option String

/-- What surrounds the ports: the device, the browser's tables, and the verified bytes. -/
structure Surroundings where
  usbDevice : UsbDevice
  unicode : UnicodeTables
  apk : UsbRelease → List UInt8
  sha256 : List UInt8 → String

structure State where
  stopped : Bool
  authenticated : Option UsbRelease
  uploadedJob : Option JobId
  appPort : ℕ

variable (W : Surroundings) (s : State)

/-- `guard()` -/
def portGuard : PortProg Unit :=
  if s.stopped then refuse else .perform .ensureCurrent ofExcept

/-- The target names this device. -/
def sameDevice (target : Records.Target) : Bool :=
  target.usbVendorId == W.usbDevice.vendorId && target.usbProductId == W.usbDevice.productId &&
    target.usbSerial == W.usbDevice.serialNumber.getD ""

def binding (target : Records.Target) (release : UsbRelease) : PortProg Unit := do
  portGuard s
  if s.authenticated ≠ some release ∨ release.genuine = false then portFail .artifactChanged
  else if sameDevice W target = false then portFail .targetChanged
  else pure ()

/-! ## Observations -/

/-- `validIdentity(expectedTarget)` and its root mode. -/
def validTarget (target : Records.Target) : Bool :=
  Preflight.validIdentity W.unicode
      ⟨target.model, target.serial, target.primaryAbi, target.androidSdk⟩ &&
    ["rootless", "root_adbd", "root_su"].contains target.rootMode

def liveTarget (observed : Observed) : Records.Target where
  model := observed.model
  serial := observed.serial
  primaryAbi := observed.primaryAbi
  androidSdk := observed.androidSdk
  rootMode := observed.rootMode.value
  usbVendorId := W.usbDevice.vendorId
  usbProductId := W.usbDevice.productId
  usbSerial := W.usbDevice.serialNumber.getD ""

/-- `parsePosture`, from the response on. -/
def parsePosture (target : Records.Target) (response : Program.posture.Response) :
    PortProg Observed :=
  if validTarget W target = false then refuse
  else do
    let observed ← ofExcept response
    if observed.agrees target = false then portFail .targetChanged else pure observed

def posture (target : Records.Target) (release : UsbRelease) : PortProg Records.Target := do
  binding W s target release
  let response ← send .posture
  let observed ← parsePosture W target response
  binding W s target release
  pure (liveTarget W observed)

/-- What `parsePreflight` checks of a descriptor before it reads. -/
def inspectable (descriptor : InstallDescriptor) : Bool :=
  decide (1 ≤ descriptor.minSdk) && decide (descriptor.minSdk ≤ 100) &&
    descriptor.supportedAbis == ["arm64-v8a", "armeabi-v7a"]

/-- `parsePreflight`, from the response on. -/
def parseInventory (descriptor : InstallDescriptor) (response : Program.preflight.Response) :
    PortProg Observed :=
  if inspectable descriptor = false then refuse
  else do
    let found ← ofExcept response
    if descriptor.packageId ≠ packageId then refuse
    else
      match found with
      | .installed => .raise .targetInstalled
      | .clean observed =>
        if observed.androidSdk < descriptor.minSdk ∨
            observed.primaryAbi ∉ descriptor.supportedAbis then refuse
        else pure observed

/-- `inventory()` -/
def inventory (descriptor : InstallDescriptor) : PortProg Observed := do
  portGuard s
  let response ← send .preflight
  portGuard s
  parseInventory descriptor response

/-- Some form of `su` reads as root. A form that waits is passed over, unless all do. -/
def delegated : List (List String) → Bool → PortProg Unit
  | [], answered => .raise (if answered then .thrown else .shellTimeout)
  | suPrefix :: rest, answered => do
    portGuard s
    match ← attempt (send (.delegatedProof suPrefix)) with
    | .error .shellTimeout => delegated rest answered
    | .error e => .raise e
    | .ok response => do
      portGuard s
      if ← ofExcept response then pure () else delegated rest true

def inspectCleanTarget (descriptor : InstallDescriptor) : PortProg Observed := do
  let initial ← inventory s descriptor
  if initial.rootMode ≠ .rootSu then pure initial
  else do
    delegated s suPrefixes false
    let final ← inventory s descriptor
    if initial ≠ final then portFail .targetChanged else pure final

def clean (target : Records.Target) (release : UsbRelease) : PortProg Unit := do
  let result ← inspectCleanTarget s release.descriptor
  if result.agrees target = false then portFail .targetChanged else binding W s target release

/-- `parsePathState(await readShell(adb, buildPathState(n, receipt.id)), n)` -/
def present (jobId : JobId) : PortProg Bool := do
  let response ← send (.pathState jobId)
  ofExcept response

/-- Establish exactly 0644 on this job's file before either check reads it. -/
def prepare (jobId : JobId) : PortProg Unit := do
  let response ← send (.stagedPreparation jobId)
  ofExcept response

/-- The size and the digest of a descriptor are ones that can be observed. -/
def observable (descriptor : InstallDescriptor) : Bool :=
  decide (1 ≤ descriptor.apkSize) && decide (descriptor.apkSize ≤ 67108864) &&
    isSha256 descriptor.apkSha256

def staged (jobId : JobId) (release : UsbRelease) : PortProg Bool := do
  prepare jobId
  let response ← send (.stagedObservation jobId)
  if observable release.descriptor = false then refuse
  else do
    let file ← ofExcept response
    if file.size ≠ release.descriptor.apkSize ∨
      file.sha256 ≠ release.descriptor.apkSha256 then refuse
    else pure true

/-- The staged bytes are the first of the release; whether they are all. -/
def stagedPrefix (jobId : JobId) (release : UsbRelease) : PortProg Bool := do
  prepare jobId
  let response ← send (.stagedObservation jobId)
  let apk := W.apk release
  if release.genuine = false ∨ apk.length ≠ release.descriptor.apkSize ∨ apk.length < 1 ∨
      67108864 < apk.length then refuse
  else do
    let file ← ofExcept response
    if apk.length < file.size ∨ W.sha256 (apk.take file.size) ≠ file.sha256 then refuse
    else pure (file.size == apk.length)

def inspectInstalledApk (descriptor : InstallDescriptor) : PortProg Bool := do
  portGuard s
  let response ← send (.installedObservation descriptor.packageId)
  portGuard s
  if observable descriptor = false then refuse
  else do
    let file ← ofExcept response
    pure (file == some ⟨descriptor.apkSize, descriptor.apkSha256⟩)

/-- Wait for the app to listen, and read its health. The port that was found is lost here where
the read fails; the ports are stopped then. -/
def readHealth (descriptor : InstallDescriptor) : PortProg (Bool × State) := do
  let response ← send (.appReady descriptor.packageId)
  let found ← ofExcept response
  let s := { s with appPort := found.getD s.appPort }
  portGuard s
  match ← attempt (.perform (.health descriptor.versionName s.appPort) ofExcept) with
  | .ok healthy => pure (healthy, s)
  | .error e => .perform .quarantine fun _ => .raise e

/-! ## Ports -/

/-- A program about the file of a job; without a job its builder throws. -/
def ofJob {α : Type} (id : Option JobId) (action : JobId → PortProg α) : PortProg α :=
  match id with
  | some jobId => action jobId
  | none => refuse

/-- A job whose upload this session has not seen complete. -/
def lost (subject : UsbSubject) : Bool :=
  subject.phase == .staging && s.uploadedJob != subject.id?

/-- A lost upload needs recovery where its file is missing. -/
def stillThere (subject : UsbSubject) : PortProg Bool :=
  if lost s subject then ofJob subject.id? present else pure true

/-- What a clean panel holds of the job's file. -/
def inspectStaged (subject : UsbSubject) (release : UsbRelease) : PortProg Bool := do
  clean W s subject.target release
  if subject.phase = .prepared then pure false
  else if lost s subject then ofJob subject.id? fun jobId => stagedPrefix W jobId release
  else ofJob subject.id? fun jobId => staged jobId release

/-- Whether the installed app is healthy, which is asked of one that was launched. -/
def inspectHealth (installed : Bool) (subject : UsbSubject) (descriptor : InstallDescriptor) :
    PortProg (Bool × State) :=
  if installed = true ∧ subject.phase = .launching then readHealth s descriptor
  else pure (false, s)

/-- `inspect` -/
def inspect (subject : UsbSubject) (release : UsbRelease) :
    PortProg (Observation Records.Target × State) := do
  let target ← posture W s subject.target release
  let there ← stillThere s subject
  if there = false then
    binding W s subject.target release
    pure (⟨some target, false, false, false, false, false, false⟩, s)
  else if subject.phase = .prepared ∨ subject.phase = .staging ∨ subject.phase = .staged then
    let isStaged ← inspectStaged W s subject release
    binding W s subject.target release
    pure (⟨some target, true, isStaged, false, false, false, false⟩, s)
  else
    let installed ← inspectInstalledApk s release.descriptor
    let (healthy, s) ← inspectHealth s installed subject release.descriptor
    binding W s subject.target release
    pure (⟨some target, false, false, installed, healthy, false, false⟩, s)

/-- What is present must be the first bytes of the release. -/
def verifyPresent (there : Bool) (id : Option JobId) (release : UsbRelease) : PortProg Unit :=
  if there then discard (ofJob id fun jobId => stagedPrefix W jobId release) else pure ()

/-- `inspectRecovery` -/
def recovery (subject : UsbSubject) (release : UsbRelease) :
    PortProg (Observation Records.Target × State) := do
  let target ← posture W s subject.target release
  clean W s subject.target release
  let there ← ofJob subject.id? present
  verifyPresent W there subject.id? release
  binding W s subject.target release
  pure (⟨some target, true, false, false, false, !there, there⟩, s)

/-- The ports stop at a fault, unless the panel already runs the app. -/
def protect {α : Type} (action : PortProg (α × State)) : PortProg (Except Failure α × State) := do
  match ← attempt action with
  | .ok (a, s) => pure (.ok a, s)
  | .error e =>
    if e = .targetInstalled then pure (.error e.toFailure, s)
    else .perform .quarantine fun _ => pure (.error e.toFailure, { s with stopped := true })

/-- `authenticate` -/
def portAuthenticate : PortProg (UsbRelease × State) := do
  portGuard s
  let release ← .perform .authenticate ofExcept
  portGuard s
  pure (release, { s with authenticated := some release })

/-- The ports behind the awaits of the controller. -/
def serve (s : State) : (c : UsbCall) → PortProg (Reply c × State)
  | .authenticate => protect s (portAuthenticate s)
  | .inspect recovering subject release =>
    protect s (if recovering then recovery W s subject release else inspect W s subject release)
  | c => .perform (.controller c) fun reply => pure (reply, s)

/-! ## A preview -/

/-- `deviceKeyForIdentity` admits the target. -/
def hasKey (target : Records.Target) : Bool :=
  isAdbSerial target.serial && decide (target.usbVendorId ≤ 65535) &&
    decide (target.usbProductId ≤ 65535) && Records.isPrintable W.unicode 0 target.usbSerial

/-- `preview` of a controller that is not busy, over these ports. -/
def previewOver (ports : State) (target : Records.Target) :
    PortProg (Except Failure (Preview Records.Target InstallDescriptor) × State) :=
  interpret (serve W)
    (if hasKey W target then preview target
    else do
      guard
      .raise .thrown) ports

end Ports

end PanelAssistant.Usb
