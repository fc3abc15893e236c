import PanelAssistant.Library.CodeUnits
import PanelAssistant.Signed.Agreement
import PanelAssistant.Usb.Jobs
import PanelAssistant.Usb.Preflight

/-!
# Records of USB jobs

`job-store.mjs` up to the transactions: what a record is, `validate` over every value the browser
can hold, and `decode` over everything that can lie in the store. A value is a document with the
numbers of the browser; of an object only its own properties and their values are kept.

A string of a target is a text: an unpaired surrogate is of category `C` and refused with it.
-/

namespace PanelAssistant.Usb.Records

open Library Library.Text Library.JsonTree

abbrev Value := JsonTree JsNumber

/-- `MAX_BYTES` -/
def maxBytes : ℕ := 8192

/-- `FIELDS` -/
def recordFields : List String :=
  ["schema", "id", "deviceKey", "revision", "phase", "target", "artifact"]

/-- `TARGET_FIELDS` -/
def targetFields : List String :=
  ["model", "serial", "primaryAbi", "androidSdk", "rootMode", "usbVendorId", "usbProductId",
    "usbSerial"]

/-- The property of a phase in `EDGES`. -/
def phaseText : Phase → String
  | .prepared => "prepared"
  | .staging => "staging"
  | .staged => "staged"
  | .installing => "installing"
  | .installed => "installed"
  | .launching => "launching"
  | .healthy => "healthy"
  | .recoveryRequired => "recovery_required"
  | .cleanupPending => "cleanup_pending"

/-- `Object.hasOwn(EDGES, phase)` -/
def phase? (text : String) : Option Phase :=
  [.prepared, .staging, .staged, .installing, .installed, .launching, .healthy, .recoveryRequired,
    .cleanupPending].find? fun phase => phaseText phase == text

/-! ## Records -/

structure Target where
  model : String
  serial : String
  primaryAbi : String
  androidSdk : ℕ
  rootMode : String
  usbVendorId : ℕ
  usbProductId : ℕ
  usbSerial : String
  deriving DecidableEq

structure Record where
  id : String
  deviceKey : String
  revision : ℕ
  phase : Phase
  target : Target
  artifact : InstallDescriptor
  deriving DecidableEq

def targetValue (t : Target) (name : String) : JsonTree ℕ :=
  match name with
  | "model" => .str (units t.model)
  | "serial" => .str (units t.serial)
  | "primaryAbi" => .str (units t.primaryAbi)
  | "androidSdk" => .num t.androidSdk
  | "rootMode" => .str (units t.rootMode)
  | "usbVendorId" => .num t.usbVendorId
  | "usbProductId" => .num t.usbProductId
  | "usbSerial" => .str (units t.usbSerial)
  | _ => .null

def targetTree (t : Target) : JsonTree ℕ := objectOf targetFields (targetValue t)

def recordValue (r : Record) (name : String) : JsonTree ℕ :=
  match name with
  | "schema" => .num 1
  | "id" => .str (units r.id)
  | "deviceKey" => .str (units r.deviceKey)
  | "revision" => .num r.revision
  | "phase" => .str (units (phaseText r.phase))
  | "target" => targetTree r.target
  | "artifact" => descriptorTree r.artifact
  | _ => .null

/-- The object that `validate` returns, its properties in their order. -/
def recordTree (r : Record) : JsonTree ℕ := objectOf recordFields (recordValue r)

/-- A value without other numbers. -/
def valueOf (tree : JsonTree ℕ) : Value := tree.map browser.ofNat

/-! ## Checks of values -/

/-- `keys` -/
def keys (value : Value) (names : List String) : Option (List (List CodeUnit × Value)) :=
  match value with
  | .obj fields => if exactKeys fields names then some fields else none
  | _ => none

/-- `match(pattern, value)`, of an ASCII pattern -/
def matching (pattern : String → Bool) (value : Value) : Option String :=
  (asciiOf value).filter pattern

/-- `integer` -/
def integer (low high : ℕ) : Value → Option ℕ
  | .num (.safe z) => if (low : ℤ) ≤ z ∧ z ≤ high then some z.toNat else none
  | _ => none

variable (U : UnicodeTables) (T : NumberTexts)

def isPrintable (minimum : ℕ) (text : String) : Bool :=
  decide (minimum ≤ text.length) && decide (text.length ≤ 128) && !text.toList.any U.isOther

/-- `printable` -/
def printable (minimum : ℕ) : Value → Option String
  | .str u => ((CodeUnits.text? u).map String.ofList).filter (isPrintable U minimum)
  | _ => none

def isTrimmed (text : String) : Bool := text.toList == Preflight.trim text.toList

def targetSnapshot (target : Value) : Option Target := do
  let fields ← keys target targetFields
  let get := field fields
  let model ← (printable U 1 (get "model")).filter isTrimmed
  let serial ← matching isAdbSerial (get "serial")
  let primaryAbi ← matching (["arm64-v8a", "armeabi-v7a"].contains ·) (get "primaryAbi")
  let androidSdk ← integer 1 100 (get "androidSdk")
  let rootMode ← matching (["rootless", "root_adbd", "root_su"].contains ·) (get "rootMode")
  let usbVendorId ← integer 0 65535 (get "usbVendorId")
  let usbProductId ← integer 0 65535 (get "usbProductId")
  let usbSerial ← printable U 0 (get "usbSerial")
  some ⟨model, serial, primaryAbi, androidSdk, rootMode, usbVendorId, usbProductId, usbSerial⟩

/-- `artifactSnapshot`: the fields of the artifact, sorted, are read as a descriptor again. -/
def artifactSnapshot (artifact : Value) (target : Target) : Option InstallDescriptor :=
  match artifact with
  | .obj fields => do
    let text := jsonStringify T (.obj (fields.insertionSort (byRank unitCodes))) ++ ['\n']
    let tag ← asciiOf (field fields "releaseTag")
    let apkSha256 ← asciiOf (field fields "apkSha256")
    let descriptor ← Browser.parseUnauthenticatedDescriptor T (encodeUtf8 text) tag apkSha256
    if descriptor.minSdk ≤ target.androidSdk ∧ target.primaryAbi ∈ descriptor.supportedAbis then
      some descriptor
    else none
  | _ => none

/-! ## Texts -/

/-- `JSON.stringify(receipt)` -/
def stringify (r : Record) : List Char := jsonStringify T (valueOf (recordTree r))

def isSchema : Value → Bool
  | .num (.safe z) => z == 1
  | _ => false

def validate (value : Value) : Option Record := do
  let fields ← keys value recordFields
  let get := field fields
  if isSchema (get "schema") then
    let id ← matching isHex32 (get "id")
    let deviceKey ← matching isSha256 (get "deviceKey")
    let revision ← integer 0 Binary64.maxSafeInteger (get "revision")
    let phase ← (asciiOf (get "phase")).bind phase?
    let target ← targetSnapshot U (get "target")
    let artifact ← artifactSnapshot T (get "artifact") target
    let receipt : Record := ⟨id, deviceKey, revision, phase, target, artifact⟩
    if (encodeUtf8 (stringify T receipt)).length ≤ maxBytes then some receipt else none
  else none

/-- What can lie in the store. -/
inductive Raw where
  | text (units : List CodeUnit)
  | undefined
  | other

/-- The string a text is in the store. -/
def rawOf (text : List Char) : Raw := .text (text.flatMap charUnits)

/-- `decode`. `JSON.stringify` writes no unpaired surrogate, so a text with one is refused at the
latest by the last comparison. -/
def decode (raw : Raw) (deviceKey : String) : Option Record :=
  match raw with
  | .text us =>
    if us.length ≤ maxBytes then do
      let text ← CodeUnits.text? us
      if (encodeUtf8 text).length ≤ maxBytes then
        let receipt ← (jsonParse text).bind (validate U T)
        if receipt.deviceKey = deviceKey ∧ stringify T receipt = text then some receipt else none
      else none
    else none
  | _ => none

/-! ## Keys of devices -/

/-- `hex` of `shared.mjs` -/
def hex (bytes : List UInt8) : String :=
  String.ofList (bytes.flatMap fun byte =>
    [Json.hexDigit (byte.toNat / 16), Json.hexDigit (byte.toNat % 16)])

/-- SHA-256, and its digest's bytes. -/
abbrev Sha256 := List UInt8 → Fin 32 → UInt8

def keyFor (sha256 : Sha256) (t : Target) : String :=
  let canonical := jsonStringify T (.arr [.num (.safe t.usbVendorId), .num (.safe t.usbProductId),
    .str (units t.usbSerial), .str (units t.serial)])
  hex (List.ofFn (sha256 (encodeUtf8 canonical)))

end PanelAssistant.Usb.Records
