import PanelAssistant.Signed.Fields
import PanelAssistant.Updates.Sources

/-!
# The signed install descriptor on both sides

`_parse_install_descriptor` of `release.py` and `parseUnauthenticatedDescriptor` of
`release-verifier.mjs`, over every byte string. Both read the same thirteen fields
(`readDescriptor`), hold the text to its canonical spelling and then check the fields, each in its
own way.
-/

namespace PanelAssistant

open Library Library.Text Library.JsonTree

variable {ν : Type}

/-! ## Fields -/

/-- `_INSTALL_DESCRIPTOR_FIELDS`, and `FIELDS` of `release-verifier.mjs`, in their order. -/
def installDescriptorFields : List String :=
  ["apkName", "apkSha256", "apkSize", "databaseCompatibility", "launchComponent", "minSdk",
    "packageId", "releaseTag", "schema", "signerCertificateSha256", "supportedAbis", "versionCode",
    "versionName"]

def abisValue (abis : List String) : JsonTree ν := .arr (abis.map fun s => .str (units s))

/-- The value of each field. -/
def descriptorValue (d : InstallDescriptor) (name : String) : JsonTree ℕ :=
  match name with
  | "apkName" => .str (units d.apkName)
  | "apkSha256" => .str (units d.apkSha256)
  | "apkSize" => .num d.apkSize
  | "databaseCompatibility" => .str (units d.databaseCompatibility)
  | "launchComponent" => .str (units d.launchComponent)
  | "minSdk" => .num d.minSdk
  | "packageId" => .str (units d.packageId)
  | "releaseTag" => .str (units d.releaseTag)
  | "schema" => .str (units d.schema)
  | "signerCertificateSha256" => .str (units d.signerCertificateSha256)
  | "supportedAbis" => abisValue d.supportedAbis
  | "versionCode" => .num d.versionCode.1
  | "versionName" => .str (units d.versionName)
  | _ => .null

/-- The document of a descriptor, with its fields in order. -/
def descriptorTree (d : InstallDescriptor) : JsonTree ℕ :=
  objectOf installDescriptorFields (descriptorValue d)

/-- The fields of a descriptor, at the types that every later check requires. -/
def readDescriptor (L : Language ν) (fields : List (List CodeUnit × JsonTree ν)) :
    Option InstallDescriptor := do
  let get := field fields
  let schema ← asciiOf (get "schema")
  let releaseTag ← asciiOf (get "releaseTag")
  let versionName ← asciiOf (get "versionName")
  let versionCode ← L.bounded maxAndroidVersionCode (get "versionCode")
  let apkName ← asciiOf (get "apkName")
  let apkSize ← L.bounded maxApkBytes.toNat (get "apkSize")
  let apkSha256 ← asciiOf (get "apkSha256")
  let packageId ← asciiOf (get "packageId")
  let signerCertificateSha256 ← asciiOf (get "signerCertificateSha256")
  let minSdk ← L.bounded maxAndroidSdk.toNat (get "minSdk")
  let databaseCompatibility ← asciiOf (get "databaseCompatibility")
  let launchComponent ← asciiOf (get "launchComponent")
  if areSupportedAbis (get "supportedAbis") then
    some
      { schema, releaseTag, versionName, versionCode, apkName, apkSize := apkSize.1, apkSha256
        packageId, signerCertificateSha256, minSdk := minSdk.1, supportedAbis
        databaseCompatibility, launchComponent }
  else none

/-! ## Python -/

/-- `str.removeprefix("v")` -/
def removeV (tag : String) : String :=
  String.ofList ((after? ['v'] tag.toList).getD tag.toList)

/-- What `_parse_install_descriptor` checks of the fields. -/
def pythonAccepts (d : InstallDescriptor) (tag apkName apkSha256 : String) : Bool :=
  installDescriptorSchemas.contains d.schema && d.releaseTag == tag &&
    d.versionName == removeV tag && d.apkName == apkName && d.apkSha256 == apkSha256 &&
    isSha256 d.apkSha256 && d.packageId == packageId &&
    d.signerCertificateSha256 == releaseSignerCertificateSha256 &&
    databaseRangeValid d.databaseCompatibility &&
    isLaunchComponent (.str d.packageId) (.str d.launchComponent)

/-- Parse one canonical, closed and cross-bound signed v1 descriptor. -/
def parseInstallDescriptor (T : NumberTexts) (body : List UInt8) (tag apkName apkSha256 : String) :
    Option InstallDescriptor := do
  let text ← decodeUtf8 body
  let document ← jsonLoads text
  let fields ← python.object installDescriptorFields document
  let canonical ← encodeAscii (jsonDumps T document ++ ['\n'])
  if body = canonical then
    let d ← readDescriptor python fields
    if pythonAccepts d tag apkName apkSha256 then
      some { d with
        releaseTag := tag, versionName := removeV tag, apkName, apkSha256
        signerCertificateSha256 := releaseSignerCertificateSha256, supportedAbis }
    else none
  else none

/-- The one install contract every typed descriptor meets before it is used. -/
def installDescriptorValid (d : InstallDescriptor) : Bool :=
  installDescriptorSchemas.contains d.schema &&
    isLaunchComponent (.str d.packageId) (.str d.launchComponent) &&
    d.signerCertificateSha256 == releaseSignerCertificateSha256 &&
    d.supportedAbis == supportedAbis && isSha256 d.apkSha256 &&
    decide (1 ≤ d.apkSize ∧ (d.apkSize : ℤ) ≤ maxApkBytes) &&
    decide (1 ≤ d.minSdk ∧ (d.minSdk : ℤ) ≤ maxAndroidSdk) &&
    decide (1 ≤ d.versionCode.1 ∧ d.versionCode.1 ≤ maxAndroidVersionCode) &&
    databaseRangeValid d.databaseCompatibility &&
    artifactIdentityMatches d.releaseTag d.versionName (.int d.versionCode.1) d.apkName d.apkSha256
      (.str d.packageId)

/-! ## The browser -/

namespace Browser

/-- `matches` of `release-identity.mjs` -/
def isTag (pattern : List Char → Bool) (value : String) : Bool :=
  decide (value.length ≤ maxTagLength) && pattern value.toList

def isGithubTag (tag : String) : Bool := isTag isStableTag tag || isTag isRcTag tag

/-- The version code a build tag names. -/
def buildTagVersionCode (tag : String) : Option ℕ :=
  if tag.length ≤ maxTagLength then
    (feedBuildDigits tag).bind fun digits =>
      if decimal digits ≤ maxAndroidVersionCode then some (decimal digits) else none
  else none

def isBuildTag (tag : String) : Bool := (buildTagVersionCode tag).isSome

/-- The package identity bound to a feed build tag. -/
def buildTagPackageId (tag : String) : Option String :=
  if !isBuildTag tag then none
  else if (before? "-successor".toList tag.toList).isSome then some packageId
  else some legacyPackageId

def isBuildVersionName (value : String) : Bool :=
  decide (value.length ≤ maxTagLength) && PanelAssistant.isBuildVersionName value

/-- The exact asset name a GitHub release publishes this app's APK under. -/
def githubApkName (tag : String) : String :=
  "panel-assistant" ++ "-" ++ tag ++ "-manual-setup-required.apk"

def githubApkNames (tag : String) : List String :=
  [githubApkName tag, githubApkName tag ++ ".bin"]

/-- Whether a v1 install descriptor carries the identity its tag requires. -/
def descriptorIdentityValid (d : InstallDescriptor) (tag apkSha256 : String) : Bool :=
  if isGithubTag tag then
    d.releaseTag == tag && d.versionName == String.ofList (tag.toList.drop 1) &&
      (githubApkNames tag).contains d.apkName
  else
    match buildTagVersionCode tag with
    | none => false
    | some code =>
      d.releaseTag == tag && d.versionCode.1 == code && some d.packageId == buildTagPackageId tag &&
        isBuildVersionName d.versionName && d.apkName == apkSha256 ++ ".apk"

/-- `dbPattern` and the two numbers it finds. -/
def databaseValid (value : String) : Bool :=
  match (after? "hapaneld-db:v1:ha-paneld.db:".toList value.toList).map (List.splitOn ':') with
  | some [low, high] =>
    isPositiveNumeral low && decide (low.length ≤ 10) && isPositiveNumeral high &&
      decide (high.length ≤ 10) &&
      decide (1 ≤ decimal low ∧ decimal low ≤ maxAndroidVersionCode) &&
      decide (1 ≤ decimal high ∧ decimal high ≤ maxAndroidVersionCode) &&
      decide (decimal low ≤ decimal high)
  | _ => false

/-- What `parseUnauthenticatedDescriptor` checks of the fields. -/
def accepts (d : InstallDescriptor) (tag apkSha256 : String) : Bool :=
  installDescriptorSchemas.contains d.schema && descriptorIdentityValid d tag apkSha256 &&
    d.apkSha256 == apkSha256 && d.packageId == packageId &&
    d.signerCertificateSha256 == releaseSignerCertificateSha256 &&
    isLaunchComponent (.str d.packageId) (.str d.launchComponent) &&
    databaseValid d.databaseCompatibility

/-- `JSON.stringify(Object.keys(d).sort()) === JSON.stringify(FIELDS)` -/
def sortedKeysAre (fields : List (List CodeUnit × JsonTree ν)) (names : List String) : Bool :=
  (fields.map Prod.fst).insertionSort (fun a b => unitCodes a ≤ unitCodes b) == names.map units

/-- Strict parsing only: the returned descriptor is not authenticated. -/
def parseUnauthenticatedDescriptor (T : NumberTexts) (body : List UInt8) (tag apkSha256 : String) :
    Option InstallDescriptor :=
  if (isGithubTag tag || isBuildTag tag) && isSha256 apkSha256 &&
      decide (0 < body.length ∧ body.length ≤ 4096) then do
    let text ← decodeAscii body
    let d ← jsonParse text
    match d with
    | .obj fields =>
      if sortedKeysAre fields installDescriptorFields then
        let selected := objectOf installDescriptorFields (field fields)
        if text = jsonStringify T selected ++ ['\n'] then
          let d ← readDescriptor browser fields
          if accepts d tag apkSha256 then some d else none
        else none
      else none
    | _ => none
  else none

end Browser

end PanelAssistant
