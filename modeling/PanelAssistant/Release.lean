import PanelAssistant.Library.Json
import PanelAssistant.Library.Text

/-!
# Release identities

`app_identity.py` and the recognisers of `release.py` that bind an artifact's tag,
version, version code, file name and application id together. Arguments the source takes
as `object` are documents here, so a value of another type is refused as it is there.
-/

namespace PanelAssistant

open Library Library.Text

/-! ## `app_identity.py` -/

def packageId : String := "io.panelassistant.android"

def legacyPackageId : String := "io.github.maxlyth.hapaneld"

def legacyLaunchComponent : String := "io.github.maxlyth.hapaneld/.MainActivity"

def installDescriptorSchemas : List String :=
  ["io.panelassistant.android.install.v1", "io.github.maxlyth.hapaneld.install.v1"]

/-- `INSTALL_PLAN_SCHEMAS[0]` -/
def currentPlanSchema : String := "io.panelassistant.android.install-plan.v1"

def installPlanSchemas : List String :=
  [currentPlanSchema, "io.github.maxlyth.hapaneld.install-plan.v1"]

def oldClassesSuccessorLaunch : String :=
  "io.panelassistant.android/io.github.maxlyth.hapaneld.MainActivity"

def newClassesSuccessorLaunch : String :=
  "io.panelassistant.android/io.panelassistant.android.MainActivity"

/-- `LAUNCH_COMPONENTS[PACKAGE_ID]` -/
def launchComponents : List String := [oldClassesSuccessorLaunch, newClassesSuccessorLaunch]

def isLaunchComponent (packageId' component : Json) : Bool :=
  packageId' == .str packageId && launchComponents.any fun c => component == .str c

def reportsPackage (reported : Option String) (packageId' : String) : Bool :=
  if packageId' = packageId then reported == some packageId'
  else reported == none || reported == some packageId'

/-! ## `release.py` -/

def maxTagLength : Nat := 64

def maxApkBytes : Int := 64 * 1024 * 1024

def maxAndroidSdk : Int := 100

def maxAndroidVersionCode : Nat := 2 ^ 31 - 1

def releaseSignerCertificateSha256 : String :=
  "ac6193307fb0b70113aae205d7549406f96e063bc5491b67b1d5694a34b0e339"

def supportedAbis : List String := ["arm64-v8a", "armeabi-v7a"]

/-- `_SHA256_PATTERN` -/
def isSha256 (text : String) : Bool := repeats isHex 64 64 text.toList

/-- `_STABLE_TAG_PATTERN` -/
def isStableTag (cs : List Char) : Bool :=
  match cs with
  | 'v' :: rest => isTriple rest
  | _ => false

/-- The tail of `_RC_TAG_PATTERN`: `(?:rc|preview)[1-9][0-9]*`. -/
def isRcTail (cs : List Char) : Bool :=
  ((after? "rc".toList cs).any isPositiveNumeral) ||
    ((after? "preview".toList cs).any isPositiveNumeral)

/-- `_RC_TAG_PATTERN` -/
def isRcTag (cs : List Char) : Bool :=
  match cs.splitOn '-' with
  | ['v' :: core, tail] => isTriple core && isRcTail tail
  | _ => false

def isRcReleaseTag (value : String) : Bool :=
  decide (value.length ≤ maxTagLength) && isRcTag value.toList

def isInstallReleaseTag (value : String) : Bool :=
  decide (value.length ≤ maxTagLength) && (isStableTag value.toList || isRcReleaseTag value)

/-- `_VERSION_NAME_PATTERN`: `[0-9A-Za-z][0-9A-Za-z._+-]{0,63}` -/
def isBuildVersionName (value : String) : Bool :=
  match value.toList with
  | [] => false
  | c :: rest => isAlnum c && repeats (fun x => isAlnum x || "._+-".toList.contains x) 0 63 rest

/-- The digits of `_FEED_BUILD_TAG_PATTERN`, with or without its suffix. -/
def feedBuildDigits (value : String) : Option (List Char) :=
  (after? "build-".toList value.toList).bind fun rest =>
    let digits := (before? "-successor".toList rest).getD rest
    if isPositiveNumeral digits && decide (digits.length ≤ 10) then some digits else none

def feedBuildCode (value : String) : Option Nat :=
  (feedBuildDigits value).bind fun digits =>
    if decimal digits ≤ maxAndroidVersionCode then some (decimal digits) else none

def feedBuildPackage (value : String) : Option String :=
  (feedBuildCode value).map fun _ =>
    if (before? "-successor".toList value.toList).isSome then packageId else legacyPackageId

def isFeedBuildTag (value : String) : Bool := (feedBuildCode value).isSome

def releaseApkName (tag packageId' : String) : String :=
  (if packageId' = legacyPackageId then "ha-paneld" else "panel-assistant") ++ "-" ++ tag ++
    "-manual-setup-required.apk"

def releaseApkNames (tag packageId' : String) : List String :=
  let name := releaseApkName tag packageId'
  if packageId' = packageId then [name ++ ".bin", name] else [name]

/-- `_DATABASE_COMPATIBILITY_PATTERN` and the range it spells. -/
def databaseRangeValid (value : String) : Bool :=
  match (after? "hapaneld-db:v1:ha-paneld.db:".toList value.toList).map (List.splitOn ':') with
  | some [low, high] =>
    isPositiveNumeral low && isPositiveNumeral high && decide (low.length ≤ 10) &&
      decide (high.length ≤ 10) && decide (decimal low ≤ decimal high) &&
      decide (decimal high ≤ maxAndroidVersionCode)
  | _ => false

/-- The one rule binding an artifact's tag, version and file name together. -/
def artifactIdentityMatches (releaseTag versionName : String) (versionCode : Json)
    (apkName apkSha256 : String) (packageId' : Json) : Bool :=
  if isInstallReleaseTag releaseTag then
    (packageId' == .str packageId && (releaseApkNames releaseTag packageId).contains apkName ||
        packageId' == .str legacyPackageId &&
          (releaseApkNames releaseTag legacyPackageId).contains apkName) &&
      versionName == String.ofList ((after? ['v'] releaseTag.toList).getD releaseTag.toList)
  else
    match feedBuildCode releaseTag, feedBuildPackage releaseTag with
    | some code, some package =>
      packageId' == .str package && versionCode == .int code && isBuildVersionName versionName &&
        isSha256 apkSha256 && apkName == apkSha256 ++ ".apk"
    | _, _ => false

example : isInstallReleaseTag "v0.10.2-rc3" = true := by decide

end PanelAssistant
