import PanelAssistant.Signed.Descriptor
import PanelAssistant.Signed.Plain

/-!
# The signed build feed on both sides

`parse_build_feed` of `build_feed.py` and `verifyFeedBundle` of `release-verifier.mjs`, over every
byte string with a valid signature. Both hold the document to one closed shape (`readFeed`) and its
text to their own canonical encoding. They differ in two places: Python also requires the database
range of every entry to be in bounds, and the two encodings differ on the strings of entries that
neither side can install.
-/

namespace PanelAssistant

open Library Library.Text Library.JsonTree Library.Ranking

variable {ν : Type}

/-! ## Shape -/

/-- `_MAX_FEED_BYTES` -/
def maxFeedBytes : ℕ := 256 * 1024

def maxFeedBuilds : ℕ := 500

def buildFeedSchemas : List String :=
  ["io.panelassistant.android.buildfeed.v1", "io.github.maxlyth.hapaneld.buildfeed.v1"]

def feedChannels : List String := ["maintainer", "beta"]

def feedFields : List String := ["builds", "channel", "schema"]

def buildFields : List String :=
  ["apkPath", "apkSha256", "apkSize", "commit", "databaseCompatibility", "launchComponent",
    "minSdk", "packageId", "published", "signerCertificateSha256", "supportedAbis", "versionCode",
    "versionName"]

/-- `_COMMIT_PATTERN` -/
def isCommit (text : String) : Bool := repeats isHex 40 40 text.toList

/-- A text of the shape of a template, in which a zero stands for any digit. -/
def hasShape : List Char → List Char → Bool
  | [], [] => true
  | t :: template, c :: cs => (if t = '0' then isDigit c else t == c) && hasShape template cs
  | _, _ => false

/-- `_PUBLISHED_PATTERN` -/
def isPublished (text : String) : Bool := hasShape "0000-00-00T00:00:00Z".toList text.toList

/-- `_DATABASE_COMPATIBILITY_PATTERN`, and `FEED_DATABASE` of the browser: no bound on the two
numbers. -/
def isFeedDatabase (value : String) : Bool :=
  match (after? databaseStem.toList value.toList).map (List.splitOn ':') with
  | some [low, high] => isPositiveNumeral low && isPositiveNumeral high
  | _ => false

/-- One entry of a feed that both sides read: whether either can install it is not decided yet. -/
structure FeedEntry where
  versionCode : VersionCode
  versionName : Checked isBuildVersionName
  apkSha256 : Checked isSha256
  apkSize : Bounded maxApkBytes.toNat
  commit : Checked isCommit
  databaseCompatibility : Checked isFeedDatabase
  minSdk : Bounded maxAndroidSdk.toNat
  published : Checked isPublished
  packageId : List CodeUnit
  launchComponent : List CodeUnit

/-- Content-addressed: the path can only ever name the bytes the feed signs. -/
def apkPath (apkSha256 : String) : String := "apks/" ++ apkSha256 ++ ".apk"

/-- A string, whatever it holds. -/
def unitsOf : JsonTree ν → Option (List CodeUnit)
  | .str u => some u
  | _ => none

/-- The checks of `_parse_build` and of `feedBuild` on one entry. `range` is what is required of a
database range beyond its pattern. -/
def buildEntry (L : Language ν) (range : String → Bool) (entry : JsonTree ν) :
    Option FeedEntry := do
  let fields ← L.object buildFields entry
  let get := field fields
  let versionCode ← L.bounded maxAndroidVersionCode (get "versionCode")
  let apkSize ← L.bounded maxApkBytes.toNat (get "apkSize")
  let minSdk ← L.bounded maxAndroidSdk.toNat (get "minSdk")
  let apkSha256 ← checked isSha256 (get "apkSha256")
  let versionName ← checked isBuildVersionName (get "versionName")
  let commit ← checked isCommit (get "commit")
  let published ← checked isPublished (get "published")
  let databaseCompatibility ← checked isFeedDatabase (get "databaseCompatibility")
  let packageId ← unitsOf (get "packageId")
  let launchComponent ← unitsOf (get "launchComponent")
  if isText (apkPath apkSha256.1) (get "apkPath") && range databaseCompatibility.1 &&
      isText releaseSignerCertificateSha256 (get "signerCertificateSha256") &&
      areSupportedAbis (get "supportedAbis") then
    some
      { versionCode, versionName, apkSha256, apkSize, commit, databaseCompatibility, minSdk
        published, packageId, launchComponent }
  else none

/-- A feed whose entries have been checked. -/
structure FeedDocument where
  schema : {s // s ∈ buildFeedSchemas}
  channel : {s // s ∈ feedChannels}
  entries : List FeedEntry
  bounded : entries.length ≤ maxFeedBuilds

/-- The closed shape of a feed, and every entry of it. -/
def readFeed (L : Language ν) (range : String → Bool) (document : JsonTree ν) :
    Option FeedDocument := do
  let fields ← L.object feedFields document
  let schema ← buildFeedSchemas.attach.find? fun s => isText s.1 (field fields "schema")
  let channel ← feedChannels.attach.find? fun s => isText s.1 (field fields "channel")
  match field fields "builds" with
  | .arr builds =>
    let entries ← builds.mapM (buildEntry L range)
    if bounded : entries.length ≤ maxFeedBuilds then some { schema, channel, entries, bounded }
    else none
  | _ => none

/-! ## What can be installed -/

/-- The launcher of an entry that the readers can install. Authentic metadata can name an app that
they cannot drive, such as the old app. -/
def FeedEntry.launcher? (e : FeedEntry) : Option String :=
  if e.packageId = units PanelAssistant.packageId then
    launchComponents.find? fun c => e.launchComponent == units c
  else none

/-- The entries that can be installed, with their launchers. -/
def FeedDocument.installable (doc : FeedDocument) : List (FeedEntry × String) :=
  doc.entries.filterMap fun e => e.launcher?.map fun launcher => (e, launcher)

/-! ## Python -/

/-- `apkUrl` joins a path with the address of the feed. -/
def FeedEntry.feedBuild (apkUrl : String → String) (e : FeedEntry) (launcher : String) :
    FeedBuild where
  versionCode := e.versionCode
  versionName := e.versionName.1
  apkUrl := apkUrl (apkPath e.apkSha256.1)
  apkSha256 := e.apkSha256.1
  apkSize := e.apkSize.1
  commit := e.commit.1
  databaseCompatibility := e.databaseCompatibility.1
  minSdk := e.minSdk.1
  published := e.published.1
  packageId := PanelAssistant.packageId
  launchComponent := launcher
  protocolMin := none
  protocolMax := none

/-- Authenticate the exact feed bytes, then parse its closed canonical shape. The signature has been
verified. -/
def parseBuildFeed (T : NumberTexts) (apkUrl : String → String) (body : List UInt8) :
    Option BuildFeed :=
  if maxFeedBytes < body.length then none
  else do
    let text ← decodeAscii body
    let document ← jsonLoads text
    let doc ← readFeed python databaseRangeValid document
    let canonical ← encodeAscii (jsonDumps T document ++ ['\n'])
    if body = canonical then
      let builds := doc.installable.map fun e => e.1.feedBuild apkUrl e.2
      if h : (builds.map (·.versionCode)).Nodup then
        some
          { channel := doc.channel.1
            builds := builds.insertionSort (descending fun b => b.versionCode.1)
            codes := ((List.perm_insertionSort _ _).map _).nodup_iff.mpr h }
      else none
    else none

/-- The build a feed build tag names. -/
def BuildFeed.find (feed : BuildFeed) (versionCode : ℕ) (package : String) : Option FeedBuild :=
  feed.builds.find? fun b => b.versionCode.1 == versionCode && b.packageId == package

/-! ## The browser -/

/-- The v1 descriptor a GitHub release carries, built from the chosen build. -/
def FeedEntry.descriptor (e : FeedEntry) (launcher tag : String) : InstallDescriptor where
  schema := installDescriptorSchemas.headD ""
  releaseTag := tag
  versionName := e.versionName.1
  versionCode := e.versionCode
  apkName := e.apkSha256.1 ++ ".apk"
  apkSize := e.apkSize.1
  apkSha256 := e.apkSha256.1
  packageId := PanelAssistant.packageId
  signerCertificateSha256 := releaseSignerCertificateSha256
  minSdk := e.minSdk.1
  supportedAbis := supportedAbis
  databaseCompatibility := e.databaseCompatibility.1
  launchComponent := launcher

namespace Browser

/-- The feed is authenticated as exact bytes, then held to its closed canonical shape. The signature
has been verified. The name of a build in the set of builds is its version code and its package,
which is the one package that can be installed. -/
def verifyFeedBundle (T : NumberTexts) (body : List UInt8) (tag : String) :
    Option InstallDescriptor := do
  let code ← buildTagVersionCode tag
  if 0 < body.length ∧ body.length ≤ maxFeedBytes then
    let text ← decodeAscii body
    let document ← jsonParse text
    let doc ← readFeed browser (fun _ => true) document
    if text = canonicalJson T document ++ ['\n'] then
      if (doc.installable.map fun e => (e.1.versionCode.1, e.1.packageId)).Nodup then
        let package ← buildTagPackageId tag
        let build ← doc.installable.find? fun e =>
          e.1.versionCode.1 == code && e.1.packageId == units package
        let descriptor := (descriptorTree (build.1.descriptor build.2 tag)).map browser.ofNat
        parseUnauthenticatedDescriptor T (encodeUtf8 (jsonStringify T descriptor ++ ['\n'])) tag
          build.1.apkSha256.1
      else none
    else none
  else none

end Browser

end PanelAssistant
