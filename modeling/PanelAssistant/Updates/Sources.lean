import PanelAssistant.Library.Ranking
import PanelAssistant.Updates.Versions

/-!
# The authenticated sources of builds

What `release.py`, `build_feed.py` and `feed_coordinator.py` hand to a choice: release
artifacts with their install descriptors, the builds of the signed feed, the newest feed build
and the newest release of one application id. A feed build is presented as an artifact whose
tag names its version code (`feedBuildTag`); a release carries a tag of its own, so the two are
told apart by the tag alone.
-/

namespace PanelAssistant

open Library Library.Text

/-- Signed installation and compatibility facts for one exact APK. -/
structure InstallDescriptor where
  schema : String
  releaseTag : String
  versionName : String
  versionCode : VersionCode
  apkName : String
  apkSize : ℕ
  apkSha256 : String
  packageId : String
  signerCertificateSha256 : String
  minSdk : ℕ
  supportedAbis : List String
  databaseCompatibility : String
  launchComponent : String
  deriving DecidableEq

/-- Authenticated metadata for one exact release APK. -/
structure ReleaseArtifact where
  tag : String
  version : String
  apkName : String
  apkUrl : String
  sha256 : String
  descriptor : Option InstallDescriptor
  protocolMin : Option ℤ
  protocolMax : Option ℤ
  deriving DecidableEq

/-- `artifact.descriptor.version_code if artifact.descriptor else 0` -/
def ReleaseArtifact.versionCode (a : ReleaseArtifact) : ℕ :=
  a.descriptor.elim 0 fun d => d.versionCode

/-- The order of releases, and of the offers of both sources: by name, then by code. -/
def releaseKey (a : ReleaseArtifact) : VersionKey ×ₗ ℕ :=
  toLex ((versionKey a.version).getD VersionKey.zero, a.versionCode)

/-- One signed internal build: its identity and where its exact bytes live. -/
structure FeedBuild where
  versionCode : VersionCode
  versionName : String
  apkUrl : String
  apkSha256 : String
  apkSize : ℕ
  commit : String
  databaseCompatibility : String
  minSdk : ℕ
  published : String
  packageId : String
  launchComponent : String
  protocolMin : Option ℤ
  protocolMax : Option ℤ
  deriving DecidableEq

/-- Show a build by name and number. -/
def buildLabel (versionName : String) (versionCode : ℕ) : String :=
  versionName ++ " build " ++ toString versionCode

def FeedBuild.label (b : FeedBuild) : String := buildLabel b.versionName b.versionCode

/-- An authenticated feed: no two of its builds share a version code. -/
structure BuildFeed where
  channel : String
  builds : List FeedBuild
  codes : (builds.map (·.versionCode)).Nodup

def feedBuildTag (versionCode : ℕ) : String :=
  "build-" ++ toString versionCode ++ "-successor"

/-- Present a signed feed build to the install paths as a release artifact. -/
def feedReleaseArtifact (b : FeedBuild) : ReleaseArtifact :=
  let tag := feedBuildTag b.versionCode
  let apkName := b.apkSha256 ++ ".apk"
  { tag, version := b.versionName, apkName, apkUrl := b.apkUrl, sha256 := b.apkSha256
    descriptor := some
      { schema := installDescriptorSchemas.headD "", releaseTag := tag
        versionName := b.versionName, versionCode := b.versionCode, apkName
        apkSize := b.apkSize, apkSha256 := b.apkSha256, packageId := b.packageId
        signerCertificateSha256 := releaseSignerCertificateSha256, minSdk := b.minSdk
        supportedAbis, databaseCompatibility := b.databaseCompatibility
        launchComponent := b.launchComponent }
    protocolMin := b.protocolMin, protocolMax := b.protocolMax }

def FeedBuild.key (b : FeedBuild) : ℕ ×ₗ VersionKey := feedBuildKey b.versionName b.versionCode

/-- Rank signed feed builds by version code, never by name first. -/
def newestFeedBuild (builds : List FeedBuild) : Option FeedBuild := builds.argmax FeedBuild.key

/-- Whether the policy admits an artifact on any panel. -/
def artifactAllowed (a : ReleaseArtifact) (allowPrerelease : Bool) : Bool :=
  buildAllowed a.version a.protocolMin a.protocolMax allowPrerelease

/-- The builds of one application id that the policy admits. -/
def admittedBuilds (builds : List FeedBuild) (package : String) (allowPrerelease : Bool) :
    List FeedBuild :=
  builds.filter fun b => b.packageId == package &&
    buildAllowed b.versionName b.protocolMin b.protocolMax allowPrerelease

/-! ## Releases -/

/-- `_candidates` of `StableReleaseCoordinator`: what the catalogue resolved, under release
tags and with their descriptors. -/
structure ReleaseCandidates where
  artifacts : List ReleaseArtifact
  tags : ∀ a ∈ artifacts, isInstallReleaseTag a.tag = true
  descriptors : ∀ a ∈ artifacts, a.descriptor.isSome = true

def ReleaseCandidates.candidatesFor (c : ReleaseCandidates) (package : String) :
    List ReleaseArtifact :=
  c.artifacts.filter fun a => a.descriptor.any fun d => d.packageId == package

/-- The newest authenticated compatible APK for a policy. -/
def ReleaseCandidates.artifactFor (c : ReleaseCandidates) (package : String)
    (allowPrerelease : Bool) : Option ReleaseArtifact :=
  ((c.candidatesFor package).filter fun a => artifactAllowed a allowPrerelease).argmax releaseKey

/-! ## Tags -/

/-- A feed build tag names its version code. -/
theorem feedBuildCode_feedBuildTag (code : VersionCode) :
    feedBuildCode (feedBuildTag code) = some code.1 := by
  obtain ⟨n, hlow, hhigh⟩ := code
  have htext : (feedBuildTag n).toList =
      "build-".toList ++ (Nat.toDigits 10 n ++ "-successor".toList) := by
    rw [feedBuildTag, String.toList_append, String.toList_append, Nat.toString_eq_repr,
      Nat.toList_repr, List.append_assoc]
  have hlength : (Nat.toDigits 10 n).length ≤ 10 := by
    rw [Nat.length_toDigits_le_iff (by decide) (by decide)]
    have hmax : maxAndroidVersionCode = 2147483647 := rfl
    omega
  have hdigits : feedBuildDigits (feedBuildTag n) = some (Nat.toDigits 10 n) := by
    simp only [feedBuildDigits, htext, after?_append, Option.bind_some, before?_append,
      Option.getD_some, isPositiveNumeral_toDigits (show 0 < n from hlow), hlength, decide_true,
      Bool.and_self, if_true]
  simp only [feedBuildCode, hdigits, Option.bind_some, decimal_toDigits, hhigh, if_true]

theorem isFeedBuildTag_feedBuildTag (code : VersionCode) :
    isFeedBuildTag (feedBuildTag code) = true := by
  rw [isFeedBuildTag, feedBuildCode_feedBuildTag]
  rfl

theorem feedBuildTag_injective {c c' : VersionCode} (h : feedBuildTag c = feedBuildTag c') :
    c = c' := by
  have hcode := feedBuildCode_feedBuildTag c
  rw [h, feedBuildCode_feedBuildTag] at hcode
  exact Subtype.ext (Option.some.inj hcode).symm

theorem installTag_head {tag : String} (h : isInstallReleaseTag tag = true) :
    ∃ rest, tag.toList = 'v' :: rest := by
  simp only [isInstallReleaseTag, Bool.and_eq_true, Bool.or_eq_true] at h
  rcases h.2 with h | h
  · unfold isStableTag at h
    split at h
    · rename_i rest heq
      exact ⟨rest, heq⟩
    · cases h
  · simp only [isRcReleaseTag, Bool.and_eq_true, isRcTag] at h
    have h := h.2
    split at h
    · rename_i core tail heq
      have hjoin : ['-'].intercalate (List.splitOn '-' tag.toList) = tag.toList :=
        List.intercalate_splitOn '-'
      rw [heq] at hjoin
      exact ⟨_, hjoin.symm⟩
    · cases h

/-- No release tag names a feed build. -/
theorem not_feedBuildTag_of_release {tag : String} (h : isInstallReleaseTag tag = true) :
    isFeedBuildTag tag = false := by
  obtain ⟨rest, hrest⟩ := installTag_head h
  have hnone : after? "build-".toList tag.toList = none := by
    rw [hrest]
    rfl
  simp only [isFeedBuildTag, feedBuildCode, feedBuildDigits, hnone, Option.bind_none,
    Option.isSome_none]

end PanelAssistant
