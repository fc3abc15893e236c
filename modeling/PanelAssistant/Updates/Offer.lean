import PanelAssistant.Updates.Sources

/-!
# Which build a panel is offered

`UpdateOffer` of `update_offer.py`: the newest eligible build across the signed feed and the
releases, checked against the update policy and the running build. The feed offers one build,
the newest that the policy admits, while it ranks above the installed one by code
(`feedOffer_eq`); a release is offered while it ranks above it by name (`releaseEligible_iff`).
-/

namespace PanelAssistant

open Library

/-- The first release that can be backed up and sent an app over the LAN. -/
def firstLanUpdateVersion : String := "0.8.6"

/-- What a health line says of the installed build. -/
structure PanelHealth where
  version : String
  versionCode : Option VersionCode
  package : Option String

/-- What a `BuildFeedCoordinator` holds. -/
structure FeedState where
  lastUpdateSuccess : Bool
  data : Option BuildFeed

structure UpdateOffer where
  /-- `coordinator.data` -/
  health : Option PanelHealth
  feed : Option FeedState
  release : Option ReleaseCandidates
  installedCode : Option RunningCode
  allowPrerelease : Bool

namespace UpdateOffer

variable (o : UpdateOffer)

/-- The running build's number: what the health line says, or what was read before. -/
def runningCode (health : PanelHealth) : Option ℕ :=
  (health.versionCode.map Subtype.val).or (o.installedCode.map Subtype.val)

/-- Recheck policy and prevent a post-1.0 downgrade before delivery. -/
def allowed (a : ReleaseArtifact) : Bool :=
  artifactAllowed a o.allowPrerelease &&
    o.health.any fun health =>
      versionAllowed a.version (a.descriptor.map (·.versionCode.1)) health.version
        (o.runningCode health) (isFeedBuildTag a.tag)

/-- The builds of the feed, while its last read succeeded. -/
def feedBuilds : List FeedBuild :=
  match o.feed with
  | some ⟨true, some feed⟩ => feed.builds
  | _ => []

/-- The feed's own order: the version code first, whatever the name. -/
def feedOffer (health : PanelHealth) : Option FeedBuild :=
  newestFeedBuild (o.feedBuilds.filter fun b =>
    b.packageId == packageId &&
      feedBuildNewer b.versionName (some b.versionCode.1) health.version (o.runningCode health) &&
      o.allowed (feedReleaseArtifact b))

/-- Whether a release is newer than the installed build, by name, or by code under one name. -/
def releaseNewer (health : PanelHealth) (a : ReleaseArtifact) : Bool :=
  match versionKey a.version, versionKey health.version with
  | some candidate, some installed =>
    decide (installed < candidate) ||
      (a.version == health.version &&
        match a.descriptor, o.runningCode health with
        | some d, some code => decide (code < d.versionCode)
        | _, _ => false)
  | _, _ => false

def releaseOffers (health : PanelHealth) : List ReleaseArtifact :=
  (o.release.elim [] (·.candidatesFor packageId)).filter fun a =>
    o.allowed a && o.releaseNewer health a

/-- Choose the newest eligible artifact across the authenticated sources. -/
def hostRelease : Option ReleaseArtifact :=
  match o.health with
  | none => none
  | some health =>
    if isNewerStableVersion firstLanUpdateVersion health.version then none
    else if !reportsPackage health.package packageId then none
    else if (versionKey health.version).isNone then none
    else
      (((o.feedOffer health).map feedReleaseArtifact).toList ++ o.releaseOffers health).argmax
        releaseKey

end UpdateOffer

end PanelAssistant
