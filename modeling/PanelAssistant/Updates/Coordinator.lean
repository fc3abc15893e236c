import PanelAssistant.Library.Runs
import PanelAssistant.Signed.Feed
import PanelAssistant.Updates.Offer

/-!
# The feed shared by every panel

`BuildFeedCoordinator` of `feed_coordinator.py`. A refresh authenticates a feed and verifies the
newest build of each policy, whatever panel it is for; an update entity chooses among the builds
that are newer than its panel's. Both rank by version code, and what one panel may be offered is
a set of builds that contains the newest one where it contains any, so the build of an offer is
the one that the refresh tried to verify (`feedOffer_verification`).

`parse_protocol_metadata` is left out: a fetch comes with the ranges it reads.
-/

namespace PanelAssistant

open Library Library.Ranking

/-! ## Fetching -/

/-- `replace(build, protocol_min=…, protocol_max=…)` -/
def FeedBuild.bindProtocol (ranges : Dict String (ℤ × ℤ)) (b : FeedBuild) : FeedBuild :=
  { b with
    protocolMin := (ranges.get? b.apkSha256).map Prod.fst
    protocolMax := (ranges.get? b.apkSha256).map Prod.snd }

/-- Attach authenticated ranges only to exact hashes retained in the feed. -/
def BuildFeed.bindProtocol (feed : BuildFeed) (ranges : Dict String (ℤ × ℤ)) : BuildFeed where
  channel := feed.channel
  builds := feed.builds.map (FeedBuild.bindProtocol ranges)
  codes := by
    rw [List.map_map]
    exact feed.codes

/-- The bytes of a feed with its signature verified, and the ranges of its companion. -/
structure FetchedFeed where
  body : List UInt8
  ranges : Dict String (ℤ × ℤ)

/-- `async_fetch_build_feed`, of what was read -/
def fetchBuildFeed (T : NumberTexts) (apkUrl : String → String) (fetched : FetchedFeed) :
    Option BuildFeed :=
  (parseBuildFeed T apkUrl fetched.body).map fun feed => feed.bindProtocol fetched.ranges

/-! ## Verifying -/

/-- What became of one verification. -/
inductive FeedOutcome where
  | cached
  | downloaded
  | failed
  deriving DecidableEq

/-- A build that a refresh tried to verify for a policy. -/
structure FeedVerification where
  allowPrerelease : Bool
  build : FeedBuild
  outcome : FeedOutcome

structure FeedCoordinator where
  state : FeedState
  /-- `_verified_apks` -/
  verifiedApks : Dict String (List UInt8)
  /-- What the refresh that read `data` tried to verify. -/
  tried : List FeedVerification

namespace FeedCoordinator

def fresh : FeedCoordinator := ⟨⟨true, none⟩, ∅, []⟩

/-- The bytes of the verified APK of a build of the feed. -/
def verifiedApk (c : FeedCoordinator) (b : FeedBuild) : Option (List UInt8) :=
  match c.state.data with
  | some feed =>
    if b ∈ feed.builds then
      (c.verifiedApks.get? b.apkSha256).filter fun apk => apk.length == b.apkSize
    else none
  | none => none

/-- The builds of the feed that a policy admits, for any application id. -/
def policyBuilds (feed : BuildFeed) (allowPrerelease : Bool) : List FeedBuild :=
  feed.builds.filter fun b =>
    buildAllowed b.versionName b.protocolMin b.protocolMax allowPrerelease

/-- One round of the loop over the policies. -/
def verifyNewest (feed : BuildFeed) (download : Bool → ReleaseArtifact → Option (List UInt8))
    (cached : Dict String (List UInt8)) (allowPrerelease : Bool) :
    Dict String (List UInt8) × List FeedVerification :=
  match newestFeedBuild (policyBuilds feed allowPrerelease) with
  | none => (cached, [])
  | some b =>
    if (cached.get? b.apkSha256).any fun apk => apk.length == b.apkSize then
      (cached, [⟨allowPrerelease, b, .cached⟩])
    else
      match download allowPrerelease (feedReleaseArtifact b) with
      | none => (cached, [⟨allowPrerelease, b, .failed⟩])
      | some apk => (cached.set b.apkSha256 apk, [⟨allowPrerelease, b, .downloaded⟩])

/-- `_async_update_data` and what becomes of its result. `apks` is `_verified_apks` when the feed
was fetched; other calls may have changed it since. -/
def refresh (T : NumberTexts) (apkUrl : String → String) (c : FeedCoordinator)
    (apks : Dict String (List UInt8)) (fetched : Option FetchedFeed)
    (download : Bool → ReleaseArtifact → Option (List UInt8)) : FeedCoordinator :=
  match fetched.bind (fetchBuildFeed T apkUrl) with
  | none => { c with state := ⟨false, c.state.data⟩ }
  | some feed =>
    let current := feed.builds.map (·.apkSha256)
    let cached := apks.filter fun sha256 _ => current.contains sha256
    let first := verifyNewest feed download cached false
    let second := verifyNewest feed download first.1 true
    { state := ⟨true, some feed⟩
      verifiedApks := second.1
      tried := first.2 ++ second.2 }

/-- The end of `async_verify_build`, with the APK it downloaded. -/
def verifyBuild (c : FeedCoordinator) (b : FeedBuild) (apk : List UInt8) : FeedCoordinator :=
  if c.state.data.any fun feed => decide (b ∈ feed.builds) then
    { c with verifiedApks := c.verifiedApks.set b.apkSha256 apk }
  else c

end FeedCoordinator

inductive FeedEvent where
  | refreshed (apks : Dict String (List UInt8)) (fetched : Option FetchedFeed)
      (download : Bool → ReleaseArtifact → Option (List UInt8))
  | verified (b : FeedBuild) (apk : List UInt8)

def feedStep (T : NumberTexts) (apkUrl : String → String) (c : FeedCoordinator) :
    FeedEvent → FeedCoordinator
  | .refreshed apks fetched download => c.refresh T apkUrl apks fetched download
  | .verified b apk => c.verifyBuild b apk

/-- The coordinator after the events. -/
def feedAfter (T : NumberTexts) (apkUrl : String → String) (events : List FeedEvent) :
    FeedCoordinator :=
  Runs.run (feedStep T apkUrl) .fresh events

/-! ## What a refresh tries -/

variable {T : NumberTexts} {apkUrl : String → String} {c : FeedCoordinator}

/-- A feed that is read has builds of the panel app only. -/
theorem packageId_of_parse {body : List UInt8} {feed : BuildFeed}
    (h : parseBuildFeed T apkUrl body = some feed) {b : FeedBuild} (hb : b ∈ feed.builds) :
    b.packageId = packageId := by
  unfold parseBuildFeed at h
  split at h
  · cases h
  obtain ⟨text, -, h⟩ := Option.bind_eq_some_iff.mp h
  obtain ⟨document, -, h⟩ := Option.bind_eq_some_iff.mp h
  obtain ⟨doc, -, h⟩ := Option.bind_eq_some_iff.mp h
  obtain ⟨canonical, -, h⟩ := Option.bind_eq_some_iff.mp h
  split at h
  · dsimp only at h
    split at h
    · cases h
      obtain ⟨e, -, rfl⟩ := List.mem_map.mp ((List.mem_insertionSort _).mp hb)
      rfl
    · cases h
  · cases h

theorem packageId_of_fetch {fetched : FetchedFeed} {feed : BuildFeed}
    (h : fetchBuildFeed T apkUrl fetched = some feed) {b : FeedBuild} (hb : b ∈ feed.builds) :
    b.packageId = packageId := by
  obtain ⟨parsed, hparsed, rfl⟩ := Option.map_eq_some_iff.mp h
  obtain ⟨b', hb', rfl⟩ := List.mem_map.mp hb
  have hpackage : (b'.bindProtocol fetched.ranges).packageId = b'.packageId := rfl
  exact hpackage.trans (packageId_of_parse hparsed hb')

/-- The newest build of a policy is tried for it. -/
theorem verifyNewest_tried {feed : BuildFeed}
    {download : Bool → ReleaseArtifact → Option (List UInt8)} {cached : Dict String (List UInt8)}
    {allowPrerelease : Bool} {b : FeedBuild}
    (h : newestFeedBuild (FeedCoordinator.policyBuilds feed allowPrerelease) = some b) :
    ∃ outcome, ⟨allowPrerelease, b, outcome⟩ ∈
      (FeedCoordinator.verifyNewest feed download cached allowPrerelease).2 := by
  unfold FeedCoordinator.verifyNewest
  rw [h]
  dsimp only
  split
  · exact ⟨.cached, List.mem_singleton_self _⟩
  · split
    · exact ⟨.failed, List.mem_singleton_self _⟩
    · exact ⟨.downloaded, List.mem_singleton_self _⟩

/-- What holds of the feed that a coordinator has, and of what was tried for it. -/
structure Tried (c : FeedCoordinator) : Prop where
  packages : ∀ feed, c.state.data = some feed → ∀ b ∈ feed.builds, b.packageId = packageId
  tried : ∀ feed, c.state.data = some feed → ∀ allowPrerelease b,
    newestFeedBuild (FeedCoordinator.policyBuilds feed allowPrerelease) = some b →
      ∃ outcome, ⟨allowPrerelease, b, outcome⟩ ∈ c.tried

theorem tried_step (h : Tried c) (event : FeedEvent) : Tried (feedStep T apkUrl c event) := by
  cases event with
  | refreshed apks fetched download =>
    simp only [feedStep, FeedCoordinator.refresh]
    split
    · exact ⟨h.packages, h.tried⟩
    · rename_i feed hfeed
      obtain ⟨fetched', -, hfetch⟩ := Option.bind_eq_some_iff.mp hfeed
      refine ⟨?_, ?_⟩
      · intro feed' hfeed'
        cases hfeed'
        exact fun b hb => packageId_of_fetch hfetch hb
      · intro feed' hfeed' allowPrerelease b hnewest
        cases hfeed'
        cases allowPrerelease with
        | false =>
          obtain ⟨outcome, houtcome⟩ := verifyNewest_tried hnewest
          exact ⟨outcome, List.mem_append_left _ houtcome⟩
        | true =>
          obtain ⟨outcome, houtcome⟩ := verifyNewest_tried hnewest
          exact ⟨outcome, List.mem_append_right _ houtcome⟩
  | verified b apk =>
    simp only [feedStep, FeedCoordinator.verifyBuild]
    split
    · exact ⟨h.packages, h.tried⟩
    · exact h

theorem tried_after (T : NumberTexts) (apkUrl : String → String) (events : List FeedEvent) :
    Tried (feedAfter T apkUrl events) :=
  Runs.run_inv Tried (fun _ event h => tried_step h event)
    ⟨(fun _ h => by cases h), (fun _ h => by cases h)⟩ events

/-! ## What a panel is offered -/

namespace UpdateOffer

variable {o : UpdateOffer} {health : PanelHealth} {key : VersionKey}

/-- The conditions on the build of a feed offer. -/
theorem feedOffer_eq_some {b : FeedBuild} (h : o.feedOffer health = some b) :
    b ∈ o.feedBuilds ∧ b.packageId = packageId ∧
      feedBuildNewer b.versionName (some b.versionCode.1) health.version (o.runningCode health) =
        true ∧
      o.allowed (feedReleaseArtifact b) = true := by
  have hmem := List.argmax_mem h
  simp only [List.mem_filter, Bool.and_eq_true, beq_iff_eq] at hmem
  exact ⟨hmem.1, hmem.2.1.1, hmem.2.1.2, hmem.2.2⟩

theorem feedBuildNewer_eq_true {name version : String} {code installed : Option ℕ} :
    feedBuildNewer name code version installed = true ↔
      ∃ c i, code = some c ∧ installed = some i ∧ feedBuildKey version i < feedBuildKey name c := by
  unfold feedBuildNewer
  split
  · rename_i c i
    rw [decide_eq_true_eq]
    exact ⟨fun h => ⟨c, i, rfl, rfl, h⟩, by rintro ⟨_, _, hc, hi, h⟩; cases hc; cases hi; exact h⟩
  · rename_i hnone
    refine iff_of_false (by simp) ?_
    rintro ⟨c, i, hc, hi, -⟩
    exact hnone c i hc hi

/-- A build that the policy admits and that ranks above the running one is allowed. -/
theorem allowed_feedBuild (hhealth : o.health = some health)
    (hkey : versionKey health.version = some key) {b : FeedBuild} {i : ℕ}
    (hpolicy : buildAllowed b.versionName b.protocolMin b.protocolMax o.allowPrerelease = true)
    (hcode : o.runningCode health = some i)
    (hlt : feedBuildKey health.version i < b.key) :
    o.allowed (feedReleaseArtifact b) = true := by
  have htag : isFeedBuildTag (feedReleaseArtifact b).tag = true :=
    isFeedBuildTag_feedBuildTag b.versionCode
  have hpolicy' : artifactAllowed (feedReleaseArtifact b) o.allowPrerelease = true := hpolicy
  obtain ⟨⟨candidate, hversion⟩, -⟩ := versionKey_of_buildAllowed hpolicy
  have hcandidate : versionKey (feedReleaseArtifact b).version = some candidate := hversion
  have hle : feedBuildKey health.version i ≤ feedBuildKey (feedReleaseArtifact b).version
      b.versionCode := hlt.le
  simp only [allowed, hpolicy', hhealth, Option.any_some, versionAllowed, hkey, hcandidate, htag,
    hcode, Bool.true_and]
  split
  · rfl
  · exact decide_eq_true hle

/-- The build that the feed offers a panel is the newest one that its policy admits. -/
theorem feedOffer_newest {feed : BuildFeed} (hhealth : o.health = some health)
    (hkey : versionKey health.version = some key)
    (hdata : o.feed = some ⟨true, some feed⟩)
    (hpackages : ∀ b ∈ feed.builds, b.packageId = packageId) {b : FeedBuild}
    (h : o.feedOffer health = some b) :
    newestFeedBuild (FeedCoordinator.policyBuilds feed o.allowPrerelease) = some b := by
  have hbuilds : o.feedBuilds = feed.builds := by rw [feedBuilds, hdata]
  obtain ⟨hmem, -, hnewer, hallowed⟩ := feedOffer_eq_some h
  obtain ⟨c, i, hc, hi, hlt⟩ := feedBuildNewer_eq_true.mp hnewer
  cases hc
  have hadmitted : b ∈ FeedCoordinator.policyBuilds feed o.allowPrerelease := by
    rw [FeedCoordinator.policyBuilds, List.mem_filter, ← hbuilds]
    simp only [allowed, Bool.and_eq_true] at hallowed
    exact ⟨hmem, hallowed.1⟩
  cases hnewest : newestFeedBuild (FeedCoordinator.policyBuilds feed o.allowPrerelease) with
  | none =>
    rw [newestFeedBuild, List.argmax_eq_none] at hnewest
    rw [hnewest] at hadmitted
    cases hadmitted
  | some n =>
    -- The newest build is one of those the panel may be offered, and the newest of these.
    have hn := List.argmax_mem hnewest
    simp only [FeedCoordinator.policyBuilds, List.mem_filter] at hn
    have hlt' : feedBuildKey health.version i < n.key :=
      lt_of_lt_of_le hlt (le_argmax hnewest hadmitted)
    let eligible : FeedBuild → Bool := fun b => b.packageId == packageId &&
      feedBuildNewer b.versionName (some b.versionCode.1) health.version (o.runningCode health) &&
      o.allowed (feedReleaseArtifact b)
    have hpass : eligible n = true := by
      simp only [eligible, Bool.and_eq_true, beq_iff_eq]
      exact ⟨⟨hpackages n hn.1, feedBuildNewer_eq_true.mpr ⟨_, i, rfl, hi, hlt'⟩⟩,
        allowed_feedBuild hhealth hkey hn.2 hi hlt'⟩
    have hoffer : o.feedOffer health = some n := by
      rw [← argmax_filter hnewest hpass, feedOffer, newestFeedBuild, hbuilds,
        FeedCoordinator.policyBuilds, List.filter_filter]
      congr 1
      refine List.filter_congr fun b' hb' => ?_
      cases hpolicy : buildAllowed b'.versionName b'.protocolMin b'.protocolMax
          o.allowPrerelease with
      | true => rw [Bool.and_true]
      | false =>
        have hrefused : o.allowed (feedReleaseArtifact b') = false := by
          simp only [allowed, artifactAllowed, feedReleaseArtifact, hpolicy, Bool.false_and]
        rw [hrefused, Bool.and_false, Bool.and_false]
    rw [h] at hoffer
    exact hoffer.symm

/-- The build that the feed offers a panel is one that the refresh tried to verify. -/
theorem feedOffer_verification (h : Tried c) (hfeed : o.feed = some c.state)
    (hhealth : o.health = some health) (hkey : versionKey health.version = some key) {b : FeedBuild}
    (hb : o.feedOffer health = some b) :
    ∃ outcome, ⟨o.allowPrerelease, b, outcome⟩ ∈ c.tried := by
  obtain ⟨hmem, -⟩ := feedOffer_eq_some hb
  unfold feedBuilds at hmem
  split at hmem
  · rename_i feed hdata
    rw [hfeed, Option.some.injEq] at hdata
    have hstate : c.state.data = some feed := by rw [hdata]
    refine h.tried feed hstate _ _ ?_
    exact feedOffer_newest hhealth hkey (by rw [hfeed, hdata]) (h.packages feed hstate) hb
  · cases hmem

end UpdateOffer

end PanelAssistant
