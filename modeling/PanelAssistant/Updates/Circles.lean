import PanelAssistant.Updates.Offer

/-!
# Following offers

A panel that installs what it is offered reports the version and the code of the artifact.
A release that is offered ranks above the panel by name (`Followed.release`), so the releases
alone lead upwards; the feed offers one build only, the newest that the policy admits, to every
panel that ranks below it by code. A circle must therefore pass through that build, and leave
it for a release which beats it by name but not by code. Below version 1.0.0 nothing forbids
this (`RanksOpposed`); where it does not happen, every panel reaches a state without an offer.
-/

namespace PanelAssistant

open Library Library.Ranking

/-- What a panel reports of the build it runs. -/
structure PanelState where
  version : String
  versionCode : VersionCode
  deriving DecidableEq

namespace PanelState

def nameKey (s : PanelState) : VersionKey := (versionKey s.version).getD VersionKey.zero

/-- Where the panel stands in the order of releases. -/
def releaseKey (s : PanelState) : VersionKey ×ₗ ℕ := toLex (s.nameKey, s.versionCode)

/-- Where the panel stands in the order of the feed. -/
def feedKey (s : PanelState) : ℕ ×ₗ VersionKey := feedBuildKey s.version s.versionCode

end PanelState

/-- What a panel reports once it has installed an artifact. -/
def ReleaseArtifact.installed (a : ReleaseArtifact) : Option PanelState :=
  a.descriptor.map fun d => ⟨a.version, d.versionCode⟩

def FeedBuild.state (b : FeedBuild) : PanelState := ⟨b.versionName, b.versionCode⟩

namespace UpdateOffer

variable (o : UpdateOffer)

/-- The offer to a panel that reports this state. -/
def reporting (s : PanelState) : UpdateOffer :=
  { o with health := some ⟨s.version, some s.versionCode, some packageId⟩ }

/-- A panel that reports its code runs that code. -/
@[simp] theorem runningCode_some (version : String) (code : VersionCode) (package : Option String) :
    o.runningCode ⟨version, some code, package⟩ = some code.1 := rfl

/-- The state after the offered update, if there is one. -/
def follow (s : PanelState) : Option PanelState :=
  (o.reporting s).hostRelease.bind ReleaseArtifact.installed

/-- The state after so many offered updates. -/
def followMany : ℕ → PanelState → Option PanelState
  | 0, s => some s
  | k + 1, s => (o.follow s).bind (followMany k)

/-- Following offers never leads back, and ends in a state without an offer. -/
structure NeverCircles : Prop where
  acyclic : ∀ s : PanelState, isValidPanelVersion s.version = true →
    ∀ k, 0 < k → o.followMany k s ≠ some s
  ends : ∀ s : PanelState, isValidPanelVersion s.version = true →
    ∃ k t, o.followMany k s = some t ∧ (o.reporting t).hostRelease = none

/-- From version 1.0.0 on, no offer is older both by name and by code. -/
def NeverOlder : Prop :=
  ∀ (s : PanelState) (key : VersionKey) (a : ReleaseArtifact), versionKey s.version = some key →
    ¬ key.core < firstGuarded → (o.reporting s).hostRelease = some a →
    ¬ ((versionKey a.version).getD VersionKey.zero < key ∧ a.versionCode < s.versionCode)

/-- The newest build the policy admits from the feed. -/
def newestBuild : Option FeedBuild :=
  newestFeedBuild (admittedBuilds o.feedBuilds packageId o.allowPrerelease)

/-- The newest release the policy admits. -/
def newestRelease : Option ReleaseArtifact :=
  o.release.bind fun c => c.artifactFor packageId o.allowPrerelease

/-- The newest feed build is offered updates, from before 1.0.0, and the newest release is newer
than it by name but older by code. -/
def RanksOpposed : Prop :=
  ∃ b r key, o.newestBuild = some b ∧ o.newestRelease = some r ∧
    versionKey b.versionName = some key ∧
    isNewerStableVersion firstLanUpdateVersion b.versionName = false ∧
    key.core < firstGuarded ∧
    key < (versionKey r.version).getD VersionKey.zero ∧ r.versionCode < b.versionCode

/-! ## What is offered -/

/-- The releases the policy admits. -/
def admittedReleases : List ReleaseArtifact :=
  (o.release.elim [] (·.candidatesFor packageId)).filter fun a =>
    artifactAllowed a o.allowPrerelease

variable {o}

theorem newestRelease_eq :
    o.newestRelease = o.admittedReleases.argmax PanelAssistant.releaseKey := by
  simp only [newestRelease, admittedReleases]
  cases o.release <;> rfl

theorem mem_admittedReleases {a : ReleaseArtifact} (h : a ∈ o.admittedReleases) :
    artifactAllowed a o.allowPrerelease = true ∧ isFeedBuildTag a.tag = false ∧
      ∃ d, a.descriptor = some d := by
  simp only [admittedReleases, List.mem_filter] at h
  obtain ⟨hmem, hallowed⟩ := h
  cases hrelease : o.release with
  | none => simp [hrelease] at hmem
  | some c =>
    simp only [hrelease, Option.elim_some, ReleaseCandidates.candidatesFor, List.mem_filter] at hmem
    exact ⟨hallowed, not_feedBuildTag_of_release (c.tags a hmem.1),
      Option.isSome_iff_exists.mp (c.descriptors a hmem.1)⟩

theorem lt_of_releaseNewer {s : PanelState} {a : ReleaseArtifact}
    (h : (o.reporting s).releaseNewer ⟨s.version, some s.versionCode, some packageId⟩ a = true) :
    s.nameKey < (versionKey a.version).getD VersionKey.zero ∨
      a.version = s.version ∧ (s.versionCode : ℕ) < a.versionCode := by
  unfold releaseNewer at h
  split at h
  · rename_i candidate installed hcandidate hinstalled
    simp only [Bool.or_eq_true, decide_eq_true_eq, Bool.and_eq_true, beq_iff_eq] at h
    rcases h with h | ⟨hname, hcode⟩
    · refine Or.inl ?_
      simpa only [PanelState.nameKey, hcandidate, hinstalled, Option.getD_some] using h
    · refine Or.inr ⟨hname, ?_⟩
      split at hcode
      · rename_i d code hd hinstalledCode
        simp only [runningCode_some, Option.some.injEq] at hinstalledCode
        subst hinstalledCode
        simp only [ReleaseArtifact.versionCode, hd, Option.elim_some]
        exact of_decide_eq_true hcode
      · cases hcode
  · cases h

/-- The releases offered to a panel: admitted ones that are newer, and none that is older in
either order once it runs 1.0.0. -/
structure Offered (o : UpdateOffer) (s : PanelState) (a : ReleaseArtifact) : Prop where
  admitted : a ∈ o.admittedReleases
  newer : s.nameKey < (versionKey a.version).getD VersionKey.zero ∨
    a.version = s.version ∧ (s.versionCode : ℕ) < a.versionCode
  guarded : s.nameKey.core < firstGuarded ∨
    s.nameKey ≤ (versionKey a.version).getD VersionKey.zero ∧ (s.versionCode : ℕ) ≤ a.versionCode

theorem mem_releaseOffers {s : PanelState} {key : VersionKey} {a : ReleaseArtifact}
    (hkey : versionKey s.version = some key) :
    a ∈ (o.reporting s).releaseOffers ⟨s.version, some s.versionCode, some packageId⟩ ↔
      Offered o s a := by
  have hname : s.nameKey = key := by simp [PanelState.nameKey, hkey]
  have hadmitted : a ∈ o.admittedReleases ↔
      a ∈ o.release.elim [] (·.candidatesFor packageId) ∧
        artifactAllowed a o.allowPrerelease = true := by
    rw [admittedReleases, List.mem_filter]
  have hcandidate : a ∈ (o.reporting s).release.elim [] (·.candidatesFor packageId) ↔
      a ∈ o.release.elim [] (·.candidatesFor packageId) := Iff.rfl
  rw [releaseOffers, List.mem_filter, hcandidate]
  constructor
  · rintro ⟨hmem, hoffered⟩
    simp only [Bool.and_eq_true] at hoffered
    obtain ⟨hallowed, hnewer⟩ := hoffered
    simp only [allowed, Bool.and_eq_true] at hallowed
    obtain ⟨hpolicy, hguard⟩ := hallowed
    have ha : a ∈ o.admittedReleases := hadmitted.mpr ⟨hmem, hpolicy⟩
    obtain ⟨-, htag, d, hd⟩ := mem_admittedReleases ha
    refine ⟨ha, lt_of_releaseNewer hnewer, ?_⟩
    simp only [reporting, Option.any_some, versionAllowed, hkey, htag, hd, Option.map_some,
      runningCode_some] at hguard
    split at hguard
    · rename_i candidate hinstalled hcandidateKey
      obtain rfl := Option.some.inj hinstalled
      split at hguard
      · rename_i hlow
        exact Or.inl (hname ▸ hlow)
      · simp only [versionNotOlder, hkey, hcandidateKey, Bool.and_eq_true, decide_eq_true_eq]
          at hguard
        refine Or.inr ⟨?_, ?_⟩
        · rw [hname, hcandidateKey]
          exact hguard.1
        · simp only [ReleaseArtifact.versionCode, hd, Option.elim_some]
          exact hguard.2
    · cases hguard
  · intro h
    obtain ⟨hpolicy, htag, d, hd⟩ := mem_admittedReleases h.admitted
    obtain ⟨⟨candidate, hcandidateKey⟩, -⟩ := versionKey_of_buildAllowed hpolicy
    have hcode : a.versionCode = d.versionCode := by simp [ReleaseArtifact.versionCode, hd]
    refine ⟨(hadmitted.mp h.admitted).1, ?_⟩
    simp only [Bool.and_eq_true, allowed]
    refine ⟨⟨hpolicy, ?_⟩, ?_⟩
    · simp only [reporting, Option.any_some, versionAllowed, hkey, htag, hd, Option.map_some,
        runningCode_some, hcandidateKey]
      have hguarded := h.guarded
      rw [hname, hcandidateKey, hcode] at hguarded
      split
      · rfl
      · rename_i hhigh
        simp only [versionNotOlder, hkey, hcandidateKey, Bool.and_eq_true, decide_eq_true_eq]
        exact hguarded.resolve_left hhigh
    · have hnewer := h.newer
      rw [hname, hcandidateKey, hcode] at hnewer
      simp only [releaseNewer, hcandidateKey, hkey, Bool.or_eq_true, decide_eq_true_eq,
        Bool.and_eq_true, beq_iff_eq, hd, reporting, runningCode_some]
      exact hnewer

theorem feedBuild_eligible {s : PanelState} {key : VersionKey}
    (hkey : versionKey s.version = some key) (b : FeedBuild) :
    (b.packageId == packageId &&
        feedBuildNewer b.versionName (some b.versionCode.1) s.version
          ((o.reporting s).runningCode ⟨s.version, some s.versionCode, some packageId⟩) &&
        (o.reporting s).allowed (feedReleaseArtifact b)) =
      ((b.packageId == packageId &&
          buildAllowed b.versionName b.protocolMin b.protocolMax o.allowPrerelease) &&
        decide (s.feedKey < b.key)) := by
  have htag : isFeedBuildTag (feedReleaseArtifact b).tag = true :=
    isFeedBuildTag_feedBuildTag b.versionCode
  simp only [feedBuildNewer, runningCode_some]
  by_cases hnewer : s.feedKey < b.key
  · have hallowed : (o.reporting s).allowed (feedReleaseArtifact b) =
        buildAllowed b.versionName b.protocolMin b.protocolMax o.allowPrerelease := by
      cases hpolicy : buildAllowed b.versionName b.protocolMin b.protocolMax o.allowPrerelease with
      | false => simp [allowed, artifactAllowed, feedReleaseArtifact, reporting, hpolicy]
      | true =>
        obtain ⟨⟨candidate, hcandidate⟩, -⟩ := versionKey_of_buildAllowed hpolicy
        have hversion : versionKey (feedReleaseArtifact b).version = some candidate := hcandidate
        have hpolicy' : artifactAllowed (feedReleaseArtifact b) o.allowPrerelease = true := hpolicy
        have hle : feedBuildKey s.version s.versionCode ≤
            feedBuildKey (feedReleaseArtifact b).version b.versionCode := hnewer.le
        simp only [allowed, reporting, hpolicy', Option.any_some, versionAllowed,
          hkey, hversion, htag, runningCode_some, Bool.true_and]
        split
        · rfl
        · exact decide_eq_true hle
    have hlt : feedBuildKey s.version s.versionCode < feedBuildKey b.versionName b.versionCode :=
      hnewer
    simp [hallowed, hnewer, hlt]
  · have hlt : ¬ feedBuildKey s.version s.versionCode < feedBuildKey b.versionName b.versionCode :=
      hnewer
    simp [hnewer, hlt]

/-- The feed offers its newest admitted build to every panel that ranks below it. -/
theorem feedOffer_eq {s : PanelState} {key : VersionKey}
    (hkey : versionKey s.version = some key) :
    (o.reporting s).feedOffer ⟨s.version, some s.versionCode, some packageId⟩ =
      o.newestBuild.filter fun b => decide (s.feedKey < b.key) := by
  have hfilter : (o.reporting s).feedOffer ⟨s.version, some s.versionCode, some packageId⟩ =
      newestFeedBuild ((admittedBuilds o.feedBuilds packageId o.allowPrerelease).filter fun b =>
        decide (s.feedKey < b.key)) := by
    rw [feedOffer, admittedBuilds, List.filter_filter]
    refine congrArg newestFeedBuild (List.filter_congr fun b _ => ?_)
    rw [Bool.and_comm (decide _)]
    exact feedBuild_eligible hkey b
  rw [hfilter]
  cases hnewest : o.newestBuild with
  | none =>
    have hempty : admittedBuilds o.feedBuilds packageId o.allowPrerelease = [] :=
      List.argmax_eq_none.mp hnewest
    rw [hempty]
    rfl
  | some b =>
    rw [Option.filter_some]
    by_cases hlt : s.feedKey < b.key
    · rw [if_pos (decide_eq_true hlt)]
      exact argmax_filter hnewest (decide_eq_true hlt)
    · rw [if_neg (by simpa using hlt)]
      have hempty : ((admittedBuilds o.feedBuilds packageId o.allowPrerelease).filter fun b =>
          decide (s.feedKey < b.key)) = [] := by
        rw [List.filter_eq_nil_iff]
        intro b' hb'
        rw [decide_eq_true_eq, not_lt]
        exact (le_argmax hnewest hb').trans (not_lt.mp hlt)
      rw [hempty]
      rfl

/-! ## What a panel becomes -/

theorem mem_newestBuild {b : FeedBuild} (h : o.newestBuild = some b) :
    b.packageId = packageId ∧
      buildAllowed b.versionName b.protocolMin b.protocolMax o.allowPrerelease = true := by
  have hmem := List.argmax_mem h
  simp only [admittedBuilds, List.mem_filter, Bool.and_eq_true, beq_iff_eq] at hmem
  exact hmem.2

/-- Where a panel goes: to the feed's one build, or to a release that is offered. -/
inductive Followed (o : UpdateOffer) (s : PanelState) : PanelState → Prop
  | feed (b : FeedBuild) (hb : o.newestBuild = some b) (hnewer : s.feedKey < b.key) :
    Followed o s b.state
  | release (a : ReleaseArtifact) (d : InstallDescriptor) (ha : Offered o s a)
      (hd : a.descriptor = some d) : Followed o s ⟨a.version, d.versionCode⟩

/-- A panel that is offered something. -/
structure Reachable (s : PanelState) : Prop where
  lan : isNewerStableVersion firstLanUpdateVersion s.version = false
  key : ∃ key, versionKey s.version = some key

theorem hostRelease_eq {s : PanelState} (h : Reachable s) :
    (o.reporting s).hostRelease =
      (((o.newestBuild.filter fun b => decide (s.feedKey < b.key)).map
        feedReleaseArtifact).toList ++
        (o.reporting s).releaseOffers ⟨s.version, some s.versionCode, some packageId⟩).argmax
        PanelAssistant.releaseKey := by
  obtain ⟨hlan, key, hkey⟩ := h
  rw [← feedOffer_eq hkey]
  simp only [hostRelease, reporting, hlan, hkey, reportsPackage]
  simp

theorem reachable_of_offer {s : PanelState} {a : ReleaseArtifact}
    (h : (o.reporting s).hostRelease = some a) : Reachable s := by
  simp only [hostRelease, reporting] at h
  split at h
  · cases h
  · rename_i hlan
    split at h
    · cases h
    · split at h
      · cases h
      · rename_i hkey
        refine ⟨by simpa using hlan, ?_⟩
        cases hversion : versionKey s.version with
        | none => simp [hversion] at hkey
        | some key => exact ⟨key, rfl⟩

/-- What is offered, and that nothing offered ranks above it by name. -/
theorem hostRelease_eq_some {s : PanelState} {a : ReleaseArtifact}
    (h : (o.reporting s).hostRelease = some a) :
    ((∃ b, o.newestBuild = some b ∧ s.feedKey < b.key ∧ a = feedReleaseArtifact b) ∨
      Offered o s a) ∧
      ∀ a', Offered o s a' → PanelAssistant.releaseKey a' ≤ PanelAssistant.releaseKey a := by
  obtain ⟨key, hkey⟩ := (reachable_of_offer h).key
  rw [hostRelease_eq (reachable_of_offer h)] at h
  refine ⟨?_, fun a' ha' => ?_⟩
  · rcases List.mem_append.mp (List.argmax_mem h) with hfeed | hrelease
    · rw [Option.mem_toList, Option.map_eq_some_iff] at hfeed
      obtain ⟨b, hb, rfl⟩ := hfeed
      rw [Option.filter_eq_some_iff, decide_eq_true_eq] at hb
      exact Or.inl ⟨b, hb.1, hb.2, rfl⟩
    · exact Or.inr ((mem_releaseOffers hkey).mp hrelease)
  · exact le_argmax h (List.mem_append_right _ ((mem_releaseOffers hkey).mpr ha'))

theorem follow_eq_some {s t : PanelState} (h : o.follow s = some t) :
    Followed o s t ∧ Reachable s := by
  rw [follow, Option.bind_eq_some_iff] at h
  obtain ⟨a, ha, hinstalled⟩ := h
  refine ⟨?_, reachable_of_offer ha⟩
  rcases (hostRelease_eq_some ha).1 with ⟨b, hb, hnewer, rfl⟩ | hoffered
  · obtain rfl := Option.some.inj hinstalled
    exact .feed b hb hnewer
  · obtain ⟨-, -, d, hd⟩ := mem_admittedReleases hoffered.admitted
    simp only [ReleaseArtifact.installed, hd, Option.map_some, Option.some.injEq] at hinstalled
    subst hinstalled
    exact .release a d hoffered hd

theorem follow_eq_none {s : PanelState} (h : o.follow s = none) :
    (o.reporting s).hostRelease = none := by
  rw [follow, Option.bind_eq_none_iff] at h
  by_contra hsome
  obtain ⟨a, ha⟩ := Option.ne_none_iff_exists'.mp hsome
  have hnone := h a ha
  rcases (hostRelease_eq_some ha).1 with ⟨b, -, -, rfl⟩ | hoffered
  · cases hnone
  · obtain ⟨-, -, d, hd⟩ := mem_admittedReleases hoffered.admitted
    simp [ReleaseArtifact.installed, hd] at hnone

/-! ## Following upwards -/

theorem releaseKey_installed {a : ReleaseArtifact} {d : InstallDescriptor}
    (hd : a.descriptor = some d) :
    (PanelState.mk a.version d.versionCode).releaseKey = PanelAssistant.releaseKey a := by
  simp [PanelState.releaseKey, PanelState.nameKey, PanelAssistant.releaseKey,
    ReleaseArtifact.versionCode, hd]

/-- A release that is offered ranks above the panel. -/
theorem Offered.lt {s : PanelState} {a : ReleaseArtifact} (h : Offered o s a) :
    s.releaseKey < PanelAssistant.releaseKey a := by
  rw [PanelState.releaseKey, PanelAssistant.releaseKey, Prod.Lex.toLex_lt_toLex]
  rcases h.newer with hname | ⟨hname, hcode⟩
  · exact Or.inl hname
  · exact Or.inr ⟨by rw [PanelState.nameKey, hname], hcode⟩

/-- The admitted releases that rank above a panel. -/
def above (o : UpdateOffer) (s : PanelState) : ℕ :=
  (o.admittedReleases.filter fun a => decide (s.releaseKey < PanelAssistant.releaseKey a)).length

theorem Offered.above_lt {s : PanelState} {a : ReleaseArtifact} {d : InstallDescriptor}
    (h : Offered o s a) (hd : a.descriptor = some d) :
    o.above ⟨a.version, d.versionCode⟩ < o.above s := by
  have hkey := releaseKey_installed hd
  unfold above
  rw [hkey]
  have hsub : (o.admittedReleases.filter fun a' =>
        decide (PanelAssistant.releaseKey a < PanelAssistant.releaseKey a')) =
      (o.admittedReleases.filter fun a' =>
        decide (s.releaseKey < PanelAssistant.releaseKey a')).filter
        fun a' => decide (PanelAssistant.releaseKey a < PanelAssistant.releaseKey a') := by
    rw [List.filter_filter]
    refine List.filter_congr fun a' _ => ?_
    rw [← Bool.decide_and, decide_eq_decide]
    exact ⟨fun hlt => ⟨hlt, h.lt.trans hlt⟩, And.left⟩
  rw [hsub, List.length_filter_lt_length_iff_exists]
  exact ⟨a, List.mem_filter.mpr ⟨h.admitted, decide_eq_true h.lt⟩, by simp⟩

/-- Following offers ends in a state without an offer. -/
def Settles (o : UpdateOffer) (s : PanelState) : Prop :=
  ∃ k t, o.followMany k s = some t ∧ (o.reporting t).hostRelease = none

theorem settles_of_follow {s : PanelState} (h : ∀ t, o.follow s = some t → Settles o t) :
    Settles o s := by
  cases hfollow : o.follow s with
  | none => exact ⟨0, s, rfl, follow_eq_none hfollow⟩
  | some t =>
    obtain ⟨k, u, hk, hu⟩ := h t hfollow
    exact ⟨k + 1, u, by rw [followMany, hfollow]; exact hk, hu⟩

theorem nameKey_state {b : FeedBuild} {key : VersionKey} (h : versionKey b.versionName = some key) :
    b.state.nameKey = key := by
  simp [PanelState.nameKey, FeedBuild.state, h]

/-- Once the guard is on, nothing leads from above the feed's build back to it. -/
theorem settles_of_above {b : FeedBuild} (hb : o.newestBuild = some b)
    (hguard : ¬ b.state.nameKey.core < firstGuarded) :
    ∀ n (s : PanelState), o.above s = n → b.state.nameKey ≤ s.nameKey →
      (b.versionCode : ℕ) ≤ s.versionCode → Settles o s := by
  intro n
  induction n using Nat.strong_induction_on with
  | _ n ih =>
    intro s hn hname hcode
    refine settles_of_follow fun t ht => ?_
    obtain ⟨hfollowed, -⟩ := follow_eq_some ht
    cases hfollowed with
    | feed b' hb' hnewer =>
      obtain rfl := Option.some.inj (hb.symm.trans hb')
      have hle : b.key ≤ s.feedKey := by
        rw [PanelState.feedKey, FeedBuild.key, feedBuildKey, feedBuildKey, Prod.Lex.toLex_le_toLex]
        rcases hcode.lt_or_eq with hlt | heq
        · exact Or.inl hlt
        · exact Or.inr ⟨heq, hname⟩
      exact absurd hnewer (not_lt.mpr hle)
    | release a d ha hd =>
      have hcore : ¬ s.nameKey.core < firstGuarded :=
        fun hlow => hguard ((VersionKey.core_mono hname).trans_lt hlow)
      obtain ⟨hname', hcode'⟩ := ha.guarded.resolve_left hcore
      refine ih _ (hn ▸ ha.above_lt hd) _ rfl (hname.trans hname') ?_
      simp only [ReleaseArtifact.versionCode, hd, Option.elim_some] at hcode'
      exact hcode.trans hcode'

/-- What is offered at a state ranks no higher at the state it leads to, so nothing follows. -/
theorem not_offered_twice {s : PanelState} {a a' : ReleaseArtifact} {d : InstallDescriptor}
    (hlow : s.nameKey.core < firstGuarded) (ha : Offered o s a) (hd : a.descriptor = some d)
    (hmax : ∀ a', Offered o s a' → PanelAssistant.releaseKey a' ≤ PanelAssistant.releaseKey a) :
    ¬ Offered o ⟨a.version, d.versionCode⟩ a' := by
  intro ha'
  have hcode : a.versionCode = d.versionCode := by simp [ReleaseArtifact.versionCode, hd]
  have hlt := ha'.lt
  rw [releaseKey_installed hd] at hlt
  refine absurd (hmax a' ⟨ha'.admitted, ?_, Or.inl hlow⟩) (not_le.mpr hlt)
  have hnewer := ha'.newer
  rcases ha.newer with hname | ⟨hname, hcodes⟩
  · rcases hnewer with hname' | ⟨hname', -⟩
    · exact Or.inl (hname.trans hname')
    · exact Or.inl (hname'.symm ▸ hname)
  · rcases hnewer with hname' | ⟨hname', hcodes'⟩
    · refine Or.inl ?_
      simpa only [PanelState.nameKey, ← hname] using hname'
    · exact Or.inr ⟨hname'.trans hname, hcodes.trans (hcode ▸ hcodes')⟩

/-- Below the guard, the feed's build is left for the newest release at most, and that is where
the panel stays unless the two rank in opposite orders. -/
theorem settles_below {b : FeedBuild} (hb : o.newestBuild = some b)
    (hguard : b.state.nameKey.core < firstGuarded) (hopposed : ¬ o.RanksOpposed) :
    Settles o b.state := by
  obtain ⟨key, hkey⟩ := (versionKey_of_buildAllowed (mem_newestBuild hb).2).1
  have hname : b.state.nameKey = key := nameKey_state hkey
  refine settles_of_follow fun t ht => ?_
  rw [follow, Option.bind_eq_some_iff] at ht
  obtain ⟨a, ha, hinstalled⟩ := ht
  have hlan := (reachable_of_offer ha).lan
  obtain ⟨hfrom, hmax⟩ := hostRelease_eq_some ha
  rcases hfrom with ⟨b', hb', hnewer, -⟩ | hoffered
  · obtain rfl := Option.some.inj (hb.symm.trans hb')
    exact absurd hnewer (lt_irrefl _)
  · obtain ⟨-, -, d, hd⟩ := mem_admittedReleases hoffered.admitted
    simp only [ReleaseArtifact.installed, hd, Option.map_some, Option.some.injEq] at hinstalled
    subst hinstalled
    have hcode : a.versionCode = d.versionCode := by simp [ReleaseArtifact.versionCode, hd]
    refine settles_of_follow fun u hu => ?_
    obtain ⟨hfollowed, -⟩ := follow_eq_some hu
    exfalso
    cases hfollowed with
    | release a' d' ha' hd' => exact not_offered_twice hguard hoffered hd hmax ha'
    | feed b' hb' hnewer =>
      obtain rfl := Option.some.inj (hb.symm.trans hb')
      -- The release beats the build by name, the build beats the release by code.
      have hback : d.versionCode < b.versionCode ∧
        key < (versionKey a.version).getD VersionKey.zero := by
        rw [PanelState.feedKey, FeedBuild.key, feedBuildKey, feedBuildKey,
          Prod.Lex.toLex_lt_toLex] at hnewer
        simp only [hkey, Option.getD_some] at hnewer
        have hup := hoffered.newer
        rw [hname, hcode] at hup
        rcases hnewer with hless | ⟨hsame, hless⟩
        · refine ⟨hless, hup.resolve_right fun h => absurd h.2 (not_lt.mpr hless.le)⟩
        · rcases hup with hup | ⟨-, hup⟩
          · exact absurd (hless.trans hup) (lt_irrefl _)
          · exact absurd hup (by rw [hsame]; exact lt_irrefl _)
      obtain ⟨r, hr⟩ : ∃ r, o.admittedReleases.argmax PanelAssistant.releaseKey = some r :=
        Option.ne_none_iff_exists'.mp fun hnone =>
          List.not_mem_nil (List.argmax_eq_none.mp hnone ▸ hoffered.admitted)
      have hrmax := le_argmax hr hoffered.admitted
      have hrname : key < (versionKey r.version).getD VersionKey.zero := by
        rw [PanelAssistant.releaseKey, PanelAssistant.releaseKey, Prod.Lex.toLex_le_toLex] at hrmax
        rcases hrmax with hlt | ⟨heq, -⟩
        · exact hback.2.trans hlt
        · exact hback.2.trans_eq heq
      have hroffered : Offered o b.state r :=
        ⟨List.argmax_mem hr, Or.inl (hname ▸ hrname), Or.inl hguard⟩
      have hsame : PanelAssistant.releaseKey r = PanelAssistant.releaseKey a :=
        le_antisymm (hmax r hroffered) hrmax
      have hrcode : r.versionCode = a.versionCode := congrArg (fun k => (ofLex k).2) hsame
      refine hopposed ⟨b, r, key, hb, newestRelease_eq.trans hr, hkey, hlan,
        hname ▸ hguard, hrname, ?_⟩
      rw [hrcode, hcode]
      exact hback.1

/-- Unless the ranks are opposed, every panel comes to rest. -/
theorem settles_of_not_opposed (hopposed : ¬ o.RanksOpposed) (s : PanelState) : Settles o s := by
  generalize hn : o.above s = n
  induction n using Nat.strong_induction_on generalizing s with
  | _ n ih =>
    refine settles_of_follow fun t ht => ?_
    obtain ⟨hfollowed, -⟩ := follow_eq_some ht
    cases hfollowed with
    | feed b hb _ =>
      by_cases hguard : b.state.nameKey.core < firstGuarded
      · exact settles_below hb hguard hopposed
      · exact settles_of_above hb hguard _ b.state rfl le_rfl le_rfl
    | release a d ha hd => exact ih _ (hn ▸ ha.above_lt hd) _ rfl

theorem followMany_add (o : UpdateOffer) (j k : ℕ) (s : PanelState) :
    o.followMany (j + k) s = (o.followMany j s).bind (o.followMany k) := by
  induction j generalizing s with
  | zero => simp [followMany]
  | succ j ih =>
    rw [Nat.succ_add, followMany, followMany]
    cases o.follow s with
    | none => rfl
    | some t => exact ih t

/-- A panel that comes to rest was on no circle. -/
theorem acyclic_of_settles {s : PanelState} (h : Settles o s) {k : ℕ} (hk : 0 < k) :
    o.followMany k s ≠ some s := by
  intro hcircle
  have hround : ∀ n, o.followMany (n * k) s = some s := by
    intro n
    induction n with
    | zero => simp [followMany]
    | succ n ih => rw [Nat.succ_mul, followMany_add, ih, Option.bind_some, hcircle]
  obtain ⟨j, t, hj, hrest⟩ := h
  have hpast : o.followMany (j + 1) s = none := by
    rw [followMany_add, hj, Option.bind_some, followMany, follow, hrest]
    rfl
  obtain ⟨rest, hlate⟩ : ∃ rest, (j + 1) * k = j + 1 + rest :=
    ⟨(j + 1) * k - (j + 1), by have := Nat.le_mul_of_pos_right (j + 1) hk; omega⟩
  have hend := hround (j + 1)
  rw [hlate, followMany_add, hpast] at hend
  cases hend

/-! ## The circle -/

theorem follow_of_feed {s : PanelState} {b : FeedBuild} (hs : Reachable s)
    (hb : o.newestBuild = some b) (hnewer : s.feedKey < b.key)
    (hnone : ∀ a, ¬ Offered o s a) : o.follow s = some b.state := by
  obtain ⟨key, hkey⟩ := hs.key
  have hempty : (o.reporting s).releaseOffers ⟨s.version, some s.versionCode,
    some packageId⟩ = [] :=
    List.eq_nil_iff_forall_not_mem.mpr fun a ha => hnone a ((mem_releaseOffers hkey).mp ha)
  rw [follow, hostRelease_eq hs, hempty, hb, Option.filter_some, if_pos (decide_eq_true hnewer)]
  rfl

theorem follow_of_release {s : PanelState} {r : ReleaseArtifact} {d : InstallDescriptor}
    (hs : Reachable s) (hr : o.newestRelease = some r) (hd : r.descriptor = some d)
    (hoffered : Offered o s r) (hnone : ∀ b, o.newestBuild = some b → ¬ s.feedKey < b.key) :
    o.follow s = some ⟨r.version, d.versionCode⟩ := by
  obtain ⟨key, hkey⟩ := hs.key
  have hfeed : (o.newestBuild.filter fun b => decide (s.feedKey < b.key)) = none := by
    rw [Option.filter_eq_none_iff]
    intro b hb
    simpa using hnone b hb
  have hchosen : ((o.reporting s).releaseOffers
      ⟨s.version, some s.versionCode, some packageId⟩).argmax PanelAssistant.releaseKey =
        some r := by
    have hoffers : (o.reporting s).releaseOffers ⟨s.version, some s.versionCode, some packageId⟩ =
        o.admittedReleases.filter fun a => (o.reporting s).allowed a &&
          (o.reporting s).releaseNewer ⟨s.version, some s.versionCode, some packageId⟩ a := by
      rw [releaseOffers, admittedReleases, List.filter_filter]
      refine List.filter_congr fun a _ => ?_
      cases hallowed : artifactAllowed a o.allowPrerelease with
      | true => rw [Bool.and_true]
      | false =>
        have hrefused : (o.reporting s).allowed a = false := by
          simp [allowed, reporting, hallowed]
        rw [hrefused]
        rfl
    have hmem := (mem_releaseOffers hkey).mpr hoffered
    rw [hoffers, List.mem_filter] at hmem
    rw [hoffers]
    exact argmax_filter (newestRelease_eq.symm.trans hr) hmem.2
  rw [follow, hostRelease_eq hs, hfeed]
  simp [hchosen, ReleaseArtifact.installed, hd]

/-- Opposed ranks lead from the feed's build to the newest release and back. -/
theorem circle_of_opposed (h : o.RanksOpposed) :
    ∃ s : PanelState, isValidPanelVersion s.version = true ∧ o.followMany 2 s = some s := by
  obtain ⟨b, r, key, hb, hr, hkey, hlan, hguard, hname, hcode⟩ := h
  have hadmitted : r ∈ o.admittedReleases := List.argmax_mem (newestRelease_eq.symm.trans hr)
  obtain ⟨hpolicy, -, d, hd⟩ := mem_admittedReleases hadmitted
  obtain ⟨⟨rkey, hrkey⟩, -⟩ := versionKey_of_buildAllowed hpolicy
  have hrcode : r.versionCode = d.versionCode := by simp [ReleaseArtifact.versionCode, hd]
  have hbname := nameKey_state hkey
  rw [hrkey, Option.getD_some] at hname
  have hout : o.follow b.state = some ⟨r.version, d.versionCode⟩ := by
    refine follow_of_release ⟨hlan, key, hkey⟩ hr hd ⟨hadmitted, Or.inl ?_,
      Or.inl ?_⟩ fun b' hb' => ?_
    · rwa [hbname, hrkey]
    · rwa [hbname]
    · obtain rfl := Option.some.inj (hb.symm.trans hb')
      exact lt_irrefl _
  have hback : o.follow ⟨r.version, d.versionCode⟩ = some b.state := by
    refine follow_of_feed ⟨?_, rkey, hrkey⟩ hb ?_ fun a ha => ?_
    · simp only [isNewerStableVersion, hkey, hrkey] at hlan ⊢
      cases hfirst : versionKey firstLanUpdateVersion with
      | none => rfl
      | some first =>
        simp only [hfirst, Bool.and_eq_false_iff, decide_eq_false_iff_not, not_lt] at hlan ⊢
        exact hlan.imp_right fun hle => hle.trans hname.le
    · rw [PanelState.feedKey, FeedBuild.key, feedBuildKey, feedBuildKey, Prod.Lex.toLex_lt_toLex]
      exact Or.inl (hrcode ▸ hcode)
    · have hlt := ha.lt
      rw [releaseKey_installed hd] at hlt
      exact absurd (le_argmax (newestRelease_eq.symm.trans hr) ha.admitted) (not_le.mpr hlt)
  refine ⟨b.state, (versionKey_of_buildAllowed (mem_newestBuild hb).2).2, ?_⟩
  rw [followMany, hout, Option.bind_some, followMany, hback]
  rfl

theorem neverOlder (o : UpdateOffer) : o.NeverOlder := by
  rintro s key a hkey hguard ha ⟨-, hcode⟩
  have hname : s.nameKey = key := by simp [PanelState.nameKey, hkey]
  rcases (hostRelease_eq_some ha).1 with ⟨b, -, hnewer, rfl⟩ | hoffered
  · rw [PanelState.feedKey, FeedBuild.key, feedBuildKey, feedBuildKey,
      Prod.Lex.toLex_lt_toLex] at hnewer
    have hbcode : (feedReleaseArtifact b).versionCode = b.versionCode := rfl
    rw [hbcode] at hcode
    rcases hnewer with hlt | ⟨heq, -⟩
    · exact absurd hcode (not_lt.mpr hlt.le)
    · exact absurd hcode (not_lt.mpr heq.le)
  · have hle := (hoffered.guarded.resolve_left (hname ▸ hguard)).2
    exact absurd hcode (not_lt.mpr hle)

/-- Update offers never go in circles, and never go back from 1.0.0 on, exactly unless the
newest feed build and the newest release rank in opposite orders below 1.0.0. -/
theorem never_circles_iff (o : UpdateOffer) :
    o.NeverCircles ∧ o.NeverOlder ↔ ¬ o.RanksOpposed := by
  constructor
  · rintro ⟨hnever, -⟩ hopposed
    obtain ⟨s, hvalid, hcircle⟩ := circle_of_opposed hopposed
    exact hnever.acyclic s hvalid 2 (by decide) hcircle
  · intro hopposed
    have hsettles := settles_of_not_opposed hopposed
    exact ⟨⟨fun s _ _ hk => acyclic_of_settles (hsettles s) hk, fun s _ => hsettles s⟩,
      neverOlder o⟩

/-! ## A renumbered line

A release candidate was published as 1.0.0-rc1 and the line was then renumbered: the feed goes
on with 0.9.11-rc1 at a higher code. -/

namespace RenumberedLine

def feedBuild : FeedBuild :=
  { versionCode := ⟨1199, by decide⟩, versionName := "0.9.11-rc1",
    apkUrl := "https://feed/apks/1.apk"
    apkSha256 := "1".pushn '0' 63, apkSize := 1000000, commit := "0".pushn '0' 39
    databaseCompatibility := "hapaneld-db:v1:ha-paneld.db:1:9", minSdk := 26
    published := "2026-07-01T10:00:00Z", packageId
    launchComponent := newClassesSuccessorLaunch, protocolMin := some 5, protocolMax := some 5 }

def release : ReleaseArtifact :=
  { tag := "v1.0.0-rc1", version := "1.0.0-rc1"
    apkName := "panel-assistant-v1.0.0-rc1-manual-setup-required.apk",
    apkUrl := "https://github.com/1"
    sha256 := "2".pushn '0' 63
    descriptor := some
      { schema := "io.panelassistant.android.install.v1", releaseTag := "v1.0.0-rc1"
        versionName := "1.0.0-rc1", versionCode := ⟨1168, by decide⟩
        apkName := "panel-assistant-v1.0.0-rc1-manual-setup-required.apk", apkSize := 1000000
        apkSha256 := "2".pushn '0' 63, packageId
        signerCertificateSha256 := releaseSignerCertificateSha256, minSdk := 26, supportedAbis
        databaseCompatibility := "hapaneld-db:v1:ha-paneld.db:1:9"
        launchComponent := newClassesSuccessorLaunch }
    protocolMin := some 5, protocolMax := some 5 }

def offer : UpdateOffer :=
  { health := none
    feed := some ⟨true, some ⟨"maintainer", [feedBuild], by decide⟩⟩
    release := some ⟨[release], by decide, by decide⟩
    installedCode := none, allowPrerelease := true }

end RenumberedLine

/-- On the renumbered line the feed's build and the release are offered in turn. -/
theorem renumbered_line_circles :
    RenumberedLine.offer.followMany 1 ⟨"1.0.0-rc1", ⟨1168, by decide⟩⟩ =
        some ⟨"0.9.11-rc1", ⟨1199, by decide⟩⟩ ∧
      RenumberedLine.offer.followMany 2 ⟨"1.0.0-rc1", ⟨1168, by decide⟩⟩ =
        some ⟨"1.0.0-rc1", ⟨1168, by decide⟩⟩ ∧
      ¬ (RenumberedLine.offer.NeverCircles ∧ RenumberedLine.offer.NeverOlder) := by
  have hcircle : RenumberedLine.offer.followMany 2 ⟨"1.0.0-rc1", ⟨1168, by decide⟩⟩ =
      some ⟨"1.0.0-rc1", ⟨1168, by decide⟩⟩ := by
    decide
  exact ⟨by decide, hcircle,
    fun h => h.1.acyclic _ (by decide) 2 (by decide) hcircle⟩

end UpdateOffer

end PanelAssistant
