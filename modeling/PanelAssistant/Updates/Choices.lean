import PanelAssistant.Library.Dict
import PanelAssistant.Updates.Sources

/-!
# The offered list and the default install

`release_catalog.py`: `async_list_install_choices` builds lookup tables by tag, sorts the
choices in reverse and keeps one per channel; the default of
`async_resolve_install_bundle_choice` filters, extends and takes a maximum. Both start from the
same releases and feed builds in the same order (`eligible`), so the first choice of the list
is the default (`listed_head`).

The feed and the resolved releases are what the two functions read; a failed resolution is the
`ReleaseResolutionError` or the `TimeoutError` that both catch.
-/

namespace PanelAssistant

open Library Library.Ranking

/-- What the release catalogue or a choice raises. -/
inductive CatalogError where
  | resolution
  | timeout
  /-- `KeyError`, from a lookup by tag. -/
  | key
  deriving DecidableEq

/-! ## Resolved releases -/

/-- The releases a resolution returns: authenticated, no two under one tag. -/
structure ResolvedCandidates extends ReleaseCandidates where
  distinct : (artifacts.map (·.tag)).Nodup

/-! ## The list -/

structure InstallChoice where
  tag : String
  prerelease : Bool
  name : Option String
  deriving DecidableEq

/-- Keep the newest compatible feed build per install channel, by code. -/
def installFeedBuilds (feed : Option BuildFeed) (allowPrerelease : Bool) : List FeedBuild :=
  ((feed.elim [] (·.builds)).foldl (fun newest b =>
    if artifactAllowed (feedReleaseArtifact b) allowPrerelease then
      let prerelease := b.versionName.toList.contains '-'
      match newest.get? prerelease with
      | none => newest.set prerelease b
      | some previous => if previous.key < b.key then newest.set prerelease b else newest
    else newest) (∅ : Dict Bool FeedBuild)).values

def feedChoice (b : FeedBuild) : InstallChoice :=
  ⟨feedBuildTag b.versionCode, b.versionName.toList.contains '-', some b.label⟩

def releaseChoice (a : ReleaseArtifact) : InstallChoice := ⟨a.tag, isRcReleaseTag a.tag, none⟩

/-- The releases the policy admits, or the failure when there is no feed build either. -/
def eligibleReleases (resolution : Except CatalogError ResolvedCandidates) (builds : List FeedBuild)
    (allowPrerelease : Bool) : Except CatalogError (List ReleaseArtifact) :=
  match resolution with
  | .ok candidates => .ok (candidates.artifacts.filter fun a => artifactAllowed a allowPrerelease)
  | .error _ => if builds.isEmpty then .error .resolution else .ok []

/-- `versions` -/
def choiceVersions (feed : Option BuildFeed) (resolution : Except CatalogError ResolvedCandidates)
    (releases : List ReleaseArtifact) : Dict String String :=
  let versions : Dict String String :=
    match resolution with
    | .ok candidates =>
      if releases.isEmpty then ∅
      else Dict.ofList (candidates.artifacts.map fun a => (a.tag, a.version))
    | .error _ => ∅
  match feed with
  | some feed =>
    versions.update (Dict.ofList (feed.builds.map fun b =>
      (feedBuildTag b.versionCode, b.versionName)))
  | none => versions

/-- `version_codes` -/
def choiceCodes (feed : Option BuildFeed) (resolution : Except CatalogError ResolvedCandidates)
    (releases : List ReleaseArtifact) : Dict String ℕ :=
  let codes : Dict String ℕ :=
    match resolution with
    | .ok candidates =>
      if releases.isEmpty then ∅
      else Dict.ofList (candidates.artifacts.filterMap fun a =>
        a.descriptor.map fun d => (a.tag, d.versionCode.1))
    | .error _ => ∅
  match feed with
  | some feed =>
    codes.update (Dict.ofList (feed.builds.map fun b =>
      (feedBuildTag b.versionCode, b.versionCode.1)))
  | none => codes

/-- The key of a choice, from the two tables. -/
def choiceKey (versions : Dict String String) (codes : Dict String ℕ) (c : InstallChoice) :
    VersionKey ×ₗ ℕ :=
  toLex (((versions.get? c.tag).bind versionKey).getD VersionKey.zero, (codes.get? c.tag).getD 0)

/-- One choice per channel: `newest.setdefault(...)` over the sorted choices. -/
def perChannel (choices : List InstallChoice) : List InstallChoice :=
  (choices.foldl (fun newest c =>
    if newest.contains c.prerelease then newest else newest.set c.prerelease c)
    (∅ : Dict Bool InstallChoice)).values

/-- The one version list every install path offers. -/
def listInstallChoices (feed : Option BuildFeed)
    (resolution : Except CatalogError ResolvedCandidates) (allowPrerelease : Bool) :
    Except CatalogError (List InstallChoice) :=
  let builds := installFeedBuilds feed allowPrerelease
  match eligibleReleases resolution builds allowPrerelease with
  | .error e => .error e
  | .ok releases =>
    let versions := choiceVersions feed resolution releases
    let codes := choiceCodes feed resolution releases
    let choices := releases.map releaseChoice ++ builds.map feedChoice
    if choices.all fun c => versions.contains c.tag then
      .ok (perChannel (choices.insertionSort (descending (choiceKey versions codes))))
    else .error .key

/-! ## The default -/

/-- A selection with what authenticates it. -/
inductive InstallBundle where
  | release (artifact : ReleaseArtifact)
  | feed (build : FeedBuild)

def InstallBundle.artifact : InstallBundle → ReleaseArtifact
  | release artifact => artifact
  | feed build => feedReleaseArtifact build

/-- `async_resolve_install_bundle_choice(hass, None)` -/
def defaultInstallBundle (feed : Option BuildFeed)
    (resolution : Except CatalogError ResolvedCandidates) (allowPrerelease : Bool) :
    Except CatalogError InstallBundle :=
  let builds := installFeedBuilds feed allowPrerelease
  match eligibleReleases resolution builds allowPrerelease with
  | .error e => .error e
  | .ok releases =>
    let eligible := releases.map InstallBundle.release ++
      feed.elim [] fun _ => builds.map InstallBundle.feed
    match eligible.argmax fun bundle => releaseKey bundle.artifact with
    | none => .error .resolution
    | some bundle => .ok bundle

/-! ## Agreement -/

variable {feed : Option BuildFeed} {resolution : Except CatalogError ResolvedCandidates}
  {allowPrerelease : Bool} {releases : List ReleaseArtifact}

/-- The choice that stands for a selection. -/
def InstallBundle.choice : InstallBundle → InstallChoice
  | .release artifact => releaseChoice artifact
  | .feed build => feedChoice build

theorem InstallBundle.choice_tag (bundle : InstallBundle) :
    bundle.choice.tag = bundle.artifact.tag := by
  cases bundle <;> rfl

/-- What the default chooses from. -/
def eligible (feed : Option BuildFeed) (releases : List ReleaseArtifact) (allowPrerelease : Bool) :
    List InstallBundle :=
  releases.map InstallBundle.release ++
    (installFeedBuilds feed allowPrerelease).map InstallBundle.feed

/-- The newest build of each channel is a build of the feed. -/
theorem mem_installFeedBuilds {b : FeedBuild} (hb : b ∈ installFeedBuilds feed allowPrerelease) :
    b ∈ feed.elim [] (·.builds) := by
  have hfold : ∀ (builds all : List FeedBuild) (newest : Dict Bool FeedBuild),
      (∀ c ∈ builds, c ∈ all) → (∀ c ∈ newest.values, c ∈ all) →
      ∀ c ∈ (builds.foldl (fun newest b =>
        if artifactAllowed (feedReleaseArtifact b) allowPrerelease then
          let prerelease := b.versionName.toList.contains '-'
          match newest.get? prerelease with
          | none => newest.set prerelease b
          | some previous => if previous.key < b.key then newest.set prerelease b else newest
        else newest) newest).values, c ∈ all := by
    intro builds
    induction builds with
    | nil => exact fun _ _ _ h => h
    | cons a rest ih =>
      intro all newest hbuilds hnewest
      have hset : ∀ prerelease, ∀ c ∈ (newest.set prerelease a).values, c ∈ all := by
        intro prerelease c hc
        obtain ⟨k, hk⟩ := Dict.mem_values.mp hc
        rw [Dict.get?_set] at hk
        split at hk
        · obtain rfl := Option.some.inj hk
          exact hbuilds a List.mem_cons_self
        · exact hnewest c (Dict.mem_values.mpr ⟨k, hk⟩)
      rw [List.foldl_cons]
      apply ih all _ fun c hc => hbuilds c (List.mem_cons_of_mem a hc)
      dsimp only
      split
      · split
        · exact hset _
        · split
          · exact hset _
          · exact hnewest
      · exact hnewest
  exact hfold _ _ ∅ (fun _ h => h) (fun c hc => absurd hc List.not_mem_nil) b hb

theorem installFeedBuilds_none : installFeedBuilds none allowPrerelease = [] := rfl

/-- Without a feed the default has no feed build to choose. -/
theorem eligible_eq : releases.map InstallBundle.release ++
    (feed.elim [] fun _ => (installFeedBuilds feed allowPrerelease).map InstallBundle.feed) =
      eligible feed releases allowPrerelease := by
  cases feed with
  | none => rw [eligible, installFeedBuilds_none]; rfl
  | some _ => rfl

theorem choices_eq : releases.map releaseChoice ++
    (installFeedBuilds feed allowPrerelease).map feedChoice =
      (eligible feed releases allowPrerelease).map InstallBundle.choice := by
  simp only [eligible, List.map_append, List.map_map]
  rfl

/-- The admitted releases are the resolved ones. -/
theorem mem_eligibleReleases {builds : List FeedBuild} {a : ReleaseArtifact}
    (h : eligibleReleases resolution builds allowPrerelease = .ok releases) (ha : a ∈ releases) :
    ∃ candidates, resolution = .ok candidates ∧ a ∈ candidates.artifacts := by
  unfold eligibleReleases at h
  split at h
  · rename_i candidates
    obtain rfl := Except.ok.inj h
    exact ⟨candidates, rfl, List.mem_of_mem_filter ha⟩
  · split at h
    · cases h
    · obtain rfl := Except.ok.inj h
      exact absurd ha List.not_mem_nil

/-- A table of the feed has no tag twice. -/
theorem feed_tags_nodup {ν : Type} (feed : BuildFeed) (g : FeedBuild → ν) :
    ((feed.builds.map fun b => (feedBuildTag b.versionCode, g b)).map Prod.fst).Nodup := by
  have hinj : Function.Injective fun code : VersionCode => feedBuildTag code.1 :=
    fun _ _ h => feedBuildTag_injective h
  have hcodes := feed.codes.map hinj
  rw [List.map_map] at hcodes ⊢
  exact hcodes

/-- A feed build is found under its tag. -/
theorem lookup_feed {ν : Type} (feed : BuildFeed) (g : FeedBuild → ν) {b : FeedBuild}
    (hb : b ∈ feed.builds) :
    (Dict.ofList (feed.builds.map fun b => (feedBuildTag b.versionCode, g b))).get?
      (feedBuildTag b.versionCode) = some (g b) := by
  rw [Dict.get?_ofList (feed_tags_nodup feed g), Dict.lookup_eq_some (feed_tags_nodup feed g)]
  exact List.mem_map_of_mem hb

/-- A release is not found in the feed. -/
theorem lookup_feed_of_release {ν : Type} (feed : BuildFeed) (g : FeedBuild → ν) {tag : String}
    (htag : isInstallReleaseTag tag = true) :
    (Dict.ofList (feed.builds.map fun b => (feedBuildTag b.versionCode, g b))).get? tag = none := by
  rw [Dict.get?_ofList (feed_tags_nodup feed g), Option.eq_none_iff_forall_ne_some]
  intro v hv
  obtain ⟨b, -, hb⟩ := List.mem_map.mp ((Dict.lookup_eq_some (feed_tags_nodup feed g)).mp hv)
  have hname : feedBuildTag b.versionCode = tag := congrArg Prod.fst hb
  have hfeed := isFeedBuildTag_feedBuildTag b.versionCode
  rw [hname, not_feedBuildTag_of_release htag] at hfeed
  cases hfeed

theorem lookup_release_version (candidates : ResolvedCandidates) {a : ReleaseArtifact}
    (ha : a ∈ candidates.artifacts) :
    (Dict.ofList (candidates.artifacts.map fun a => (a.tag, a.version))).get? a.tag =
      some a.version := by
  have hnodup : ((candidates.artifacts.map fun a => (a.tag, a.version)).map Prod.fst).Nodup := by
    rw [List.map_map]
    exact candidates.distinct
  rw [Dict.get?_ofList hnodup, Dict.lookup_eq_some hnodup]
  exact List.mem_map_of_mem ha

theorem lookup_release_code (candidates : ResolvedCandidates) {a : ReleaseArtifact}
    (ha : a ∈ candidates.artifacts) :
    (Dict.ofList (candidates.artifacts.filterMap fun a =>
      a.descriptor.map fun d => (a.tag, d.versionCode.1))).get? a.tag = some a.versionCode := by
  have hsub : ∀ l : List ReleaseArtifact,
      ((l.filterMap fun a => a.descriptor.map fun d => (a.tag, d.versionCode.1)).map
        Prod.fst).Sublist (l.map (·.tag)) := by
    intro l
    induction l with
    | nil => exact List.Sublist.refl _
    | cons b rest ih =>
      rw [List.filterMap_cons]
      cases b.descriptor with
      | none => exact ih.cons _
      | some d => exact ih.cons_cons _
  have hnodup := candidates.distinct.sublist (hsub candidates.artifacts)
  obtain ⟨d, hd⟩ := Option.isSome_iff_exists.mp (candidates.descriptors a ha)
  rw [Dict.get?_ofList hnodup, Dict.lookup_eq_some hnodup]
  refine List.mem_filterMap.mpr ⟨a, ha, ?_⟩
  rw [ReleaseArtifact.versionCode, hd]
  rfl

/-- Both tables know every selection, so no lookup fails and the order is that of its artifact. -/
theorem lookup_eligible {builds : List FeedBuild} {bundle : InstallBundle}
    (h : eligibleReleases resolution builds allowPrerelease = .ok releases)
    (hb : bundle ∈ eligible feed releases allowPrerelease) :
    (choiceVersions feed resolution releases).get? bundle.choice.tag =
        some bundle.artifact.version ∧
      (choiceCodes feed resolution releases).get? bundle.choice.tag =
        some bundle.artifact.versionCode := by
  rcases List.mem_append.mp hb with hb | hb
  · obtain ⟨a, ha, rfl⟩ := List.mem_map.mp hb
    obtain ⟨candidates, rfl, hmem⟩ := mem_eligibleReleases h ha
    have hsome : releases.isEmpty = false := by
      cases releases with
      | nil => exact absurd ha List.not_mem_nil
      | cons _ _ => rfl
    have hversion := lookup_release_version candidates hmem
    have hcode := lookup_release_code candidates hmem
    have htag := candidates.tags a hmem
    cases feed with
    | none =>
      constructor
      · simp only [choiceVersions, hsome, Bool.false_eq_true, if_false]
        exact hversion
      · simp only [choiceCodes, hsome, Bool.false_eq_true, if_false]
        exact hcode
    | some feed =>
      constructor
      · simp only [choiceVersions, hsome, Bool.false_eq_true, if_false, Dict.get?_update]
        rw [show (InstallBundle.release a).choice.tag = a.tag from rfl,
          lookup_feed_of_release feed _ htag]
        exact hversion
      · simp only [choiceCodes, hsome, Bool.false_eq_true, if_false, Dict.get?_update]
        rw [show (InstallBundle.release a).choice.tag = a.tag from rfl,
          lookup_feed_of_release feed _ htag]
        exact hcode
  · obtain ⟨b, hbuild, rfl⟩ := List.mem_map.mp hb
    have hmem := mem_installFeedBuilds hbuild
    cases feed with
    | none => exact absurd hmem List.not_mem_nil
    | some feed =>
      constructor
      · simp only [choiceVersions, Dict.get?_update]
        rw [show (InstallBundle.feed b).choice.tag = feedBuildTag b.versionCode from rfl,
          lookup_feed feed _ hmem]
        rfl
      · simp only [choiceCodes, Dict.get?_update]
        rw [show (InstallBundle.feed b).choice.tag = feedBuildTag b.versionCode from rfl,
          lookup_feed feed _ hmem]
        rfl

/-- The first choice keeps its place. -/
theorem perChannel_cons (c : InstallChoice) (rest : List InstallChoice) :
    ∃ others, perChannel (c :: rest) = c :: others := by
  have hfold : ∀ (choices : List InstallChoice) (newest : Dict Bool InstallChoice),
      (∃ k others, newest.entries = (k, c) :: others) →
      ∃ k others, (choices.foldl (fun newest c =>
        if newest.contains c.prerelease then newest else newest.set c.prerelease c)
        newest).entries = (k, c) :: others := by
    intro choices
    induction choices with
    | nil => exact fun _ h => h
    | cons a rest ih =>
      intro newest hnewest
      rw [List.foldl_cons]
      apply ih
      split
      · exact hnewest
      · rename_i hfresh
        obtain ⟨k, others, hentries⟩ := hnewest
        have hnew : a.prerelease ∉ newest.entries.map Prod.fst := by
          intro hmem
          obtain ⟨v, hv⟩ := Dict.mem_keys.mp hmem
          exact hfresh (Dict.contains_iff.mpr ⟨v, hv⟩)
        refine ⟨k, others ++ [(a.prerelease, a)], ?_⟩
        have hset : (newest.set a.prerelease a).entries = newest.entries ++ [(a.prerelease, a)] :=
          Dict.assign_of_not_mem hnew
        rw [hset, hentries, List.cons_append]
  obtain ⟨k, others, hentries⟩ := hfold rest ((∅ : Dict Bool InstallChoice).set c.prerelease c)
    ⟨c.prerelease, [], rfl⟩
  refine ⟨others.map Prod.snd, ?_⟩
  rw [perChannel, List.foldl_cons]
  exact congrArg (List.map Prod.snd) hentries

/-- The first choice is the first greatest selection. -/
theorem head?_choices {builds : List FeedBuild}
    (h : eligibleReleases resolution builds allowPrerelease = .ok releases) :
    (((eligible feed releases allowPrerelease).map InstallBundle.choice).insertionSort
        (descending (choiceKey (choiceVersions feed resolution releases)
          (choiceCodes feed resolution releases)))).head? =
      ((eligible feed releases allowPrerelease).argmax fun bundle =>
        releaseKey bundle.artifact).map InstallBundle.choice := by
  rw [head?_insertionSort_descending, argmax_map]
  congr 1
  apply argmax_congr
  intro bundle hb
  obtain ⟨hversion, hcode⟩ := lookup_eligible h hb
  simp only [Function.comp_apply, choiceKey, hversion, hcode, Option.bind_some, Option.getD_some,
    releaseKey]

theorem choices_known {builds : List FeedBuild}
    (h : eligibleReleases resolution builds allowPrerelease = .ok releases) :
    (((eligible feed releases allowPrerelease).map InstallBundle.choice).all fun c =>
      (choiceVersions feed resolution releases).contains c.tag) = true := by
  rw [List.all_eq_true]
  intro c hc
  obtain ⟨bundle, hb, rfl⟩ := List.mem_map.mp hc
  exact Dict.contains_iff.mpr ⟨_, (lookup_eligible h hb).1⟩

/-- The list of the choices and the default, from the same selections. -/
theorem listed_and_default (feed : Option BuildFeed)
    (resolution : Except CatalogError ResolvedCandidates) (allowPrerelease : Bool) :
    (∃ e, listInstallChoices feed resolution allowPrerelease = .error e ∧
        defaultInstallBundle feed resolution allowPrerelease = .error e) ∨
      (listInstallChoices feed resolution allowPrerelease = .ok [] ∧
        defaultInstallBundle feed resolution allowPrerelease = .error .resolution) ∨
      ∃ bundle others,
        listInstallChoices feed resolution allowPrerelease = .ok (bundle.choice :: others) ∧
        defaultInstallBundle feed resolution allowPrerelease = .ok bundle := by
  cases h : eligibleReleases resolution (installFeedBuilds feed allowPrerelease)
      allowPrerelease with
  | error e =>
    left
    refine ⟨e, ?_, ?_⟩
    · rw [listInstallChoices, h]
    · rw [defaultInstallBundle, h]
  | ok releases =>
    right
    have hhead := @head?_choices feed resolution allowPrerelease releases _ h
    have hknown := @choices_known feed resolution allowPrerelease releases _ h
    simp only [listInstallChoices, defaultInstallBundle, h, choices_eq,
      eligible_eq, hknown, if_true]
    cases hmax : (eligible feed releases allowPrerelease).argmax fun bundle =>
        releaseKey bundle.artifact with
    | none =>
      left
      rw [hmax, Option.map_none, List.head?_eq_none_iff] at hhead
      exact ⟨by rw [hhead]; rfl, rfl⟩
    | some bundle =>
      right
      rw [hmax, Option.map_some] at hhead
      obtain ⟨rest, hrest⟩ := List.head?_eq_some_iff.mp hhead
      obtain ⟨others, hothers⟩ := perChannel_cons bundle.choice rest
      exact ⟨bundle, others, by rw [hrest, hothers], rfl⟩

/-- The default install is the head of the offered list: it is refused when the list is empty or
refused, and otherwise has the tag of the first choice. -/
theorem default_install_is_head (feed : Option BuildFeed)
    (resolution : Except CatalogError ResolvedCandidates) (allowPrerelease : Bool) :
    ((∃ bundle, defaultInstallBundle feed resolution allowPrerelease = .ok bundle) ↔
        ∃ c others, listInstallChoices feed resolution allowPrerelease = .ok (c :: others)) ∧
      ((∃ e, defaultInstallBundle feed resolution allowPrerelease = .error e) ↔
        (∃ e, listInstallChoices feed resolution allowPrerelease = .error e) ∨
          listInstallChoices feed resolution allowPrerelease = .ok []) ∧
      ∀ bundle c others, defaultInstallBundle feed resolution allowPrerelease = .ok bundle →
        listInstallChoices feed resolution allowPrerelease = .ok (c :: others) →
        bundle.artifact.tag = c.tag := by
  rcases listed_and_default feed resolution allowPrerelease with
    ⟨e, hlist, hdefault⟩ | ⟨hlist, hdefault⟩ | ⟨bundle, others, hlist, hdefault⟩
  · simp [hlist, hdefault]
  · simp [hlist, hdefault]
  · refine ⟨by simp [hlist, hdefault], by simp [hlist, hdefault], ?_⟩
    intro other c rest hother hc
    rw [hdefault, Except.ok.injEq] at hother
    rw [hlist, Except.ok.injEq, List.cons.injEq] at hc
    rw [← hother, ← hc.1, bundle.choice_tag]

end PanelAssistant
