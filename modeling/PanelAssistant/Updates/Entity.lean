import PanelAssistant.Signed.FeedChoice
import PanelAssistant.Updates.Coordinator

/-!
# What the update entity shows

The versions of `update.py` and the labels of `update_offer.py` and `build_feed.py`. An offer is
chosen by names and codes, and shown as a text; `version_is_newer` reads names and codes off the
texts again. A version name has no space in it, so both come back (`nameOf_buildLabel`,
`parseBuildRequest_buildLabel`), and what is offered is shown as newer (`label_newer`).
-/

namespace PanelAssistant

open Library Library.Text Library.JsonTree

/-! ## Labels -/

def buildSeparator : List Char := " build ".toList

/-- `WEBVIEW_ONLY_SUFFIX` -/
def webviewOnlySuffix : String := " + WebView"

/-- `text.partition(separator)[0]` -/
def beforeText (separator : List Char) : List Char → List Char
  | [] => []
  | c :: rest =>
    if separator.isPrefixOf (c :: rest) then [] else c :: beforeText separator rest

/-- The name of a label. -/
def nameOf (label : String) : String := String.ofList (beforeText buildSeparator label.toList)

/-- Whether a text is what `_LABEL_PATTERN` allows before the number. -/
def isLabelStem (stem : List Char) : Bool :=
  stem.isEmpty || (buildSeparator.isSuffixOf stem && !stem.contains '\n')

/-- Read the build number from "772" or "0.9.7-rc4 build 772". -/
def parseBuildRequest (value : String) : Option ℕ :=
  let cs := strip value.toList
  let digits := cs.rtakeWhile isDigit
  if isPositiveNumeral digits && decide (digits.length ≤ 10) &&
    isLabelStem (cs.rdropWhile isDigit) then
    if decimal digits ≤ maxAndroidVersionCode then some (decimal digits) else none
  else none

namespace UpdateOffer

variable (o : UpdateOffer)

/-- Keep same-version rebuilds distinguishable. -/
def label (a : ReleaseArtifact) : String :=
  match a.descriptor with
  | some d =>
    if isFeedBuildTag a.tag || o.health.any fun health => a.version == health.version then
      buildLabel a.version d.versionCode
    else a.version
  | none => a.version

/-- Find the exact signed feed record chosen for this panel. -/
def selectedFeedBuild (a : ReleaseArtifact) : Option FeedBuild :=
  if isFeedBuildTag a.tag then
    match o.feed.bind (·.data) with
    | some feed => feed.builds.find? fun b => decide (feedReleaseArtifact b = a)
    | none => none
  else none

end UpdateOffer

/-! ## The entity -/

/-- What an update shows from its start until the panel runs the target. -/
structure Attempt where
  installed : Option String
  latest : Option String

structure WebviewObservation where
  supported : Bool
  eligible : Bool
  candidateSha256 : Option String
  transactionState : Option String

structure UpdateEntity where
  health : Option PanelHealth
  feed : Option FeedCoordinator
  release : Option ReleaseCandidates
  installedCode : Option RunningCode
  allowPrerelease : Bool
  attempt : Option Attempt
  /-- `_has_install_route()` -/
  hasInstallRoute : Bool
  /-- The entry names a transport user. -/
  hasTransportUser : Bool
  webview : Option WebviewObservation

namespace UpdateEntity

variable (e : UpdateEntity)

def offer : UpdateOffer where
  health := e.health
  feed := e.feed.map (·.state)
  release := e.release
  installedCode := e.installedCode
  allowPrerelease := e.allowPrerelease

/-- The last read of the feed succeeded and there is a feed. -/
def hasFeed : Bool :=
  e.feed.any fun feed => feed.state.lastUpdateSuccess && feed.state.data.isSome

/-- `_running_version` -/
def runningVersion : Option String :=
  e.health.map fun health =>
    match e.offer.runningCode health with
    | some code =>
      if e.hasFeed || e.offer.hostRelease.any fun a =>
          a.descriptor.isSome && a.version == health.version then
        buildLabel health.version code
      else health.version
    | none => health.version

/-- The version shown: the starting one until an update ends. -/
def installedVersion : Option String :=
  match e.attempt with
  | some attempt => attempt.installed
  | none => e.runningVersion

/-- `verified_apk` of the shared feed -/
def verifiedApk (b : FeedBuild) : Option (List UInt8) := e.feed.bind fun feed => feed.verifiedApk b

/-- The newest admitted app, or the installed one. -/
def appLatestVersion : Option String :=
  if e.hasInstallRoute then
    match e.offer.hostRelease with
    | none => e.installedVersion
    | some a =>
      if (e.offer.selectedFeedBuild a).any fun b => e.feed.isSome && (e.verifiedApk b).isNone then
        e.installedVersion
      else some (e.offer.label a)
  else e.installedVersion

/-- The app is current, but the panel offers a WebView it has not installed. -/
def webviewOnlyOffer (appLatest : Option String) : Bool :=
  e.hasTransportUser && decide (appLatest = e.runningVersion) &&
    e.webview.any fun observation =>
      observation.supported && observation.eligible && observation.candidateSha256.isSome &&
        observation.transactionState.isNone

/-- The installed version when no newer admitted target exists. -/
def latestVersion : Option String :=
  match e.attempt with
  | some attempt => attempt.latest
  | none =>
    match e.appLatestVersion with
    | some latest =>
      if e.webviewOnlyOffer (some latest) then some (latest ++ webviewOnlySuffix) else some latest
    | none => none

/-- The comparison by names, and by codes under one name. -/
def namesNewer (latest installed : String) (latestKey installedKey : VersionKey) : Bool :=
  if latestKey ≠ installedKey then decide (installedKey < latestKey)
  else match parseBuildRequest latest, parseBuildRequest installed with
    | some latestCode, some installedCode => decide (installedCode < latestCode)
    | _, _ => false

/-- Compare semantic version first and build number only as a tie-break; an offer of the feed
compares in the feed's own order. -/
def versionIsNewer (latest installed : String) : Bool :=
  if webviewOnlySuffix.toList.isSuffixOf latest.toList then
    decide (before? webviewOnlySuffix.toList latest.toList = some installed.toList)
  else
    match versionKey (nameOf latest), versionKey (nameOf installed) with
    | some latestKey, some installedKey =>
      if e.offer.hostRelease.any fun a => isFeedBuildTag a.tag && latest == e.offer.label a then
        feedBuildNewer (nameOf latest) (parseBuildRequest latest) (nameOf installed)
          (parseBuildRequest installed)
      else namesNewer latest installed latestKey installedKey
    | _, _ => false

end UpdateEntity

/-! ## The characters of a version -/

/-- `[0-9A-Za-z.-]` -/
def isVersionChar (c : Char) : Bool := isAlnum c || c == '.' || c == '-'

theorem isVersionChar_toNat {c : Char} (h : isVersionChar c = true) :
    45 ≤ c.toNat ∧ c.toNat ≤ 122 := by
  simp only [isVersionChar, isAlnum, isDigit, isLower, isUpper, Bool.or_eq_true, Bool.and_eq_true,
    decide_eq_true_eq, beq_iff_eq, Char.le_def, UInt32.le_iff_toNat_le] at h
  rcases h with (((⟨hlow, hhigh⟩ | ⟨hlow, hhigh⟩) | ⟨hlow, hhigh⟩) | rfl) | rfl
  · exact ⟨le_trans (by decide) hlow, le_trans hhigh (by decide)⟩
  · exact ⟨le_trans (by decide) hlow, le_trans hhigh (by decide)⟩
  · exact ⟨le_trans (by decide) hlow, le_trans hhigh (by decide)⟩
  · decide
  · decide

theorem isSpace_of_isVersionChar {c : Char} (h : isVersionChar c = true) : isSpace c = false := by
  have hrange := isVersionChar_toNat h
  simp only [isSpace, List.contains_eq_mem, List.mem_cons, List.not_mem_nil, or_false,
    Bool.or_eq_false_iff, Bool.and_eq_false_iff, decide_eq_false_iff_not]
  omega

theorem isVersionChar_of_isNumeral {cs : List Char} (h : isNumeral cs = true) :
    cs.all isVersionChar = true := by
  have hdigits : ∀ l : List Char, l.all isDigit = true → l.all isVersionChar = true := by
    intro l hl
    rw [List.all_eq_true] at hl ⊢
    intro c hc
    simp [isVersionChar, isAlnum, hl c hc]
  rw [isNumeral, Bool.or_eq_true, beq_iff_eq] at h
  rcases h with rfl | h
  · rfl
  · refine hdigits cs ?_
    cases cs with
    | nil => rfl
    | cons c rest =>
      simp only [isPositiveNumeral, Bool.and_eq_true] at h
      rw [List.all_cons, h.1.1, h.2, Bool.and_self]

/-- A text with a version key is not empty and has only the characters of versions. -/
theorem all_isVersionChar {name : String} {key : VersionKey} (h : versionKey name = some key) :
    name.toList ≠ [] ∧ name.toList.all isVersionChar = true := by
  unfold versionKey at h
  dsimp only at h
  split at h
  · rename_i hversion
    rw [isVersion, Bool.and_eq_true] at hversion
    obtain ⟨hcore, htail⟩ := hversion
    have hsplit : name.toList.takeWhile (· ≠ '-') ++ name.toList.dropWhile
      (· ≠ '-') = name.toList :=
      List.takeWhile_append_dropWhile
    constructor
    · intro hnil
      rw [hnil] at hcore
      cases hcore
    · rw [← hsplit, List.all_append, Bool.and_eq_true]
      constructor
      · unfold isTriple at hcore
        split at hcore
        · rename_i a b c heq
          simp only [Bool.and_eq_true] at hcore
          apply @all_of_splitOn isVersionChar '.' (by decide)
          rw [heq]
          intro part hpart
          simp only [List.mem_cons, List.not_mem_nil, or_false] at hpart
          rcases hpart with rfl | rfl | rfl
          · exact isVersionChar_of_isNumeral hcore.1.1
          · exact isVersionChar_of_isNumeral hcore.1.2
          · exact isVersionChar_of_isNumeral hcore.2
        · cases hcore
      · generalize name.toList.dropWhile (· ≠ '-') = tail at htail ⊢
        unfold isPrereleaseTail at htail
        split at htail
        · rfl
        · rename_i c rest
          rw [Bool.and_eq_true, List.all_eq_true] at htail
          rw [List.all_cons, List.all_cons]
          have hc : isVersionChar c = true := by simp [isVersionChar, htail.1]
          have hrest : rest.all isVersionChar = true := by
            rw [List.all_eq_true]
            exact htail.2
          rw [hc, hrest]
          rfl
        · cases htail
  · cases h

theorem not_mem_of_version {name : String} {key : VersionKey} (h : versionKey name = some key)
    {c : Char} (hc : isVersionChar c = false) : c ∉ name.toList := by
  intro hmem
  rw [List.all_eq_true.mp (all_isVersionChar h).2 c hmem] at hc
  cases hc

/-! ## Labels are read back -/

theorem beforeText_append {separator : List Char} {c : Char} {tail name rest : List Char}
    (hseparator : separator = c :: tail) (hc : c ∉ name) :
    beforeText separator (name ++ (separator ++ rest)) = name := by
  induction name with
  | nil =>
    have hpre : separator.isPrefixOf (separator ++ rest) = true :=
      List.isPrefixOf_iff_prefix.mpr (List.prefix_append _ _)
    rw [List.nil_append]
    subst hseparator
    rw [List.cons_append, beforeText, ← List.cons_append, if_pos hpre]
  | cons d name ih =>
    rw [List.mem_cons, not_or] at hc
    have hpre : separator.isPrefixOf (d :: (name ++ (separator ++ rest))) ≠ true := by
      intro h
      rw [hseparator, List.isPrefixOf_cons_cons, Bool.and_eq_true, beq_iff_eq] at h
      exact hc.1 h.1
    rw [List.cons_append, beforeText, if_neg hpre, ih hc.2]

theorem beforeText_of_not_mem {separator : List Char} {c : Char} {tail name : List Char}
    (hseparator : separator = c :: tail) (hc : c ∉ name) : beforeText separator name = name := by
  induction name with
  | nil => rfl
  | cons d name ih =>
    rw [List.mem_cons, not_or] at hc
    have hpre : separator.isPrefixOf (d :: name) ≠ true := by
      intro h
      rw [hseparator, List.isPrefixOf_cons_cons, Bool.and_eq_true, beq_iff_eq] at h
      exact hc.1 h.1
    rw [beforeText, if_neg hpre, ih hc.2]

theorem buildSeparator_eq : buildSeparator = [' ', 'b', 'u', 'i', 'l', 'd', ' '] := by
  decide

theorem toList_buildLabel (name : String) (code : ℕ) :
    (buildLabel name code).toList = name.toList ++ (buildSeparator ++ Nat.toDigits 10 code) := by
  rw [buildLabel, String.toList_append, String.toList_append, Nat.toString_eq_repr, Nat.toList_repr,
    List.append_assoc]
  rfl

variable {name : String} {key : VersionKey}

theorem nameOf_version (hname : versionKey name = some key) : nameOf name = name := by
  rw [nameOf, beforeText_of_not_mem buildSeparator_eq (not_mem_of_version hname (by decide)),
    String.ofList_toList]

theorem nameOf_buildLabel (hname : versionKey name = some key) (code : ℕ) :
    nameOf (buildLabel name code) = name := by
  rw [nameOf, toList_buildLabel,
    beforeText_append buildSeparator_eq (not_mem_of_version hname (by decide)),
    String.ofList_toList]

/-- A text without white space at its ends. -/
theorem strip_eq_self {cs : List Char} {first last : Char} (hhead : cs.head? = some first)
    (hlast : cs.getLast? = some last) (hfirst : isSpace first = false)
    (hend : isSpace last = false) : strip cs = cs := by
  obtain ⟨rest, rfl⟩ := List.head?_eq_some_iff.mp hhead
  obtain ⟨before, hbefore⟩ := List.getLast?_eq_some_iff.mp hlast
  rw [strip, List.dropWhile_cons, hfirst]
  simp only [Bool.false_eq_true, if_false]
  rw [hbefore, List.reverse_append, List.reverse_singleton, List.singleton_append,
    List.dropWhile_cons, hend]
  simp only [Bool.false_eq_true, if_false, List.reverse_cons, List.reverse_reverse]

theorem getLast?_toDigits (code : ℕ) :
    ∃ last, (Nat.toDigits 10 code).getLast? = some last ∧ isDigit last = true := by
  have hpos : 0 < (Nat.toDigits 10 code).length := Nat.length_toDigits_pos
  have hne : Nat.toDigits 10 code ≠ [] := List.ne_nil_of_length_pos hpos
  refine ⟨_, List.getLast?_eq_some_getLast hne, ?_⟩
  exact List.all_eq_true.mp (all_isDigit_toDigits code) _ (List.getLast_mem hne)

theorem getLast?_buildLabel (name : String) (code : ℕ) :
    ∃ last, (buildLabel name code).toList.getLast? = some last ∧ isDigit last = true := by
  obtain ⟨last, hlast, hdigit⟩ := getLast?_toDigits code
  refine ⟨last, ?_, hdigit⟩
  rw [toList_buildLabel, ← List.append_assoc, List.getLast?_append, hlast]
  rfl

theorem strip_buildLabel (hname : versionKey name = some key) (code : ℕ) :
    strip (buildLabel name code).toList = (buildLabel name code).toList := by
  obtain ⟨hne, hall⟩ := all_isVersionChar hname
  obtain ⟨c, rest, hcs⟩ := List.exists_cons_of_ne_nil hne
  rw [hcs, List.all_cons, Bool.and_eq_true] at hall
  obtain ⟨last, hlast, hdigit⟩ := getLast?_buildLabel name code
  have hhead : (buildLabel name code).toList.head? = some c := by
    rw [toList_buildLabel, hcs]
    rfl
  refine strip_eq_self hhead hlast (isSpace_of_isVersionChar hall.1) (isSpace_of_isVersionChar ?_)
  simp [isVersionChar, isAlnum, hdigit]

theorem parseBuildRequest_buildLabel (hname : versionKey name = some key) {code : ℕ}
    (hlow : 1 ≤ code) (hhigh : code ≤ maxAndroidVersionCode) :
    parseBuildRequest (buildLabel name code) = some code := by
  have hstem : ∀ c, (name.toList ++ buildSeparator).getLast? = some c → isDigit c = false := by
    intro c hc
    rw [List.getLast?_append, buildSeparator_eq] at hc
    cases hc
    rfl
  obtain ⟨hdrop, htake⟩ := digits_append hstem (all_isDigit_toDigits code)
  have hlabel : isLabelStem (name.toList ++ buildSeparator) = true := by
    have hsuffix : buildSeparator.isSuffixOf (name.toList ++ buildSeparator) = true :=
      List.isSuffixOf_iff_suffix.mpr (List.suffix_append _ _)
    have hline : (name.toList ++ buildSeparator).contains '\n' = false := by
      rw [List.contains_eq_mem, decide_eq_false_iff_not, List.mem_append, not_or]
      refine ⟨not_mem_of_version hname (by decide), ?_⟩
      rw [buildSeparator_eq]
      decide
    rw [isLabelStem, hsuffix, hline, Bool.not_false, Bool.and_self, Bool.or_true]
  have hlength : (Nat.toDigits 10 code).length ≤ 10 := by
    rw [Nat.length_toDigits_le_iff (by decide) (by decide)]
    have hmax : maxAndroidVersionCode = 2147483647 := rfl
    omega
  have htext : (buildLabel name code).toList =
      name.toList ++ buildSeparator ++ Nat.toDigits 10 code := by
    rw [toList_buildLabel, List.append_assoc]
  have hstrip := strip_buildLabel hname code
  rw [htext] at hstrip
  simp only [parseBuildRequest, htext, hstrip, hdrop, htake, hlabel,
    isPositiveNumeral_toDigits hlow, hlength, decide_true, Bool.and_self, if_true, decimal_toDigits,
    if_pos hhigh]

/-! ## Labels do not end like the offer of a WebView -/

theorem webviewOnlySuffix_eq :
    webviewOnlySuffix.toList = [' ', '+', ' ', 'W', 'e', 'b', 'V', 'i', 'e', 'w'] := by
  decide

theorem not_webviewOnly_version (hname : versionKey name = some key) :
    webviewOnlySuffix.toList.isSuffixOf name.toList = false := by
  rw [← Bool.not_eq_true, List.isSuffixOf_iff_suffix]
  intro hsuffix
  refine not_mem_of_version hname (c := ' ') (by decide) (hsuffix.mem ?_)
  rw [webviewOnlySuffix_eq]
  exact List.mem_cons_self

theorem not_webviewOnly_buildLabel (name : String) (code : ℕ) :
    webviewOnlySuffix.toList.isSuffixOf (buildLabel name code).toList = false := by
  rw [← Bool.not_eq_true, List.isSuffixOf_iff_suffix]
  rintro ⟨before, hbefore⟩
  obtain ⟨last, hlast, hdigit⟩ := getLast?_buildLabel name code
  rw [← hbefore, List.getLast?_append, webviewOnlySuffix_eq] at hlast
  cases hlast
  cases hdigit

/-! ## What is offered is shown -/

namespace UpdateOffer

variable {o : UpdateOffer} {a : ReleaseArtifact}

/-- Where an offer comes from. -/
theorem hostRelease_source (h : o.hostRelease = some a) :
    ∃ health key, o.health = some health ∧ versionKey health.version = some key ∧
      ((∃ b, o.feedOffer health = some b ∧ a = feedReleaseArtifact b) ∨
        a ∈ o.releaseOffers health) := by
  unfold hostRelease at h
  split at h
  · cases h
  rename_i health hhealth
  split at h
  · cases h
  split at h
  · cases h
  split at h
  · cases h
  rename_i hkey
  obtain ⟨key, hkey⟩ := Option.ne_none_iff_exists'.mp
    (by simpa using hkey : versionKey health.version ≠ none)
  refine ⟨health, key, hhealth, hkey, ?_⟩
  rcases List.mem_append.mp (List.argmax_mem h) with hmem | hmem
  · obtain ⟨b, hb, rfl⟩ := Option.map_eq_some_iff.mp (Option.mem_toList.mp hmem)
    exact .inl ⟨b, hb, rfl⟩
  · exact .inr hmem

theorem versionKey_of_allowed (h : o.allowed a = true) :
    ∃ key, versionKey a.version = some key := by
  simp only [allowed, artifactAllowed, Bool.and_eq_true] at h
  exact (versionKey_of_buildAllowed h.1).1

/-- A release that is offered: newer by name, or by code under the running name. -/
theorem releaseOffers_newer {health : PanelHealth} {key : VersionKey}
    (hkey : versionKey health.version = some key) (h : a ∈ o.releaseOffers health) :
    isFeedBuildTag a.tag = false ∧ ∃ d candidate, a.descriptor = some d ∧
      versionKey a.version = some candidate ∧
      (key < candidate ∨
        a.version = health.version ∧ ∃ code, o.runningCode health = some code ∧
          code < d.versionCode) := by
  rw [releaseOffers, List.mem_filter, Bool.and_eq_true] at h
  obtain ⟨hmem, hallowed, hnewer⟩ := h
  have hsource : isFeedBuildTag a.tag = false ∧ ∃ d, a.descriptor = some d := by
    cases hrelease : o.release with
    | none =>
      rw [hrelease] at hmem
      cases hmem
    | some c =>
      rw [hrelease, Option.elim_some, ReleaseCandidates.candidatesFor, List.mem_filter] at hmem
      exact ⟨not_feedBuildTag_of_release (c.tags a hmem.1),
        Option.isSome_iff_exists.mp (c.descriptors a hmem.1)⟩
  obtain ⟨htag, d, hd⟩ := hsource
  obtain ⟨candidate, hcandidate⟩ := versionKey_of_allowed hallowed
  refine ⟨htag, d, candidate, hd, hcandidate, ?_⟩
  simp only [releaseNewer, hcandidate, hkey, hd, Bool.or_eq_true, Bool.and_eq_true, beq_iff_eq,
    decide_eq_true_eq] at hnewer
  rcases hnewer with hlt | ⟨hversion, hcode⟩
  · exact .inl hlt
  · refine .inr ⟨hversion, ?_⟩
    split at hcode
    · rename_i d' code hd' hrunning
      cases hd'
      exact ⟨code, hrunning, of_decide_eq_true hcode⟩
    · cases hcode

theorem label_feed (b : FeedBuild) :
    o.label (feedReleaseArtifact b) = buildLabel b.versionName b.versionCode := by
  have htag : isFeedBuildTag (feedReleaseArtifact b).tag = true :=
    isFeedBuildTag_feedBuildTag b.versionCode
  simp only [label, htag, Bool.true_or, if_true]
  rfl

/-- A build that the feed offers is found again in its feed. -/
theorem selectedFeedBuild_eq {health : PanelHealth} {b : FeedBuild}
    (hb : o.feedOffer health = some b) :
    o.selectedFeedBuild (feedReleaseArtifact b) = some b := by
  obtain ⟨hmem, -⟩ := feedOffer_eq_some hb
  have htag : isFeedBuildTag (feedReleaseArtifact b).tag = true :=
    isFeedBuildTag_feedBuildTag b.versionCode
  unfold feedBuilds at hmem
  split at hmem
  · rename_i feed hdata
    have hsame : ∀ b' ∈ feed.builds, feedReleaseArtifact b' = feedReleaseArtifact b → b' = b := by
      intro b' hb' heq
      have hcode : b'.versionCode = b.versionCode :=
        feedBuildTag_injective (congrArg ReleaseArtifact.tag heq)
      exact List.inj_on_of_nodup_map feed.codes hb' hmem hcode
    have hfound : (feed.builds.find? fun b' =>
        decide (feedReleaseArtifact b' = feedReleaseArtifact b)).isSome = true := by
      rw [List.find?_isSome]
      exact ⟨b, hmem, decide_eq_true rfl⟩
    obtain ⟨found, hfind⟩ := Option.isSome_iff_exists.mp hfound
    have hpass := List.find?_some hfind
    have heq := hsame found (List.mem_of_find?_eq_some hfind) (of_decide_eq_true hpass)
    rw [selectedFeedBuild, if_pos htag, hdata]
    simp only [Option.bind_some]
    rw [hfind, heq]
  · cases hmem

end UpdateOffer

namespace UpdateEntity

variable {e : UpdateEntity} {a : ReleaseArtifact}

/-- The running version has the running name. -/
theorem runningVersion_name {health : PanelHealth} (hhealth : e.health = some health)
    (hname : versionKey health.version = some key) :
    ∃ running, e.runningVersion = some running ∧ nameOf running = health.version := by
  rw [runningVersion, hhealth, Option.map_some]
  refine ⟨_, rfl, ?_⟩
  split
  · split
    · exact nameOf_buildLabel hname _
    · exact nameOf_version hname
  · exact nameOf_version hname

/-- A running build with a code whose label is read back. -/
theorem runningVersion_label {health : PanelHealth} {code : ℕ} (hhealth : e.health = some health)
    (hcode : e.offer.runningCode health = some code)
    (hlabel : e.hasFeed = true ∨ ∃ a, e.offer.hostRelease = some a ∧ a.descriptor.isSome = true ∧
      a.version = health.version) :
    e.runningVersion = some (buildLabel health.version code) := by
  have hshown : (e.hasFeed || e.offer.hostRelease.any fun a =>
      a.descriptor.isSome && a.version == health.version) = true := by
    rw [Bool.or_eq_true]
    rcases hlabel with hfeed | ⟨a, ha, hdescriptor, hversion⟩
    · exact .inl hfeed
    · refine .inr ?_
      rw [ha, Option.any_some, hdescriptor, hversion, beq_self_eq_true, Bool.and_self]
  rw [runningVersion, hhealth, Option.map_some]
  simp only [hcode, hshown, if_true]

/-- A running build has a positive code. -/
theorem runningCode_pos {health : PanelHealth} {code : ℕ}
    (h : e.offer.runningCode health = some code) : 1 ≤ code := by
  rw [UpdateOffer.runningCode, Option.or_eq_some_iff] at h
  rcases h with h | ⟨-, h⟩
  · obtain ⟨c, -, rfl⟩ := Option.map_eq_some_iff.mp h
    exact c.2.1
  · obtain ⟨c, -, rfl⟩ := Option.map_eq_some_iff.mp h
    exact c.2.1

/-- A panel that the feed offers something has a feed. -/
theorem hasFeed_of_feedOffer {health : PanelHealth} {b : FeedBuild}
    (hb : e.offer.feedOffer health = some b) : e.hasFeed = true := by
  have hmem := (UpdateOffer.feedOffer_eq_some hb).1
  unfold UpdateOffer.feedBuilds at hmem
  split at hmem
  · rename_i feed hdata
    obtain ⟨c, hc, hstate⟩ := Option.map_eq_some_iff.mp hdata
    rw [hasFeed, hc, Option.any_some, hstate]
    rfl
  · cases hmem

/-- The comparison of two texts with the names and codes they were made of. -/
theorem versionIsNewer_eq {latest running : String} {latestKey runningKey : VersionKey}
    (hsuffix : webviewOnlySuffix.toList.isSuffixOf latest.toList = false)
    (hlatest : versionKey (nameOf latest) = some latestKey)
    (hrunning : versionKey (nameOf running) = some runningKey) :
    e.versionIsNewer latest running =
      if e.offer.hostRelease.any fun a => isFeedBuildTag a.tag && latest == e.offer.label a then
        feedBuildNewer (nameOf latest) (parseBuildRequest latest) (nameOf running)
          (parseBuildRequest running)
      else namesNewer latest running latestKey runningKey := by
  simp only [versionIsNewer, hsuffix, Bool.false_eq_true, if_false, hlatest, hrunning]

/-- What the feed offers is newer than what runs, as the texts of both read. The feed offers only
to a panel whose code is known, so both texts have their codes. -/
theorem feedLabel_newer {health : PanelHealth} {installed : VersionKey} {b : FeedBuild}
    (hhealth : e.health = some health) (hinstalled : versionKey health.version = some installed)
    (h : e.offer.hostRelease = some (feedReleaseArtifact b))
    (hb : e.offer.feedOffer health = some b) :
    ∃ running, e.runningVersion = some running ∧
      e.versionIsNewer (e.offer.label (feedReleaseArtifact b)) running = true := by
  obtain ⟨-, -, hnewer, hallowed⟩ := UpdateOffer.feedOffer_eq_some hb
  obtain ⟨candidate, hversion⟩ := UpdateOffer.versionKey_of_allowed hallowed
  have hcandidate : versionKey b.versionName = some candidate := hversion
  obtain ⟨c, code, hc, hcode, hlt⟩ := UpdateOffer.feedBuildNewer_eq_true.mp hnewer
  cases hc
  have hle : code ≤ b.versionCode.1 := by
    rw [feedBuildKey, feedBuildKey, Prod.Lex.toLex_lt_toLex] at hlt
    rcases hlt with hlt | ⟨heq, -⟩
    · exact hlt.le
    · exact heq.le
  have htag : isFeedBuildTag (feedReleaseArtifact b).tag = true :=
    isFeedBuildTag_feedBuildTag b.versionCode
  have hchosen : (e.offer.hostRelease.any fun a => isFeedBuildTag a.tag &&
      e.offer.label (feedReleaseArtifact b) == e.offer.label a) = true := by
    rw [h, Option.any_some, htag, beq_self_eq_true, Bool.and_self]
  refine ⟨_, runningVersion_label hhealth hcode (.inl (hasFeed_of_feedOffer hb)), ?_⟩
  rw [UpdateOffer.label_feed] at hchosen ⊢
  rw [versionIsNewer_eq (not_webviewOnly_buildLabel _ _)
    ((nameOf_buildLabel hcandidate _).symm ▸ hcandidate)
    ((nameOf_buildLabel hinstalled _).symm ▸ hinstalled), if_pos hchosen,
    nameOf_buildLabel hcandidate, nameOf_buildLabel hinstalled,
    parseBuildRequest_buildLabel hcandidate b.versionCode.2.1 b.versionCode.2.2,
    parseBuildRequest_buildLabel hinstalled (runningCode_pos hcode)
      (hle.trans b.versionCode.2.2)]
  exact UpdateOffer.feedBuildNewer_eq_true.mpr ⟨_, _, rfl, rfl, hlt⟩

/-- What a release offers is newer than what runs, as the texts of both read. -/
theorem releaseLabel_newer {health : PanelHealth} {installed : VersionKey}
    (hhealth : e.health = some health) (hinstalled : versionKey health.version = some installed)
    (h : e.offer.hostRelease = some a) (ha : a ∈ e.offer.releaseOffers health) :
    ∃ running, e.runningVersion = some running ∧
      e.versionIsNewer (e.offer.label a) running = true := by
  obtain ⟨htag, d, candidate, hd, hcandidate, hnewer⟩ :=
    UpdateOffer.releaseOffers_newer hinstalled ha
  have hother : ∀ latest, ¬ (e.offer.hostRelease.any fun a =>
      isFeedBuildTag a.tag && latest == e.offer.label a) = true := by
    intro latest
    rw [h, Option.any_some, htag, Bool.false_and]
    exact Bool.false_ne_true
  rcases hnewer with hlt | ⟨hversion, code, hcode, hlt⟩
  · -- Another name: its label is the name alone, and the keys decide.
    obtain ⟨running, hrunning, hname⟩ := runningVersion_name hhealth hinstalled
    have hne : a.version ≠ health.version := by
      intro heq
      rw [heq, hinstalled, Option.some.injEq] at hcandidate
      exact absurd hlt (hcandidate ▸ lt_irrefl installed)
    have hlabel : e.offer.label a = a.version := by
      have hhealth' : e.offer.health = some health := hhealth
      have hfalse : (a.version == health.version) = false := beq_false_of_ne hne
      simp only [UpdateOffer.label, hd, htag, hhealth', Option.any_some, hfalse, Bool.or_self,
        Bool.false_eq_true, if_false]
    refine ⟨running, hrunning, ?_⟩
    rw [hlabel, versionIsNewer_eq (not_webviewOnly_version hcandidate)
      ((nameOf_version hcandidate).symm ▸ hcandidate) (hname.symm ▸ hinstalled), if_neg (hother _),
      namesNewer, if_pos hlt.ne', decide_eq_true hlt]
  · -- The running name: both labels have their codes.
    have hsame : installed = candidate := by
      rw [hversion, hinstalled, Option.some.injEq] at hcandidate
      exact hcandidate
    have hlabel : e.offer.label a = buildLabel a.version d.versionCode := by
      have hhealth' : e.offer.health = some health := hhealth
      simp only [UpdateOffer.label, hd, hhealth', Option.any_some, hversion, beq_self_eq_true,
        Bool.or_true, if_true]
    refine ⟨_, runningVersion_label hhealth hcode (.inr ⟨a, h, by rw [hd]; rfl, hversion⟩), ?_⟩
    rw [hlabel, versionIsNewer_eq (not_webviewOnly_buildLabel _ _)
      ((nameOf_buildLabel hcandidate _).symm ▸ hcandidate)
      ((nameOf_buildLabel hinstalled _).symm ▸ hinstalled), if_neg (hother _), namesNewer,
      if_neg (by rw [hsame, ne_eq, not_not]),
      parseBuildRequest_buildLabel hcandidate d.versionCode.2.1 d.versionCode.2.2,
      parseBuildRequest_buildLabel hinstalled (runningCode_pos hcode)
        (hlt.le.trans d.versionCode.2.2)]
    exact decide_eq_true hlt

/-- What is offered is newer than what runs, as the texts of both read. -/
theorem label_newer (h : e.offer.hostRelease = some a) :
    ∃ running, e.runningVersion = some running ∧
      e.versionIsNewer (e.offer.label a) running = true := by
  obtain ⟨health, installed, hhealth, hinstalled, hsource⟩ := UpdateOffer.hostRelease_source h
  rcases hsource with ⟨b, hb, rfl⟩ | hrelease
  · exact feedLabel_newer hhealth hinstalled h hb
  · exact releaseLabel_newer hhealth hinstalled h hrelease

/-- Nothing is newer than itself. -/
theorem versionIsNewer_self (e : UpdateEntity) (version : String) :
    e.versionIsNewer version version = false := by
  unfold versionIsNewer
  split
  · rename_i hsuffix
    rw [decide_eq_false_iff_not, before?, if_pos hsuffix, Option.some.injEq]
    intro heq
    have hlength := congrArg List.length heq
    have hle := (List.isSuffixOf_iff_suffix.mp hsuffix).length_le
    rw [webviewOnlySuffix_eq] at hlength hle
    rw [List.length_take] at hlength
    simp only [List.length_cons, List.length_nil] at hlength hle
    omega
  · split
    · rename_i latestKey installedKey hlatest hinstalled
      rw [hlatest, Option.some.injEq] at hinstalled
      split
      · rw [← Bool.not_eq_true, UpdateOffer.feedBuildNewer_eq_true]
        rintro ⟨c, i, hc, hi, hlt⟩
        rw [hc, Option.some.injEq] at hi
        exact absurd hlt (hi ▸ lt_irrefl _)
      · rw [namesNewer, if_neg (not_not_intro hinstalled)]
        cases parseBuildRequest version with
        | none => rfl
        | some code => exact decide_eq_false (lt_irrefl code)
    · rfl

/-- The APK of an offer of the feed is verified; a release has none to verify. -/
def Verified (e : UpdateEntity) (a : ReleaseArtifact) : Prop :=
  ∀ b, e.offer.selectedFeedBuild a = some b → (e.verifiedApk b).isSome = true

/-- A build of the feed is selected only where there is a feed. -/
theorem feed_of_selectedFeedBuild {b : FeedBuild} (h : e.offer.selectedFeedBuild a = some b) :
    e.feed.isSome = true := by
  cases hfeed : e.feed with
  | some c => rfl
  | none =>
    have hoffer : e.offer.feed = none := by rw [offer, hfeed]; rfl
    rw [UpdateOffer.selectedFeedBuild, hoffer] at h
    split at h
    · cases h
    · cases h

/-- The installed version is shown for exactly the offers that are not verified. -/
theorem unverified_iff : ((e.offer.selectedFeedBuild a).any fun b =>
    e.feed.isSome && (e.verifiedApk b).isNone) = true ↔ ¬ e.Verified a := by
  cases hselected : e.offer.selectedFeedBuild a with
  | none =>
    refine iff_of_false Bool.false_ne_true (not_not_intro ?_)
    intro b hb
    rw [hselected] at hb
    cases hb
  | some b =>
    have hverified : e.Verified a ↔ (e.verifiedApk b).isSome = true := by
      rw [Verified, hselected]
      exact ⟨fun h => h b rfl, fun h b' hb' => Option.some.inj hb' ▸ h⟩
    rw [Option.any_some, feed_of_selectedFeedBuild hselected, Bool.true_and, hverified,
      Option.isNone_iff_eq_none, Option.not_isSome_iff_eq_none]

/-- The update entity shows what it offers. With an install route, no update running and no
WebView alone to offer, it shows the label of the artifact it would install, which differs from
the running version and is newer than it, or else the installed version; and a build of the feed
that it would install is one that the refresh of the feed tried to verify for the panel's policy. -/
theorem shows_what_it_offers (T : NumberTexts) (apkUrl : String → String) (e : UpdateEntity) :
    (e.hasInstallRoute = true → e.attempt = none →
      e.webviewOnlyOffer e.appLatestVersion = false →
        (∀ a, e.offer.hostRelease = some a → e.Verified a →
          e.latestVersion = some (e.offer.label a) ∧
            ∃ running, e.runningVersion = some running ∧ e.offer.label a ≠ running ∧
              e.versionIsNewer (e.offer.label a) running = true) ∧
        ((∀ a, e.offer.hostRelease = some a → ¬ e.Verified a) →
          e.latestVersion = e.installedVersion)) ∧
      ∀ events, e.feed = some (feedAfter T apkUrl events) →
        ∀ a, e.offer.hostRelease = some a → isFeedBuildTag a.tag = true →
          ∃ b outcome, a = feedReleaseArtifact b ∧ e.offer.selectedFeedBuild a = some b ∧
            ⟨e.allowPrerelease, b, outcome⟩ ∈ (feedAfter T apkUrl events).tried := by
  refine ⟨?_, ?_⟩
  · intro hroute hattempt hwebview
    have hlatest : e.latestVersion = e.appLatestVersion := by
      unfold latestVersion
      rw [hattempt]
      dsimp only
      split
      · rename_i latest happ
        rw [happ] at hwebview
        rw [if_neg (by rw [hwebview]; exact Bool.false_ne_true), happ]
      · rename_i happ
        exact happ.symm
    constructor
    · intro a ha hverified
      obtain ⟨running, hrunning, hnewer⟩ := label_newer ha
      refine ⟨?_, running, hrunning, ?_, hnewer⟩
      · rw [hlatest, appLatestVersion, if_pos hroute, ha]
        dsimp only
        rw [if_neg (fun hany => unverified_iff.mp hany hverified)]
      · intro heq
        rw [heq, versionIsNewer_self] at hnewer
        cases hnewer
    · intro hnone
      rw [hlatest, appLatestVersion, if_pos hroute]
      split
      · rfl
      · rename_i a ha
        rw [if_pos (unverified_iff.mpr (hnone a ha))]
  · intro events hfeed a ha htag
    obtain ⟨health, key, hhealth, hkey, hsource⟩ := UpdateOffer.hostRelease_source ha
    rcases hsource with ⟨b, hb, rfl⟩ | hrelease
    · have hstate : e.offer.feed = some (feedAfter T apkUrl events).state := by
        rw [offer, hfeed]
        rfl
      obtain ⟨outcome, houtcome⟩ := UpdateOffer.feedOffer_verification (tried_after T apkUrl events)
        hstate hhealth hkey hb
      exact ⟨b, outcome, rfl, UpdateOffer.selectedFeedBuild_eq hb, houtcome⟩
    · rw [(UpdateOffer.releaseOffers_newer hkey hrelease).1] at htag
      cases htag

/-! ### A refreshed feed -/

/-- The newest build of the feed; its APK is of four bytes. -/
def newestEntry : FeedEntry := { ownEntry with apkSize := ⟨4, by decide⟩ }

theorem schema_mem : "io.panelassistant.android.buildfeed.v1" ∈ buildFeedSchemas := by
  decide

theorem beta_mem : "beta" ∈ feedChannels := by
  decide

def refreshedFeed : FeedDocument where
  schema := ⟨_, schema_mem⟩
  channel := ⟨_, beta_mem⟩
  entries := [newestEntry]
  bounded := by
    rw [List.length_singleton]
    decide

def offered : FeedBuild :=
  { newestEntry.feedBuild id newClassesSuccessorLaunch with
    protocolMin := some 5
    protocolMax := some 5 }

def fetched : FetchedFeed where
  body := feedBody refreshedFeed
  ranges := (∅ : Dict String (ℤ × ℤ)).set newestEntry.apkSha256.1 (5, 5)

/-- The read succeeds, and so does the download of the APK. -/
def refreshed : FeedEvent := .refreshed ∅ (some fetched) fun _ _ => some [1, 2, 3, 4]

theorem length_refreshedFeed : (feedText asciiQuote refreshedFeed).length ≤ maxFeedBytes := by
  have hentry : (render asciiQuote (Nat.toDigits 10) newestEntry.tree).length ≤ 1679 :=
    length_ownEntry newestEntry.apkSize
  refine length_feedText_le ?_
  simp only [refreshedFeed, List.map_cons, List.map_nil, render, renderItems, List.length_append,
    List.length_cons, List.length_nil]
  omega

theorem fetch_refreshed : fetchBuildFeed ⟨id, id⟩ id fetched =
    some ⟨"beta", [offered], List.nodup_singleton _⟩ := by
  have hspells : Spells asciiQuote refreshedFeed (feedBody refreshedFeed) :=
    spells_feedBody length_refreshedFeed
  have hbuilds : refreshedFeed.feedBuilds id =
    [newestEntry.feedBuild id newClassesSuccessorLaunch] := by
    decide
  have hparse : parseBuildFeed ⟨id, id⟩ id (feedBody refreshedFeed) =
      some ⟨"beta", [newestEntry.feedBuild id newClassesSuccessorLaunch],
        List.nodup_singleton _⟩ := by
    refine parseBuildFeed_iff.mpr ⟨hspells.2, refreshedFeed, hspells.1, ?_, ?_, rfl, ?_⟩
    · intro e he
      rw [List.mem_singleton.mp he]
      decide
    · rw [hbuilds]
      exact List.nodup_singleton _
    · rw [hbuilds]
      rfl
  rw [fetchBuildFeed]
  dsimp only [fetched]
  rw [hparse]
  rfl

def coordinator : FeedCoordinator where
  state := ⟨true, some ⟨"beta", [offered], List.nodup_singleton _⟩⟩
  verifiedApks := (∅ : Dict String (List UInt8)).set offered.apkSha256 [1, 2, 3, 4]
  tried := [⟨true, offered, .downloaded⟩]

/-- Only the policy that admits prereleases admits the build. -/
theorem policyBuilds_refreshed (allowPrerelease : Bool) :
    FeedCoordinator.policyBuilds ⟨"beta", [offered], List.nodup_singleton _⟩ allowPrerelease =
      if allowPrerelease then [offered] else [] := by
  have hallowed : buildAllowed "0.10.0-rc2" (some 5) (some 5) allowPrerelease =
    allowPrerelease := by
    revert allowPrerelease
    decide
  have hoffered : buildAllowed offered.versionName offered.protocolMin offered.protocolMax
      allowPrerelease = allowPrerelease := hallowed
  rw [FeedCoordinator.policyBuilds, List.filter_singleton, hoffered, Bool.cond_eq_ite]

theorem after_refreshed : feedAfter ⟨id, id⟩ id [refreshed] = coordinator := by
  have hrefresh : ∀ f : FetchedFeed,
      fetchBuildFeed ⟨id, id⟩ id f = some ⟨"beta", [offered], List.nodup_singleton _⟩ →
      feedAfter ⟨id, id⟩ id [.refreshed ∅ (some f) fun _ _ => some [1, 2, 3, 4]] = coordinator := by
    intro f hf
    have hnone : newestFeedBuild [] = none := rfl
    have hsome : newestFeedBuild [offered] = some offered := rfl
    simp only [feedAfter, Runs.run_cons, Runs.run_nil, feedStep, FeedCoordinator.refresh,
      Option.bind_some, hf, FeedCoordinator.verifyNewest, policyBuilds_refreshed, if_true,
      Bool.false_eq_true, if_false, hnone, hsome]
    rfl
  exact hrefresh fetched fetch_refreshed

/-- A panel that runs an older build. -/
def outdated : UpdateEntity where
  health := some ⟨"0.9.6", some ⟨772, by decide⟩, some packageId⟩
  feed := some coordinator
  release := none
  installedCode := none
  allowPrerelease := true
  attempt := none
  hasInstallRoute := true
  hasTransportUser := true
  webview := none

theorem hostRelease_outdated : outdated.offer.hostRelease = some (feedReleaseArtifact offered) := by
  decide

/-- The build of the refreshed feed is shown to a panel that runs an older one. -/
theorem shows_what_it_offers_refreshed :
    outdated.latestVersion = some (outdated.offer.label (feedReleaseArtifact offered)) ∧
      (∃ running, outdated.runningVersion = some running ∧
        outdated.versionIsNewer (outdated.offer.label (feedReleaseArtifact offered)) running =
          true) ∧
      ∃ b outcome, feedReleaseArtifact offered = feedReleaseArtifact b ∧
        ⟨true, b, outcome⟩ ∈ (feedAfter ⟨id, id⟩ id [refreshed]).tried := by
  obtain ⟨hshows, htries⟩ := shows_what_it_offers ⟨id, id⟩ id outdated
  have hverified : outdated.Verified (feedReleaseArtifact offered) := by
    have hselected : outdated.offer.selectedFeedBuild (feedReleaseArtifact offered) =
      some offered := by
      decide
    intro b hb
    rw [hselected] at hb
    obtain rfl := Option.some.inj hb
    decide
  have hwebview : outdated.webviewOnlyOffer outdated.appLatestVersion = false := by
    rw [webviewOnlyOffer, show outdated.webview = none from rfl, Option.any_none, Bool.and_false]
  obtain ⟨hlatest, running, hrunning, -, hnewer⟩ :=
    (hshows rfl rfl hwebview).1 _ hostRelease_outdated hverified
  obtain ⟨b, outcome, hbuild, -, htried⟩ :=
    htries [refreshed] (congrArg some after_refreshed.symm) _
    hostRelease_outdated (isFeedBuildTag_feedBuildTag _)
  exact ⟨hlatest, ⟨running, hrunning, hnewer⟩, b, outcome, hbuild, htried⟩

end UpdateEntity

end PanelAssistant
