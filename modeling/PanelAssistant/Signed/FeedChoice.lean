import PanelAssistant.Signed.FeedAgreement

/-!
# Which build a tag names on both sides

A feed build tag names a version code and a package, in both languages alike. The browser then
rebuilds the descriptor of the build and reads it again, which adds one check: the database range
of that build. `feed_agreement_iff` says exactly which feeds the two sides decide differently.
-/

namespace PanelAssistant

open Library Library.Text Library.JsonTree Library.Ranking

variable {T : NumberTexts}

/-! ## Tags -/

theorem before?_eq_some {literal cs rest : List Char} (h : before? literal cs = some rest) :
    cs = rest ++ literal := by
  rw [before?] at h
  split at h
  · rename_i hsuffix
    obtain rfl := Option.some.inj h
    obtain ⟨front, rfl⟩ := List.isSuffixOf_iff_suffix.mp hsuffix
    rw [List.length_append, Nat.add_sub_cancel, List.take_left]
  · cases h

/-- What the digits of a feed build tag are read from. -/
theorem feedBuildDigits_some {tag : String} {digits : List Char}
    (h : feedBuildDigits tag = some digits) :
    isPositiveNumeral digits = true ∧ digits.length ≤ 10 ∧
      (tag.toList = "build-".toList ++ digits ∧
          (before? "-successor".toList tag.toList).isSome = false ∨
        tag.toList = "build-".toList ++ digits ++ "-successor".toList) := by
  obtain ⟨rest, hrest, h⟩ := Option.bind_eq_some_iff.mp h
  have htag := after?_eq_some hrest
  dsimp only at h
  split at h
  · rename_i hdigits
    obtain rfl := Option.some.inj h
    rw [Bool.and_eq_true, decide_eq_true_eq] at hdigits
    refine ⟨hdigits.1, hdigits.2, ?_⟩
    cases hsuccessor : before? "-successor".toList rest with
    | some front =>
      right
      rw [htag, before?_eq_some hsuccessor, Option.getD_some, List.append_assoc]
    | none =>
      rw [hsuccessor, Option.getD_none] at hdigits
      left
      rw [Option.getD_none]
      refine ⟨htag, ?_⟩
      cases hbefore : before? "-successor".toList tag.toList with
      | none => rfl
      | some front =>
        -- a suffix of the whole tag that is no suffix of the digits would end in a digit
        have heq := htag.symm.trans (before?_eq_some hbefore)
        have hlast := congrArg List.getLast? heq
        have hne : rest ≠ [] := by
          rintro rfl
          exact absurd hdigits.1 (by decide)
        rw [List.getLast?_append_of_ne_nil _ hne, List.getLast?_append_of_ne_nil _ (by decide)]
          at hlast
        obtain ⟨c, hc⟩ := Option.isSome_iff_exists.mp (List.getLast?_isSome.mpr hne)
        have hr : c = 'r' := by
          rw [hc] at hlast
          exact Option.some.inj hlast
        have hmem : c ∈ rest := List.mem_of_getLast? hc
        have hdigit : c.isDigit = true ∨ isDigit c = true := by
          right
          cases rest with
          | nil => exact absurd rfl hne
          | cons d ds =>
            simp only [isPositiveNumeral, Bool.and_eq_true, List.all_eq_true] at hdigits
            rcases List.mem_cons.mp hmem with rfl | hmem
            · exact hdigits.1.1.1
            · exact hdigits.1.2 c hmem
        rw [hr] at hdigit
        exact absurd hdigit (by decide)
  · cases h

theorem length_feedBuildTag {tag : String} {digits : List Char}
    (h : feedBuildDigits tag = some digits) : tag.length ≤ maxTagLength := by
  obtain ⟨-, hdigits, htag | htag⟩ := feedBuildDigits_some h
  · rw [← String.length_toList, htag.1, List.length_append]
    exact (Nat.add_le_add_left hdigits _).trans (by decide)
  · rw [← String.length_toList, htag, List.length_append, List.length_append]
    exact (Nat.add_le_add_right (Nat.add_le_add_left hdigits _) _).trans (by decide)

/-- A feed build tag is short enough for the browser, so both sides read the same code. -/
theorem buildTagVersionCode_eq (tag : String) :
    Browser.buildTagVersionCode tag = feedBuildCode tag := by
  cases hdigits : feedBuildDigits tag with
  | none => simp only [Browser.buildTagVersionCode, feedBuildCode, hdigits,
    Option.bind_none, ite_self]
  | some digits =>
    rw [Browser.buildTagVersionCode, if_pos (length_feedBuildTag hdigits), feedBuildCode]

theorem buildTagPackageId_eq (tag : String) :
    Browser.buildTagPackageId tag = feedBuildPackage tag := by
  rw [Browser.buildTagPackageId, Browser.isBuildTag, buildTagVersionCode_eq, feedBuildPackage]
  cases feedBuildCode tag with
  | none => rfl
  | some code =>
    simp only [Option.isSome_some, Bool.not_true, Bool.false_eq_true, if_false, Option.map_some]
    split <;> rfl

/-- The tag of a build of this app is the one tag of its code. -/
theorem feedBuildTag_of_package {tag : String} {code : ℕ} (hcode : feedBuildCode tag = some code)
    (hpackage : feedBuildPackage tag = some packageId) : tag = feedBuildTag code := by
  obtain ⟨digits, hdigits, hdecimal⟩ := Option.bind_eq_some_iff.mp hcode
  obtain ⟨hpositive, -, htag⟩ := feedBuildDigits_some hdigits
  split at hdecimal
  · obtain rfl := Option.some.inj hdecimal
    rcases htag with ⟨-, hbare⟩ | htag
    · have hne : legacyPackageId ≠ packageId := by decide
      rw [feedBuildPackage, hcode, hbare] at hpackage
      exact absurd (Option.some.inj hpackage) hne
    · apply String.toList_inj.mp
      rw [htag, feedBuildTag, String.toList_append, String.toList_append, Nat.toString_eq_repr,
        Nat.toList_repr, toDigits_decimal hpositive]
  · cases hdecimal

/-! ## The chosen build -/

theorem launcher?_some {e : FeedEntry} {launcher : String} (h : e.launcher? = some launcher) :
    e.packageId = units packageId ∧ launcher ∈ launchComponents := by
  rw [FeedEntry.launcher?] at h
  split at h
  · rename_i hpackage
    exact ⟨hpackage, List.mem_of_find?_eq_some h⟩
  · cases h

theorem mem_installable {doc : FeedDocument} {e : FeedEntry} {launcher : String} :
    (e, launcher) ∈ doc.installable ↔ e ∈ doc.entries ∧ e.launcher? = some launcher := by
  simp only [FeedDocument.installable, List.mem_filterMap, Option.map_eq_some_iff, Prod.mk.injEq]
  constructor
  · rintro ⟨e', he', launcher', hlauncher, rfl, rfl⟩
    exact ⟨he', hlauncher⟩
  · rintro ⟨he, hlauncher⟩
    exact ⟨e, he, launcher, hlauncher, rfl, rfl⟩

/-- A short text that every spelling writes as itself. -/
def ShortPlain (s : String) : Prop := plain s = true ∧ s.length ≤ 100

theorem shortPlain_sha256 {s : String} (h : isSha256 s = true) : ShortPlain s ∧ s.length = 64 := by
  have hplain := plain_of_sha256 h
  simp only [isSha256, repeats, Bool.and_eq_true, decide_eq_true_eq, String.length_toList] at h
  exact ⟨⟨hplain, by omega⟩, by omega⟩

theorem shortPlain_versionName {s : String} (h : isBuildVersionName s = true) :
    ShortPlain s ∧ s.length ≤ maxTagLength := by
  have hplain := plain_of_versionName h
  have hlength : s.length ≤ 64 := by
    rw [← String.length_toList]
    unfold isBuildVersionName at h
    split at h
    · cases h
    · rename_i c rest heq
      simp only [repeats, Bool.and_eq_true, decide_eq_true_eq] at h
      rw [heq, List.length_cons]
      omega
  have hmax : maxTagLength = 64 := rfl
  exact ⟨⟨hplain, by omega⟩, by omega⟩

theorem shortPlain_database {s : String} (h : databaseRangeValid s = true) : ShortPlain s := by
  refine ⟨plain_of_databaseRangeValid h, ?_⟩
  unfold databaseRangeValid at h
  split at h
  · rename_i low high heq
    obtain ⟨rest, hrest, hsplit⟩ := Option.map_eq_some_iff.mp heq
    simp only [Bool.and_eq_true, decide_eq_true_eq] at h
    have hjoin : [':'].intercalate (List.splitOn ':' rest) = rest := List.intercalate_splitOn ':'
    rw [hsplit] at hjoin
    have hlength : rest.length ≤ 21 := by
      rw [← hjoin]
      simp only [List.intercalate, List.intersperse, List.flatten_cons, List.flatten_nil,
        List.length_append, List.length_cons, List.length_nil]
      omega
    rw [← String.length_toList, after?_eq_some hrest, List.length_append]
    exact (Nat.add_le_add_left hlength _).trans (by decide)
  · cases h

theorem shortPlain_feedBuildTag (code : VersionCode) : ShortPlain (feedBuildTag code) := by
  have hdigits : (Nat.toDigits 10 code.1).all plainChar = true := by
    refine all_mono ?_ (all_isDigit_toDigits code.1)
    intro c hc
    exact plainChar_of_digit hc
  have hlength : (Nat.toDigits 10 code.1).length ≤ 10 :=
    length_toDigits_le code.2.2
  have htext : (feedBuildTag code).toList =
      "build-".toList ++ Nat.toDigits 10 code.1 ++ "-successor".toList := by
    rw [feedBuildTag, String.toList_append, String.toList_append, Nat.toString_eq_repr,
      Nat.toList_repr]
  constructor
  · rw [plain, htext, List.all_append, List.all_append, hdigits]
    decide
  · rw [← String.length_toList, htext, List.length_append, List.length_append]
    exact (Nat.add_le_add_right (Nat.add_le_add_left hlength _) _).trans (by decide)

variable {e : FeedEntry} {launcher : String}

/-- Only the database range of a rebuilt descriptor can be long. -/
theorem texts_descriptor (hlauncher : e.launcher? = some launcher) :
    ∀ s ∈ (e.descriptor launcher (feedBuildTag e.versionCode)).texts,
      ShortPlain s ∨ s = e.databaseCompatibility.1 := by
  have hlaunchers : ∀ c ∈ launchComponents, ShortPlain c := by
    unfold ShortPlain
    decide
  have hschema : ShortPlain (installDescriptorSchemas.headD "") := by
    unfold ShortPlain
    decide
  have hpackage : ShortPlain packageId := by
    unfold ShortPlain
    decide
  have hsigner : ShortPlain releaseSignerCertificateSha256 := by
    unfold ShortPlain
    decide
  have hsha := shortPlain_sha256 e.apkSha256.2
  have hname : ShortPlain (e.apkSha256.1 ++ ".apk") := by
    constructor
    · rw [plain_append, hsha.1.1]
      decide
    · rw [String.length_append, hsha.2]
      decide
  simp only [InstallDescriptor.texts, FeedEntry.descriptor, List.forall_mem_cons]
  exact ⟨.inl hschema, .inl (shortPlain_feedBuildTag e.versionCode),
    .inl (shortPlain_versionName e.versionName.2).1, .inl hname, .inl hsha.1, .inl hpackage,
    .inl hsigner, .inr trivial, .inl (hlaunchers launcher (launcher?_some hlauncher).2),
    fun _ h => absurd h List.not_mem_nil⟩

theorem plain_descriptor (hlauncher : e.launcher? = some launcher) :
    ∀ s ∈ (e.descriptor launcher (feedBuildTag e.versionCode)).texts, plain s = true := by
  intro s hs
  rcases texts_descriptor hlauncher s hs with h | rfl
  · exact h.1
  · exact plain_of_feedDatabase e.databaseCompatibility.2

theorem described_descriptor (hlauncher : e.launcher? = some launcher) :
    Described (e.descriptor launcher (feedBuildTag e.versionCode)) :=
  ⟨fun s hs => ascii_of_plain (plain_descriptor hlauncher s hs), e.apkSize.2, e.minSdk.2, rfl⟩

theorem descriptorText_injective {quote : List CodeUnit → List Char} (hquote : Reads quote)
    {d d' : InstallDescriptor} (hd : Described d) (hd' : Described d')
    (h : descriptorText quote d = descriptorText quote d') : d = d' := by
  have hread : ∀ {d : InstallDescriptor}, Described d →
      ((jsonLoads (descriptorText quote d)).bind fun document =>
        (python.object installDescriptorFields document).bind (readDescriptor python)) =
          some d := by
    intro d hd
    have hloads : jsonLoads (descriptorText quote d) = some ((descriptorTree d).map python.ofNat) :=
      jsonLoads_render hquote (wellFormed_descriptorTree hd)
    have hobject := python.object_objectOf installDescriptorFields_nodup
      fun name => (descriptorValue d name).map python.ofNat
    rw [← map_objectOf, ← descriptorTree] at hobject
    rw [hloads, Option.bind_some, hobject, Option.bind_some]
    exact readDescriptor_of hd fun name hname => field_objectOf installDescriptorFields_nodup hname
  have hdescriptor := hread hd
  rw [h, hread hd', Option.some.injEq] at hdescriptor
  exact hdescriptor.symm

namespace Browser

/-- What the browser checks of the rebuilt descriptor is the range of its database. -/
theorem accepts_descriptor (hlauncher : e.launcher? = some launcher) :
    accepts (e.descriptor launcher (feedBuildTag e.versionCode)) (feedBuildTag e.versionCode)
      e.apkSha256.1 = databaseRangeValid e.databaseCompatibility.1 := by
  have hfeed := isFeedBuildTag_feedBuildTag e.versionCode
  have hgithub : isGithubTag (feedBuildTag e.versionCode) = false := by
    rw [isGithubTag_eq, Bool.eq_false_iff]
    intro hrelease
    rw [not_feedBuildTag_of_release hrelease] at hfeed
    cases hfeed
  have hcode := feedBuildCode_feedBuildTag e.versionCode
  have hpackage : feedBuildPackage (feedBuildTag e.versionCode) = some packageId := by
    have htext : (feedBuildTag e.versionCode).toList =
        ("build-".toList ++ Nat.toDigits 10 e.versionCode.1) ++ "-successor".toList := by
      rw [feedBuildTag, String.toList_append, String.toList_append, Nat.toString_eq_repr,
        Nat.toList_repr]
    rw [feedBuildPackage, hcode, htext, before?_append]
    rfl
  have hname := (shortPlain_versionName e.versionName.2).2
  have hlaunch : isLaunchComponent (.str packageId) (.str launcher) = true :=
    isLaunchComponent_iff.mpr ⟨rfl, (launcher?_some hlauncher).2⟩
  have hschema : installDescriptorSchemas.contains (installDescriptorSchemas.headD "") = true := by
    decide
  simp only [accepts, descriptorIdentityValid, hgithub, buildTagVersionCode_eq, hcode,
    buildTagPackageId_eq, hpackage, FeedEntry.descriptor, isBuildVersionName, hname, hlaunch,
    hschema, e.versionName.2, beq_self_eq_true, databaseValid_eq, decide_true, Bool.true_and,
    Bool.false_eq_true, if_false, Bool.and_self]

/-- The rebuilt descriptor is read back, and is accepted exactly when the range is in bounds. -/
theorem parse_descriptor_iff (hlauncher : e.launcher? = some launcher) {d : InstallDescriptor} :
    parseUnauthenticatedDescriptor T
        (encodeUtf8 (descriptorText wellFormedQuote
          (e.descriptor launcher (feedBuildTag e.versionCode))))
        (feedBuildTag e.versionCode) e.apkSha256.1 = some d ↔
      databaseRangeValid e.databaseCompatibility.1 = true ∧
        d = e.descriptor launcher (feedBuildTag e.versionCode) := by
  have hdescribed := described_descriptor hlauncher
  have htext := descriptorText_eq (plain_descriptor hlauncher) hdescribed.supportedAbis
  obtain ⟨bytes, hbytes⟩ := exists_encodeAscii
    (ascii_descriptorText (e.descriptor launcher (feedBuildTag e.versionCode)))
  rw [htext, encodeUtf8_of_ascii hbytes, parseUnauthenticatedDescriptor_iff]
  constructor
  · rintro ⟨-, hd, hbody, haccepts⟩
    have heq : descriptorText wellFormedQuote d = descriptorText wellFormedQuote
        (e.descriptor launcher (feedBuildTag e.versionCode)) := by
      have hread := decodeAscii_of_encode hbody
      rw [decodeAscii_of_encode hbytes, Option.some.injEq] at hread
      rw [htext, hread]
    obtain rfl := descriptorText_injective reads_wellFormedQuote hd hdescribed heq
    rw [accepts_descriptor hlauncher] at haccepts
    exact ⟨haccepts, rfl⟩
  · rintro ⟨hrange, rfl⟩
    have hshort : ∀ s ∈ (e.descriptor launcher (feedBuildTag e.versionCode)).texts,
        s.length ≤ 100 := by
      intro s hs
      rcases texts_descriptor hlauncher s hs with h | rfl
      · exact h.2
      · exact (shortPlain_database hrange).2
    have hlength := length_descriptorText hdescribed (plain_descriptor hlauncher) hshort
    rw [← length_of_encodeAscii hbytes] at hlength
    have hpos : 0 < bytes.length := by
      rw [length_of_encodeAscii hbytes]
      simp [descriptorText]
    have hbuild : isBuildTag (feedBuildTag e.versionCode) = true := by
      rw [isBuildTag, buildTagVersionCode_eq]
      exact isFeedBuildTag_feedBuildTag e.versionCode
    refine ⟨?_, hdescribed, by rw [htext, hbytes], (accepts_descriptor hlauncher).trans hrange⟩
    simp only [admits, hbuild, e.apkSha256.2, hpos, hlength, Bool.or_true, and_self, decide_true,
      Bool.and_self]

end Browser

/-! ## Both sides -/

/-- The descriptor of the build that a tag names, in a feed Python accepts. -/
def feedDescriptor (T : NumberTexts) (apkUrl : String → String) (body : List UInt8) (tag : String) :
    Option InstallDescriptor := do
  let feed ← parseBuildFeed T apkUrl body
  let code ← feedBuildCode tag
  let package ← feedBuildPackage tag
  let build ← feed.find code package
  (feedReleaseArtifact build).descriptor

/-- A body is the canonical text of a feed, in the spelling of one side. -/
def Spells (quote : List CodeUnit → List Char) (doc : FeedDocument) (body : List UInt8) : Prop :=
  encodeAscii (feedText quote doc) = some body ∧ body.length ≤ maxFeedBytes

/-- A tag names this installable entry of the feed, and no other. -/
structure FeedDocument.Names (doc : FeedDocument) (tag : String) (e : FeedEntry)
    (launcher : String) : Prop where
  distinct : (doc.installable.map fun e => e.1.versionCode).Nodup
  mem : (e, launcher) ∈ doc.installable
  code : feedBuildCode tag = some e.versionCode.1
  package : feedBuildPackage tag = some packageId
  range : databaseRangeValid e.databaseCompatibility.1 = true

theorem FeedDocument.Names.tag_eq {doc : FeedDocument} {tag : String}
    (h : doc.Names tag e launcher) :
    tag = feedBuildTag e.versionCode :=
  feedBuildTag_of_package h.code h.package

/-- One installable entry has the code. -/
theorem eq_of_code {doc : FeedDocument} {e' : FeedEntry × String}
    (hdistinct : (doc.installable.map fun e => e.1.versionCode).Nodup)
    (hmem : (e, launcher) ∈ doc.installable) (hmem' : e' ∈ doc.installable)
    (hcode : e'.1.versionCode.1 = e.versionCode.1) : e' = (e, launcher) :=
  List.inj_on_of_nodup_map hdistinct hmem' hmem (Subtype.ext hcode)

theorem feedBuilds_codes (apkUrl : String → String) (doc : FeedDocument) :
    (doc.feedBuilds apkUrl).map (·.versionCode) = doc.installable.map fun e => e.1.versionCode := by
  rw [FeedDocument.feedBuilds, List.map_map]
  rfl

theorem find_of_mem {feed : BuildFeed} {b : FeedBuild} (hmem : b ∈ feed.builds) :
    feed.find b.versionCode b.packageId = some b := by
  apply find?_of_unique hmem (by simp)
  intro b' hb' h
  rw [Bool.and_eq_true, beq_iff_eq] at h
  exact List.inj_on_of_nodup_map feed.codes hb' hmem (Subtype.ext h.1)

theorem feedBuild_descriptor (apkUrl : String → String) :
    (feedReleaseArtifact (e.feedBuild apkUrl launcher)).descriptor =
      some (e.descriptor launcher (feedBuildTag e.versionCode)) := rfl

/-- Python accepts a feed in its own spelling with every range in bounds. -/
theorem feedDescriptor_iff {apkUrl : String → String} {body : List UInt8} {tag : String}
    {d : InstallDescriptor} :
    feedDescriptor T apkUrl body tag = some d ↔
      ∃ doc e launcher, Spells asciiQuote doc body ∧ doc.RangesValid ∧ doc.Names tag e launcher ∧
        d = e.descriptor launcher tag := by
  constructor
  · intro h
    obtain ⟨feed, hfeed, h⟩ := Option.bind_eq_some_iff.mp h
    obtain ⟨code, hcode, h⟩ := Option.bind_eq_some_iff.mp h
    obtain ⟨package, hpackage, h⟩ := Option.bind_eq_some_iff.mp h
    obtain ⟨b, hb, hdescriptor⟩ := Option.bind_eq_some_iff.mp h
    obtain ⟨hsize, doc, hbody, hrange, hcodes, -, hbuilds⟩ := parseBuildFeed_iff.mp hfeed
    have hmem := List.mem_of_find?_eq_some hb
    have hfound := List.find?_some hb
    rw [Bool.and_eq_true, beq_iff_eq, beq_iff_eq] at hfound
    rw [hbuilds, (List.perm_insertionSort _ _).mem_iff] at hmem
    obtain ⟨⟨e, launcher⟩, hentry, rfl⟩ := List.mem_map.mp hmem
    obtain ⟨rfl, rfl⟩ := hfound
    rw [feedBuilds_codes] at hcodes
    have hnames : doc.Names tag e launcher :=
      ⟨hcodes, hentry, hcode, hpackage, hrange e (mem_installable.mp hentry).1⟩
    refine ⟨doc, e, launcher, ⟨hbody, hsize⟩, hrange, hnames, ?_⟩
    rw [feedBuild_descriptor, ← hnames.tag_eq] at hdescriptor
    exact (Option.some.inj hdescriptor).symm
  · rintro ⟨doc, e, launcher, ⟨hbody, hsize⟩, hrange, hnames, rfl⟩
    have hcodes := hnames.distinct
    rw [← feedBuilds_codes apkUrl] at hcodes
    have hperm := List.perm_insertionSort (descending fun b : FeedBuild => b.versionCode.1)
      (doc.feedBuilds apkUrl)
    let feed : BuildFeed :=
      { channel := doc.channel.1
        builds := (doc.feedBuilds apkUrl).insertionSort (descending fun b => b.versionCode.1)
        codes := (hperm.map _).nodup_iff.mpr hcodes }
    have hfeed : parseBuildFeed T apkUrl body = some feed :=
      parseBuildFeed_iff.mpr ⟨hsize, doc, hbody, hrange, hcodes, rfl, rfl⟩
    have hmem : e.feedBuild apkUrl launcher ∈ feed.builds :=
      hperm.mem_iff.mpr (List.mem_map_of_mem hnames.mem)
    have hfind : feed.find e.versionCode.1 packageId = some (e.feedBuild apkUrl launcher) :=
      find_of_mem hmem
    rw [feedDescriptor, hfeed, hnames.code, hnames.package]
    simp only [Option.bind_eq_bind, Option.bind_some]
    rw [hfind, Option.bind_some, feedBuild_descriptor, ← hnames.tag_eq]

namespace Browser

theorem jsonStringify_tree (d : InstallDescriptor) :
    jsonStringify T ((descriptorTree d).map browser.ofNat) ++ ['\n'] =
      descriptorText wellFormedQuote d := by
  rw [jsonStringify, render_map, jsText_ofNat, descriptorText]

/-- The browser accepts a feed in its own spelling, whatever the ranges of the other entries. -/
theorem verifyFeedBundle_iff {body : List UInt8} {tag : String} {d : InstallDescriptor} :
    verifyFeedBundle T body tag = some d ↔
      ∃ doc e launcher, Spells wellFormedQuote doc body ∧ doc.Names tag e launcher ∧
        d = e.descriptor launcher tag := by
  have hpackages : ∀ doc : FeedDocument,
      (doc.installable.map fun e => (e.1.versionCode.1, e.1.packageId)) =
        (doc.installable.map fun e => e.1.versionCode).map fun c => (c.1, units packageId) := by
    intro doc
    rw [List.map_map]
    apply List.map_congr_left
    rintro ⟨e, launcher⟩ hmem
    exact congrArg _ (launcher?_some (mem_installable.mp hmem).2).1
  have hinj : Function.Injective fun c : VersionCode => (c.1, units packageId) :=
    fun _ _ h => Subtype.ext (congrArg Prod.fst h)
  constructor
  · intro h
    obtain ⟨code, hcode, h⟩ := Option.bind_eq_some_iff.mp h
    split at h
    · rename_i hsize
      obtain ⟨text, htext, h⟩ := Option.bind_eq_some_iff.mp h
      obtain ⟨document, hdocument, h⟩ := Option.bind_eq_some_iff.mp h
      obtain ⟨doc, hread, h⟩ := Option.bind_eq_some_iff.mp h
      split at h
      · rename_i hcanonical
        split at h
        · rename_i hnodup
          obtain ⟨package, hpackage, h⟩ := Option.bind_eq_some_iff.mp h
          obtain ⟨⟨e, launcher⟩, hfind, h⟩ := Option.bind_eq_some_iff.mp h
          rw [hpackages, List.nodup_map_iff hinj] at hnodup
          have hmem := List.mem_of_find?_eq_some hfind
          have hlauncher := (mem_installable.mp hmem).2
          have hfound := List.find?_some hfind
          rw [Bool.and_eq_true, beq_iff_eq, beq_iff_eq, (launcher?_some hlauncher).1] at hfound
          have hsorted := (readFeed_some sorts_units (jsonParse_proper hdocument) hread).1
          rw [canonicalJson_feed hsorted] at hcanonical
          rw [buildTagVersionCode_eq] at hcode
          rw [buildTagPackageId_eq] at hpackage
          have hsame : packageId = package := by
            apply units_inj (by decide) ?_ hfound.2
            rw [feedBuildPackage, hcode, Option.map_some, Option.some.injEq] at hpackage
            rw [← hpackage]
            split <;> decide
          rw [← hfound.1] at hcode
          rw [← hsame] at hpackage
          have htag : tag = feedBuildTag e.versionCode := feedBuildTag_of_package hcode hpackage
          dsimp only at h
          rw [jsonStringify_tree, htag, parse_descriptor_iff hlauncher] at h
          refine ⟨doc, e, launcher, ⟨?_, hsize.2⟩, ⟨hnodup, hmem, hcode, hpackage, h.1⟩, htag ▸ h.2⟩
          rw [feedText, ← hcanonical]
          exact encodeAscii_of_decode htext
        · cases h
      · cases h
    · cases h
  · rintro ⟨doc, e, launcher, ⟨hbody, hsize⟩, hnames, rfl⟩
    have hlauncher := (mem_installable.mp hnames.mem).2
    have hdecode := decodeAscii_of_encode hbody
    have hparse : jsonParse (feedText wellFormedQuote doc) = some (doc.tree.map browser.ofNat) :=
      jsonParse_render reads_wellFormedQuote (wellFormed_feed doc)
    have hread : readFeed browser (fun _ => true) (doc.tree.map browser.ofNat) = some doc :=
      readFeed_of doc fun _ _ => rfl
    have hcanonical := canonicalJson_feed (T := T)
      (sortKeys_feed sorts_units doc (jsonParse_proper hparse))
    have hpos : 0 < body.length := by
      rw [length_of_encodeAscii hbody]
      simp [feedText]
    have hnodup := hnames.distinct
    rw [← List.nodup_map_iff hinj, ← hpackages] at hnodup
    have hfind : (doc.installable.find? fun b =>
        b.1.versionCode.1 == e.versionCode.1 && b.1.packageId == units packageId) =
          some (e, launcher) := by
      apply find?_of_unique hnames.mem
      · rw [(launcher?_some hlauncher).1, beq_self_eq_true, beq_self_eq_true]
        rfl
      · intro b hb h
        rw [Bool.and_eq_true, beq_iff_eq] at h
        exact eq_of_code hnames.distinct hnames.mem hb h.1
    have htext : feedText wellFormedQuote doc =
        canonicalJson T (doc.tree.map browser.ofNat) ++ ['\n'] := by
      rw [hcanonical, feedText]
    have hdescriptor := (parse_descriptor_iff (T := T) hlauncher).mpr ⟨hnames.range, rfl⟩
    rw [← hnames.tag_eq] at hdescriptor
    simp only [verifyFeedBundle, buildTagVersionCode_eq, hnames.code, buildTagPackageId_eq,
      hnames.package, Option.bind_eq_bind, Option.bind_some, if_pos (And.intro hpos hsize), hdecode,
      hparse, hread, if_pos htext, if_pos hnodup, hfind, jsonStringify_tree,
      hdescriptor]

end Browser

/-- A body spells one feed. -/
theorem Spells.unique {quote quote' : List CodeUnit → List Char} (hquote : Reads quote)
    (hquote' : Reads quote') {doc doc' : FeedDocument} {body : List UInt8}
    (h : Spells quote doc body) (h' : Spells quote' doc' body) : doc = doc' := by
  apply feedText_injective hquote hquote'
  have hread := decodeAscii_of_encode h.1
  rw [decodeAscii_of_encode h'.1, Option.some.injEq] at hread
  exact hread.symm

theorem Spells.portable {doc : FeedDocument} {body : List UInt8}
    (h : Spells wellFormedQuote doc body)
    (h' : Spells asciiQuote doc body) : doc.Portable := by
  rw [← feedText_eq_iff]
  have hread := decodeAscii_of_encode h'.1
  rw [decodeAscii_of_encode h.1, Option.some.injEq] at hread
  exact hread

theorem spells_iff {doc : FeedDocument} (hportable : doc.Portable) (body : List UInt8) :
    Spells wellFormedQuote doc body ↔ Spells asciiQuote doc body := by
  rw [Spells, Spells, (feedText_eq_iff doc).mpr hportable]

/-- The condition under which the two sides decide a feed alike: where its body is what Python
writes and every range is in bounds, the free names are portable; where its body is what the
browser writes, both hold. -/
def DecidedAlike (body : List UInt8) (tag : String) : Prop :=
  ∀ doc e launcher, doc.Names tag e launcher →
    (Spells asciiQuote doc body → doc.RangesValid → doc.Portable) ∧
      (Spells wellFormedQuote doc body → doc.RangesValid ∧ doc.Portable)

/-- The browser and Python accept the same feeds for a tag, with the same descriptor, exactly when
the condition holds. -/
theorem feed_agreement_iff (T : NumberTexts) (apkUrl : String → String) (body : List UInt8)
    (tag : String) :
    Browser.verifyFeedBundle T body tag = feedDescriptor T apkUrl body tag ↔
      DecidedAlike body tag := by
  constructor
  · intro h doc e launcher hnames
    constructor
    · intro hspells hrange
      have hpython : feedDescriptor T apkUrl body tag = some (e.descriptor launcher tag) :=
        feedDescriptor_iff.mpr ⟨doc, e, launcher, hspells, hrange, hnames, rfl⟩
      rw [← h] at hpython
      obtain ⟨doc', _, _, hspells', -, -⟩ := Browser.verifyFeedBundle_iff.mp hpython
      obtain rfl := hspells.unique reads_asciiQuote reads_wellFormedQuote hspells'
      exact hspells'.portable hspells
    · intro hspells
      have hbrowser := (Browser.verifyFeedBundle_iff (T := T)).mpr
        ⟨doc, e, launcher, hspells, hnames, rfl⟩
      rw [h] at hbrowser
      obtain ⟨doc', _, _, hspells', hrange, -, -⟩ := feedDescriptor_iff.mp hbrowser
      obtain rfl := hspells.unique reads_wellFormedQuote reads_asciiQuote hspells'
      exact ⟨hrange, hspells.portable hspells'⟩
  · intro h
    ext d
    rw [Browser.verifyFeedBundle_iff, feedDescriptor_iff]
    constructor
    · rintro ⟨doc, e, launcher, hspells, hnames, rfl⟩
      obtain ⟨hrange, hportable⟩ := (h doc e launcher hnames).2 hspells
      exact ⟨doc, e, launcher, (spells_iff hportable body).mp hspells, hrange, hnames, rfl⟩
    · rintro ⟨doc, e, launcher, hspells, hrange, hnames, rfl⟩
      have hportable := (h doc e launcher hnames).1 hspells hrange
      exact ⟨doc, e, launcher, (spells_iff hportable body).mpr hspells, hnames, rfl⟩

theorem ownEntry_code : 1 ≤ 812 ∧ 812 ≤ maxAndroidVersionCode := by decide

/-- A build of this app. -/
def ownEntry : FeedEntry where
  versionCode := ⟨812, ownEntry_code⟩
  versionName := ⟨"0.10.0-rc2", by decide⟩
  apkSha256 := ⟨"00112233445566778899aabbccddeeff00112233445566778899aabbccddeeff", by decide⟩
  apkSize := ⟨9437184, by decide⟩
  commit := ⟨"00112233445566778899aabbccddeeff00112233", by decide⟩
  databaseCompatibility := ⟨"hapaneld-db:v1:ha-paneld.db:1:14", by decide⟩
  minSdk := ⟨26, by decide⟩
  published := ⟨"2026-07-01T10:00:00Z", by decide⟩
  packageId := units packageId
  launchComponent := units newClassesSuccessorLaunch

/-- A build of another app. -/
def foreignEntry (packageId' : List CodeUnit) (database : Checked isFeedDatabase) : FeedEntry where
  versionCode := ⟨7, by decide⟩
  versionName := ⟨"1.0", by decide⟩
  apkSha256 := ⟨"ffeeddccbbaa99887766554433221100ffeeddccbbaa99887766554433221100", by decide⟩
  apkSize := ⟨1048576, by decide⟩
  commit := ⟨"ffeeddccbbaa99887766554433221100ffeeddcc", by decide⟩
  databaseCompatibility := database
  minSdk := ⟨26, by decide⟩
  published := ⟨"2026-07-01T09:00:00Z", by decide⟩
  packageId := packageId'
  launchComponent := units "other.app/other.app.Main"

def feedWithForeign (packageId' : List CodeUnit) (database : Checked isFeedDatabase) :
    FeedDocument where
  schema := ⟨"io.panelassistant.android.buildfeed.v1", by decide⟩
  channel := ⟨"beta", by decide⟩
  entries := [ownEntry, foreignEntry packageId' database]
  bounded := by
    rw [List.length_cons, List.length_cons, List.length_nil]
    decide

/-- A range that ends before it starts. -/
def emptyRange : Checked isFeedDatabase := ⟨"hapaneld-db:v1:ha-paneld.db:2:1", by decide⟩

def oneRange : Checked isFeedDatabase := ⟨"hapaneld-db:v1:ha-paneld.db:1:1", by decide⟩

/-- The body that Python writes for a feed. -/
def feedBody (doc : FeedDocument) : List UInt8 := (encodeAscii (feedText asciiQuote doc)).getD []

/-- An entry of short texts is written in few characters. -/
theorem length_entry {e : FeedEntry} (hdatabase : e.databaseCompatibility.1.length ≤ 100)
    (hpackage : (literal asciiQuote e.packageId).length ≤ 102)
    (hlauncher : (literal asciiQuote e.launchComponent).length ≤ 102) :
    (render asciiQuote (Nat.toDigits 10) e.tree).length ≤ 1679 := by
  have hnames : ∀ name ∈ buildFields, plain name = true ∧ name.length ≤ 23 := by decide
  have hsha := shortPlain_sha256 e.apkSha256.2
  have hpath : (apkPath e.apkSha256.1).length ≤ 100 := by
    rw [apkPath, String.length_append, String.length_append, hsha.2]
    decide
  have hcommit : e.commit.1.length ≤ 100 := by
    have h := e.commit.2
    simp only [isCommit, repeats, Bool.and_eq_true, decide_eq_true_eq, String.length_toList] at h
    omega
  have hpublished : e.published.1.length ≤ 100 := by
    rw [← String.length_toList, length_of_shape e.published.2]
    decide
  have hsigner : ShortPlain releaseSignerCertificateSha256 := by
    unfold ShortPlain
    decide
  have hvalues : ∀ name ∈ buildFields,
      (render asciiQuote (Nat.toDigits 10) (entryValue e name)).length ≤ 102 := by
    have hversion := (shortPlain_versionName e.versionName.2).1
    simp only [buildFields, List.forall_mem_cons]
    exact ⟨length_text_le (plain_apkPath e.apkSha256.2) hpath, length_text_le hsha.1.1 hsha.1.2,
      length_number_le (e.apkSize.2.2.trans (by decide)),
      length_text_le (plain_of_commit e.commit.2) hcommit,
      length_text_le (plain_of_feedDatabase e.databaseCompatibility.2) hdatabase, hlauncher,
      length_number_le (e.minSdk.2.2.trans (by decide)), hpackage,
      length_text_le (plain_of_published e.published.2) hpublished,
      length_text_le hsigner.1 hsigner.2, length_abis_le, length_number_le e.versionCode.2.2,
      length_text_le hversion.1 hversion.2, fun _ h => absurd h List.not_mem_nil⟩
  exact length_objectOf_le hnames hvalues

theorem length_ownEntry (apkSize : Bounded maxApkBytes.toNat) :
    (render asciiQuote (Nat.toDigits 10) ({ ownEntry with apkSize } : FeedEntry).tree).length ≤
      1679 :=
  length_entry (show ownEntry.databaseCompatibility.1.length ≤ 100 by decide)
    (show (literal asciiQuote (units packageId)).length ≤ 102 by decide)
    (show (literal asciiQuote (units newClassesSuccessorLaunch)).length ≤ 102 by decide)

/-- A feed of short entries is short. -/
theorem length_feedText_le {doc : FeedDocument} (hbuilds : (render asciiQuote (Nat.toDigits 10)
    (.arr (doc.entries.map FeedEntry.tree))).length ≤ 4000) :
    (feedText asciiQuote doc).length ≤ maxFeedBytes := by
  have hschema : ∀ s ∈ buildFeedSchemas, plain s = true ∧ s.length ≤ 100 := by decide
  have hchannel : ∀ s ∈ feedChannels, plain s = true ∧ s.length ≤ 100 := by decide
  have htexts : ∀ {s : String}, plain s = true ∧ s.length ≤ 100 →
      (render asciiQuote (Nat.toDigits 10) (.str (units s))).length ≤ 4000 :=
    fun h => (length_text_le h.1 h.2).trans (by decide)
  have hvalues : ∀ name ∈ feedFields, (render asciiQuote (Nat.toDigits 10)
      (feedValue doc name)).length ≤ 4000 := by
    simp only [feedFields, List.forall_mem_cons]
    exact ⟨hbuilds, htexts (hchannel _ doc.channel.2), htexts (hschema _ doc.schema.2),
      fun _ h => absurd h List.not_mem_nil⟩
  have hall := length_objectOf_le (by decide) hvalues
  have hcount : feedFields.length = 3 := rfl
  have hmax : maxFeedBytes = 262144 := rfl
  rw [hcount] at hall
  rw [feedText, FeedDocument.tree, List.length_append, List.length_cons, List.length_nil]
  omega

/-- The feed is short when the package of its other entry is. -/
theorem length_feedWithForeign {packageId' : List CodeUnit} {database : Checked isFeedDatabase}
    (hdatabase : database.1.length ≤ 100)
    (hpackage : (literal asciiQuote packageId').length ≤ 102) :
    (feedText asciiQuote (feedWithForeign packageId' database)).length ≤ maxFeedBytes := by
  have howner : (render asciiQuote (Nat.toDigits 10) ownEntry.tree).length ≤ 1679 :=
    length_ownEntry ownEntry.apkSize
  have hlauncher : (literal asciiQuote (units "other.app/other.app.Main")).length ≤ 102 := by
    decide
  have hforeign : (render asciiQuote (Nat.toDigits 10)
    (foreignEntry packageId' database).tree).length ≤
      1679 := length_entry hdatabase hpackage hlauncher
  refine length_feedText_le ?_
  simp only [feedWithForeign, List.map_cons, List.map_nil, render, renderItems, List.length_append,
    List.length_cons, List.length_nil]
  omega

theorem ascii_feedText (doc : FeedDocument) :
    (feedText asciiQuote doc).all (fun c => c.toNat < 128) = true := by
  rw [feedText, List.all_append, ascii_render ascii_toDigits]
  rfl

theorem spells_feedBody {doc : FeedDocument}
    (hsize : (feedText asciiQuote doc).length ≤ maxFeedBytes) :
    Spells asciiQuote doc (feedBody doc) := by
  obtain ⟨body, hbody⟩ := exists_encodeAscii (ascii_feedText doc)
  rw [feedBody, hbody, Option.getD_some]
  exact ⟨hbody, (length_of_encodeAscii hbody).trans_le hsize⟩

/-- The build of this app is named whatever the other entry holds. -/
theorem names_feedWithForeign {packageId' : List CodeUnit} {database : Checked isFeedDatabase}
    (hforeign : packageId' ≠ units packageId) :
    (feedWithForeign packageId' database).Names "build-812-successor" ownEntry
      newClassesSuccessorLaunch := by
  have howner : ownEntry.launcher? = some newClassesSuccessorLaunch := by decide
  have hskipped : (foreignEntry packageId' database).launcher? = none := by
    rw [FeedEntry.launcher?, foreignEntry, if_neg hforeign]
  have hinstallable : (feedWithForeign packageId' database).installable =
      [(ownEntry, newClassesSuccessorLaunch)] := by
    rw [FeedDocument.installable, feedWithForeign, List.filterMap_cons, howner, Option.map_some,
      List.filterMap_cons, hskipped, Option.map_none, List.filterMap_nil]
  refine ⟨?_, ?_, by decide, by decide, by decide⟩
  · rw [hinstallable]
    exact List.nodup_singleton _
  · rw [hinstallable]
    exact List.mem_singleton_self _

/-- A range that only the browser admits in an entry nobody installs, and a DEL that the two sides
spell in two ways: each strands a release on one side. -/
theorem feed_decided_apart :
    (∃ d, Browser.verifyFeedBundle ⟨id, id⟩
        (feedBody (feedWithForeign (units "other.app") emptyRange))
        "build-812-successor" = some d) ∧
      feedDescriptor ⟨id, id⟩ id
        (feedBody (feedWithForeign (units "other.app") emptyRange))
        "build-812-successor" = none ∧
      Browser.verifyFeedBundle ⟨id, id⟩ (feedBody (feedWithForeign [127] oneRange))
        "build-812-successor" = none ∧
      ∃ d, feedDescriptor ⟨id, id⟩ id (feedBody (feedWithForeign [127] oneRange))
        "build-812-successor" = some d := by
  have hspells : Spells asciiQuote (feedWithForeign (units "other.app") emptyRange)
      (feedBody (feedWithForeign (units "other.app") emptyRange)) :=
    spells_feedBody (length_feedWithForeign (by decide) (by decide))
  have hspells' : Spells asciiQuote (feedWithForeign [127] oneRange)
      (feedBody (feedWithForeign [127] oneRange)) :=
    spells_feedBody (length_feedWithForeign (by decide) (by decide))
  refine ⟨?_, ?_, ?_, ?_⟩
  · have hportable : (feedWithForeign (units "other.app") emptyRange).Portable := by
      intro e he
      rcases List.mem_cons.mp he with rfl | he
      · decide
      · rw [List.mem_singleton.mp he]
        decide
    have hforeign : units "other.app" ≠ units packageId := by decide
    exact ⟨_, Browser.verifyFeedBundle_iff.mpr ⟨_, _, _, (spells_iff hportable _).mpr hspells,
      names_feedWithForeign hforeign, rfl⟩⟩
  · rw [Option.eq_none_iff_forall_ne_some]
    intro d hd
    obtain ⟨doc, e, launcher, hdoc, hrange, -, -⟩ := feedDescriptor_iff.mp hd
    obtain rfl := hspells.unique reads_asciiQuote reads_asciiQuote hdoc
    exact absurd (hrange _ (List.mem_cons_of_mem _ List.mem_cons_self)) (by decide)
  · rw [Option.eq_none_iff_forall_ne_some]
    intro d hd
    obtain ⟨doc, e, launcher, hdoc, -, -⟩ := Browser.verifyFeedBundle_iff.mp hd
    obtain rfl := hspells'.unique reads_asciiQuote reads_wellFormedQuote hdoc
    have hportable := hdoc.portable hspells'
    exact absurd (hportable _ (List.mem_cons_of_mem _ List.mem_cons_self)).1 (by decide)
  · have hforeign : [127] ≠ units packageId := by decide
    refine ⟨_, feedDescriptor_iff.mpr
      ⟨_, _, _, hspells', ?_, names_feedWithForeign hforeign, rfl⟩⟩
    intro e he
    rcases List.mem_cons.mp he with rfl | he
    · decide
    · rw [List.mem_singleton.mp he]
      decide

end PanelAssistant
