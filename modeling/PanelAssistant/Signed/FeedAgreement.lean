import PanelAssistant.Signed.Agreement
import PanelAssistant.Signed.Feed

/-!
# Where both sides accept the same build of a feed

A side accepts a byte string exactly when it is that side's canonical text of a feed whose entries
it accepts. The texts differ exactly on strings that are not portable, and Python also bounds the
database range of entries that are not chosen: `feed_agreement_iff` says that nothing else tells
the two sides apart.
-/

namespace PanelAssistant

open Library Library.Text Library.JsonTree Library.Ranking

variable {ν : Type} {T : NumberTexts}

/-! ## Feeds as documents -/

/-- The value of each field of an entry. -/
def entryValue (e : FeedEntry) (name : String) : JsonTree ℕ :=
  match name with
  | "apkPath" => .str (units (apkPath e.apkSha256.1))
  | "apkSha256" => .str (units e.apkSha256.1)
  | "apkSize" => .num e.apkSize.1
  | "commit" => .str (units e.commit.1)
  | "databaseCompatibility" => .str (units e.databaseCompatibility.1)
  | "launchComponent" => .str e.launchComponent
  | "minSdk" => .num e.minSdk.1
  | "packageId" => .str e.packageId
  | "published" => .str (units e.published.1)
  | "signerCertificateSha256" => .str (units releaseSignerCertificateSha256)
  | "supportedAbis" => abisValue supportedAbis
  | "versionCode" => .num e.versionCode.1
  | "versionName" => .str (units e.versionName.1)
  | _ => .null

def FeedEntry.tree (e : FeedEntry) : JsonTree ℕ := objectOf buildFields (entryValue e)

def feedValue (doc : FeedDocument) (name : String) : JsonTree ℕ :=
  match name with
  | "builds" => .arr (doc.entries.map FeedEntry.tree)
  | "channel" => .str (units doc.channel.1)
  | "schema" => .str (units doc.schema.1)
  | _ => .null

def FeedDocument.tree (doc : FeedDocument) : JsonTree ℕ := objectOf feedFields (feedValue doc)

theorem buildFields_units :
    (buildFields.map units).Pairwise fun a b => unitCodes a < unitCodes b := by
  decide

theorem buildFields_points :
    (buildFields.map units).Pairwise fun a b => codePoints a < codePoints b := by
  decide

theorem buildFields_nodup : (buildFields.map units).Nodup := by
  decide

theorem feedFields_units :
    (feedFields.map units).Pairwise fun a b => unitCodes a < unitCodes b := by
  decide

theorem feedFields_points :
    (feedFields.map units).Pairwise fun a b => codePoints a < codePoints b := by
  decide

theorem feedFields_nodup : (feedFields.map units).Nodup := by
  decide

/-- An order of names that both readers keep. -/
structure Sorts (rank : List CodeUnit → List ℕ) : Prop where
  build : (buildFields.map units).Pairwise fun a b => rank a < rank b
  feed : (feedFields.map units).Pairwise fun a b => rank a < rank b

theorem sorts_units : Sorts unitCodes := ⟨buildFields_units, feedFields_units⟩

theorem sorts_points : Sorts codePoints := ⟨buildFields_points, feedFields_points⟩

/-! ## Entries -/

theorem unitsOf_iff {t : JsonTree ν} {u : List CodeUnit} : unitsOf t = some u ↔ t = .str u := by
  cases t <;> simp [unitsOf]

/-- What a checked entry is read from. -/
theorem buildEntry_some {L : Language ν} {range : String → Bool} {entry : JsonTree ν}
    {e : FeedEntry} (h : buildEntry L range entry = some e) :
    range e.databaseCompatibility.1 = true ∧ ∃ fields, L.object buildFields entry = some fields ∧
      ∀ name ∈ buildFields, field fields name = (entryValue e name).map L.ofNat := by
  obtain ⟨fields, hobject, h⟩ := Option.bind_eq_some_iff.mp h
  obtain ⟨versionCode, hcode, h⟩ := Option.bind_eq_some_iff.mp h
  obtain ⟨apkSize, hsize, h⟩ := Option.bind_eq_some_iff.mp h
  obtain ⟨minSdk, hsdk, h⟩ := Option.bind_eq_some_iff.mp h
  obtain ⟨apkSha256, hsha, h⟩ := Option.bind_eq_some_iff.mp h
  obtain ⟨versionName, hversion, h⟩ := Option.bind_eq_some_iff.mp h
  obtain ⟨commit, hcommit, h⟩ := Option.bind_eq_some_iff.mp h
  obtain ⟨published, hpublished, h⟩ := Option.bind_eq_some_iff.mp h
  obtain ⟨database, hdatabase, h⟩ := Option.bind_eq_some_iff.mp h
  obtain ⟨package, hpackage, h⟩ := Option.bind_eq_some_iff.mp h
  obtain ⟨launcher, hlauncher, h⟩ := Option.bind_eq_some_iff.mp h
  rw [checked_iff] at hsha hversion hcommit hpublished hdatabase
  rw [L.bounded_iff] at hcode hsize hsdk
  rw [unitsOf_iff] at hpackage hlauncher
  split at h
  · rename_i hconstants
    obtain rfl := Option.some.inj h
    simp only [Bool.and_eq_true, isText_iff, areSupportedAbis_iff] at hconstants
    obtain ⟨⟨⟨hpath, hrange⟩, hsigner⟩, habis⟩ := hconstants
    refine ⟨hrange, fields, hobject, ?_⟩
    simp only [buildFields, List.forall_mem_cons]
    exact ⟨hpath, hsha.1, hsize, hcommit.1, hdatabase.1, hlauncher, hsdk, hpackage, hpublished.1,
      hsigner, habis.trans (map_abisValue _ _).symm, hcode, hversion.1,
      fun _ h => absurd h List.not_mem_nil⟩
  · cases h

theorem ascii_of_plain {s : String} (h : plain s = true) : isAscii s = true := by
  refine all_mono ?_ h
  intro c hc
  simp only [plainChar, Bool.and_eq_true, decide_eq_true_eq] at hc
  rw [decide_eq_true_eq]
  omega

theorem plain_of_commit {s : String} (h : isCommit s = true) : plain s = true := by
  simp only [isCommit, repeats, Bool.and_eq_true] at h
  exact all_mono (fun _ => plainChar_of_hex) h.2

theorem plain_of_shape {template cs : List Char} (htemplate : template.all plainChar = true)
    (h : hasShape template cs = true) : cs.all plainChar = true := by
  induction template generalizing cs with
  | nil =>
    cases cs with
    | nil => rfl
    | cons _ _ => cases h
  | cons t template ih =>
    cases cs with
    | nil => cases h
    | cons c cs =>
      rw [List.all_cons, Bool.and_eq_true] at htemplate
      rw [hasShape, Bool.and_eq_true] at h
      rw [List.all_cons, Bool.and_eq_true]
      refine ⟨?_, ih htemplate.2 h.2⟩
      have hc := h.1
      split at hc
      · exact plainChar_of_digit hc
      · rw [beq_iff_eq] at hc
        exact hc ▸ htemplate.1

theorem length_of_shape {template cs : List Char} (h : hasShape template cs = true) :
    cs.length = template.length := by
  induction template generalizing cs with
  | nil =>
    cases cs with
    | nil => rfl
    | cons _ _ => cases h
  | cons t template ih =>
    cases cs with
    | nil => cases h
    | cons c cs =>
      rw [hasShape, Bool.and_eq_true] at h
      rw [List.length_cons, List.length_cons, ih h.2]

theorem plain_of_published {s : String} (h : isPublished s = true) : plain s = true :=
  plain_of_shape (by decide) h

theorem plain_of_feedDatabase {s : String} (h : isFeedDatabase s = true) : plain s = true := by
  unfold isFeedDatabase at h
  split at h
  · rename_i low high heq
    rw [Bool.and_eq_true] at h
    exact plain_of_databaseRange heq h.1 h.2
  · cases h

theorem plain_apkPath {s : String} (h : isSha256 s = true) : plain (apkPath s) = true := by
  rw [apkPath, plain_append, plain_append, plain_of_sha256 h]
  decide

theorem buildEntry_of {L : Language ν} {range : String → Bool} (e : FeedEntry)
    (hrange : range e.databaseCompatibility.1 = true) :
    buildEntry L range (e.tree.map L.ofNat) = some e := by
  have hobject := L.object_objectOf buildFields_nodup fun name => (entryValue e name).map L.ofNat
  rw [← map_objectOf] at hobject
  have hfields : ∀ name ∈ buildFields,
      field (buildFields.map fun name => (units name, (entryValue e name).map L.ofNat)) name =
        (entryValue e name).map L.ofNat :=
    fun name hname => field_objectOf buildFields_nodup hname
  generalize (buildFields.map fun name => (units name, (entryValue e name).map L.ofNat)) = fields
    at hobject hfields
  simp only [buildFields, List.forall_mem_cons] at hfields
  obtain ⟨hpath, hsha, hsize, hcommit, hdatabase, hlauncher, hsdk, hpackage, hpublished, hsigner,
    habis, hcode, hversion, -⟩ := hfields
  have hcode' : L.bounded maxAndroidVersionCode (field fields "versionCode") = some e.versionCode :=
    L.bounded_iff.mpr hcode
  have hsize' : L.bounded maxApkBytes.toNat (field fields "apkSize") = some e.apkSize :=
    L.bounded_iff.mpr hsize
  have hsdk' : L.bounded maxAndroidSdk.toNat (field fields "minSdk") = some e.minSdk :=
    L.bounded_iff.mpr hsdk
  have hsha' : checked isSha256 (field fields "apkSha256") = some e.apkSha256 :=
    checked_iff.mpr ⟨hsha, ascii_of_plain (plain_of_sha256 e.apkSha256.2)⟩
  have hversion' : checked isBuildVersionName (field fields "versionName") = some e.versionName :=
    checked_iff.mpr ⟨hversion, ascii_of_plain (plain_of_versionName e.versionName.2)⟩
  have hcommit' : checked isCommit (field fields "commit") = some e.commit :=
    checked_iff.mpr ⟨hcommit, ascii_of_plain (plain_of_commit e.commit.2)⟩
  have hpublished' : checked isPublished (field fields "published") = some e.published :=
    checked_iff.mpr ⟨hpublished, ascii_of_plain (plain_of_published e.published.2)⟩
  have hdatabase' : checked isFeedDatabase (field fields "databaseCompatibility") =
      some e.databaseCompatibility :=
    checked_iff.mpr ⟨hdatabase, ascii_of_plain (plain_of_feedDatabase e.databaseCompatibility.2)⟩
  have hpackage' : unitsOf (field fields "packageId") = some e.packageId := unitsOf_iff.mpr hpackage
  have hlauncher' : unitsOf (field fields "launchComponent") = some e.launchComponent :=
    unitsOf_iff.mpr hlauncher
  have hpath' : isText (apkPath e.apkSha256.1) (field fields "apkPath") = true :=
    isText_iff.mpr hpath
  have hsigner' : isText releaseSignerCertificateSha256
      (field fields "signerCertificateSha256") = true := isText_iff.mpr hsigner
  have habis' : areSupportedAbis (field fields "supportedAbis") = true :=
    areSupportedAbis_iff.mpr (habis.trans (map_abisValue _ _))
  simp only [buildEntry, FeedEntry.tree, hobject, hcode', hsize', hsdk', hsha', hversion', hcommit',
    hpublished', hdatabase', hpackage', hlauncher', hpath', hsigner', habis', hrange,
    Option.bind_eq_bind, Option.bind_some, Bool.and_self, if_true]

/-- A checked entry is sorted as the document of the entry. -/
theorem sortKeys_entry {L : Language ν} {rank : List CodeUnit → List ℕ} (hrank : Sorts rank)
    {range : String → Bool} {entry : JsonTree ν} {e : FeedEntry}
    (hproper : Proper (fun _ => True) entry) (h : buildEntry L range entry = some e) :
    sortKeys rank entry = e.tree.map L.ofNat := by
  obtain ⟨-, fields, hobject, hfields⟩ := buildEntry_some h
  have hleaf : ∀ name ∈ buildFields,
      sortKeys rank ((entryValue e name).map L.ofNat) = (entryValue e name).map L.ofNat := by
    simp only [buildFields, List.forall_mem_cons]
    exact ⟨rfl, rfl, rfl, rfl, rfl, rfl, rfl, rfl, rfl, rfl, rfl, rfl, rfl,
      fun _ h => absurd h List.not_mem_nil⟩
  rw [FeedEntry.tree, map_objectOf]
  apply sortKeys_object hproper hobject hrank.build
  intro name hname
  rw [hfields name hname, hleaf name hname]

/-! ## Feeds -/

theorem units_inj {s s' : String} (hs : isAscii s = true) (hs' : isAscii s' = true)
    (h : units s = units s') : s = s' := by
  have hread := asciiText?_iff.mpr ⟨rfl, hs⟩
  rw [h, asciiText?_iff.mpr ⟨rfl, hs'⟩, Option.some.injEq] at hread
  exact hread.symm

theorem find?_of_unique {α : Type} {l : List α} {p : α → Bool} {a : α}
    (ha : a ∈ l) (hp : p a = true)
    (hunique : ∀ b ∈ l, p b = true → b = a) : l.find? p = some a := by
  obtain ⟨b, hb⟩ := Option.isSome_iff_exists.mp (List.find?_isSome.mpr ⟨a, ha, hp⟩)
  rw [hb, hunique b (List.mem_of_find?_eq_some hb) (List.find?_some hb)]

/-- A constant is found among constants by its text. -/
theorem find?_constant {l : List String} (hl : ∀ s ∈ l, isAscii s = true) (s : {s // s ∈ l}) :
    l.attach.find? (fun c => isText c.1 (.str (units s.1) : JsonTree ν)) = some s := by
  apply find?_of_unique (List.mem_attach l s) (isText_iff.mpr rfl)
  intro c _ hc
  have hunits := isText_iff.mp hc
  rw [JsonTree.str.injEq] at hunits
  exact Subtype.ext (units_inj (hl c.1 c.2) (hl s.1 s.2) hunits.symm)

theorem sortItems_of_mapM {L : Language ν} {rank : List CodeUnit → List ℕ} (hrank : Sorts rank)
    {range : String → Bool} {builds : List (JsonTree ν)} {entries : List FeedEntry}
    (hproper : ∀ b ∈ builds, Proper (fun _ => True) b)
    (h : builds.mapM (buildEntry L range) = some entries) :
    sortItems rank builds = entries.map (fun e => e.tree.map L.ofNat) ∧
      ∀ e ∈ entries, range e.databaseCompatibility.1 = true := by
  induction builds generalizing entries with
  | nil =>
    obtain rfl := Option.some.inj h
    exact ⟨rfl, fun _ h => absurd h List.not_mem_nil⟩
  | cons b builds ih =>
    rw [List.mapM_cons] at h
    obtain ⟨e, he, h⟩ := Option.bind_eq_some_iff.mp h
    obtain ⟨rest, hrest, h⟩ := Option.bind_eq_some_iff.mp h
    obtain rfl := Option.some.inj h
    obtain ⟨hsorted, hrange⟩ := ih (fun c hc => hproper c (List.mem_cons_of_mem b hc)) hrest
    constructor
    · rw [sortItems, sortKeys_entry hrank (hproper b List.mem_cons_self) he, hsorted, List.map_cons]
    · intro e' he'
      rcases List.mem_cons.mp he' with rfl | he'
      · exact (buildEntry_some he).1
      · exact hrange e' he'

theorem mapM_buildEntry {L : Language ν} {range : String → Bool} {entries : List FeedEntry}
    (hrange : ∀ e ∈ entries, range e.databaseCompatibility.1 = true) :
    (entries.map fun e => e.tree.map L.ofNat).mapM (buildEntry L range) = some entries := by
  induction entries with
  | nil => rfl
  | cons e entries ih =>
    rw [List.map_cons, List.mapM_cons, buildEntry_of e (hrange e List.mem_cons_self),
      ih fun c hc => hrange c (List.mem_cons_of_mem e hc)]
    rfl

theorem map_builds (doc : FeedDocument) (f : ℕ → ν) :
    (JsonTree.arr (doc.entries.map FeedEntry.tree)).map f =
      .arr (doc.entries.map fun e => e.tree.map f) := by
  rw [JsonTree.map, mapItems_eq, List.map_map]
  rfl

/-- What a checked feed is read from: sorted, it is the document of the feed. -/
theorem readFeed_some {L : Language ν} {rank : List CodeUnit → List ℕ} (hrank : Sorts rank)
    {range : String → Bool} {document : JsonTree ν} {doc : FeedDocument}
    (hproper : Proper (fun _ => True) document) (h : readFeed L range document = some doc) :
    sortKeys rank document = doc.tree.map L.ofNat ∧
      ∀ e ∈ doc.entries, range e.databaseCompatibility.1 = true := by
  obtain ⟨fields, hobject, h⟩ := Option.bind_eq_some_iff.mp h
  obtain ⟨schema, hschema, h⟩ := Option.bind_eq_some_iff.mp h
  obtain ⟨channel, hchannel, h⟩ := Option.bind_eq_some_iff.mp h
  have hschemaText : field fields "schema" = .str (units schema.1) := by
    have htext := List.find?_some hschema
    exact isText_iff.mp htext
  have hchannelText : field fields "channel" = .str (units channel.1) := by
    have htext := List.find?_some hchannel
    exact isText_iff.mp htext
  split at h
  · rename_i builds hbuilds
    obtain ⟨entries, hentries, h⟩ := Option.bind_eq_some_iff.mp h
    split at h
    · rename_i hbounded
      obtain rfl := Option.some.inj h
      have hitems : ∀ b ∈ builds, Proper (fun _ => True) b := by
        obtain ⟨rfl, -⟩ := L.object_eq_some hobject
        have hfield : ∃ e ∈ fields, e.2 = .arr builds := by
          rw [field] at hbuilds
          cases hfind : field? fields (units "builds") with
          | none => rw [hfind] at hbuilds; cases hbuilds
          | some v =>
            rw [hfind] at hbuilds
            obtain ⟨e, he, hv⟩ := Option.map_eq_some_iff.mp hfind
            exact ⟨e, List.mem_of_find?_eq_some he, hv.trans hbuilds⟩
        obtain ⟨e, he, harr⟩ := hfield
        have hall := properFields_iff.mp hproper.2 e he
        rw [harr] at hall
        exact properItems_iff.mp hall
      obtain ⟨hsorted, hrange⟩ := sortItems_of_mapM hrank hitems hentries
      refine ⟨?_, hrange⟩
      rw [FeedDocument.tree, map_objectOf]
      apply sortKeys_object hproper hobject hrank.feed
      simp only [feedFields, List.forall_mem_cons]
      refine ⟨?_, ?_, ?_, fun _ h => absurd h List.not_mem_nil⟩
      · rw [hbuilds, sortKeys, hsorted]
        exact (map_builds ⟨schema, channel, entries, hbounded⟩ L.ofNat).symm
      · rw [hchannelText]
        rfl
      · rw [hschemaText]
        rfl
    · cases h
  · cases h

theorem readFeed_of {L : Language ν} {range : String → Bool} (doc : FeedDocument)
    (hrange : ∀ e ∈ doc.entries, range e.databaseCompatibility.1 = true) :
    readFeed L range (doc.tree.map L.ofNat) = some doc := by
  have hobject := L.object_objectOf feedFields_nodup fun name => (feedValue doc name).map L.ofNat
  rw [← map_objectOf] at hobject
  have hfields : ∀ name ∈ feedFields,
      field (feedFields.map fun name => (units name, (feedValue doc name).map L.ofNat)) name =
        (feedValue doc name).map L.ofNat :=
    fun name hname => field_objectOf feedFields_nodup hname
  generalize (feedFields.map fun name => (units name, (feedValue doc name).map L.ofNat)) = fields
    at hobject hfields
  simp only [feedFields, List.forall_mem_cons] at hfields
  obtain ⟨hbuilds, hchannel, hschema, -⟩ := hfields
  have hbuilds : field fields "builds" = .arr (doc.entries.map fun e => e.tree.map L.ofNat) :=
    hbuilds.trans (map_builds doc L.ofNat)
  have hchannel : field fields "channel" = .str (units doc.channel.1) := hchannel
  have hschema : field fields "schema" = .str (units doc.schema.1) := hschema
  simp only [readFeed, FeedDocument.tree, hobject, hbuilds, hchannel, hschema, Option.bind_eq_bind,
    Option.bind_some, find?_constant (show ∀ s ∈ buildFeedSchemas, isAscii s = true by decide),
    find?_constant (show ∀ s ∈ feedChannels, isAscii s = true by decide), mapM_buildEntry hrange,
    doc.bounded, dif_pos]

/-! ## Texts of a feed -/

/-- The canonical text of a feed, with a spelling of its strings. -/
def feedText (quote : List CodeUnit → List Char) (doc : FeedDocument) : List Char :=
  render quote (Nat.toDigits 10) doc.tree ++ ['\n']

theorem wellFormed_entry (e : FeedEntry) : WellFormed e.tree := by
  have hmax : maxApkBytes.toNat ≤ Binary64.maxSafeInteger ∧
      maxAndroidSdk.toNat ≤ Binary64.maxSafeInteger ∧
      maxAndroidVersionCode ≤ Binary64.maxSafeInteger := by decide
  have hvalues : ∀ name ∈ buildFields,
      Proper (· ≤ Binary64.maxSafeInteger) (entryValue e name) := by
    simp only [buildFields, List.forall_mem_cons]
    exact ⟨trivial, trivial, e.apkSize.2.2.trans hmax.1, trivial, trivial, trivial,
      e.minSdk.2.2.trans hmax.2.1, trivial, trivial, trivial, ⟨trivial, trivial, trivial⟩,
      e.versionCode.2.2.trans hmax.2.2, trivial, fun _ h => absurd h List.not_mem_nil⟩
  refine ⟨?_, properFields_iff.mpr ?_⟩
  · rw [List.map_map]
    exact buildFields_nodup
  · intro f hf
    obtain ⟨name, hname, rfl⟩ := List.mem_map.mp hf
    exact hvalues name hname

theorem wellFormed_feed (doc : FeedDocument) : WellFormed doc.tree := by
  have hvalues : ∀ name ∈ feedFields,
      Proper (· ≤ Binary64.maxSafeInteger) (feedValue doc name) := by
    simp only [feedFields, List.forall_mem_cons]
    refine ⟨?_, trivial, trivial, fun _ h => absurd h List.not_mem_nil⟩
    change ProperItems _ _
    rw [properItems_iff]
    intro a ha
    obtain ⟨e, -, rfl⟩ := List.mem_map.mp ha
    exact wellFormed_entry e
  refine ⟨?_, properFields_iff.mpr ?_⟩
  · rw [List.map_map]
    exact feedFields_nodup
  · intro f hf
    obtain ⟨name, hname, rfl⟩ := List.mem_map.mp hf
    exact hvalues name hname

/-- Sorting the document of a feed changes nothing. -/
theorem sortKeys_feed {L : Language ν} {rank : List CodeUnit → List ℕ} (hrank : Sorts rank)
    (doc : FeedDocument) (hproper : Proper (fun _ => True) (doc.tree.map L.ofNat)) :
    sortKeys rank (doc.tree.map L.ofNat) = doc.tree.map L.ofNat := by
  have hread : readFeed L (fun _ => true) (doc.tree.map L.ofNat) = some doc :=
    readFeed_of doc fun _ _ => rfl
  exact (readFeed_some hrank hproper hread).1

theorem jsonDumps_feed {document : JsonTree PyNumber} {doc : FeedDocument}
    (h : sortKeys codePoints document = doc.tree.map python.ofNat) :
    jsonDumps T document = render asciiQuote (Nat.toDigits 10) doc.tree := by
  rw [jsonDumps, h, render_map, pyText_ofNat]

theorem canonicalJson_feed {document : JsonTree JsNumber} {doc : FeedDocument}
    (h : sortKeys unitCodes document = doc.tree.map browser.ofNat) :
    canonicalJson T document = render wellFormedQuote (Nat.toDigits 10) doc.tree := by
  rw [canonicalJson, h, jsonStringify, render_map, jsText_ofNat]

/-- The entries a side accepts have in-bounds ranges. -/
def FeedDocument.RangesValid (doc : FeedDocument) : Prop :=
  ∀ e ∈ doc.entries, databaseRangeValid e.databaseCompatibility.1 = true

/-- The builds Python keeps. -/
def FeedDocument.feedBuilds (apkUrl : String → String) (doc : FeedDocument) : List FeedBuild :=
  doc.installable.map fun e => e.1.feedBuild apkUrl e.2

/-- Python accepts exactly the canonical texts of the feeds whose entries it accepts. -/
theorem parseBuildFeed_iff {apkUrl : String → String} {body : List UInt8} {feed : BuildFeed} :
    parseBuildFeed T apkUrl body = some feed ↔
      body.length ≤ maxFeedBytes ∧ ∃ doc, encodeAscii (feedText asciiQuote doc) = some body ∧
        doc.RangesValid ∧ ((doc.feedBuilds apkUrl).map (·.versionCode)).Nodup ∧
        feed.channel = doc.channel.1 ∧
        feed.builds =
          (doc.feedBuilds apkUrl).insertionSort (descending fun b => b.versionCode.1) := by
  constructor
  · intro h
    unfold parseBuildFeed at h
    split at h
    · cases h
    · rename_i hsize
      obtain ⟨text, htext, h⟩ := Option.bind_eq_some_iff.mp h
      obtain ⟨document, hdocument, h⟩ := Option.bind_eq_some_iff.mp h
      obtain ⟨doc, hread, h⟩ := Option.bind_eq_some_iff.mp h
      obtain ⟨canonical, hcanonical, h⟩ := Option.bind_eq_some_iff.mp h
      split at h
      · rename_i hbody
        dsimp only at h
        split at h
        · rename_i hcodes
          obtain rfl := Option.some.inj h
          obtain ⟨hsorted, hrange⟩ := readFeed_some sorts_points (jsonLoads_proper hdocument) hread
          rw [jsonDumps_feed hsorted] at hcanonical
          exact ⟨not_lt.mp hsize, doc, hbody ▸ hcanonical, hrange, hcodes, rfl, rfl⟩
        · cases h
      · cases h
  · rintro ⟨hsize, doc, hbody, hrange, hcodes, hchannel, hbuilds⟩
    have hdecode := decodeAscii_of_encode hbody
    have hloads : jsonLoads (feedText asciiQuote doc) = some (doc.tree.map python.ofNat) :=
      jsonLoads_render reads_asciiQuote (wellFormed_feed doc)
    have hread : readFeed python databaseRangeValid (doc.tree.map python.ofNat) = some doc :=
      readFeed_of doc hrange
    have hsorted := sortKeys_feed sorts_points doc (jsonLoads_proper hloads)
    have hcanonical : encodeAscii (jsonDumps T (doc.tree.map python.ofNat) ++ ['\n']) =
        some body := by
      rw [jsonDumps_feed hsorted]
      exact hbody
    rw [FeedDocument.feedBuilds] at hcodes hbuilds
    simp only [parseBuildFeed, if_neg (not_lt.mpr hsize), hdecode, hloads, hread, hcanonical,
      Option.bind_eq_bind, Option.bind_some, if_true, dif_pos hcodes, Option.some.injEq]
    cases feed
    dsimp only at hchannel hbuilds
    subst hchannel hbuilds
    rfl

/-! ## Canonical feeds -/

/-- A text spells one feed, whoever wrote it. -/
theorem feedText_injective {quote quote' : List CodeUnit → List Char} (hquote : Reads quote)
    (hquote' : Reads quote') {doc doc' : FeedDocument}
    (h : feedText quote doc = feedText quote' doc') : doc = doc' := by
  have hread : ∀ {q : List CodeUnit → List Char} (_ : Reads q) (d : FeedDocument),
      (jsonLoads (feedText q d)).bind (readFeed python fun _ => true) = some d := by
    intro q hq d
    have hloads : jsonLoads (feedText q d) = some (d.tree.map python.ofNat) :=
      jsonLoads_render hq (wellFormed_feed d)
    rw [hloads, Option.bind_some, readFeed_of d fun _ _ => rfl]
  have hdoc := hread hquote doc
  rw [h, hread hquote' doc', Option.some.injEq] at hdoc
  exact hdoc.symm

/-- The two names an entry may choose freely hold no character that is spelled in two ways. -/
def FeedDocument.Portable (doc : FeedDocument) : Prop :=
  ∀ e ∈ doc.entries, portable e.packageId = true ∧ portable e.launchComponent = true

theorem portable_objectOf {names : List String} (hnames : ∀ name ∈ names, plain name = true)
    (value : String → JsonTree ℕ) :
    JsonTree.Portable (objectOf names value) ↔ ∀ name ∈ names, JsonTree.Portable (value name) := by
  change PortableFields _ ↔ _
  rw [portableFields_iff]
  constructor
  · intro h name hname
    exact (h _ (List.mem_map_of_mem hname)).2
  · intro h e he
    obtain ⟨name, hname, rfl⟩ := List.mem_map.mp he
    exact ⟨portable_units (hnames name hname), h name hname⟩

theorem portable_abis : JsonTree.Portable (abisValue supportedAbis : JsonTree ℕ) := by
  change PortableItems _
  rw [portableItems_iff]
  intro a ha
  obtain ⟨s, hs, rfl⟩ := List.mem_map.mp ha
  have habis : ∀ s ∈ supportedAbis, plain s = true := by decide
  exact portable_units (habis s hs)

theorem portable_entry (e : FeedEntry) :
    JsonTree.Portable e.tree ↔ portable e.packageId = true ∧ portable e.launchComponent = true := by
  have hsigner : plain releaseSignerCertificateSha256 = true := by decide
  rw [FeedEntry.tree, portable_objectOf (by decide)]
  constructor
  · intro h
    exact ⟨h "packageId" (by decide), h "launchComponent" (by decide)⟩
  · rintro ⟨hpackage, hlauncher⟩
    simp only [buildFields, List.forall_mem_cons]
    exact ⟨portable_units (plain_apkPath e.apkSha256.2),
      portable_units (plain_of_sha256 e.apkSha256.2), trivial,
      portable_units (plain_of_commit e.commit.2),
      portable_units (plain_of_feedDatabase e.databaseCompatibility.2),
        hlauncher, trivial, hpackage, portable_units (plain_of_published e.published.2),
      portable_units hsigner,
        portable_abis, trivial, portable_units (plain_of_versionName e.versionName.2),
      fun _ h => absurd h List.not_mem_nil⟩

theorem portable_feed (doc : FeedDocument) : JsonTree.Portable doc.tree ↔ doc.Portable := by
  have hschemas : ∀ s ∈ buildFeedSchemas, plain s = true := by decide
  have hchannels : ∀ s ∈ feedChannels, plain s = true := by decide
  have hbuilds : JsonTree.Portable (feedValue doc "builds") ↔ doc.Portable := by
    change PortableItems _ ↔ _
    rw [portableItems_iff, List.forall_mem_map]
    exact forall₂_congr fun e _ => portable_entry e
  rw [FeedDocument.tree, portable_objectOf (by decide), ← hbuilds]
  constructor
  · intro h
    exact h "builds" (by decide)
  · intro h
    simp only [feedFields, List.forall_mem_cons]
    exact ⟨h, portable_units (hchannels _ doc.channel.2), portable_units (hschemas _ doc.schema.2),
      fun _ h => absurd h List.not_mem_nil⟩

/-- Both sides write a feed alike exactly when its free names are portable. -/
theorem feedText_eq_iff (doc : FeedDocument) :
    feedText wellFormedQuote doc = feedText asciiQuote doc ↔ doc.Portable := by
  rw [feedText, feedText, List.append_cancel_right_eq, render_eq_iff, portable_feed]

end PanelAssistant
