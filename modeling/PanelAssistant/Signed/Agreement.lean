import PanelAssistant.Signed.Descriptor
import PanelAssistant.Signed.Plain

/-!
# Both sides accept the same install descriptors

A side accepts a byte string exactly when it is the canonical text of a descriptor whose fields
the side accepts (`parseInstallDescriptor_iff`, `parseUnauthenticatedDescriptor_iff`): duplicate
names, escapes and spellings of numbers all change the text. What is left to compare are two
checks of the same fields.
-/

namespace PanelAssistant

open Library Library.Text Library.JsonTree

variable {ν : Type} {T : NumberTexts}

/-! ## Descriptors as documents -/

theorem installDescriptorFields_units :
    (installDescriptorFields.map units).Pairwise fun a b => unitCodes a < unitCodes b := by
  decide

theorem installDescriptorFields_points :
    (installDescriptorFields.map units).Pairwise fun a b => codePoints a < codePoints b := by
  decide

theorem installDescriptorFields_nodup : (installDescriptorFields.map units).Nodup := by
  decide

/-- The texts of a descriptor. -/
def InstallDescriptor.texts (d : InstallDescriptor) : List String :=
  [d.schema, d.releaseTag, d.versionName, d.apkName, d.apkSha256, d.packageId,
    d.signerCertificateSha256, d.databaseCompatibility, d.launchComponent]

/-- What reading a descriptor ensures of it. -/
structure Described (d : InstallDescriptor) : Prop where
  ascii : ∀ s ∈ d.texts, isAscii s = true
  apkSize : 1 ≤ d.apkSize ∧ d.apkSize ≤ maxApkBytes.toNat
  minSdk : 1 ≤ d.minSdk ∧ d.minSdk ≤ maxAndroidSdk.toNat
  supportedAbis : d.supportedAbis = supportedAbis

theorem readDescriptor_some {L : Language ν} {fields : List (List CodeUnit × JsonTree ν)}
    {d : InstallDescriptor} (h : readDescriptor L fields = some d) :
    Described d ∧ ∀ name ∈ installDescriptorFields,
      field fields name = (descriptorValue d name).map L.ofNat := by
  obtain ⟨schema, hschema, h⟩ := Option.bind_eq_some_iff.mp h
  obtain ⟨releaseTag, htag, h⟩ := Option.bind_eq_some_iff.mp h
  obtain ⟨versionName, hversion, h⟩ := Option.bind_eq_some_iff.mp h
  obtain ⟨versionCode, hcode, h⟩ := Option.bind_eq_some_iff.mp h
  obtain ⟨apkName, hname, h⟩ := Option.bind_eq_some_iff.mp h
  obtain ⟨apkSize, hsize, h⟩ := Option.bind_eq_some_iff.mp h
  obtain ⟨apkSha256, hsha, h⟩ := Option.bind_eq_some_iff.mp h
  obtain ⟨packageId, hpackage, h⟩ := Option.bind_eq_some_iff.mp h
  obtain ⟨signer, hsigner, h⟩ := Option.bind_eq_some_iff.mp h
  obtain ⟨minSdk, hsdk, h⟩ := Option.bind_eq_some_iff.mp h
  obtain ⟨database, hdatabase, h⟩ := Option.bind_eq_some_iff.mp h
  obtain ⟨launchComponent, hlaunch, hd⟩ := Option.bind_eq_some_iff.mp h
  rw [asciiOf_iff] at hschema htag hversion hname hsha hpackage hsigner hdatabase hlaunch
  rw [L.bounded_iff] at hcode hsize hsdk
  split at hd
  · rename_i habis
    obtain rfl := Option.some.inj hd
    refine ⟨⟨?_, apkSize.2, minSdk.2, rfl⟩, ?_⟩
    · simp only [InstallDescriptor.texts, List.forall_mem_cons]
      exact ⟨hschema.2, htag.2, hversion.2, hname.2, hsha.2, hpackage.2, hsigner.2, hdatabase.2,
        hlaunch.2, fun _ h => absurd h List.not_mem_nil⟩
    · simp only [installDescriptorFields, List.forall_mem_cons]
      exact ⟨hname.1, hsha.1, hsize, hdatabase.1, hlaunch.1, hsdk, hpackage.1, htag.1, hschema.1,
        hsigner.1, areSupportedAbis_iff.mp habis, hcode, hversion.1,
        fun _ h => absurd h List.not_mem_nil⟩
  · cases hd

theorem map_abisValue {μ : Type} (f : ν → μ) (abis : List String) :
    (abisValue abis).map f = abisValue abis := by
  rw [abisValue, JsonTree.map, mapItems_eq, List.map_map]
  rfl

theorem readDescriptor_of {L : Language ν} {fields : List (List CodeUnit × JsonTree ν)}
    {d : InstallDescriptor} (hd : Described d)
    (hfields : ∀ name ∈ installDescriptorFields,
      field fields name = (descriptorValue d name).map L.ofNat) :
    readDescriptor L fields = some d := by
  have hascii := hd.ascii
  simp only [InstallDescriptor.texts, List.forall_mem_cons] at hascii
  obtain ⟨aschema, atag, aversion, aname, asha, apackage, asigner, adatabase, alaunch, -⟩ := hascii
  simp only [installDescriptorFields, List.forall_mem_cons] at hfields
  obtain ⟨hname, hsha, hsize, hdatabase, hlaunch, hsdk, hpackage, htag, hschema, hsigner, habis,
    hcode, hversion, -⟩ := hfields
  have hlist : areSupportedAbis (field fields "supportedAbis") = true := by
    rw [areSupportedAbis_iff, habis, ← hd.supportedAbis]
    exact map_abisValue _ _
  have hsize' : L.bounded maxApkBytes.toNat (field fields "apkSize") =
    some ⟨d.apkSize, hd.apkSize⟩ :=
    L.bounded_iff.mpr hsize
  have hsdk' : L.bounded maxAndroidSdk.toNat (field fields "minSdk") = some ⟨d.minSdk, hd.minSdk⟩ :=
    L.bounded_iff.mpr hsdk
  have hcode' : L.bounded maxAndroidVersionCode (field fields "versionCode") = some d.versionCode :=
    L.bounded_iff.mpr hcode
  simp only [readDescriptor, asciiOf_iff.mpr ⟨hschema, aschema⟩, asciiOf_iff.mpr ⟨htag, atag⟩,
    asciiOf_iff.mpr ⟨hversion, aversion⟩, asciiOf_iff.mpr ⟨hname, aname⟩,
    asciiOf_iff.mpr ⟨hsha, asha⟩, asciiOf_iff.mpr ⟨hpackage, apackage⟩,
    asciiOf_iff.mpr ⟨hsigner, asigner⟩, asciiOf_iff.mpr ⟨hdatabase, adatabase⟩,
    asciiOf_iff.mpr ⟨hlaunch, alaunch⟩, hsize', hsdk', hcode', hlist, Option.bind_eq_bind,
    Option.bind_some, if_true, ← hd.supportedAbis]

/-- No value of a descriptor holds fields to sort. -/
theorem sortKeys_descriptorValue {rank : List CodeUnit → List ℕ} {f : ℕ → ν}
    {d : InstallDescriptor} (hd : Described d) :
    ∀ name ∈ installDescriptorFields,
      sortKeys rank ((descriptorValue d name).map f) = (descriptorValue d name).map f := by
  simp only [installDescriptorFields, List.forall_mem_cons]
  refine ⟨rfl, rfl, rfl, rfl, rfl, rfl, rfl, rfl, rfl, rfl, ?_, rfl, rfl,
    fun _ h => absurd h List.not_mem_nil⟩
  simp only [descriptorValue, abisValue, hd.supportedAbis]
  rfl

theorem wellFormed_descriptorTree {d : InstallDescriptor} (hd : Described d) :
    WellFormed (descriptorTree d) := by
  have hsize := hd.apkSize.2
  have hsdk := hd.minSdk.2
  have hcode := d.versionCode.2.2
  have hmax : maxApkBytes.toNat ≤ Binary64.maxSafeInteger ∧
      maxAndroidSdk.toNat ≤ Binary64.maxSafeInteger ∧
      maxAndroidVersionCode ≤ Binary64.maxSafeInteger := by decide
  refine ⟨?_, ?_⟩
  · rw [List.map_map]
    exact installDescriptorFields_nodup
  · rw [properFields_iff]
    have hvalues : ∀ name ∈ installDescriptorFields,
        Proper (· ≤ Binary64.maxSafeInteger) (descriptorValue d name) := by
      simp only [installDescriptorFields, List.forall_mem_cons]
      refine ⟨trivial, trivial, hsize.trans hmax.1, trivial, trivial, hsdk.trans hmax.2.1,
        trivial, trivial, trivial, trivial, ?_, hcode.trans hmax.2.2, trivial,
        fun _ h => absurd h List.not_mem_nil⟩
      change ProperItems _ _
      rw [properItems_iff]
      intro a ha
      obtain ⟨s, -, rfl⟩ := List.mem_map.mp ha
      trivial
    intro e he
    obtain ⟨name, hname, rfl⟩ := List.mem_map.mp he
    exact hvalues name hname

/-! ## Texts -/

/-- The canonical text of a descriptor, with a spelling of its strings. -/
def descriptorText (quote : List CodeUnit → List Char) (d : InstallDescriptor) : List Char :=
  render quote (Nat.toDigits 10) (descriptorTree d) ++ ['\n']

theorem pyText_ofNat (T : NumberTexts) :
    (fun n : ℕ => PyNumber.text T (python.ofNat n)) = Nat.toDigits 10 :=
  funext toString_natCast

theorem jsText_ofNat (T : NumberTexts) :
    (fun n : ℕ => JsNumber.text T (browser.ofNat n)) = Nat.toDigits 10 :=
  funext toString_natCast

/-- The text of a descriptor that escapes everything else is ASCII. -/
theorem ascii_descriptorText (d : InstallDescriptor) :
    (descriptorText asciiQuote d).all (fun c => c.toNat < 128) = true := by
  rw [descriptorText, List.all_append, ascii_render ascii_toDigits]
  rfl

theorem length_literal_units {s : String} (h : plain s = true) :
    (literal asciiQuote (units s)).length = s.length + 2 := by
  rw [length_literal, asciiQuote_units h, String.length_toList]

theorem length_renderFields_le {bound : ℕ} {fields : List (List CodeUnit × JsonTree ℕ)}
    (h : ∀ e ∈ fields, (literal asciiQuote e.1).length +
      (render asciiQuote (Nat.toDigits 10) e.2).length ≤ bound) :
    (renderFields asciiQuote (Nat.toDigits 10) fields).length ≤ fields.length * (bound + 2) := by
  induction fields with
  | nil => simp [renderFields]
  | cons e fields ih =>
    have he := h e List.mem_cons_self
    have hrest := ih fun f hf => h f (List.mem_cons_of_mem e hf)
    simp only [renderFields, List.length_append, List.length_cons, Nat.add_mul]
    omega

theorem length_toDigits_le {n : ℕ} (h : n ≤ 2147483647) : (Nat.toDigits 10 n).length ≤ 10 := by
  rw [Nat.length_toDigits_le_iff (by decide) (by decide)]
  omega

/-- A record of short fields has a short text. -/
theorem length_objectOf_le {names : List String} {value : String → JsonTree ℕ} {bound : ℕ}
    (hnames : ∀ name ∈ names, plain name = true ∧ name.length ≤ 23)
    (hvalues : ∀ name ∈ names,
      (render asciiQuote (Nat.toDigits 10) (value name)).length ≤ bound) :
    (render asciiQuote (Nat.toDigits 10) (objectOf names value)).length ≤
      names.length * (bound + 27) + 2 := by
  have hfield : ∀ e ∈ names.map fun name => (units name, value name),
      (literal asciiQuote e.1).length + (render asciiQuote (Nat.toDigits 10) e.2).length ≤
        bound + 25 := by
    intro e he
    obtain ⟨name, hname, rfl⟩ := List.mem_map.mp he
    have hkey := length_literal_units (hnames name hname).1
    have hlength := (hnames name hname).2
    have hvalue := hvalues name hname
    dsimp only
    omega
  have hrest := length_renderFields_le hfield
  rw [List.length_map, show bound + 25 + 2 = bound + 27 from rfl] at hrest
  have hall : (render asciiQuote (Nat.toDigits 10) (objectOf names value)).length ≤
      (renderFields asciiQuote (Nat.toDigits 10)
        (names.map fun name => (units name, value name))).length + 2 := by
    rw [objectOf]
    cases names with
    | nil => exact Nat.le_refl 2
    | cons name names =>
      simp only [List.map_cons, render, renderFields, List.length_append, List.length_cons,
        List.length_nil]
      omega
  omega

theorem length_number_le {n : ℕ} (h : n ≤ 2147483647) :
    (render asciiQuote (Nat.toDigits 10) (.num n)).length ≤ 102 :=
  (length_toDigits_le h).trans (by decide)

theorem length_text_le {s : String} (hplain : plain s = true) (hshort : s.length ≤ 100) :
    (render asciiQuote (Nat.toDigits 10) (.str (units s))).length ≤ 102 := by
  have hlength := length_literal_units hplain
  change (literal asciiQuote (units s)).length ≤ 102
  omega

theorem length_abis_le :
    (render asciiQuote (Nat.toDigits 10) (abisValue supportedAbis : JsonTree ℕ)).length ≤ 102 := by
  decide

/-- A descriptor of short texts is written in 4096 bytes. -/
theorem length_descriptorText {d : InstallDescriptor} (hd : Described d)
    (hplain : ∀ s ∈ d.texts, plain s = true) (hshort : ∀ s ∈ d.texts, s.length ≤ 100) :
    (descriptorText asciiQuote d).length ≤ 4096 := by
  have hnames : ∀ name ∈ installDescriptorFields, plain name = true ∧ name.length ≤ 23 := by decide
  have htext : ∀ s ∈ d.texts,
      (render asciiQuote (Nat.toDigits 10) (.str (units s))).length ≤ 102 :=
    fun s hs => length_text_le (hplain s hs) (hshort s hs)
  have hvalues : ∀ name ∈ installDescriptorFields,
      (render asciiQuote (Nat.toDigits 10) (descriptorValue d name)).length ≤ 102 := by
    have hsize :=
      length_number_le (hd.apkSize.2.trans (show maxApkBytes.toNat ≤ 2147483647 by decide))
    have hsdk :=
      length_number_le (hd.minSdk.2.trans (show maxAndroidSdk.toNat ≤ 2147483647 by decide))
    have hcode := length_number_le d.versionCode.2.2
    have habis := hd.supportedAbis ▸ length_abis_le
    simp only [InstallDescriptor.texts, List.forall_mem_cons] at htext
    obtain ⟨hschema, htag, hversion, hname, hsha, hpackage, hsigner, hdatabase, hlaunch, -⟩ := htext
    simp only [installDescriptorFields, List.forall_mem_cons]
    exact ⟨hname, hsha, hsize, hdatabase, hlaunch, hsdk, hpackage, htag, hschema, hsigner, habis,
      hcode, hversion, fun _ h => absurd h List.not_mem_nil⟩
  have hall := length_objectOf_le hnames hvalues
  have hcount : installDescriptorFields.length = 13 := rfl
  rw [hcount] at hall
  rw [descriptorText, descriptorTree, List.length_append, List.length_cons, List.length_nil]
  omega

/-- A Python document with the fields of a descriptor is written as the descriptor. -/
theorem jsonDumps_descriptor {document : JsonTree PyNumber}
    {fields : List (List CodeUnit × JsonTree PyNumber)} {d : InstallDescriptor}
    (hproper : Proper (fun _ => True) document)
    (hobject : python.object installDescriptorFields document = some fields) (hd : Described d)
    (hfields : ∀ name ∈ installDescriptorFields,
      field fields name = (descriptorValue d name).map python.ofNat) :
    jsonDumps T document = render asciiQuote (Nat.toDigits 10) (descriptorTree d) := by
  have hsorted : sortKeys codePoints document = (descriptorTree d).map python.ofNat := by
    rw [descriptorTree, map_objectOf]
    apply sortKeys_object hproper hobject installDescriptorFields_points
    intro name hname
    rw [hfields name hname, sortKeys_descriptorValue hd name hname]
  rw [jsonDumps, hsorted, render_map, pyText_ofNat]

theorem removeV_self {d : InstallDescriptor} {tag apkName apkSha256 : String}
    (hd : Described d) (h : pythonAccepts d tag apkName apkSha256 = true) :
    { d with
      releaseTag := tag, versionName := removeV tag, apkName, apkSha256
      signerCertificateSha256 := releaseSignerCertificateSha256, supportedAbis } = d := by
  simp only [pythonAccepts, Bool.and_eq_true, beq_iff_eq] at h
  obtain ⟨⟨⟨⟨⟨⟨⟨⟨⟨-, htag⟩, hversion⟩, hname⟩, hsha⟩, -⟩, -⟩, hsigner⟩, -⟩, -⟩ := h
  have habis := hd.supportedAbis
  cases d
  dsimp only at htag hversion hname hsha hsigner habis
  subst htag hversion hname hsha hsigner habis
  rfl

/-- Python accepts exactly the canonical texts of the descriptors whose fields it accepts. -/
theorem parseInstallDescriptor_iff {body : List UInt8} {tag apkName apkSha256 : String}
    {d : InstallDescriptor} :
    parseInstallDescriptor T body tag apkName apkSha256 = some d ↔
      Described d ∧ encodeAscii (descriptorText asciiQuote d) = some body ∧
        pythonAccepts d tag apkName apkSha256 = true := by
  constructor
  · intro h
    obtain ⟨text, htext, h⟩ := Option.bind_eq_some_iff.mp h
    obtain ⟨document, hdocument, h⟩ := Option.bind_eq_some_iff.mp h
    obtain ⟨fields, hobject, h⟩ := Option.bind_eq_some_iff.mp h
    obtain ⟨canonical, hcanonical, h⟩ := Option.bind_eq_some_iff.mp h
    split at h
    · rename_i hbody
      obtain ⟨d', hread, h⟩ := Option.bind_eq_some_iff.mp h
      split at h
      · rename_i haccepts
        obtain ⟨hd, hfields⟩ := readDescriptor_some hread
        rw [removeV_self hd haccepts] at h
        obtain rfl := Option.some.inj h
        rw [jsonDumps_descriptor (jsonLoads_proper hdocument) hobject hd hfields] at hcanonical
        exact ⟨hd, hbody ▸ hcanonical, haccepts⟩
      · cases h
    · cases h
  · rintro ⟨hd, hbody, haccepts⟩
    have hdecode : decodeUtf8 body = some (descriptorText asciiQuote d) := by
      rw [← encodeUtf8_of_ascii hbody]
      exact decodeUtf8_encodeUtf8 _
    have hloads : jsonLoads (descriptorText asciiQuote d) =
        some ((descriptorTree d).map python.ofNat) :=
      jsonLoads_render reads_asciiQuote (wellFormed_descriptorTree hd)
    have hobject := python.object_objectOf installDescriptorFields_nodup
      fun name => (descriptorValue d name).map python.ofNat
    rw [← map_objectOf, ← descriptorTree] at hobject
    have hfields : ∀ name ∈ installDescriptorFields,
        field (installDescriptorFields.map fun name =>
          (units name, (descriptorValue d name).map python.ofNat)) name =
            (descriptorValue d name).map python.ofNat :=
      fun name hname => field_objectOf installDescriptorFields_nodup hname
    have hcanonical : encodeAscii (jsonDumps T ((descriptorTree d).map python.ofNat) ++ ['\n']) =
        some body := by
      rw [jsonDumps_descriptor (jsonLoads_proper hloads) hobject hd hfields]
      exact hbody
    simp only [parseInstallDescriptor, hdecode, hloads, hobject, hcanonical,
      readDescriptor_of hd hfields, haccepts, Option.bind_eq_bind, Option.bind_some, if_true,
      removeV_self hd haccepts]

namespace Browser

theorem sortedKeysAre_objectOf (value : String → JsonTree ν) :
    sortedKeysAre (installDescriptorFields.map fun name => (units name, value name))
      installDescriptorFields = true := by
  have hkeys : (installDescriptorFields.map fun name => (units name, value name)).map Prod.fst =
      installDescriptorFields.map units := by
    rw [List.map_map]
    rfl
  rw [sortedKeysAre, hkeys, beq_iff_eq]
  exact (installDescriptorFields_units.imp fun h => le_of_lt h).insertionSort_eq

theorem jsonStringify_descriptor {fields : List (List CodeUnit × JsonTree JsNumber)}
    {d : InstallDescriptor}
    (hfields : ∀ name ∈ installDescriptorFields,
      field fields name = (descriptorValue d name).map browser.ofNat) :
    jsonStringify T (objectOf installDescriptorFields (field fields)) =
      render wellFormedQuote (Nat.toDigits 10) (descriptorTree d) := by
  have hobject : objectOf installDescriptorFields (field fields) =
      (descriptorTree d).map browser.ofNat := by
    rw [descriptorTree, map_objectOf, objectOf, objectOf]
    congr 1
    apply List.map_congr_left
    intro name hname
    rw [hfields name hname]
  rw [jsonStringify, hobject, render_map, jsText_ofNat]

/-- What the browser requires of the arguments of `parseUnauthenticatedDescriptor`. -/
def admits (body : List UInt8) (tag apkSha256 : String) : Bool :=
  (isGithubTag tag || isBuildTag tag) && isSha256 apkSha256 &&
    decide (0 < body.length ∧ body.length ≤ 4096)

/-- The browser accepts exactly the canonical texts of the descriptors whose fields it accepts. -/
theorem parseUnauthenticatedDescriptor_iff {body : List UInt8} {tag apkSha256 : String}
    {d : InstallDescriptor} :
    parseUnauthenticatedDescriptor T body tag apkSha256 = some d ↔
      admits body tag apkSha256 = true ∧ Described d ∧
        encodeAscii (descriptorText wellFormedQuote d) = some body ∧
        accepts d tag apkSha256 = true := by
  constructor
  · intro h
    unfold parseUnauthenticatedDescriptor at h
    split at h
    · rename_i hadmits
      obtain ⟨text, htext, h⟩ := Option.bind_eq_some_iff.mp h
      obtain ⟨document, -, h⟩ := Option.bind_eq_some_iff.mp h
      split at h
      · split at h
        · dsimp only at h
          split at h
          · rename_i heq
            obtain ⟨d', hread, h⟩ := Option.bind_eq_some_iff.mp h
            split at h
            · rename_i haccepts
              obtain rfl := Option.some.inj h
              obtain ⟨hd, hfields⟩ := readDescriptor_some hread
              rw [jsonStringify_descriptor hfields] at heq
              refine ⟨hadmits, hd, ?_, haccepts⟩
              rw [descriptorText, ← heq]
              exact encodeAscii_of_decode htext
            · cases h
          · cases h
        · cases h
      · cases h
    · cases h
  · rintro ⟨hadmits, hd, hbody, haccepts⟩
    have hdecode := decodeAscii_of_encode hbody
    have hparse : jsonParse (descriptorText wellFormedQuote d) =
        some ((descriptorTree d).map browser.ofNat) :=
      jsonParse_render reads_wellFormedQuote (wellFormed_descriptorTree hd)
    have hfields : ∀ name ∈ installDescriptorFields,
        field (installDescriptorFields.map fun name =>
          (units name, (descriptorValue d name).map browser.ofNat)) name =
            (descriptorValue d name).map browser.ofNat :=
      fun name hname => field_objectOf installDescriptorFields_nodup hname
    have htext := congrArg (· ++ ['\n']) (jsonStringify_descriptor (T := T) hfields)
    change _ = descriptorText wellFormedQuote d at htext
    rw [descriptorTree, map_objectOf, objectOf] at hparse
    rw [admits] at hadmits
    simp only [parseUnauthenticatedDescriptor, hadmits, if_true, hdecode, hparse,
      Option.bind_eq_bind, Option.bind_some, sortedKeysAre_objectOf, htext,
      readDescriptor_of hd hfields, haccepts]

end Browser

/-! ## The same checks -/

/-- A descriptor of plain texts has one canonical text in both languages. -/
theorem descriptorText_eq {d : InstallDescriptor} (hplain : ∀ s ∈ d.texts, plain s = true)
    (habis : d.supportedAbis = supportedAbis) :
    descriptorText wellFormedQuote d = descriptorText asciiQuote d := by
  have hportable : Portable (descriptorTree d) := by
    change PortableFields _
    rw [portableFields_iff]
    have hnames : ∀ name ∈ installDescriptorFields, plain name = true := by decide
    have hvalues : ∀ name ∈ installDescriptorFields, Portable (descriptorValue d name) := by
      simp only [InstallDescriptor.texts, List.forall_mem_cons] at hplain
      obtain ⟨hschema, htag, hversion, hname, hsha, hpackage, hsigner, hdatabase, hlaunch, -⟩ :=
        hplain
      simp only [installDescriptorFields, List.forall_mem_cons]
      refine ⟨portable_units hname, portable_units hsha, trivial, portable_units hdatabase,
        portable_units hlaunch, trivial, portable_units hpackage, portable_units htag,
        portable_units hschema, portable_units hsigner, ?_, trivial, portable_units hversion,
        fun _ h => absurd h List.not_mem_nil⟩
      change PortableItems _
      rw [habis, portableItems_iff]
      intro a ha
      obtain ⟨s, hs, rfl⟩ := List.mem_map.mp ha
      have habisPlain : ∀ s ∈ supportedAbis, plain s = true := by decide
      exact portable_units (habisPlain s hs)
    intro e he
    obtain ⟨name, hname, rfl⟩ := List.mem_map.mp he
    exact ⟨portable_units (hnames name hname), hvalues name hname⟩
  rw [descriptorText, descriptorText, (render_eq_iff _).mpr hportable]

namespace Browser

theorem isGithubTag_eq (tag : String) : isGithubTag tag = isInstallReleaseTag tag := by
  rw [Bool.eq_iff_iff]
  simp only [isGithubTag, isTag, isInstallReleaseTag, isRcReleaseTag, Bool.or_eq_true,
    Bool.and_eq_true]
  tauto

/-- The digits and the bounds leave the same ranges. -/
theorem databaseValid_eq (value : String) : databaseValid value = databaseRangeValid value := by
  unfold databaseValid databaseRangeValid
  generalize (after? "hapaneld-db:v1:ha-paneld.db:".toList value.toList).map
    (List.splitOn ':') = parts
  match parts with
  | some [low, high] =>
    rw [Bool.eq_iff_iff]
    simp only [Bool.and_eq_true, decide_eq_true_eq]
    constructor
    · rintro ⟨⟨⟨⟨⟨⟨hlow, hlowLength⟩, hhigh⟩, hhighLength⟩, -⟩, hbound⟩, hle⟩
      exact ⟨⟨⟨⟨⟨hlow, hhigh⟩, hlowLength⟩, hhighLength⟩, hle⟩, hbound.2⟩
    · rintro ⟨⟨⟨⟨⟨hlow, hhigh⟩, hlowLength⟩, hhighLength⟩, hle⟩, hbound⟩
      have hpos := one_le_decimal hlow
      exact ⟨⟨⟨⟨⟨⟨hlow, hlowLength⟩, hhigh⟩, hhighLength⟩, hpos, hle.trans hbound⟩,
        one_le_decimal hhigh, hbound⟩, hle⟩
  | none => rfl
  | some [] => rfl
  | some [_] => rfl
  | some (_ :: _ :: _ :: _) => rfl

theorem mem_githubApkNames {tag apkName : String} :
    apkName ∈ githubApkNames tag ↔ apkName ∈ releaseApkNames tag packageId := by
  have hname : githubApkName tag = releaseApkName tag packageId := by
    have hpackage : packageId ≠ legacyPackageId := by decide
    change "panel-assistant" ++ "-" ++ tag ++ "-manual-setup-required.apk" =
      (if packageId = legacyPackageId then "ha-paneld" else "panel-assistant") ++ "-" ++ tag ++
        "-manual-setup-required.apk"
    rw [if_neg hpackage]
  simp only [githubApkNames, releaseApkNames, hname, if_true, List.mem_cons, List.not_mem_nil,
    or_false]
  exact Or.comm

end Browser

theorem removeV_installTag {tag : String} (h : isInstallReleaseTag tag = true) :
    removeV tag = String.ofList (tag.toList.drop 1) := by
  obtain ⟨rest, hrest⟩ := installTag_head h
  rw [removeV, hrest]
  rfl

/-- Every field check of a release, on either side. -/
theorem accepts_iff {d : InstallDescriptor} {tag apkName apkSha256 : String}
    (htag : isInstallReleaseTag tag = true) (hname : apkName ∈ releaseApkNames tag packageId) :
    pythonAccepts d tag apkName apkSha256 = true ↔
      isSha256 apkSha256 = true ∧ Browser.accepts d tag apkSha256 = true ∧ d.apkName = apkName := by
  have hgithub : Browser.isGithubTag tag = true := by rw [Browser.isGithubTag_eq, htag]
  simp only [pythonAccepts, Browser.accepts, Browser.descriptorIdentityValid, hgithub, if_true,
    Browser.databaseValid_eq, removeV_installTag htag, Bool.and_eq_true, beq_iff_eq,
    List.contains_iff_mem, Browser.mem_githubApkNames]
  constructor
  · rintro ⟨⟨⟨⟨⟨⟨⟨⟨⟨hschema, hreleaseTag⟩, hversion⟩, happ⟩, hsha⟩, hhex⟩, hpackage⟩, hsigner⟩,
      hdatabase⟩, hlaunch⟩
    exact ⟨hsha ▸ hhex, ⟨⟨⟨⟨⟨⟨hschema, ⟨hreleaseTag, hversion⟩, happ ▸ hname⟩, hsha⟩, hpackage⟩,
      hsigner⟩, hlaunch⟩, hdatabase⟩, happ⟩
  · rintro ⟨hhex, ⟨⟨⟨⟨⟨⟨hschema, ⟨hreleaseTag, hversion⟩, -⟩, hsha⟩, hpackage⟩, hsigner⟩, hlaunch⟩,
      hdatabase⟩, happ⟩
    exact ⟨⟨⟨⟨⟨⟨⟨⟨⟨hschema, hreleaseTag⟩, hversion⟩, happ⟩, hsha⟩, hsha ▸ hhex⟩, hpackage⟩,
      hsigner⟩, hdatabase⟩, hlaunch⟩

/-- What either side accepts for a release is plain. -/
theorem plain_texts_of_accepts {d : InstallDescriptor} {tag apkSha256 : String}
    (htag : isInstallReleaseTag tag = true) (hsha : isSha256 apkSha256 = true)
    (h : Browser.accepts d tag apkSha256 = true) : ∀ s ∈ d.texts, plain s = true := by
  have hgithub : Browser.isGithubTag tag = true := by rw [Browser.isGithubTag_eq, htag]
  simp only [Browser.accepts, Browser.descriptorIdentityValid, hgithub, if_true,
    Browser.databaseValid_eq, Bool.and_eq_true, beq_iff_eq, List.contains_iff_mem,
    Browser.mem_githubApkNames, isLaunchComponent_iff] at h
  obtain ⟨⟨⟨⟨⟨⟨hschema, ⟨hreleaseTag, hversion⟩, hname⟩, hsha'⟩, hpackage⟩, hsigner⟩, ⟨-, hlaunch⟩⟩,
    hdatabase⟩ := h
  have hplainTag := plain_of_installTag htag
  have hschemas : ∀ s ∈ installDescriptorSchemas, plain s = true := by decide
  have hdrop : plain (String.ofList (tag.toList.drop 1)) = true := by
    rw [plain, List.all_eq_true] at hplainTag ⊢
    rw [String.toList_ofList]
    exact fun c hc => hplainTag c (List.mem_of_mem_drop hc)
  have happ : ∀ s ∈ releaseApkNames tag packageId, plain s = true := by
    have hpackageId : packageId ≠ legacyPackageId := by decide
    have hplainName : plain (releaseApkName tag packageId) = true := by
      rw [releaseApkName, if_neg hpackageId, plain_append, plain_append, plain_append, hplainTag]
      decide
    intro s hs
    simp only [releaseApkNames, if_true, List.mem_cons, List.not_mem_nil, or_false] at hs
    rcases hs with rfl | rfl
    · rw [plain_append, hplainName]
      decide
    · exact hplainName
  simp only [InstallDescriptor.texts, List.forall_mem_cons]
  refine ⟨hschemas _ hschema, hreleaseTag ▸ hplainTag, hversion ▸ hdrop, happ _ hname,
    hsha' ▸ plain_of_sha256 hsha, ?_, ?_, plain_of_databaseRangeValid hdatabase,
    plain_of_launchComponent hlaunch, fun _ h => absurd h List.not_mem_nil⟩
  · rw [hpackage]
    decide
  · rw [hsigner]
    decide

/-- Every descriptor Python returns for a release meets the install contract. -/
theorem installDescriptorValid_of_accepts {d : InstallDescriptor} {tag apkName apkSha256 : String}
    (htag : isInstallReleaseTag tag = true) (hname : apkName ∈ releaseApkNames tag packageId)
    (hd : Described d) (h : pythonAccepts d tag apkName apkSha256 = true) :
    installDescriptorValid d = true := by
  simp only [pythonAccepts, Bool.and_eq_true, beq_iff_eq] at h
  obtain ⟨⟨⟨⟨⟨⟨⟨⟨⟨hschema, hreleaseTag⟩, hversion⟩, happ⟩, hsha⟩, hhex⟩, hpackage⟩, hsigner⟩,
    hdatabase⟩, hlaunch⟩ := h
  have hsize : 1 ≤ d.apkSize ∧ (d.apkSize : ℤ) ≤ maxApkBytes := by
    have hbound := hd.apkSize
    simp only [maxApkBytes] at hbound ⊢
    omega
  have hsdk : 1 ≤ d.minSdk ∧ (d.minSdk : ℤ) ≤ maxAndroidSdk := by
    have hbound := hd.minSdk
    simp only [maxAndroidSdk] at hbound ⊢
    omega
  have hcode : 1 ≤ d.versionCode.1 ∧ d.versionCode.1 ≤ maxAndroidVersionCode := d.versionCode.2
  have hidentity : artifactIdentityMatches d.releaseTag d.versionName (.int d.versionCode.1)
      d.apkName d.apkSha256 (.str d.packageId) = true := by
    have hcontains : (releaseApkNames tag packageId).contains d.apkName = true := by
      rw [happ, List.contains_iff_mem]
      exact hname
    simp only [artifactIdentityMatches, hreleaseTag, htag, if_true, hversion, hpackage, hcontains,
      removeV, beq_self_eq_true, Bool.true_and, Bool.true_or]
  simp only [installDescriptorValid, hschema, hlaunch, hsigner, hd.supportedAbis, hhex, hsize, hsdk,
    hcode, hdatabase, hidentity, beq_self_eq_true, decide_true, and_self, Bool.and_self]

/-- A side accepts a byte string for a release, as this descriptor. -/
def AcceptedAs (T : NumberTexts) (body : List UInt8) (tag apkName apkSha256 : String)
    (d : InstallDescriptor) : Prop :=
  parseInstallDescriptor T body tag apkName apkSha256 = some d ∨
    Browser.parseUnauthenticatedDescriptor T body tag apkSha256 = some d

variable {body : List UInt8} {tag apkName apkSha256 : String} {d : InstallDescriptor}

/-- What either side accepts is the one canonical text of the descriptor. -/
theorem canonical_of_accepted (htag : isInstallReleaseTag tag = true)
    (h : AcceptedAs T body tag apkName apkSha256 d) :
    encodeAscii (descriptorText asciiQuote d) = some body := by
  rcases h with h | h
  · exact (parseInstallDescriptor_iff.mp h).2.1
  · obtain ⟨hadmits, hd, hbody, haccepts⟩ := Browser.parseUnauthenticatedDescriptor_iff.mp h
    simp only [Browser.admits, Bool.and_eq_true] at hadmits
    have hplain := plain_texts_of_accepts htag hadmits.1.2 haccepts
    rw [descriptorText_eq hplain hd.supportedAbis] at hbody
    exact hbody

/-- What Python accepts, the browser accepts, for the APK that the descriptor names. -/
theorem browser_of_python (htag : isInstallReleaseTag tag = true)
    (hname : apkName ∈ releaseApkNames tag packageId) (hsize : body.length ≤ 4096)
    (h : parseInstallDescriptor T body tag apkName apkSha256 = some d) :
    Browser.parseUnauthenticatedDescriptor T body tag apkSha256 = some d ∧ d.apkName = apkName := by
  obtain ⟨hd, hbody, haccepts⟩ := parseInstallDescriptor_iff.mp h
  obtain ⟨hsha, haccepts, happ⟩ := (accepts_iff htag hname).mp haccepts
  have hplain := plain_texts_of_accepts htag hsha haccepts
  have hpos : 0 < body.length := by
    rw [length_of_encodeAscii hbody]
    simp [descriptorText]
  have hgithub : Browser.isGithubTag tag = true := by rw [Browser.isGithubTag_eq, htag]
  refine ⟨Browser.parseUnauthenticatedDescriptor_iff.mpr ⟨?_, hd, ?_, haccepts⟩, happ⟩
  · simp only [Browser.admits, hgithub, hsha, hpos, hsize, Bool.true_or, and_self, decide_true,
      Bool.and_self]
  · rw [descriptorText_eq hplain hd.supportedAbis]
    exact hbody

theorem python_of_browser (htag : isInstallReleaseTag tag = true)
    (hname : apkName ∈ releaseApkNames tag packageId)
    (h : Browser.parseUnauthenticatedDescriptor T body tag apkSha256 = some d)
    (happ : d.apkName = apkName) :
    parseInstallDescriptor T body tag apkName apkSha256 = some d := by
  have haccepted : AcceptedAs T body tag apkName apkSha256 d := Or.inr h
  have hbody := canonical_of_accepted htag haccepted
  obtain ⟨hadmits, hd, -, haccepts⟩ := Browser.parseUnauthenticatedDescriptor_iff.mp h
  simp only [Browser.admits, Bool.and_eq_true] at hadmits
  exact parseInstallDescriptor_iff.mpr
    ⟨hd, hbody, (accepts_iff htag hname).mpr ⟨hadmits.1.2, haccepts, happ⟩⟩

/-- The browser and Python accept the same descriptors of a release, byte for byte, and read the
same fields in them; what either accepts is the one canonical text of its fields; and what Python
returns meets the install contract. -/
theorem install_descriptor_agreement (T : NumberTexts) (tag apkName apkSha256 : String)
    (htag : isInstallReleaseTag tag = true) (hname : apkName ∈ releaseApkNames tag packageId)
    (body : List UInt8) (hsize : body.length ≤ 4096) :
    ((∃ d, parseInstallDescriptor T body tag apkName apkSha256 = some d) ↔
        ∃ d, Browser.parseUnauthenticatedDescriptor T body tag apkSha256 = some d ∧
          d.apkName = apkName) ∧
      (∀ d d', parseInstallDescriptor T body tag apkName apkSha256 = some d →
        Browser.parseUnauthenticatedDescriptor T body tag apkSha256 = some d' → d = d') ∧
      (∀ d, AcceptedAs T body tag apkName apkSha256 d →
        encodeAscii (descriptorText asciiQuote d) = some body) ∧
      (∀ d body' tag' apkName' apkSha256', isInstallReleaseTag tag' = true →
        AcceptedAs T body tag apkName apkSha256 d →
        AcceptedAs T body' tag' apkName' apkSha256' d → body = body') ∧
      ∀ d, parseInstallDescriptor T body tag apkName apkSha256 = some d →
        installDescriptorValid d = true := by
  refine ⟨⟨?_, ?_⟩, ?_, ?_, ?_, ?_⟩
  · rintro ⟨d, hd⟩
    exact ⟨d, browser_of_python htag hname hsize hd⟩
  · rintro ⟨d, hd, happ⟩
    exact ⟨d, python_of_browser htag hname hd happ⟩
  · intro d d' hd hd'
    have heq := (browser_of_python htag hname hsize hd).1
    rw [hd', Option.some.injEq] at heq
    exact heq.symm
  · intro d h
    exact canonical_of_accepted htag h
  · intro d body' tag' apkName' apkSha256' htag' h h'
    have hbody := canonical_of_accepted htag h
    rw [canonical_of_accepted htag' h', Option.some.injEq] at hbody
    exact hbody.symm
  · intro d hd
    obtain ⟨hdescribed, -, haccepts⟩ := parseInstallDescriptor_iff.mp hd
    exact installDescriptorValid_of_accepts htag hname hdescribed haccepts

/-- The descriptor of one release. -/
def releaseDescriptor : InstallDescriptor where
  schema := "io.panelassistant.android.install.v1"
  releaseTag := "v0.10.0-rc2"
  versionName := "0.10.0-rc2"
  versionCode := ⟨812, by decide⟩
  apkName := "panel-assistant-v0.10.0-rc2-manual-setup-required.apk.bin"
  apkSize := 9437184
  apkSha256 := "00112233445566778899aabbccddeeff00112233445566778899aabbccddeeff"
  packageId := packageId
  signerCertificateSha256 := releaseSignerCertificateSha256
  minSdk := 26
  supportedAbis := supportedAbis
  databaseCompatibility := "hapaneld-db:v1:ha-paneld.db:1:14"
  launchComponent := newClassesSuccessorLaunch

theorem install_descriptor_agreement_release :
    ∃ body, body.length ≤ 4096 ∧ ∃ d, Browser.parseUnauthenticatedDescriptor ⟨id, id⟩ body
      releaseDescriptor.releaseTag releaseDescriptor.apkSha256 = some d ∧
        d.apkName = releaseDescriptor.apkName := by
  have hdescribed : Described releaseDescriptor := ⟨by decide, by decide, by decide, rfl⟩
  obtain ⟨body, hbody⟩ := exists_encodeAscii (ascii_descriptorText releaseDescriptor)
  have hsize : body.length ≤ 4096 := by
    rw [length_of_encodeAscii hbody]
    exact length_descriptorText hdescribed (by decide) (by decide)
  have haccepts : pythonAccepts releaseDescriptor releaseDescriptor.releaseTag
      releaseDescriptor.apkName releaseDescriptor.apkSha256 = true := by
    decide
  have hagreement := install_descriptor_agreement ⟨id, id⟩ releaseDescriptor.releaseTag
    releaseDescriptor.apkName releaseDescriptor.apkSha256 (by decide) (by decide)
    body hsize
  exact ⟨body, hsize, hagreement.1.mp
    ⟨releaseDescriptor, parseInstallDescriptor_iff.mpr ⟨hdescribed, hbody, haccepts⟩⟩⟩

end PanelAssistant
