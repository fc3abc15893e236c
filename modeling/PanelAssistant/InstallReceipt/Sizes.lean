import Mathlib.Tactic.Linarith
import PanelAssistant.InstallReceipt.RoundTrip
import PanelAssistant.InstallReceipt.Rules
import PanelAssistant.Library.JsonSize
import PanelAssistant.Signed.Plain

/-!
# The size of a stored receipt

Every text of a receipt that `_parse_receipt` accepts is bounded in length, and all of them but
the model are plain, so the model is the only one that escaping makes longer
(`length_serializeReceipt_le`).
-/

namespace PanelAssistant

open Library Library.Text Library.Json Library.JsonTree InstallPhase

variable (P : Platform)

/-- What the size of a document needs of Python and of `ulid_transform`: an address literal
without a scope is written in hexadecimal digits, colons and full stops, and `bytes_to_ulid`
writes letters and digits. -/
structure PlainTexts : Prop where
  address : ∀ text ip, P.ipAddress text = some ip → isAllowedInstallAddress ip = true →
    text.toList.all (fun c => isAlnum c || c == ':' || c == '.') = true
  ulid : ∀ value bytes, P.ulidToBytesOrNone value = some bytes →
    (P.bytesToUlid bytes).toList.all isAlnum = true

/-! ## Texts of bounded length -/

theorem length_of_safeText {text : String} {n : ℕ} (h : safeText (.str text) n = .ok text) :
    text.length ≤ n := by
  rw [safeText] at h
  split at h
  · cases h
  · rename_i hcheck
    simp only [Bool.or_eq_true, not_or, decide_eq_true_eq, not_lt] at hcheck
    rw [← String.length_toList]
    exact hcheck.1.2

theorem length_of_repeats {cls : Char → Bool} {low high : ℕ} {text : String}
    (h : repeats cls low high text.toList = true) : text.length ≤ high := by
  simp only [repeats, Bool.and_eq_true, decide_eq_true_eq, String.length_toList] at h
  exact h.1.2

theorem plain_of_repeats {cls : Char → Bool} (hcls : ∀ c, cls c = true → plainChar c = true)
    {low high : ℕ} {text : String} (h : repeats cls low high text.toList = true) :
    plain text = true := by
  simp only [repeats, Bool.and_eq_true] at h
  exact all_mono hcls h.2

theorem width_le_of_plain {text : String} {n : ℕ} (hplain : plain text = true)
    (hlength : text.length ≤ n) : width text ≤ n + 2 := by
  rw [width_of_plain hplain]
  omega

theorem width_hex_le {text : String} {n : ℕ} (h : repeats isHex n n text.toList = true) :
    width text ≤ n + 2 :=
  width_le_of_plain (plain_of_repeats (fun _ => plainChar_of_hex) h) (length_of_repeats h)

theorem plainChar_of_class {cls : Char → Bool} (others : List Char)
    (hothers : others.all plainChar = true) (hcls : ∀ c, cls c = (isAlnum c || others.contains c))
    (c : Char) (h : cls c = true) : plainChar c = true := by
  rw [hcls, Bool.or_eq_true, List.contains_iff_mem] at h
  rcases h with h | h
  · exact plainChar_of_alnum h
  · exact List.all_eq_true.mp hothers c h

/-- A text that fits a shape of digits and fixed characters. -/
theorem plain_of_template {template : List Char} (htemplate : template.all plainChar = true)
    {cs : List Char} (hlength : cs.length = template.length)
    (h : (cs.zip template).all (fun p => if p.2 = 'd' then isDigit p.1 else p.1 == p.2) = true) :
    cs.all plainChar = true := by
  induction template generalizing cs with
  | nil =>
    rw [List.length_eq_zero_iff.mp hlength]
    rfl
  | cons d template ih =>
    cases cs with
    | nil => rfl
    | cons c cs =>
      rw [List.all_cons, Bool.and_eq_true] at htemplate
      rw [List.zip_cons_cons, List.all_cons, Bool.and_eq_true] at h
      rw [List.all_cons, Bool.and_eq_true]
      refine ⟨?_, ih htemplate.2 (Nat.succ.inj hlength) h.2⟩
      have hc := h.1
      split at hc
      · exact plainChar_of_digit hc
      · obtain rfl : c = d := eq_of_beq hc
        exact htemplate.1

/-- A canonical timestamp is 25 plain characters. -/
theorem width_timestamp {text : String} (h : timestamp (.str text) = .ok text) :
    width text ≤ 27 := by
  have hchars : "dddd-dd-ddTdd:dd:dd+00:00".toList =
      ['d', 'd', 'd', 'd', '-', 'd', 'd', '-', 'd', 'd', 'T', 'd', 'd', ':', 'd', 'd', ':',
        'd', 'd', '+', '0', '0', ':', '0', '0'] := String.toList_ofList
  simp only [timestamp, bind_eq_ok] at h
  obtain ⟨text', hsafe, h⟩ := h
  obtain rfl := Json.str.inj (safeText_eq_ok hsafe)
  split at h
  · rename_i instant hinstant
    unfold fromIsoFormat at hinstant
    dsimp only at hinstant
    split at hinstant
    · rename_i hshape
      rw [hchars] at hshape
      refine width_le_of_plain (plain_of_template (by decide) hshape.1 hshape.2) ?_
      rw [← String.length_toList, hshape.1]
      decide
    · cases hinstant
  · cases h

/-! ## Addresses -/

variable {P}

theorem plain_of_dnsLabels {cs : List Char}
    (h : (((before? ['.'] cs).getD cs).splitOn '.').all isDnsLabel = true) :
    cs.all plainChar = true := by
  have hlabel : ∀ part, isDnsLabel part = true → part.all plainChar = true := by
    intro part hpart
    simp only [isDnsLabel, repeats, Bool.and_eq_true] at hpart
    refine all_mono (fun c hc => ?_) hpart.1.1.2
    rw [Bool.or_eq_true, beq_iff_eq] at hc
    rcases hc with hc | rfl
    · exact plainChar_of_alnum hc
    · decide
  have hbare : ((before? ['.'] cs).getD cs).all plainChar = true :=
    all_of_splitOn (by decide) fun part hpart => hlabel part (List.all_eq_true.mp h part hpart)
  rw [before?] at hbare
  split at hbare
  · rename_i hsuffix
    obtain ⟨bare, rfl⟩ := List.isSuffixOf_iff_suffix.mp hsuffix
    have hlength : (bare ++ ['.']).length - ['.'].length = bare.length := by simp
    rw [Option.getD_some, hlength, List.take_left] at hbare
    rw [List.all_append, hbare]
    decide
  · exact hbare

theorem plain_of_resolverHostname {host text : String} (h : resolverHostname P host = some text) :
    plain host = true := by
  unfold resolverHostname at h
  dsimp only at h
  split at h
  · cases h
  · split at h
    · rename_i hlabels
      exact plain_of_dnsLabels hlabels
    · cases h

theorem plain_of_addressLiteral (hplain : PlainTexts P) {text : String} {ip : IpAddress}
    (h : P.ipAddress text = some ip) (hallowed : isAllowedInstallAddress ip = true) :
    plain text = true := by
  refine all_mono (fun c hc => ?_) (hplain.address text ip h hallowed)
  rw [Bool.or_eq_true, Bool.or_eq_true, beq_iff_eq, beq_iff_eq] at hc
  rcases hc with (hc | rfl) | rfl
  · exact plainChar_of_alnum hc
  · decide
  · decide

theorem plain_toString (n : ℤ) : plain (toString n) = true := by
  rw [plain, List.all_eq_true]
  intro c hc
  have hnumeral := isNumeral_of_mem_toString hc
  rw [Json.isNumeral, Bool.or_eq_true, beq_iff_eq] at hnumeral
  rcases hnumeral with h | rfl
  · exact plainChar_of_digit (by rwa [isDigit_eq])
  · decide

theorem plain_storedValue {a : PanelAddress} (h : plain a.host = true) :
    plain a.storedValue = true := by
  have hhost : plain (if a.host.toList.contains ':' then "[" ++ a.host ++ "]" else a.host) =
      true := by
    split
    · rw [plain_append, plain_append, h]
      decide
    · exact h
  unfold PanelAddress.storedValue
  dsimp only
  split
  · exact hhost
  · rw [plain_append, plain_append, hhost, plain_toString]
    decide

/-- Both addresses of an admissible target are plain. -/
theorem plain_of_addressesAdmissible (hplain : PlainTexts P) {address pinned : String}
    (h : addressesAdmissible P address pinned = true) :
    plain address = true ∧ plain pinned = true := by
  unfold addressesAdmissible at h
  split at h
  · rename_i original pin _ _
    split at h
    · cases h
    · rename_i ip hip
      simp only [Bool.and_eq_true, beq_iff_eq] at h
      obtain ⟨⟨⟨⟨⟨horiginal, hpin⟩, -⟩, -⟩, hallowed⟩, hname⟩ := h
      have hliteral := plain_of_addressLiteral hplain hip hallowed
      refine ⟨?_, hpin ▸ plain_storedValue hliteral⟩
      rw [← horiginal]
      apply plain_storedValue
      split at hname
      · obtain ⟨text, htext⟩ := Option.isSome_iff_exists.mp hname
        exact plain_of_resolverHostname htext
      · rename_i originalIp horiginalIp
        rw [beq_iff_eq] at hname
        exact plain_of_addressLiteral hplain horiginalIp (hname ▸ hallowed)
  · cases h

/-! ## Targets -/

theorem length_integer_le {n low high : ℤ} {k : ℕ} (h : integer (.int n) low high = .ok n)
    (hk : 0 < k) (hlow : 0 ≤ low) (hhigh : high < 10 ^ k) (m : ℕ) :
    (pretty m (.int n)).length ≤ k := by
  rw [integer] at h
  split at h
  · rename_i hrange
    exact length_pretty_int_le hk (hlow.trans hrange.1) (hrange.2.trans_lt hhigh) m
  · cases h

theorem length_asdict_le (hplain : PlainTexts P) {t : InstallTarget} (h : TargetOk P t)
    (habi : t.primaryAbi ∈ supportedAbis) :
    (pretty 4 t.asdict).length ≤ width t.model + 824 := by
  have hnames : ["address", "pinned_address", "adb_serial", "model", "primary_abi",
      "android_sdk"].map width = [9, 16, 12, 7, 13, 13] := by
    repeat' refine congrArg₂ List.cons (width_ofList (by decide)) ?_
    rfl
  have hshape := h.shape
  simp only [Bool.and_eq_true] at hshape
  obtain ⟨haddress, hpinned⟩ := plain_of_addressesAdmissible hplain h.admissible
  have hserial : plain t.adbSerial = true :=
    plain_of_repeats (plainChar_of_class "._:-".toList (by decide) fun _ => rfl) hshape.1.2
  have haddress := width_le_of_plain haddress (length_of_safeText h.address)
  have hpinned := width_le_of_plain hpinned (length_of_safeText h.pinnedAddress)
  have hserial := width_le_of_plain hserial (length_of_safeText h.adbSerial)
  have hprimary : width t.primaryAbi ≤ 13 := by
    simp only [supportedAbis, List.mem_cons, List.not_mem_nil, or_false] at habi
    rcases habi with habi | habi <;> rw [habi, width_of_plain (by decide)] <;> decide
  have hsdk := length_integer_le h.androidSdk (show 0 < 3 by decide) (by decide) (by decide) 5
  simp only [List.map_cons, List.map_nil, List.cons.injEq, and_true] at hnames
  rw [InstallTarget.asdict, length_pretty_obj]
  simp only [List.map_cons, List.map_nil, List.sum_cons, List.sum_nil, length_pretty_str, hnames,
    Nat.reduceAdd]
  omega

/-! ## Artifacts -/

theorem plain_of_feedTag {tag : String} {code : ℕ} (h : feedBuildCode tag = some code) :
    plain tag = true ∧ tag.length ≤ 26 := by
  obtain ⟨digits, hdigits, -⟩ := Option.bind_eq_some_iff.mp h
  obtain ⟨rest, hrest, hrestDigits⟩ := Option.bind_eq_some_iff.mp hdigits
  dsimp only at hrestDigits
  split at hrestDigits
  · rename_i hnumeral
    rw [Bool.and_eq_true, decide_eq_true_eq] at hnumeral
    obtain ⟨hnumeral, hshort⟩ := hnumeral
    have hplain := plain_of_positiveNumeral hnumeral
    have htext := after?_eq_some hrest
    have hsuffix : rest.all plainChar = true ∧ rest.length ≤ 20 := by
      rw [before?] at hplain hshort
      split at hplain
      · rename_i hends
        rw [if_pos hends, Option.getD_some] at hshort
        obtain ⟨front, rfl⟩ := List.isSuffixOf_iff_suffix.mp hends
        have hlength : "-successor".toList.length = 10 := by decide
        rw [List.length_append, Nat.add_sub_cancel, List.take_left] at hshort
        rw [Option.getD_some, List.length_append, Nat.add_sub_cancel, List.take_left] at hplain
        rw [List.all_append, hplain, List.length_append, hlength]
        exact ⟨by decide, by omega⟩
      · rename_i hends
        rw [if_neg hends, Option.getD_none] at hshort
        exact ⟨hplain, by omega⟩
    have hlength : "build-".toList.length = 6 := by decide
    refine ⟨?_, ?_⟩
    · rw [plain, htext, List.all_append, hsuffix.1]
      decide
    · rw [← String.length_toList, htext, List.length_append, hlength]
      omega
  · cases hrestDigits

theorem plain_of_releaseApkNames {tag package name : String} (htag : plain tag = true)
    (h : name ∈ releaseApkNames tag package) :
    plain name = true ∧ name.length ≤ tag.length + 46 := by
  have hend : plain "-manual-setup-required.apk" = true ∧
      "-manual-setup-required.apk".length = 26 := by decide
  have hold : plain "ha-paneld" = true ∧ "ha-paneld".length = 9 := by decide
  have hnew : plain "panel-assistant" = true ∧ "panel-assistant".length = 15 := by decide
  have hdash : plain "-" = true ∧ "-".length = 1 := by decide
  have hbin : plain ".bin" = true ∧ ".bin".length = 4 := by decide
  have hstem : plain (releaseApkName tag package) = true ∧
      (releaseApkName tag package).length ≤ tag.length + 42 := by
    unfold releaseApkName
    split
    · simp only [plain_append, String.length_append, htag, hend, hold, hdash,
        Bool.and_self, true_and]
      omega
    · simp only [plain_append, String.length_append, htag, hend, hnew, hdash,
        Bool.and_self, true_and]
      omega
  have hnames : name = releaseApkName tag package ∨
    name = releaseApkName tag package ++ ".bin" := by
    unfold releaseApkNames at h
    dsimp only at h
    split at h
    · simpa [or_comm] using h
    · exact Or.inl (List.mem_singleton.mp h)
  rcases hnames with rfl | rfl
  · exact ⟨hstem.1, by omega⟩
  · simp only [plain_append, String.length_append, hstem.1, hbin, Bool.and_self, true_and]
    omega

/-- The tag, the version name and the file name of an artifact together. -/
theorem width_identity_le {tag version apkName sha package : String} {code : Json}
    (h : artifactIdentityMatches tag version code apkName sha (.str package) = true) :
    width tag + width version + width apkName ≤ 244 := by
  unfold artifactIdentityMatches at h
  split at h
  · rename_i hinstall
    have htag := plain_of_installTag hinstall
    have hshort : tag.length ≤ 64 := by
      simp only [isInstallReleaseTag, Bool.and_eq_true, decide_eq_true_eq] at hinstall
      exact hinstall.1
    rw [Bool.and_eq_true, beq_iff_eq] at h
    obtain ⟨hname, rfl⟩ := h
    have hversion : width (String.ofList ((after? ['v'] tag.toList).getD tag.toList)) ≤
        tag.length + 2 := by
      rw [after?]
      split
      · rw [Option.getD_some, width_ofList (List.all_eq_true.mpr fun c hc =>
          List.all_eq_true.mp htag c (List.mem_of_mem_drop hc)), List.length_drop,
          String.length_toList]
        omega
      · rw [Option.getD_none, width_ofList htag, String.length_toList]
    have hapk : width apkName ≤ tag.length + 48 := by
      simp only [Bool.or_eq_true, Bool.and_eq_true, List.contains_iff_mem] at hname
      rcases hname with ⟨-, hmem⟩ | ⟨-, hmem⟩ <;>
      · obtain ⟨hplain, hlength⟩ := plain_of_releaseApkNames htag hmem
        exact width_le_of_plain hplain hlength
    have hwidth := width_of_plain htag
    omega
  · split at h
    · rename_i code' _ hcode _
      simp only [Bool.and_eq_true, beq_iff_eq] at h
      obtain ⟨⟨⟨-, hversion⟩, hsha⟩, rfl⟩ := h
      obtain ⟨htag, hshort⟩ := plain_of_feedTag hcode
      have hversionLength : version.length ≤ 64 := by
        unfold isBuildVersionName at hversion
        split at hversion
        · cases hversion
        · rename_i c rest heq
          simp only [repeats, Bool.and_eq_true, decide_eq_true_eq] at hversion
          rw [← String.length_toList, heq, List.length_cons]
          omega
      have hdot : plain ".apk" = true ∧ ".apk".length = 4 := by decide
      have hapk : plain (sha ++ ".apk") = true ∧ (sha ++ ".apk").length ≤ 68 := by
        have hlength := length_of_repeats hsha
        simp only [plain_append, String.length_append, plain_of_sha256 hsha, hdot, Bool.and_self,
          true_and]
        omega
      have hwidthTag := width_le_of_plain htag hshort
      have hwidthVersion := width_le_of_plain (plain_of_versionName hversion) hversionLength
      have hwidthApk := width_le_of_plain hapk.1 hapk.2
      omega
    · cases h

theorem width_launch_le {package component : String}
    (h : isLaunchComponent (.str package) (.str component) = true ∨
      package = legacyPackageId ∧ component = legacyLaunchComponent) :
    width package + width component ≤ 94 := by
  have hnew : width packageId = 27 := width_ofList (by decide)
  have hold : width legacyPackageId = 28 := width_ofList (by decide)
  rw [isLaunchComponent_iff] at h
  rcases h with ⟨rfl, h⟩ | ⟨rfl, rfl⟩
  · simp only [launchComponents, List.mem_cons, List.not_mem_nil, or_false] at h
    rcases h with rfl | rfl
    · have hlaunch : width oldClassesSuccessorLaunch = 67 := width_ofList (by decide)
      omega
    · have hlaunch : width newClassesSuccessorLaunch = 66 := width_ofList (by decide)
      omega
  · have hlaunch : width legacyLaunchComponent = 42 := width_ofList (by decide)
    omega

theorem width_database_le {text : String} (h : databaseRangeValid text = true) :
    width text ≤ 51 := by
  refine width_le_of_plain (plain_of_databaseRangeValid h) ?_
  unfold databaseRangeValid at h
  split at h
  · rename_i low high hsplit
    simp only [Bool.and_eq_true, decide_eq_true_eq] at h
    obtain ⟨rest, hrest, hparts⟩ := Option.map_eq_some_iff.mp hsplit
    have hjoined : rest = low ++ ':' :: high := by
      have hjoin : [':'].intercalate (rest.splitOn ':') = rest := List.intercalate_splitOn ':'
      rw [hparts] at hjoin
      simpa [List.intercalate] using hjoin.symm
    have hstem : "hapaneld-db:v1:ha-paneld.db:".toList.length = 28 := by decide
    rw [← String.length_toList, after?_eq_some hrest, hjoined, List.length_append,
      List.length_append, List.length_cons, hstem]
    omega
  · cases h

theorem length_range_le {low high : Option ℤ}
    (h : parseRange (jsonOf .int low) (jsonOf .int high) = .ok (low, high)) (m : ℕ) :
    (pretty m (jsonOf .int low)).length ≤ 10 ∧ (pretty m (jsonOf .int high)).length ≤ 10 := by
  unfold parseRange at h
  split at h
  · rename_i hlow hhigh
    rw [hlow, hhigh, length_pretty_null]
    exact ⟨by decide, by decide⟩
  · simp only [bind_eq_ok, pure_eq_ok, Prod.mk.injEq] at h
    obtain ⟨n, hn, k, hk, rfl, rfl⟩ := h
    have hpos : 1 ≤ n := by
      rw [jsonOf, integer] at hn
      split at hn
      · rename_i hrange
        exact hrange.1
      · cases hn
    exact ⟨length_integer_le hn (by decide) (by decide) (by decide) m,
      length_integer_le hk (by decide) (by omega) (by decide) m⟩

theorem length_supportedAbis : (pretty 5 (.arr (supportedAbis.map .str))).length = 64 := by
  have hfirst : width "arm64-v8a" = 11 := width_ofList (by decide)
  have hsecond : width "armeabi-v7a" = 13 := width_ofList (by decide)
  rw [supportedAbis, List.map_cons, length_pretty_arr]
  simp only [List.map_cons, List.map_nil, List.sum_cons, List.sum_nil, length_pretty_str, hfirst,
    hsecond, Nat.reduceAdd, Nat.reduceMul]

theorem length_artifactDocument_le {a : InstallArtifact} (h : ArtifactOk a) :
    (pretty 4 (artifactDocument a)).length ≤ 1151 := by
  have hnames : artifactKeys.map width = [19, 13, 14, 14, 10, 12, 10, 12, 27, 9, 16, 24, 18] := by
    repeat' refine congrArg₂ List.cons (width_ofList (by decide)) ?_
    rfl
  have hrange : rangeKeys.map width = [14, 14] := by
    repeat' refine congrArg₂ List.cons (width_ofList (by decide)) ?_
    rfl
  have hoptIn : width "prerelease_opt_in" = 19 := width_ofList (by decide)
  simp only [artifactKeys, rangeKeys, List.map_cons, List.map_nil, List.cons.injEq,
    and_true] at hnames hrange
  have hshape := h.shape
  simp only [Bool.and_eq_true] at hshape
  have hschema : width a.descriptorSchema ≤ 39 := by
    have hmem := h.schema
    simp only [installDescriptorSchemas, List.mem_cons, List.not_mem_nil, or_false] at hmem
    rcases hmem with hmem | hmem <;> rw [hmem, width_ofList (by decide)] <;> decide
  have hidentity := width_identity_le h.identity
  have hlaunch := width_launch_le h.launch
  have hsha := width_hex_le hshape.1.2
  have hsigner : width a.signerCertificateSha256 = 66 := by
    rw [h.release]
    exact width_ofList (by decide)
  have hdatabase := width_database_le hshape.2
  have hcode := length_integer_le h.versionCode (show 0 < 10 by decide) (by decide) (by decide) 5
  have hsize := length_integer_le h.apkSize (show 0 < 8 by decide) (by decide) (by decide) 5
  have hsdk := length_integer_le h.minSdk (show 0 < 3 by decide) (by decide) (by decide) 5
  have habis : (pretty 5 (.arr (a.supportedAbis.map .str))).length = 64 := by
    rw [h.abis]
    exact length_supportedAbis
  obtain ⟨hmin, hmax⟩ := length_range_le h.range 5
  have hbool := length_pretty_bool_le 5 a.prereleaseOptIn
  rw [artifactDocument, InstallArtifact.fields]
  split_ifs <;>
  · simp only [List.cons_append, List.nil_append, length_pretty_obj, List.map_cons, List.map_nil,
      List.sum_cons, List.sum_nil, length_pretty_str, hnames, hrange, hoptIn, hsigner,
        habis, Nat.reduceAdd]
    linarith

/-! ## Receipts -/

theorem width_phase_le (p : InstallPhase) : width p.value ≤ 19 := by
  cases p <;> exact (width_ofList (by decide)).trans_le (by decide)

theorem width_resultCode_le (c : InstallResultCode) : width c.value ≤ 33 := by
  cases c <;> exact (width_ofList (by decide)).trans_le (by decide)

theorem length_jsonOf_le {α : Type} {w : α → Json} {o : Option α} {k m : ℕ} (hk : 4 ≤ k)
    (h : ∀ a, o = some a → (pretty m (w a)).length ≤ k) : (pretty m (jsonOf w o)).length ≤ k := by
  cases o with
  | none =>
    rw [jsonOf, length_pretty_null]
    exact hk
  | some a => exact h a rfl

theorem width_entryId_le (hplain : PlainTexts P) {text : String}
    (h : parseEntryId P (.str text) = .ok text) : width text ≤ 34 := by
  simp only [parseEntryId, bind_eq_ok, check_eq_ok, pure_eq_ok] at h
  obtain ⟨text', hsafe, _, hid, rfl⟩ := h
  refine width_le_of_plain ?_ (length_of_safeText hsafe)
  rw [isConfigEntryId, Bool.or_eq_true, Bool.and_eq_true, any_eq_true_iff] at hid
  rcases hid with hid | ⟨-, bytes, hbytes, heq⟩
  · exact plain_of_repeats (fun _ => plainChar_of_hex) hid
  · rw [← eq_of_beq heq]
    exact all_mono (fun _ => plainChar_of_alnum) (hplain.ulid _ _ hbytes)

/-- A stored receipt takes at most 2850 characters and its model. -/
theorem length_serializeReceipt_le (hplain : PlainTexts P) {r : InstallJobReceipt}
    (hfields : FieldsOk P r) (hvalid : PrimaryValid P r) :
    (pretty 3 (serializeReceipt r)).length ≤ width r.target.model + 2850 := by
  have hnames : receiptKeys.map width =
      [8, 10, 21, 12, 12, 7, 18, 9, 8, 10, 13, 19, 21, 18, 19, 13, 19] := by
    repeat' refine congrArg₂ List.cons (width_ofList (by decide)) ?_
    rfl
  have hdeferred : width "home_claim_deferred" = 21 := width_ofList (by decide)
  simp only [receiptKeys, List.map_cons, List.map_nil, List.cons.injEq, and_true] at hnames
  have hids := hfields.ids
  simp only [Bool.and_eq_true] at hids
  obtain ⟨⟨hid, hplan⟩, hcredential⟩ := hids
  have hid := width_hex_le hid
  have hplan := width_hex_le hplan
  have hcredential := width_hex_le hcredential
  have hrevision := length_integer_le hfields.revision (show 0 < 19 by decide) (by decide)
    (by decide) 4
  have hgeneration := length_integer_le hfields.generation (show 0 < 10 by decide) (by decide)
    (by decide) 4
  have hattempt := length_integer_le hfields.attempt (show 0 < 2 by decide) (by decide)
    (by decide) 4
  have hcreated := width_timestamp hfields.createdAt
  have hupdated := width_timestamp hfields.updatedAt
  have hphase := width_phase_le r.phase
  have hcancel := length_pretty_bool_le 4 r.cancelRequested
  have htrue := length_pretty_bool_le 4 true
  have htarget := length_asdict_le hplain hfields.targetOk
    (List.contains_iff_mem.mp (hfields.artifactOk.abis ▸ hvalid.abi))
  have hartifact := length_artifactDocument_le hfields.artifactOk
  have hmode : (pretty 4 (jsonOf .str r.preflightRootMode)).length ≤ 11 := by
    refine length_jsonOf_le (by decide) fun mode hmode => ?_
    have hmem := List.contains_iff_mem.mp (parseRootMode_iff.mp (hfields.rootMode mode hmode))
    simp only [preflightRootModes, List.mem_cons, List.not_mem_nil, or_false] at hmem
    rw [length_pretty_str]
    rcases hmem with rfl | rfl | rfl <;> exact (width_ofList (by decide)).trans_le (by decide)
  have hactual : (pretty 4 (jsonOf .int r.actualApkBytes)).length ≤ 8 :=
    length_jsonOf_le (by decide) fun bytes hbytes =>
      length_integer_le (hfields.actual bytes hbytes) (by decide) (by decide) (by decide) 4
  have hhealth : (pretty 4 (jsonOf .str r.healthCheckedAt)).length ≤ 27 :=
    length_jsonOf_le (by decide) fun checked hchecked => by
      rw [length_pretty_str]
      exact width_timestamp (hfields.health checked hchecked)
  have hcode : (pretty 4 (jsonOf (fun code => .str code.value) r.resultCode)).length ≤ 33 :=
    length_jsonOf_le (by decide) fun code _ => by
      rw [length_pretty_str]
      exact width_resultCode_le code
  have hentry : (pretty 4 (jsonOf .str r.consumedEntryId)).length ≤ 34 :=
    length_jsonOf_le (by decide) fun entryId hentry => by
      rw [length_pretty_str]
      exact width_entryId_le hplain (hfields.entry entryId hentry)
  rw [serializeReceipt]
  split_ifs <;>
  · simp only [List.cons_append, List.nil_append, length_pretty_obj, List.map_cons, List.map_nil,
      List.sum_cons, List.sum_nil, length_pretty_str, hnames, hdeferred, Nat.reduceAdd]
    linarith

end PanelAssistant
