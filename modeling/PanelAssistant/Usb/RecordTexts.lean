import PanelAssistant.Usb.Records

/-!
# Records read back

What `validate` returns is valid (`Record.Valid`), and a valid record is what its own text decodes
to: no string is too long for the bound on the bytes of a text, whatever the phase and the revision.
The other way round, a text that decodes is the text of the record it decodes to.
-/

namespace PanelAssistant.Usb.Records

open Library Library.Text Library.JsonTree Library.Lines

variable {U : UnicodeTables} {T : NumberTexts}

/-! ## Values -/

theorem matching_iff {pattern : String → Bool} {value : Value} {s : String} :
    matching pattern value = some s ↔
      value = .str (units s) ∧ isAscii s = true ∧ pattern s = true := by
  rw [matching, Option.filter_eq_some_iff, asciiOf_iff, and_assoc]

theorem integer_some {low high n : ℕ} {value : Value} (h : integer low high value = some n) :
    low ≤ n ∧ n ≤ high := by
  unfold integer at h
  split at h
  · split at h
    · cases h
      omega
    · cases h
  · cases h

theorem integer_num {low high n : ℕ} (hlow : low ≤ n) (hhigh : n ≤ high) :
    integer low high (valueOf (.num n)) = some n := by
  change (if (low : ℤ) ≤ n ∧ (n : ℤ) ≤ high then some (n : ℤ).toNat else none) = some n
  rw [if_pos (by omega), Int.toNat_natCast]

theorem printable_some {minimum : ℕ} {value : Value} {s : String}
    (h : printable U minimum value = some s) : isPrintable U minimum s = true := by
  unfold printable at h
  split at h
  · exact (Option.filter_eq_some_iff.mp h).2
  · cases h

theorem printable_str {minimum : ℕ} {s : String} (h : isPrintable U minimum s = true) :
    printable U minimum (.str (units s)) = some s := by
  rw [printable, CodeUnits.text?_units, Option.map_some, String.ofList_toList,
    Option.filter_eq_some_iff]
  exact ⟨rfl, h⟩

theorem keys_tree {names : List String} (value : String → JsonTree ℕ)
    (h : (names.map units).Nodup) : keys (valueOf (objectOf names value)) names =
      some (names.map fun name => (units name, valueOf (value name))) := by
  have hkeys : (names.map fun name => (units name, valueOf (value name))).map Prod.fst =
      names.map units := by
    rw [List.map_map]
    rfl
  rw [valueOf, map_objectOf, objectOf, keys, if_pos]
  · rfl
  · rw [exactKeys_iff (hkeys ▸ h) h]
    exact List.Perm.of_eq hkeys

theorem ascii_of_hex {s : String} {low high : ℕ} (h : repeats isHex low high s.toList = true) :
    isAscii s = true := by
  simp only [repeats, Bool.and_eq_true] at h
  refine all_mono (fun c hc => ?_) h.2
  have hplain := plainChar_of_hex hc
  simp only [plainChar, Bool.and_eq_true, decide_eq_true_eq] at hplain
  exact decide_eq_true (by omega)

/-! ## Targets -/

structure Target.Valid (U : UnicodeTables) (t : Target) : Prop where
  model : isPrintable U 1 t.model = true ∧ isTrimmed t.model = true
  serial : isAscii t.serial = true ∧ isAdbSerial t.serial = true
  primaryAbi : t.primaryAbi ∈ ["arm64-v8a", "armeabi-v7a"]
  androidSdk : 1 ≤ t.androidSdk ∧ t.androidSdk ≤ 100
  rootMode : t.rootMode ∈ ["rootless", "root_adbd", "root_su"]
  usbVendorId : t.usbVendorId ≤ 65535
  usbProductId : t.usbProductId ≤ 65535
  usbSerial : isPrintable U 0 t.usbSerial = true

theorem targetSnapshot_some {target : Value} {t : Target} (h : targetSnapshot U target = some t) :
    t.Valid U := by
  obtain ⟨fields, -, h⟩ := Option.bind_eq_some_iff.mp h
  obtain ⟨model, hmodel, h⟩ := Option.bind_eq_some_iff.mp h
  obtain ⟨serial, hserial, h⟩ := Option.bind_eq_some_iff.mp h
  obtain ⟨primaryAbi, habi, h⟩ := Option.bind_eq_some_iff.mp h
  obtain ⟨androidSdk, hsdk, h⟩ := Option.bind_eq_some_iff.mp h
  obtain ⟨rootMode, hmode, h⟩ := Option.bind_eq_some_iff.mp h
  obtain ⟨usbVendorId, hvendor, h⟩ := Option.bind_eq_some_iff.mp h
  obtain ⟨usbProductId, hproduct, h⟩ := Option.bind_eq_some_iff.mp h
  obtain ⟨usbSerial, husb, h⟩ := Option.bind_eq_some_iff.mp h
  cases h
  obtain ⟨hprintable, htrimmed⟩ := Option.filter_eq_some_iff.mp hmodel
  exact ⟨⟨printable_some hprintable, htrimmed⟩, (matching_iff.mp hserial).2,
    List.contains_iff_mem.mp (matching_iff.mp habi).2.2, integer_some hsdk,
    List.contains_iff_mem.mp (matching_iff.mp hmode).2.2, (integer_some hvendor).2,
    (integer_some hproduct).2, printable_some husb⟩

theorem targetFields_nodup : (targetFields.map units).Nodup := by
  decide

theorem ascii_of_mem {s : String} {texts : List String} (h : s ∈ texts)
    (htexts : texts.all isAscii = true) : isAscii s = true :=
  List.all_eq_true.mp htexts s h

theorem targetSnapshot_tree {t : Target} (h : t.Valid U) :
    targetSnapshot U (valueOf (targetTree t)) = some t := by
  have hget : ∀ name ∈ targetFields,
      field (targetFields.map fun name => (units name, valueOf (targetValue t name))) name =
        valueOf (targetValue t name) := fun name hname => field_objectOf targetFields_nodup hname
  rw [targetSnapshot, targetTree, keys_tree _ targetFields_nodup]
  generalize (targetFields.map fun name => (units name, valueOf (targetValue t name))) =
    fields at hget ⊢
  simp only [targetFields, List.forall_mem_cons] at hget
  obtain ⟨hmodel, hserial, habi, hsdk, hmode, hvendor, hproduct, husb, -⟩ := hget
  have hmodel' : (printable U 1 (field fields "model")).filter isTrimmed = some t.model := by
    rw [hmodel]
    exact Option.filter_eq_some_iff.mpr ⟨printable_str h.model.1, h.model.2⟩
  have hserial' : matching isAdbSerial (field fields "serial") = some t.serial := by
    rw [hserial]
    exact matching_iff.mpr ⟨rfl, h.serial⟩
  have habi' : matching (["arm64-v8a", "armeabi-v7a"].contains ·) (field fields "primaryAbi") =
      some t.primaryAbi := by
    rw [habi]
    exact matching_iff.mpr ⟨rfl, ascii_of_mem h.primaryAbi (by decide),
      List.contains_iff_mem.mpr h.primaryAbi⟩
  have hsdk' : integer 1 100 (field fields "androidSdk") = some t.androidSdk := by
    rw [hsdk]
    exact integer_num h.androidSdk.1 h.androidSdk.2
  have hmode' : matching (["rootless", "root_adbd", "root_su"].contains ·)
    (field fields "rootMode") =
      some t.rootMode := by
    rw [hmode]
    exact matching_iff.mpr ⟨rfl, ascii_of_mem h.rootMode (by decide),
      List.contains_iff_mem.mpr h.rootMode⟩
  have hvendor' : integer 0 65535 (field fields "usbVendorId") = some t.usbVendorId := by
    rw [hvendor]
    exact integer_num (Nat.zero_le _) h.usbVendorId
  have hproduct' : integer 0 65535 (field fields "usbProductId") = some t.usbProductId := by
    rw [hproduct]
    exact integer_num (Nat.zero_le _) h.usbProductId
  have husb' : printable U 0 (field fields "usbSerial") = some t.usbSerial := by
    rw [husb]
    exact printable_str h.usbSerial
  simp only [hmodel', hserial', habi', hsdk', hmode', hvendor', hproduct', husb',
    Option.bind_eq_bind, Option.bind_some]

/-! ## Artifacts -/

/-- The text of the descriptor is read as the descriptor, and the target can run it. -/
structure Accepts (T : NumberTexts) (d : InstallDescriptor) (t : Target) : Prop where
  parsed : Browser.parseUnauthenticatedDescriptor T (encodeUtf8 (descriptorText wellFormedQuote d))
    d.releaseTag d.apkSha256 = some d
  minSdk : d.minSdk ≤ t.androidSdk
  supportedAbis : t.primaryAbi ∈ d.supportedAbis

theorem Accepts.described {d : InstallDescriptor} {t : Target} (h : Accepts T d t) : Described d :=
  (Browser.parseUnauthenticatedDescriptor_iff.mp h.parsed).2.1

theorem releaseTag_of_accepts {d : InstallDescriptor} {tag apkSha256 : String}
    (h : Browser.accepts d tag apkSha256 = true) :
    d.releaseTag = tag ∧ d.apkSha256 = apkSha256 := by
  simp only [Browser.accepts, Bool.and_eq_true, beq_iff_eq] at h
  obtain ⟨⟨⟨⟨⟨⟨-, hidentity⟩, hsha⟩, -⟩, -⟩, -⟩, -⟩ := h
  refine ⟨?_, hsha⟩
  unfold Browser.descriptorIdentityValid at hidentity
  split at hidentity
  · simp only [Bool.and_eq_true, beq_iff_eq] at hidentity
    exact hidentity.1.1
  · split at hidentity
    · cases hidentity
    · simp only [Bool.and_eq_true, beq_iff_eq] at hidentity
      exact hidentity.1.1.1.1

theorem artifactSnapshot_some {artifact : Value} {t : Target} {d : InstallDescriptor}
    (h : artifactSnapshot T artifact t = some d) : Accepts T d t := by
  unfold artifactSnapshot at h
  split at h
  · obtain ⟨tag, -, h⟩ := Option.bind_eq_some_iff.mp h
    obtain ⟨apkSha256, -, h⟩ := Option.bind_eq_some_iff.mp h
    obtain ⟨d', hparse, h⟩ := Option.bind_eq_some_iff.mp h
    split at h
    · rename_i hfits
      cases h
      obtain ⟨hadmits, hd, hbody, haccepts⟩ := Browser.parseUnauthenticatedDescriptor_iff.mp hparse
      obtain ⟨rfl, rfl⟩ := releaseTag_of_accepts haccepts
      rw [← encodeUtf8_of_ascii hbody] at hparse
      exact ⟨hparse, hfits.1, hfits.2⟩
    · cases h
  · cases h

theorem artifactSnapshot_tree {d : InstallDescriptor} {t : Target} (h : Accepts T d t) :
    artifactSnapshot T (valueOf (descriptorTree d)) t = some d := by
  have hd := h.described
  have hget : ∀ name ∈ installDescriptorFields,
      field (installDescriptorFields.map fun name =>
        (units name, valueOf (descriptorValue d name))) name = valueOf (descriptorValue d name) :=
    fun name hname => field_objectOf installDescriptorFields_nodup hname
  have hascii := hd.ascii
  simp only [InstallDescriptor.texts, List.forall_mem_cons] at hascii
  have hsorted : (installDescriptorFields.map fun name =>
      (units name, valueOf (descriptorValue d name))).insertionSort (byRank unitCodes) =
      installDescriptorFields.map fun name => (units name, valueOf (descriptorValue d name)) := by
    refine List.Pairwise.insertionSort_eq ?_
    rw [List.pairwise_map]
    exact (List.pairwise_map.mp installDescriptorFields_units).imp fun hlt => le_of_lt hlt
  have htext : jsonStringify T (.obj (installDescriptorFields.map fun name =>
      (units name, valueOf (descriptorValue d name)))) ++ ['\n'] =
      descriptorText wellFormedQuote d := by
    have hobject : (.obj (installDescriptorFields.map fun name =>
        (units name, valueOf (descriptorValue d name))) : Value) =
        (descriptorTree d).map browser.ofNat := by
      rw [descriptorTree, map_objectOf]
      rfl
    rw [descriptorText, jsonStringify, hobject, render_map, jsText_ofNat]
  have htag : asciiOf (valueOf (descriptorValue d "releaseTag")) = some d.releaseTag :=
    asciiOf_iff.mpr ⟨rfl, hascii.2.1⟩
  have hsha : asciiOf (valueOf (descriptorValue d "apkSha256")) = some d.apkSha256 :=
    asciiOf_iff.mpr ⟨rfl, hascii.2.2.2.2.1⟩
  have hfits : d.minSdk ≤ t.androidSdk ∧ t.primaryAbi ∈ d.supportedAbis :=
    ⟨h.minSdk, h.supportedAbis⟩
  rw [descriptorTree, valueOf, map_objectOf, objectOf]
  change artifactSnapshot T (.obj (installDescriptorFields.map fun name =>
    (units name, valueOf (descriptorValue d name)))) t = some d
  rw [artifactSnapshot, hsorted, htext, hget _ (by decide), hget _ (by decide)]
  simp only [htag, hsha, h.parsed, hfits, Option.bind_eq_bind, Option.bind_some, and_self, if_true]

/-! ## Bytes -/

theorem length_encodeUtf8 (cs : List Char) : (encodeUtf8 cs).length = bytes cs := by
  induction cs with
  | nil => rfl
  | cons c cs ih =>
    rw [encodeUtf8, List.flatMap_cons, List.length_append,
      String.length_utf8EncodeChar, ← encodeUtf8, ih, bytes_cons]

theorem bytes_objectOf {names : List String} (value : String → JsonTree ℕ) {bound : ℕ}
    (h : ∀ name ∈ names, bytes (literal wellFormedQuote (units name)) ≤ bound) :
    bytes (render wellFormedQuote (Nat.toDigits 10) (objectOf names value)) ≤
      2 + (names.map fun name =>
        bytes (render wellFormedQuote (Nat.toDigits 10) (value name)) + (bound + 2)).sum := by
  rw [objectOf]
  refine (CodeUnits.bytes_render_obj _ _ _).trans (Nat.add_le_add_left ?_ 2)
  rw [List.map_map]
  refine List.sum_le_sum fun name hname => ?_
  have hkey := h name hname
  simp only [Function.comp_apply]
  omega

theorem bytes_num {n k : ℕ} (hk : 0 < k) (h : n < 10 ^ k) :
    bytes (render wellFormedQuote (Nat.toDigits 10) (.num n)) ≤ 4 * k := by
  have hlength : (Nat.toDigits 10 n).length ≤ k := (Nat.length_toDigits_le_iff (by decide) hk).mpr h
  have hbytes := CodeUnits.bytes_le (Nat.toDigits 10 n)
  change bytes (Nat.toDigits 10 n) ≤ 4 * k
  omega

theorem bytes_str {s : String} {k : ℕ} (h : s.length ≤ k) :
    bytes (render wellFormedQuote (Nat.toDigits 10) (.str (units s))) ≤ 6 * k + 2 := by
  have hbytes := CodeUnits.bytes_literal s
  change bytes (literal wellFormedQuote (units s)) ≤ 6 * k + 2
  omega

theorem bytes_of_mem {s : String} {texts : List String} {k : ℕ} (h : s ∈ texts)
    (htexts : ∀ s ∈ texts, s.length ≤ k) :
    bytes (render wellFormedQuote (Nat.toDigits 10) (.str (units s))) ≤ 6 * k + 2 :=
  bytes_str (htexts s h)

theorem Target.Valid.bytes_le {t : Target} (h : t.Valid U) :
    bytes (render wellFormedQuote (Nat.toDigits 10) (targetTree t)) ≤ 2616 := by
  have hnames : ∀ name ∈ targetFields, bytes (literal wellFormedQuote (units name)) ≤ 14 := by
    decide
  have hprintable : ∀ {minimum : ℕ} {s : String}, isPrintable U minimum s = true →
    s.length ≤ 128 := by
    intro minimum s hs
    simp only [isPrintable, Bool.and_eq_true, decide_eq_true_eq] at hs
    exact hs.1.2
  have hlength : t.serial.length ≤ 128 := by
    have hserial := h.serial.2
    simp only [isAdbSerial, repeats, Bool.and_eq_true, decide_eq_true_eq, String.length_toList]
      at hserial
    exact hserial.1.2
  have hmodel := bytes_str (hprintable h.model.1)
  have hserial := bytes_str hlength
  have habi := bytes_of_mem (k := 11) h.primaryAbi (by decide)
  have hsdk : bytes (render wellFormedQuote (Nat.toDigits 10) (.num t.androidSdk)) ≤ 4 * 3 :=
    bytes_num (by decide) (lt_of_le_of_lt h.androidSdk.2 (by decide))
  have hmode := bytes_of_mem (k := 9) h.rootMode (by decide)
  have hvendor : bytes (render wellFormedQuote (Nat.toDigits 10) (.num t.usbVendorId)) ≤ 4 * 5 :=
    bytes_num (by decide) (lt_of_le_of_lt h.usbVendorId (by decide))
  have hproduct : bytes (render wellFormedQuote (Nat.toDigits 10) (.num t.usbProductId)) ≤ 4 * 5 :=
    bytes_num (by decide) (lt_of_le_of_lt h.usbProductId (by decide))
  have husb := bytes_str (hprintable h.usbSerial)
  have hsum := bytes_objectOf (targetValue t) hnames
  simp only [targetFields, List.map_cons, List.map_nil, List.sum_cons, List.sum_nil, targetValue]
    at hsum
  change
    bytes (render wellFormedQuote (Nat.toDigits 10) (objectOf targetFields (targetValue t))) ≤ _
  simp only [targetFields]
  omega

theorem Accepts.bytes_le {d : InstallDescriptor} {t : Target} (h : Accepts T d t) :
    bytes (render wellFormedQuote (Nat.toDigits 10) (descriptorTree d)) ≤ 4095 := by
  obtain ⟨hadmits, -⟩ := Browser.parseUnauthenticatedDescriptor_iff.mp h.parsed
  simp only [Browser.admits, Bool.and_eq_true, decide_eq_true_eq, length_encodeUtf8,
    descriptorText, bytes_append] at hadmits
  have hend : bytes ['\n'] = 1 := rfl
  omega

/-! ## Records -/

structure Record.Valid (U : UnicodeTables) (T : NumberTexts) (r : Record) : Prop where
  id : isHex32 r.id = true
  deviceKey : isSha256 r.deviceKey = true
  revision : r.revision ≤ Binary64.maxSafeInteger
  target : r.target.Valid U
  artifact : Accepts T r.artifact r.target

/-- A record that moved is valid while its revision is a safe integer. -/
theorem Record.Valid.moved {r : Record} (h : r.Valid U T) {revision : ℕ}
    (hrevision : revision ≤ Binary64.maxSafeInteger) (phase : Phase) :
    Record.Valid U T { r with revision, phase } :=
  ⟨h.id, h.deviceKey, hrevision, h.target, h.artifact⟩

theorem stringify_eq (T : NumberTexts) (r : Record) :
    stringify T r = render wellFormedQuote (Nat.toDigits 10) (recordTree r) := by
  rw [stringify, jsonStringify, valueOf, render_map, jsText_ofNat]

/-- No valid record is too large, at any revision and in any phase. -/
theorem Record.Valid.bytes_le {r : Record} (h : r.Valid U T) :
    (encodeUtf8 (stringify T r)).length ≤ maxBytes := by
  have hnames : ∀ name ∈ recordFields, bytes (literal wellFormedQuote (units name)) ≤ 11 := by
    decide
  have hhex : ∀ {s : String} {k : ℕ}, repeats isHex k k s.toList = true → s.length ≤ k := by
    intro s k hs
    simp only [repeats, Bool.and_eq_true, decide_eq_true_eq, String.length_toList] at hs
    exact hs.1.2
  have hschema : bytes (render wellFormedQuote (Nat.toDigits 10) (.num 1)) ≤ 4 * 1 :=
    bytes_num (by decide) (by decide)
  have hid := bytes_str (hhex h.id)
  have hkey := bytes_str (hhex h.deviceKey)
  have hrevision : bytes (render wellFormedQuote (Nat.toDigits 10) (.num r.revision)) ≤ 4 * 16 :=
    bytes_num (by decide) (lt_of_le_of_lt h.revision (by decide))
  have hphase : bytes (render wellFormedQuote (Nat.toDigits 10)
    (.str (units (phaseText r.phase)))) ≤
      6 * 17 + 2 := bytes_str (by cases r.phase <;> decide)
  have htarget := h.target.bytes_le
  have hartifact := h.artifact.bytes_le
  have hsum := bytes_objectOf (recordValue r) hnames
  simp only [recordFields, List.map_cons, List.map_nil, List.sum_cons, List.sum_nil, recordValue]
    at hsum
  rw [length_encodeUtf8, stringify_eq]
  change bytes (render wellFormedQuote (Nat.toDigits 10) (objectOf recordFields (recordValue r))) ≤
    8192
  simp only [recordFields]
  omega

/-! ## What is validated -/

theorem recordFields_nodup : (recordFields.map units).Nodup := by
  decide

theorem phase?_text (phase : Phase) : phase? (phaseText phase) = some phase := by
  cases phase <;> decide

theorem ascii_phaseText (phase : Phase) : isAscii (phaseText phase) = true := by
  cases phase <;> decide

theorem validate_some {value : Value} {r : Record} (h : validate U T value = some r) :
    r.Valid U T := by
  obtain ⟨fields, -, h⟩ := Option.bind_eq_some_iff.mp h
  dsimp only at h
  split at h
  · obtain ⟨id, hid, h⟩ := Option.bind_eq_some_iff.mp h
    obtain ⟨deviceKey, hkey, h⟩ := Option.bind_eq_some_iff.mp h
    obtain ⟨revision, hrevision, h⟩ := Option.bind_eq_some_iff.mp h
    obtain ⟨phase, -, h⟩ := Option.bind_eq_some_iff.mp h
    obtain ⟨target, htarget, h⟩ := Option.bind_eq_some_iff.mp h
    obtain ⟨artifact, hartifact, h⟩ := Option.bind_eq_some_iff.mp h
    split at h
    · cases h
      exact ⟨(matching_iff.mp hid).2.2, (matching_iff.mp hkey).2.2, (integer_some hrevision).2,
        targetSnapshot_some htarget, artifactSnapshot_some hartifact⟩
    · cases h
  · cases h

theorem validate_tree {r : Record} (h : r.Valid U T) :
    validate U T (valueOf (recordTree r)) = some r := by
  have hget : ∀ name ∈ recordFields,
      field (recordFields.map fun name => (units name, valueOf (recordValue r name))) name =
        valueOf (recordValue r name) := fun name hname => field_objectOf recordFields_nodup hname
  rw [validate, recordTree, keys_tree _ recordFields_nodup]
  generalize (recordFields.map fun name => (units name, valueOf (recordValue r name))) =
    fields at hget ⊢
  simp only [recordFields, List.forall_mem_cons] at hget
  obtain ⟨hschema, hid, hkey, hrevision, hphase, htarget, hartifact, -⟩ := hget
  have hschema' : isSchema (field fields "schema") = true := by
    rw [hschema]
    rfl
  have hid' : matching isHex32 (field fields "id") = some r.id := by
    rw [hid]
    exact matching_iff.mpr ⟨rfl, ascii_of_hex h.id, h.id⟩
  have hkey' : matching isSha256 (field fields "deviceKey") = some r.deviceKey := by
    rw [hkey]
    exact matching_iff.mpr ⟨rfl, ascii_of_hex h.deviceKey, h.deviceKey⟩
  have hrevision' : integer 0 Binary64.maxSafeInteger (field fields "revision") =
    some r.revision := by
    rw [hrevision]
    exact integer_num (Nat.zero_le _) h.revision
  have hphase' : (asciiOf (field fields "phase")).bind phase? = some r.phase := by
    rw [hphase]
    exact Option.bind_eq_some_iff.mpr
      ⟨_, asciiOf_iff.mpr ⟨rfl, ascii_phaseText r.phase⟩, phase?_text r.phase⟩
  have htarget' : targetSnapshot U (field fields "target") = some r.target := by
    rw [htarget]
    exact targetSnapshot_tree h.target
  have hartifact' : artifactSnapshot T (field fields "artifact") r.target = some r.artifact := by
    rw [hartifact]
    exact artifactSnapshot_tree h.artifact
  simp only [hschema', hid', hkey', hrevision', hphase', htarget', hartifact', h.bytes_le,
    Option.bind_eq_bind, Option.bind_some, if_true]

/-- The record of an object that is validated counts its transitions in safe integers. -/
theorem revision_of_validate {r r' : Record} (h : validate U T (valueOf (recordTree r)) = some r') :
    r.revision ≤ Binary64.maxSafeInteger := by
  rw [validate, recordTree, keys_tree _ recordFields_nodup] at h
  obtain ⟨fields, hfields, h⟩ := Option.bind_eq_some_iff.mp h
  obtain rfl := Option.some.inj hfields
  dsimp only at h
  split at h
  · obtain ⟨id, -, h⟩ := Option.bind_eq_some_iff.mp h
    obtain ⟨deviceKey, -, h⟩ := Option.bind_eq_some_iff.mp h
    obtain ⟨revision, hrevision, -⟩ := Option.bind_eq_some_iff.mp h
    have hget : field (recordFields.map fun name => (units name, valueOf (recordValue r name)))
        "revision" = valueOf (recordValue r "revision") :=
      field_objectOf recordFields_nodup (by decide)
    rw [hget] at hrevision
    change integer 0 Binary64.maxSafeInteger (.num (.safe r.revision)) = some revision at hrevision
    rw [integer] at hrevision
    split at hrevision
    · rename_i hbounds
      exact_mod_cast hbounds.2
    · cases hrevision
  · cases h

/-! ## Texts -/

theorem Target.Valid.wellFormed {t : Target} (h : t.Valid U) : WellFormed (targetTree t) := by
  have hsdk := h.androidSdk.2
  have hvendor := h.usbVendorId
  have hproduct := h.usbProductId
  refine ⟨?_, ?_⟩
  · rw [List.map_map]
    exact targetFields_nodup
  · rw [properFields_iff]
    have hvalues : ∀ name ∈ targetFields,
        Proper (· ≤ Binary64.maxSafeInteger) (targetValue t name) := by
      simp only [targetFields, List.forall_mem_cons]
      exact ⟨trivial, trivial, trivial, hsdk.trans (by decide), trivial, hvendor.trans (by decide),
        hproduct.trans (by decide), trivial, fun _ hmem => absurd hmem List.not_mem_nil⟩
    intro e he
    obtain ⟨name, hname, rfl⟩ := List.mem_map.mp he
    exact hvalues name hname

theorem Record.Valid.wellFormed {r : Record} (h : r.Valid U T) : WellFormed (recordTree r) := by
  refine ⟨?_, ?_⟩
  · rw [List.map_map]
    exact recordFields_nodup
  · rw [properFields_iff]
    have hone : 1 ≤ Binary64.maxSafeInteger := by decide
    have hvalues : ∀ name ∈ recordFields,
        Proper (· ≤ Binary64.maxSafeInteger) (recordValue r name) := by
      simp only [recordFields, List.forall_mem_cons]
      exact ⟨hone, trivial, trivial, h.revision, trivial, h.target.wellFormed,
        wellFormed_descriptorTree h.artifact.described, fun _ hmem => absurd hmem List.not_mem_nil⟩
    intro e he
    obtain ⟨name, hname, rfl⟩ := List.mem_map.mp he
    exact hvalues name hname

/-- A document of natural numbers is read back from its text. -/
theorem jsonParse_text {tree : JsonTree ℕ} (h : WellFormed tree) :
    jsonParse (render wellFormedQuote (Nat.toDigits 10) tree) = some (valueOf tree) := by
  have hread := parseValue_render reads_wellFormedQuote isNumber_toDigits tree
    ((render wellFormedQuote (Nat.toDigits 10) tree).length + 1) [] (Nat.le_succ _)
    (fun c hc => by cases hc)
  rw [List.append_nil] at hread
  rw [jsonParse, parse, hread]
  exact evaluate_map (fun _ h => congrArg some (Dict.entries_ofList h)) tree
    (h.mono fun _ h => congrArg some (jsNumber_toDigits h))

theorem length_flatMap_charUnits_le (cs : List Char) :
    (cs.flatMap charUnits).length ≤ bytes cs := by
  induction cs with
  | nil => exact Nat.zero_le _
  | cons c cs ih =>
    have hc : (charUnits c).length ≤ c.utf8Size := by
      unfold charUnits
      split
      · exact c.utf8Size_pos
      · rename_i hlarge
        have hpos := c.utf8Size_pos
        have hne : c.utf8Size ≠ 1 := by
          intro hone
          have hsmall : c.toNat ≤ 127 := Char.utf8Size_eq_one_iff.mp hone
          omega
        rw [List.length_cons, List.length_singleton]
        omega
    rw [List.flatMap_cons, List.length_append, bytes_cons]
    omega

/-- A valid record is what its text decodes to. -/
theorem decode_stringify {r : Record} (h : r.Valid U T) :
    decode U T (rawOf (stringify T r)) r.deviceKey = some r := by
  have hbytes := h.bytes_le
  have hlength := length_flatMap_charUnits_le (stringify T r)
  rw [← length_encodeUtf8] at hlength
  have hparse : jsonParse (stringify T r) = some (valueOf (recordTree r)) := by
    rw [stringify_eq]
    exact jsonParse_text h.wellFormed
  have htext : CodeUnits.text? ((stringify T r).flatMap charUnits) = some (stringify T r) := by
    have hunits := CodeUnits.text?_units (String.ofList (stringify T r))
    rwa [units, String.toList_ofList] at hunits
  rw [rawOf, decode, if_pos (hlength.trans hbytes)]
  simp only [htext, hbytes, hparse, validate_tree h, Option.bind_eq_bind, Option.bind_some, if_true,
    and_self]

/-- A text that decodes is the text of the record it decodes to. -/
theorem decode_some {raw : Raw} {deviceKey : String} {r : Record}
    (h : decode U T raw deviceKey = some r) :
    r.Valid U T ∧ r.deviceKey = deviceKey ∧ raw = rawOf (stringify T r) := by
  unfold decode at h
  split at h
  · split at h
    · obtain ⟨text, htext, h⟩ := Option.bind_eq_some_iff.mp h
      split at h
      · obtain ⟨receipt, hreceipt, h⟩ := Option.bind_eq_some_iff.mp h
        obtain ⟨value, -, hvalid⟩ := Option.bind_eq_some_iff.mp hreceipt
        split at h
        · rename_i hsame
          cases h
          refine ⟨validate_some hvalid, hsame.1, ?_⟩
          rw [rawOf, hsame.2, CodeUnits.text?_eq_some htext]
        · cases h
      · cases h
    · cases h
  · cases h

end PanelAssistant.Usb.Records
