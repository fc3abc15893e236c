import PanelAssistant.Adb.Preflight

/-!
# What an admitted preflight says

Each parser of the preflight is inverted once: what its sections say when it returns, and that it
raises nothing but the malformed-response error or an `InstallAdbError`. `clean_preflight_sound`
puts them together.
-/

namespace PanelAssistant.Adb

open Library Library.Text Library.Lines

/-! ## Refusals -/

/-- The computation raises only what its callers handle. -/
def Refuses {α : Type} (x : Except Failure α) : Prop :=
  ∀ e, x = .error e → e = .malformed ∨ ∃ code, e = .adb code

namespace Refuses

variable {α β : Type}

theorem ok (a : α) : Refuses (.ok a : Except Failure α) := by
  intro e h
  cases h

theorem malformed : Refuses (.error .malformed : Except Failure α) := by
  intro e h
  cases h
  exact .inl rfl

theorem adb (code : InstallAdbErrorCode) : Refuses (.error (.adb code) : Except Failure α) := by
  intro e h
  cases h
  exact .inr ⟨code, rfl⟩

theorem bind {x : Except Failure α} {f : α → Except Failure β} (hx : Refuses x)
    (hf : ∀ a, x = .ok a → Refuses (f a)) : Refuses (x >>= f) := by
  cases x with
  | error e =>
    intro e' h
    cases h
    exact hx e rfl
  | ok a => exact hf a rfl

theorem ite {p : Prop} [Decidable p] {x y : Except Failure α} (hx : p → Refuses x)
    (hy : ¬ p → Refuses y) : Refuses (if p then x else y) := by
  split
  · exact hx ‹_›
  · exact hy ‹_›

end Refuses

/-! ## Frames -/

theorem refuses_decodeLines (body : ByteArray) : Refuses (decodeLines body) := by
  unfold decodeLines
  split
  · exact .malformed
  · split
    · exact .ite (fun _ => .malformed) fun _ => .ok _
    · exact .malformed

theorem refuses_scanValues (label nonce : Word) (lines : List String) :
    Refuses (scanValues label nonce lines) := by
  induction lines with
  | nil => exact .malformed
  | cons line lines ih =>
    unfold scanValues
    split
    · exact .ok _
    · exact .ite (fun _ => .malformed) fun _ => ih.bind fun _ _ => .ok _

theorem refuses_scanSections (label nonce : Word) (names : List Word) (lines : List String)
    (parsed : Sections) : Refuses (scanSections label nonce names lines parsed) := by
  induction names generalizing lines parsed with
  | nil =>
    cases lines with
    | nil => exact .ok _
    | cons line lines => exact .malformed
  | cons name names ih =>
    cases lines with
    | nil => exact .malformed
    | cons line lines =>
      unfold scanSections
      exact .ite (fun _ => .malformed) fun _ =>
        (refuses_scanValues _ _ _).bind fun _ _ => ih _ _

theorem refuses_parseSections (body : ByteArray) (label nonce : Word) (names : List Word) :
    Refuses (parseSections body label nonce names) := by
  refine (refuses_decodeLines body).bind fun lines hlines => ?_
  obtain ⟨hne, -⟩ := decodeLines_eq_ok hlines
  cases lines with
  | nil => exact absurd rfl hne
  | cons first rest => exact .ite (fun _ => .malformed) fun _ => refuses_scanSections _ _ _ _ _

/-- An answer that parses has every section that was asked for. -/
def Known (sections : Sections) (names : List Word) : Prop :=
  ∀ name ∈ names, ∃ reading, sections.get? name = some reading

theorem known_of_parse {body : ByteArray} {label nonce : Word} {names : List Word}
    {sections : Sections} (hnames : names.Nodup)
    (h : parseSections body label nonce names = .ok sections) : Known sections names := by
  obtain ⟨parts, rfl, -, rfl⟩ := parseSections_eq_ok.mp h
  intro name hname
  obtain ⟨p, hp, rfl⟩ := List.mem_map.mp hname
  exact ⟨p.reading, get?_readings hnames hp⟩

section

variable {sections : Sections} {names : List Word}

theorem item_eq_ok {name : Word} {reading : Reading} :
    item sections name = .ok reading ↔ sections.get? name = some reading := by
  unfold item
  split
  · rename_i found hfound
    rw [hfound, Except.ok.injEq, Option.some.injEq]
  · rename_i hnone
    simp [hnone]

theorem Known.item {name : Word} (h : Known sections names) (hname : name ∈ names) :
    Refuses (item sections name) := by
  obtain ⟨reading, hreading⟩ := h name hname
  rw [item_eq_ok.mpr hreading]
  exact .ok reading

/-! ## Identity -/

theorem singleValue_eq_ok {name : Word} {line : String} :
    singleValue sections name = .ok line ↔ sections.get? name = some ([line], 0) := by
  constructor
  · intro h
    obtain ⟨reading, hreading, hline⟩ := bind_eq_ok.mp h
    rw [item_eq_ok] at hreading
    split at hline
    · cases hline
      exact hreading
    · cases hline
  · intro h
    exact bind_eq_ok.mpr ⟨_, item_eq_ok.mpr h, rfl⟩

theorem Known.singleValue {name : Word} (h : Known sections names) (hname : name ∈ names) :
    Refuses (singleValue sections name) := by
  refine (h.item hname).bind fun reading _ => ?_
  split
  · exact .ok _
  · exact .malformed

/-- The sections of a response name the device of a target. -/
structure Identified (sections : Sections) (target : AdbInstallTarget) : Prop where
  model : sections.get? modelName = some ([target.model], 0)
  serial : sections.get? serialName = some ([target.serial], 0)
  primaryAbi : sections.get? abiName = some ([target.primaryAbi], 0)
  androidSdk : ∃ text : String, sections.get? sdkName = some ([text], 0) ∧
    repeats isDigit 1 3 text.toList = true ∧ (decimal text.toList : ℤ) = target.androidSdk

theorem readIdentity_identified {P : Platform} {observed : ObservedTarget}
    {target : AdbInstallTarget} (h : readIdentity P sections = .ok observed)
    (hsame : samePhysicalTarget observed target) : Identified sections target := by
  obtain ⟨model, hmodel, h⟩ := bind_eq_ok.mp h
  obtain ⟨serial, hserial, h⟩ := bind_eq_ok.mp h
  obtain ⟨primaryAbi, habi, h⟩ := bind_eq_ok.mp h
  obtain ⟨sdk, hsdk, h⟩ := bind_eq_ok.mp h
  rw [singleValue_eq_ok] at hmodel hserial habi hsdk
  split at h
  · cases h
  · rename_i hshape
    simp only [not_or, Bool.not_eq_false] at hshape
    obtain ⟨androidSdk, hint, h⟩ := bind_eq_ok.mp h
    split at h
    · cases h
      obtain ⟨rfl, rfl, rfl, hvalue⟩ := hsame
      refine ⟨hmodel, hserial, habi, sdk, hsdk, hshape.2.2.2.2.2, ?_⟩
      unfold intOf at hint
      split at hint
      · cases hint
        exact hvalue
      · cases hint
    · cases h

theorem repeats_ne_nil {cls : Char → Bool} {high : ℕ} {cs : List Char}
    (h : repeats cls 1 high cs = true) : cs ≠ [] ∧ cs.all cls = true := by
  simp only [repeats, Bool.and_eq_true, decide_eq_true_eq] at h
  refine ⟨?_, h.2⟩
  rintro rfl
  exact absurd h.1.1 (by decide)

theorem Known.readIdentity {P : Platform} (h : Known sections names)
    (hnames : ∀ name ∈ propertyNames, name ∈ names) : Refuses (readIdentity P sections) := by
  have hproperty : ∀ name ∈ propertyNames, Refuses (Adb.singleValue sections name) :=
    fun name hname => h.singleValue (hnames name hname)
  refine (hproperty modelName (by simp [propertyNames])).bind fun model _ => ?_
  refine (hproperty serialName (by simp [propertyNames])).bind fun serial _ => ?_
  refine (hproperty abiName (by simp [propertyNames])).bind fun primaryAbi _ => ?_
  refine (hproperty sdkName (by simp [propertyNames])).bind fun sdk _ => ?_
  refine .ite (fun _ => .malformed) fun hshape => ?_
  simp only [not_or, Bool.not_eq_false] at hshape
  rw [intOf, if_pos (repeats_ne_nil hshape.2.2.2.2.2)]
  exact .ite (fun _ => .ok _) fun _ => .malformed

/-! ## Root mode -/

theorem Known.parseRootMode (h : Known sections names) (hnames : ∀ name ∈ rootNames, name ∈ names) :
    Refuses (parseRootMode sections) := by
  have hroot : ∀ name ∈ rootNames, Refuses (Adb.item sections name) :=
    fun name hname => h.item (hnames name hname)
  refine (hroot uidName (by simp [rootNames])).bind fun uid _ => ?_
  refine (hroot secureName (by simp [rootNames])).bind fun secure _ => ?_
  refine (hroot debuggableName (by simp [rootNames])).bind fun debuggable _ => ?_
  refine (hroot suName (by simp [rootNames])).bind fun su _ => ?_
  refine .ite (fun _ => .malformed) fun _ => .ite (fun _ => .malformed) fun _ => ?_
  exact .ite (fun _ => .ok _) fun _ => .ite (fun _ => .ok _) fun _ =>
    .ite (fun _ => .ok _) fun _ => .adb _

/-! ## Packages -/

/-- The answer lists the app id of a pair of sections. -/
def Reported (sections : Sections) (index : ℕ) (id : String) : Prop :=
  ∃ package retained, sections.get? (packageName index) = some package ∧
    sections.get? (retainedName index) = some retained ∧
    ("package:" ++ id ∈ retained.1 ∨ package.1.any isPackagePath = true)

/-- The pair of sections is empty, with the statuses of an absent package. -/
structure Unreported (sections : Sections) (index : ℕ) : Prop where
  package : sections.get? (packageName index) = some ([], 0) ∨
    sections.get? (packageName index) = some ([], 1)
  retained : sections.get? (retainedName index) = some ([], 0)

/-- A probe of data found none. -/
def Absent (sections : Sections) (index : ℕ) : Prop :=
  sections.get? (residueName index) = some (["absent"], 0)

theorem Unreported.not_reported {index : ℕ} {id : String} (h : Unreported sections index) :
    ¬ Reported sections index id := by
  rintro ⟨package, retained, hpackage, hretained, hlisted⟩
  rw [h.retained] at hretained
  cases hretained
  have hempty : package.1 = [] := by
    rcases h.package with hnone | hnone
    all_goals
      rw [hnone] at hpackage
      cases hpackage
      rfl
  rw [hempty] at hlisted
  rcases hlisted with hlisted | hlisted
  · cases hlisted
  · cases hlisted

theorem observePackage_eq_ok {index : ℕ} {id : String} {present : Bool}
    (h : observePackage sections index id = .ok present) :
    present = true ∧ Reported sections index id ∨ present = false ∧ Unreported sections index := by
  obtain ⟨⟨packageLines, packageStatus⟩, hpackage, h⟩ := bind_eq_ok.mp h
  obtain ⟨⟨retainedLines, retainedStatus⟩, hretained, h⟩ := bind_eq_ok.mp h
  rw [item_eq_ok] at hpackage hretained
  simp only at h
  split at h
  · rename_i hlisted
    cases h
    exact .inl ⟨rfl, _, _, hpackage, hretained, hlisted⟩
  · split at h
    · cases h
    · rename_i hempty
      simp only [not_or, not_not] at hempty
      cases h
      obtain ⟨hstatus, rfl, rfl, rfl⟩ := hempty
      refine .inr ⟨rfl, ?_, hretained⟩
      simp only [List.mem_cons, List.not_mem_nil, or_false] at hstatus
      rcases hstatus with rfl | rfl
      · exact .inl hpackage
      · exact .inr hpackage

theorem installedPackages_eq_ok {index : ℕ} {ids installed : List String}
    (h : installedPackages sections index ids = .ok installed) :
    (∀ i id, ids[i]? = some id → Reported sections (index + i) id ∧ id ∈ installed ∨
      Unreported sections (index + i)) ∧
    ∀ id ∈ installed, ∃ i, ids[i]? = some id ∧ Reported sections (index + i) id := by
  induction ids generalizing index installed with
  | nil =>
    cases h
    exact ⟨fun i id hid => by simp at hid, List.forall_mem_nil _⟩
  | cons id ids ih =>
    obtain ⟨present, hpresent, h⟩ := bind_eq_ok.mp h
    obtain ⟨rest, hrest, h⟩ := bind_eq_ok.mp h
    cases h
    obtain ⟨hall, hin⟩ := ih hrest
    have hshift : ∀ i, index + 1 + i = index + (i + 1) := fun i => by omega
    have hkeep : ∀ id' ∈ rest, id' ∈ (if present then id :: rest else rest) := by
      intro id' hid'
      split
      · exact List.mem_cons_of_mem id hid'
      · exact hid'
    constructor
    · intro i id' hid'
      cases i with
      | zero =>
        cases hid'
        rcases observePackage_eq_ok hpresent with ⟨rfl, hreported⟩ | ⟨rfl, hunreported⟩
        · exact .inl ⟨hreported, List.mem_cons_self⟩
        · exact .inr hunreported
      | succ i =>
        rw [← hshift]
        rcases hall i id' hid' with ⟨hreported, hmem⟩ | hunreported
        · exact .inl ⟨hreported, hkeep id' hmem⟩
        · exact .inr hunreported
    · intro id' hid'
      have hrestOk : id' ∈ rest → ∃ i, (id :: ids)[i]? = some id' ∧
          Reported sections (index + i) id' := by
        intro hmem
        obtain ⟨i, hi, hreported⟩ := hin id' hmem
        exact ⟨i + 1, hi, hshift i ▸ hreported⟩
      rcases observePackage_eq_ok hpresent with ⟨rfl, hreported⟩ | ⟨rfl, hunreported⟩
      · rcases List.mem_cons.mp hid' with rfl | hmem
        · exact ⟨0, rfl, hreported⟩
        · exact hrestOk hmem
      · exact hrestOk hid'

theorem residuePackages_eq_ok {probes : List (Word × ℕ)} {residue : List String}
    (h : residuePackages sections probes = .ok residue) :
    ∀ name index, (name, index) ∈ probes →
      sections.get? name = some (["absent"], 0) ∨
        ∃ probe, residueProbes[index]? = some probe ∧ probe.1 ∈ residue := by
  induction probes generalizing residue with
  | nil =>
    intro name index hmem
    cases hmem
  | cons probe probes ih =>
    obtain ⟨name', index'⟩ := probe
    obtain ⟨⟨lines, status⟩, hget, h⟩ := bind_eq_ok.mp h
    rw [item_eq_ok] at hget
    simp only at h
    split at h
    · cases h
    · rename_i hshape
      obtain ⟨hstatus, hlines⟩ := not_or.mp hshape
      obtain rfl := not_not.mp hstatus
      have hlines : lines = ["absent"] ∨ lines = ["present"] := by simpa using not_not.mp hlines
      intro name index hmem
      split at h
      · split at h
        · cases h
        · rename_i found hfound
          obtain ⟨rest, hrest, h⟩ := bind_eq_ok.mp h
          cases h
          rcases List.mem_cons.mp hmem with heq | hmem
          · cases heq
            exact .inr ⟨found, hfound, List.mem_cons_self⟩
          · rcases ih hrest name index hmem with habsent | ⟨probe, hprobe, hin⟩
            · exact .inl habsent
            · exact .inr ⟨probe, hprobe, List.mem_cons_of_mem _ hin⟩
      · rename_i hpresent
        rcases List.mem_cons.mp hmem with heq | hmem
        · cases heq
          rw [hlines.resolve_right hpresent] at hget
          exact .inl hget
        · exact ih h name index hmem

theorem classifyTargetPackages_eq_ok {target : String} {installed residue : List String}
    {admits held : Bool}
    (h : classifyTargetPackages target installed residue admits = .ok held) :
    held = true ∧ admits = true ∧ target ∈ installed ∧
        (∀ id ∈ installed, id = target) ∧ (∀ id ∈ residue, id = target) ∨
      held = false ∧ installed = [] ∧ residue = [] := by
  unfold classifyTargetPackages at h
  split at h
  · rename_i htarget
    split at h
    · cases h
    · rename_i hclean
      cases h
      simp only [not_or, Bool.not_eq_false, List.any_eq_true, not_exists, not_and, bne_iff_ne,
        ne_eq, not_not, List.mem_append] at hclean
      exact .inl ⟨rfl, hclean.1, htarget, fun id hid => hclean.2 id (.inl hid),
        fun id hid => hclean.2 id (.inr hid)⟩
  · split at h
    · cases h
    · rename_i hclean
      cases h
      simp only [not_or, not_not] at hclean
      exact .inr ⟨rfl, hclean⟩

/-! ### Refusals of the package parsers -/

theorem Known.observePackage (h : Known sections names) {index : ℕ} (id : String)
    (hpackage : packageName index ∈ names) (hretained : retainedName index ∈ names) :
    Refuses (observePackage sections index id) := by
  refine (h.item hpackage).bind fun package _ => (h.item hretained).bind fun retained _ => ?_
  exact .ite (fun _ => .ok _) fun _ => .ite (fun _ => .malformed) fun _ => .ok _

theorem Known.installedPackages (h : Known sections names) (ids : List String) (index : ℕ)
    (hnames : ∀ i < ids.length, packageName (index + i) ∈ names ∧
      retainedName (index + i) ∈ names) :
    Refuses (installedPackages sections index ids) := by
  induction ids generalizing index with
  | nil => exact .ok _
  | cons id ids ih =>
    have hfirst := hnames 0 (Nat.succ_pos _)
    refine (h.observePackage id hfirst.1 hfirst.2).bind fun present _ => ?_
    refine (ih (index + 1) fun i hi => ?_).bind fun rest _ => .ok _
    have hnext := hnames (i + 1) (Nat.succ_lt_succ hi)
    rwa [show index + (i + 1) = index + 1 + i by omega] at hnext

theorem Known.basesReadable (h : Known sections names) (bases : List Word)
    (hnames : ∀ name ∈ bases, name ∈ names) : Refuses (basesReadable sections bases) := by
  induction bases with
  | nil => exact .ok _
  | cons name bases ih =>
    obtain ⟨hname, hbases⟩ := List.forall_mem_cons.mp hnames
    refine (h.item hname).bind fun reading _ => .ite (fun _ => .malformed) fun _ => ?_
    exact (ih hbases).bind fun _ _ => .ok _

theorem Known.residuePackages (h : Known sections names) (probes : List (Word × ℕ))
    (hnames : ∀ probe ∈ probes, probe.1 ∈ names)
    (hindex : ∀ probe ∈ probes, probe.2 < residueProbes.length) :
    Refuses (residuePackages sections probes) := by
  induction probes with
  | nil => exact .ok _
  | cons probe probes ih =>
    obtain ⟨hname, hnames⟩ := List.forall_mem_cons.mp hnames
    obtain ⟨hlt, hindex⟩ := List.forall_mem_cons.mp hindex
    have hrest := ih hnames hindex
    refine (h.item hname).bind fun reading _ => .ite (fun _ => .malformed) fun _ => ?_
    refine .ite (fun _ => ?_) fun _ => hrest
    rw [List.getElem?_eq_getElem hlt]
    exact hrest.bind fun _ _ => .ok _

theorem refuses_classifyTargetPackages (target : String) (installed residue : List String)
    (admits : Bool) : Refuses (classifyTargetPackages target installed residue admits) :=
  .ite (fun _ => .ite (fun _ => .adb _) fun _ => .ok _)
    fun _ => .ite (fun _ => .adb _) fun _ => .ok _

end

/-! ## The whole answer -/

theorem property_mem {name : Word} (h : name ∈ propertyNames) : name ∈ preflightNames := by
  simp only [preflightNames, List.mem_append]
  exact .inl (.inl (.inl h))

theorem other_mem {name : Word} (h : name ∈ otherNames) : name ∈ preflightNames := by
  simp only [preflightNames, List.mem_append]
  exact .inl (.inl (.inr h))

theorem root_mem {name : Word} (h : name ∈ rootNames) : name ∈ preflightNames :=
  other_mem (by simp only [otherNames, List.mem_append]; exact .inl (.inl h))

theorem live_mem : liveName ∈ preflightNames :=
  other_mem (by simp only [otherNames, List.mem_append]; exact .inl (.inr List.mem_cons_self))

theorem package_mem {index : ℕ} (h : index < probedPackageIds.length) :
    packageName index ∈ preflightNames ∧ retainedName index ∈ preflightNames := by
  have hpair : ∀ name ∈ [packageName index, retainedName index], name ∈ preflightNames := by
    intro name hname
    refine other_mem ?_
    simp only [otherNames, List.mem_append]
    exact .inr (List.mem_flatMap.mpr ⟨index, List.mem_range.mpr h, hname⟩)
  exact ⟨hpair _ List.mem_cons_self, hpair _ (List.mem_cons_of_mem _ List.mem_cons_self)⟩

theorem base_mem {name : Word} (h : name ∈ baseNames) : name ∈ preflightNames := by
  simp only [preflightNames, List.mem_append]
  exact .inl (.inr h)

theorem residue_mem {name : Word} (h : name ∈ residueNames) : name ∈ preflightNames := by
  simp only [preflightNames, List.mem_append]
  exact .inr h

theorem mem_zipIdx_residueNames {index : ℕ} (h : index < residueProbes.length) :
    (residueName index, index) ∈ residueNames.zipIdx := by
  rw [List.mem_zipIdx_iff_getElem?, residueNames, List.getElem?_map,
    List.getElem?_range h]
  rfl

theorem residue_of_mem_zipIdx {probe : Word × ℕ} (h : probe ∈ residueNames.zipIdx) :
    probe.1 ∈ residueNames ∧ probe.2 < residueProbes.length := by
  have hget := List.mem_zipIdx_iff_getElem?.mp h
  obtain ⟨hlt, -⟩ := List.getElem?_eq_some_iff.mp hget
  rw [residueNames, List.length_map, List.length_range] at hlt
  exact ⟨List.mem_of_getElem? hget, hlt⟩

/-- Nothing of an app id was reported: no package, and no data. -/
structure Vacant (sections : Sections) (id : String) : Prop where
  packages : ∀ index, probedPackageIds[index]? = some id → Unreported sections index
  residue : ∀ index probe, residueProbes[index]? = some probe → probe.1 = id → Absent sections index

/-- What the sections of an admitted answer say of a target and a build. -/
structure Admitted (sections : Sections) (target : AdbInstallTarget)
    (descriptor : InstallDescriptor) (admitInstalledTarget : Bool) (preflight : AdbPreflight) :
    Prop where
  facts : preflight.serial = target.serial ∧ preflight.model = target.model ∧
    preflight.primaryAbi = target.primaryAbi ∧ preflight.androidSdk = target.androidSdk
  sdk : (descriptor.minSdk : ℤ) ≤ target.androidSdk
  abi : target.primaryAbi ∈ descriptor.supportedAbis
  held : preflight.targetInstalled = true ↔ ∃ index,
    probedPackageIds[index]? = some descriptor.packageId ∧
      Reported sections index descriptor.packageId
  alone : preflight.targetInstalled = true → admitInstalledTarget = true ∧
    ∀ id ∈ probedPackageIds, id ≠ descriptor.packageId → Vacant sections id
  clean : preflight.targetInstalled = false → ∀ id ∈ probedPackageIds, Vacant sections id

theorem admitPreflight_admitted {sections : Sections} {observed : ObservedTarget}
    {target : AdbInstallTarget} {descriptor : InstallDescriptor} {admits : Bool}
    {preflight : AdbPreflight}
    (h : admitPreflight sections observed target descriptor admits = .ok preflight) :
    samePhysicalTarget observed target ∧ Admitted sections target descriptor admits preflight := by
  obtain ⟨_, hsame, h⟩ := bind_eq_ok.mp h
  have hsame : samePhysicalTarget observed target := by
    unfold requireSameTarget at hsame
    split at hsame
    · assumption
    · cases hsame
  obtain ⟨⟨liveLines, liveStatus⟩, -, h⟩ := bind_eq_ok.mp h
  simp only at h
  split at h
  · cases h
  obtain ⟨installed, hinstalled, h⟩ := bind_eq_ok.mp h
  obtain ⟨readable, -, h⟩ := bind_eq_ok.mp h
  obtain ⟨residue, hresidue, h⟩ := bind_eq_ok.mp h
  obtain ⟨held, hheld, h⟩ := bind_eq_ok.mp h
  obtain ⟨rootMode, -, h⟩ := bind_eq_ok.mp h
  split at h
  · cases h
  split at h
  · cases h
  rename_i hcompatible
  obtain ⟨hsdk, habi⟩ := not_or.mp hcompatible
  cases h
  obtain ⟨hserial, hmodel, hprimary, hvalue⟩ := hsame
  obtain ⟨hreported, hin⟩ := installedPackages_eq_ok hinstalled
  simp only [Nat.zero_add] at hreported hin
  have habsent : ∀ index probe, residueProbes[index]? = some probe → probe.1 ∉ residue →
      Absent sections index := by
    intro index probe hprobe hout
    obtain ⟨hlt, -⟩ := List.getElem?_eq_some_iff.mp hprobe
    rcases residuePackages_eq_ok hresidue _ _ (mem_zipIdx_residueNames hlt) with
      habsent | ⟨found, hfound, hmem⟩
    · exact habsent
    · rw [hprobe] at hfound
      cases hfound
      exact absurd hmem hout
  have hvacant : ∀ id, id ∉ installed → id ∉ residue → Vacant sections id := by
    intro id hnot hout
    refine ⟨fun index hid => ?_, fun index probe hprobe heq => habsent index probe hprobe ?_⟩
    · exact (hreported index id hid).resolve_left fun hlisted => hnot hlisted.2
    · rw [heq]
      exact hout
  refine ⟨⟨hserial, hmodel, hprimary, hvalue⟩, ⟨hserial, hmodel, hprimary, hvalue⟩,
    ?_, ?_, ?_, ?_, ?_⟩
  · rw [← hvalue]
    exact_mod_cast Nat.le_of_not_lt hsdk
  · rw [← hprimary]
    exact not_not.mp habi
  · rcases classifyTargetPackages_eq_ok hheld with ⟨rfl, -, htarget, -, -⟩ | ⟨rfl, rfl, -⟩
    · exact ⟨fun _ => hin _ htarget, fun _ => rfl⟩
    · refine ⟨fun hfalse => absurd hfalse Bool.false_ne_true, ?_⟩
      rintro ⟨index, hid, hlisted⟩
      rcases hreported index _ hid with ⟨-, hmem⟩ | hunreported
      · cases hmem
      · exact absurd hlisted hunreported.not_reported
  · rcases classifyTargetPackages_eq_ok hheld with ⟨rfl, hadm, -, hown, hdata⟩ | ⟨rfl, -, -⟩
    · refine fun _ => ⟨hadm, fun id _ hne => hvacant id (fun hmem => ?_) fun hmem => ?_⟩
      · exact hne (hown id hmem)
      · exact hne (hdata id hmem)
    · exact fun hfalse => absurd hfalse Bool.false_ne_true
  · rcases classifyTargetPackages_eq_ok hheld with ⟨rfl, -, -, -, -⟩ | ⟨rfl, rfl, rfl⟩
    · exact fun hfalse => absurd hfalse.symm Bool.false_ne_true
    · exact fun _ id _ => hvacant id List.not_mem_nil List.not_mem_nil

theorem Known.admitPreflight {sections : Sections} (h : Known sections preflightNames)
    (observed : ObservedTarget) (target : AdbInstallTarget) (descriptor : InstallDescriptor)
    (admits : Bool) : Refuses (admitPreflight sections observed target descriptor admits) := by
  refine Refuses.bind (.ite (fun _ => .ok _) fun _ => .adb _) fun _ _ => ?_
  refine (h.item live_mem).bind fun live _ => .ite (fun _ => .malformed) fun _ => ?_
  refine (h.installedPackages _ _ fun i hi => ?_).bind fun installed _ => ?_
  · rw [Nat.zero_add]
    exact package_mem hi
  refine (h.basesReadable _ fun _ => base_mem).bind fun readable _ => ?_
  refine (h.residuePackages _ (fun probe hprobe => residue_mem (residue_of_mem_zipIdx hprobe).1)
    fun probe hprobe => (residue_of_mem_zipIdx hprobe).2).bind fun residue _ => ?_
  refine (refuses_classifyTargetPackages _ _ _ _).bind fun held _ => ?_
  refine (h.parseRootMode fun _ => root_mem).bind fun rootMode _ => ?_
  exact .ite (fun _ => .adb _) fun _ => .ite (fun _ => .adb _) fun _ => .ok _

/-- A preflight that returns names the target itself, on a device the build is for, and reports of
the two app ids no more than the caller asked to accept. Every other answer is refused with the
malformed-response error or an `InstallAdbError`. -/
theorem clean_preflight_sound (P : Platform) (body : ByteArray) (nonce : Word)
    (target : AdbInstallTarget) (descriptor : InstallDescriptor) (admitInstalledTarget : Bool) :
    (∀ preflight, parsePreflight P body nonce target descriptor admitInstalledTarget =
        .ok preflight →
      ∃ sections, parseSections body preflightLabel nonce preflightNames = .ok sections ∧
        Identified sections target ∧
        Admitted sections target descriptor admitInstalledTarget preflight ∧
        (admitInstalledTarget = false → ∀ id ∈ probedPackageIds, Vacant sections id)) ∧
    ∀ e, parsePreflight P body nonce target descriptor admitInstalledTarget = .error e →
      e = .malformed ∨ ∃ code, e = .adb code := by
  rw [parsePreflight_eq]
  constructor
  · intro preflight h
    obtain ⟨sections, hparse, h⟩ := bind_eq_ok.mp h
    obtain ⟨observed, hobserved, h⟩ := bind_eq_ok.mp h
    obtain ⟨hsame, hadmitted⟩ := admitPreflight_admitted h
    refine ⟨sections, hparse, readIdentity_identified hobserved hsame, hadmitted, fun hadm => ?_⟩
    refine hadmitted.clean (eq_false_of_ne_true fun hheld => ?_)
    rw [(hadmitted.alone hheld).1] at hadm
    cases hadm
  · refine (refuses_parseSections _ _ _ _).bind fun sections hparse => ?_
    have hknown := known_of_parse nodup_preflightNames hparse
    refine (hknown.readIdentity fun _ => property_mem).bind fun observed _ => ?_
    exact hknown.admitPreflight observed target descriptor admitInstalledTarget

/-! ### The answer to a build -/

def panel : AdbInstallTarget :=
  ⟨⟨"10.0.0.5", 5555⟩, "0123456789ABCDEF", "Panel", "arm64-v8a", 30⟩

/-- The build whose app the panel reports. -/
def build : InstallDescriptor where
  schema := "io.panelassistant.android.install.v1"
  releaseTag := "v0.10.2"
  versionName := "0.10.2"
  versionCode := ⟨1002, by decide⟩
  apkName := "panel-assistant-v0.10.2-manual-setup-required.apk"
  apkSize := 1000000
  apkSha256 := "ac6193307fb0b70113aae205d7549406f96e063bc5491b67b1d5694a34b0e339"
  packageId := packageId
  signerCertificateSha256 := releaseSignerCertificateSha256
  minSdk := 26
  supportedAbis := supportedAbis
  databaseCompatibility := "hapaneld-db:v1:ha-paneld.db:1:9"
  launchComponent := newClassesSuccessorLaunch

def admitted : AdbPreflight :=
  ⟨"0123456789ABCDEF", "Panel", "arm64-v8a", 30, .rootSu, true⟩

/-- Where an installed app is accepted the answer is admitted, and else it is refused. -/
theorem clean_preflight_sound_answer : ∃ body,
    parsePreflight asciiPlatform body answerNonce panel build true = .ok admitted ∧
      Identified answer panel ∧ Admitted answer panel build true admitted ∧
      parsePreflight asciiPlatform body answerNonce panel build false =
        .error (.adb .targetNotClean) := by
  obtain ⟨body, hbody, hparse⟩ := parseSections_of_clean preflightLabel answerNonce
    fun e he => clean_answer e.2 (List.mem_map_of_mem he)
  rw [keys_answer] at hbody hparse
  have hsections := hparse (size_answer hbody)
  have hread : ∀ admits, parsePreflight asciiPlatform body answerNonce panel build admits = (do
      let observed ← readIdentity asciiPlatform answer
      admitPreflight answer observed panel build admits) := by
    intro admits
    rw [parsePreflight_eq, hsections]
    rfl
  have hok : parsePreflight asciiPlatform body answerNonce panel build true = .ok admitted := by
    rw [hread]
    decide
  have herror : parsePreflight asciiPlatform body answerNonce panel build false =
      .error (.adb .targetNotClean) := by
    rw [hread]
    decide
  obtain ⟨sections, hagain, hidentified, hadmitted, -⟩ :=
    (clean_preflight_sound asciiPlatform body answerNonce panel build true).1 admitted hok
  rw [hsections] at hagain
  cases hagain
  exact ⟨body, hok, hidentified, hadmitted, herror⟩

end PanelAssistant.Adb
