import PanelAssistant.Usb.PreviewReads

/-!
# When a preview sets a file's mode

The panel and the browser give their answers, and a preview reaches the preparation of a staged
file or it does not. Every observation is read back as what the answers must be for it to succeed
(`outcome_posture`, `outcome_clean`), and the ports as what must succeed before the preparation
(`reaches_inspect`, `reaches_recovery`).
-/

namespace PanelAssistant.Usb.Ports

open Library Library.Coop

variable {W : Surroundings} {s s' : State} {world : (c : PortCall) → PortReply c} {α β : Type}

/-! ## Answers -/

/-- The session goes on. -/
structure Open (world : (c : PortCall) → PortReply c) (s : State) : Prop where
  running : s.stopped = false
  current : world .ensureCurrent = .ok ()

/-- The target is the device's, and the release the one that was authenticated. -/
structure Bound (W : Surroundings) (world : (c : PortCall) → PortReply c) (s : State)
    (target : Records.Target) (release : UsbRelease) : Prop where
  session : Open world s
  authenticated : s.authenticated = some release
  genuine : release.genuine = true
  device : sameDevice W target = true

variable (W world)

/-- The panel says that it is the target. -/
def Identified (target : Records.Target) : Prop :=
  validTarget W target = true ∧
    ∃ observed, world (.read .posture) = .ok (.ok observed) ∧ observed.agrees target = true

/-- The panel has neither app nor data, and can run the release. -/
structure Vacant (descriptor : InstallDescriptor) (observed : Observed) : Prop where
  inspectable : inspectable descriptor = true
  packageId : descriptor.packageId = packageId
  found : world (.read .preflight) = .ok (.ok (.clean observed))
  sdk : descriptor.minSdk ≤ observed.androidSdk
  abi : observed.primaryAbi ∈ descriptor.supportedAbis

/-- A form of `su` reads as root, and no earlier one ends the search. -/
def ProvesRoot (forms : List (List String)) : Prop :=
  ∃ before form after, forms = before ++ form :: after ∧
    world (.read (.delegatedProof form)) = .ok (.ok true) ∧
    ∀ earlier ∈ before, world (.read (.delegatedProof earlier)) = .error .shellTimeout ∨
      world (.read (.delegatedProof earlier)) = .ok (.ok false)

/-- The target is clean, to root where it has one. -/
def FoundClean (target : Records.Target) (descriptor : InstallDescriptor) : Prop :=
  ∃ observed, Vacant world descriptor observed ∧ observed.agrees target = true ∧
    (observed.rootMode = .rootSu → ProvesRoot world suPrefixes)

/-- A file of this name is there. -/
def Present (jobId : JobId) : Prop := world (.read (.pathState jobId)) = .ok (.ok true)

/-- Whether the panel says that it runs exactly this app. -/
def ReportsInstalled (descriptor : InstallDescriptor) (installed : Bool) : Prop :=
  descriptor.packageId = packageId ∧ observable descriptor = true ∧
    ∃ file, world (.read (.installedObservation descriptor.packageId)) = .ok (.ok file) ∧
      (file == some ⟨descriptor.apkSize, descriptor.apkSha256⟩) = installed

variable {W world}

/-! ## Observations -/

theorem not_reaches {p : PortProg α} (hp : Only PortCall.ReadsOnly p) :
    ¬ Reaches world IsPreparation p :=
  not_reaches_of_only (only_mono (fun _ hc => (readsOnly_iff (.inl hc)).mp hc) hp)

/-- What only reads is passed. -/
theorem reaches_after {p : PortProg α} {f : α → PortProg β} (hp : Only PortCall.ReadsOnly p) :
    Reaches world IsPreparation (p >>= f) ↔
      ∃ a, outcome world p = .ok a ∧ Reaches world IsPreparation (f a) := by
  rw [reaches_bind, or_iff_right (not_reaches hp)]

/-- What only reads adds nothing. -/
theorem reaches_before {p : PortProg α} {f : α → PortProg β}
    (hf : ∀ a, Only PortCall.ReadsOnly (f a)) :
    Reaches world IsPreparation (p >>= f) ↔ Reaches world IsPreparation p := by
  rw [reaches_bind, or_iff_left]
  rintro ⟨a, -, h⟩
  exact not_reaches (hf a) h

theorem outcome_portGuard : outcome world (portGuard s) = .ok () ↔ Open world s := by
  unfold portGuard
  cases hstopped : s.stopped with
  | true =>
    constructor
    · intro h
      cases h
    · intro h
      rw [h.running] at hstopped
      cases hstopped
  | false =>
    rw [if_neg Bool.false_ne_true, outcome_perform, outcome_ofExcept]
    exact ⟨fun h => ⟨hstopped, h⟩, fun h => h.current⟩

theorem outcome_send {program : Program} {response : program.Response} :
    outcome world (send program) = .ok response ↔
      program.admitted = true ∧ world (.read program) = .ok response := by
  unfold send
  cases program.admitted with
  | true => simp
  | false => simp [refuse]

theorem outcome_binding {target : Records.Target} {release : UsbRelease} :
    outcome world (binding W s target release) = .ok () ↔ Bound W world s target release := by
  unfold binding
  rw [outcome_bind_eq_ok]
  constructor
  · rintro ⟨u, hguard, h⟩
    split at h
    · cases h
    · rename_i hrelease
      rw [not_or, not_not, Bool.not_eq_false] at hrelease
      split at h
      · cases h
      · rename_i hdevice
        exact ⟨outcome_portGuard.mp hguard, hrelease.1, hrelease.2, Bool.not_eq_false _ ▸ hdevice⟩
  · intro h
    refine ⟨(), outcome_portGuard.mpr h.session, ?_⟩
    rw [if_neg (by simp [h.authenticated, h.genuine]), if_neg (by simp [h.device])]
    rfl

theorem outcome_posture {target : Records.Target} {release : UsbRelease} {live : Records.Target} :
    outcome world (posture W s target release) = .ok live ↔
      Bound W world s target release ∧ validTarget W target = true ∧
        ∃ observed, world (.read .posture) = .ok (.ok observed) ∧
          observed.agrees target = true ∧ liveTarget W observed = live := by
  simp only [posture, parsePosture, outcome_bind_eq_ok]
  constructor
  · rintro ⟨_, hbound, response, hsend, observed, hparse, _, _, hlive⟩
    have hread := (outcome_send.mp hsend).2
    split at hparse
    · cases hparse
    · rename_i hvalid
      rw [outcome_bind_eq_ok] at hparse
      obtain ⟨found, hfound, hparse⟩ := hparse
      rw [outcome_ofExcept] at hfound
      subst hfound
      split at hparse
      · cases hparse
      · rename_i hagrees
        cases hparse
        exact ⟨outcome_binding.mp hbound, Bool.not_eq_false _ ▸ hvalid, observed, hread,
          Bool.not_eq_false _ ▸ hagrees, Except.ok.inj hlive⟩
  · rintro ⟨hbound, hvalid, observed, hread, hagrees, rfl⟩
    have hbinding := outcome_binding.mpr hbound
    refine ⟨(), hbinding, .ok observed, outcome_send.mpr ⟨rfl, hread⟩, observed, ?_, (), hbinding,
      rfl⟩
    rw [if_neg (by simp [hvalid])]
    change outcome world (if observed.agrees target = false then _ else _) = _
    rw [if_neg (by simp [hagrees])]
    rfl

/-- The identity of a panel is read where the panel says that it is the target. -/
theorem exists_posture {target : Records.Target} {release : UsbRelease} :
    (∃ live, outcome world (posture W s target release) = .ok live) ↔
      Bound W world s target release ∧ Identified W world target := by
  simp only [outcome_posture, Identified]
  constructor
  · rintro ⟨_, hbound, hvalid, observed, hread, hagrees, -⟩
    exact ⟨hbound, hvalid, observed, hread, hagrees⟩
  · rintro ⟨hbound, hvalid, observed, hread, hagrees⟩
    exact ⟨_, hbound, hvalid, observed, hread, hagrees, rfl⟩

theorem outcome_parseInventory {descriptor : InstallDescriptor}
    {response : Program.preflight.Response} {observed : Observed} :
    outcome world (parseInventory descriptor response) = .ok observed ↔
      inspectable descriptor = true ∧ descriptor.packageId = packageId ∧
        response = .ok (.clean observed) ∧ descriptor.minSdk ≤ observed.androidSdk ∧
          observed.primaryAbi ∈ descriptor.supportedAbis := by
  unfold parseInventory
  constructor
  · intro h
    split at h
    · cases h
    · rename_i hinspectable
      rw [outcome_bind_eq_ok] at h
      obtain ⟨found, hfound, h⟩ := h
      rw [outcome_ofExcept] at hfound
      split at h
      · cases h
      · rename_i hpackage
        cases found with
        | installed => cases h
        | clean other =>
          dsimp only at h
          split at h
          · cases h
          · rename_i hcompatible
            obtain rfl := Except.ok.inj h
            rw [not_or, not_lt, not_not] at hcompatible
            exact ⟨Bool.not_eq_false _ ▸ hinspectable, not_not.mp hpackage, hfound, hcompatible⟩
  · rintro ⟨hinspectable, hpackage, rfl, hsdk, habi⟩
    rw [if_neg (by simp [hinspectable])]
    change outcome world (if descriptor.packageId ≠ packageId then _ else _) = _
    rw [if_neg (not_not.mpr hpackage), if_neg (not_or.mpr ⟨not_lt.mpr hsdk, not_not.mpr habi⟩)]
    rfl

theorem outcome_inventory {descriptor : InstallDescriptor} {observed : Observed} :
    outcome world (inventory s descriptor) = .ok observed ↔
      Open world s ∧ Vacant world descriptor observed := by
  simp only [inventory, outcome_bind_eq_ok]
  constructor
  · rintro ⟨_, hopen, response, hsend, _, _, hparse⟩
    obtain ⟨hinspectable, hpackage, rfl, hsdk, habi⟩ := outcome_parseInventory.mp hparse
    exact ⟨outcome_portGuard.mp hopen, hinspectable, hpackage,
      (outcome_send.mp hsend).2, hsdk, habi⟩
  · rintro ⟨hopen, hvacant⟩
    have hguard := outcome_portGuard.mpr hopen
    exact ⟨(), hguard, _, outcome_send.mpr ⟨rfl, hvacant.found⟩, (), hguard,
      outcome_parseInventory.mpr ⟨hvacant.inspectable, hvacant.packageId, rfl, hvacant.sdk,
        hvacant.abi⟩⟩

theorem provesRoot_cons {form : List String} {rest : List (List String)} :
    ProvesRoot world (form :: rest) ↔
      world (.read (.delegatedProof form)) = .ok (.ok true) ∨
        (world (.read (.delegatedProof form)) = .error .shellTimeout ∨
          world (.read (.delegatedProof form)) = .ok (.ok false)) ∧ ProvesRoot world rest := by
  constructor
  · rintro ⟨before, proving, after, heq, hproves, hbefore⟩
    cases before with
    | nil =>
      obtain ⟨rfl, -⟩ := List.cons.inj heq
      exact .inl hproves
    | cons first before =>
      obtain ⟨rfl, rfl⟩ := List.cons.inj heq
      obtain ⟨hfirst, hbefore⟩ := List.forall_mem_cons.mp hbefore
      exact .inr ⟨hfirst, before, proving, after, rfl, hproves, hbefore⟩
  · rintro (hproves | ⟨hfirst, before, proving, after, rfl, hproves, hbefore⟩)
    · exact ⟨[], form, rest, rfl, hproves, List.forall_mem_nil _⟩
    · exact ⟨form :: before, proving, after, rfl, hproves,
        List.forall_mem_cons.mpr ⟨hfirst, hbefore⟩⟩

/-- The search for root. The induction is on the forms that are left. -/
theorem outcome_delegated {forms : List (List String)} {answered : Bool}
    (hforms : ∀ form ∈ forms, form ∈ suPrefixes) :
    outcome world (delegated s forms answered) = .ok () ↔
      Open world s ∧ ProvesRoot world forms := by
  induction forms generalizing answered with
  | nil =>
    constructor
    · intro h
      cases h
    · rintro ⟨-, before, form, after, heq, -⟩
      cases before with
      | nil => cases heq
      | cons first before => cases heq
  | cons form rest ih =>
    obtain ⟨hform, hrest⟩ := List.forall_mem_cons.mp hforms
    have hadmitted : (Program.delegatedProof form).admitted = true :=
      List.contains_iff_mem.mpr hform
    have hsend : outcome world (send (.delegatedProof form)) =
        world (.read (.delegatedProof form)) := by
      unfold send
      rw [if_pos hadmitted, outcome_perform, outcome_ofExcept]
    rw [provesRoot_cons]
    simp only [delegated, outcome_bind_eq_ok, outcome_attempt, hsend, Except.ok.injEq,
      exists_eq_left']
    constructor
    · rintro ⟨_, hopen, h⟩
      rw [outcome_portGuard] at hopen
      refine ⟨hopen, ?_⟩
      split at h
      · rename_i hreply
        exact .inr ⟨.inl hreply, ((ih hrest).mp h).2⟩
      · cases h
      · rename_i response hreply
        simp only [outcome_bind_eq_ok, outcome_ofExcept] at h
        obtain ⟨_, _, proved, rfl, h⟩ := h
        cases proved with
        | true => exact .inl hreply
        | false => exact .inr ⟨.inr hreply, ((ih hrest).mp h).2⟩
    · rintro ⟨hopen, h⟩
      have hguard := outcome_portGuard.mpr hopen
      refine ⟨(), hguard, ?_⟩
      rcases h with hproves | ⟨hwaits | hrefuses, hlater⟩
      · rw [hproves]
        exact outcome_bind_eq_ok.mpr ⟨(), hguard, rfl⟩
      · rw [hwaits]
        exact (ih hrest).mpr ⟨hopen, hlater⟩
      · rw [hrefuses]
        exact outcome_bind_eq_ok.mpr ⟨(), hguard, (ih hrest).mpr ⟨hopen, hlater⟩⟩

theorem outcome_inspectCleanTarget {descriptor : InstallDescriptor} {observed : Observed} :
    outcome world (inspectCleanTarget s descriptor) = .ok observed ↔
      Open world s ∧ Vacant world descriptor observed ∧
        (observed.rootMode = .rootSu → ProvesRoot world suPrefixes) := by
  have hforms : ∀ form ∈ suPrefixes, form ∈ suPrefixes := fun _ h => h
  simp only [inspectCleanTarget, outcome_bind_eq_ok]
  constructor
  · rintro ⟨initial, hinitial, h⟩
    obtain ⟨hopen, hvacant⟩ := outcome_inventory.mp hinitial
    split at h
    · rename_i hroot
      obtain rfl := Except.ok.inj h
      exact ⟨hopen, hvacant, fun hsu => absurd hsu hroot⟩
    · simp only [outcome_bind_eq_ok] at h
      obtain ⟨_, hdelegated, final, _, h⟩ := h
      split at h
      · cases h
      · rename_i hsame
        obtain rfl := Except.ok.inj h
        obtain rfl := not_not.mp hsame
        exact ⟨hopen, hvacant, fun _ => ((outcome_delegated hforms).mp hdelegated).2⟩
  · rintro ⟨hopen, hvacant, hroot⟩
    have hinventory := outcome_inventory.mpr ⟨hopen, hvacant⟩
    refine ⟨observed, hinventory, ?_⟩
    split
    · rfl
    · rename_i hsu
      refine outcome_bind_eq_ok.mpr ⟨(), (outcome_delegated hforms).mpr
        ⟨hopen, hroot (not_not.mp hsu)⟩, outcome_bind_eq_ok.mpr ⟨observed, hinventory, ?_⟩⟩
      rw [if_neg (not_not.mpr rfl)]
      rfl

theorem outcome_clean {target : Records.Target} {release : UsbRelease} :
    outcome world (clean W s target release) = .ok () ↔
      Bound W world s target release ∧ FoundClean world target release.descriptor := by
  simp only [clean, outcome_bind_eq_ok]
  constructor
  · rintro ⟨observed, hobserved, h⟩
    obtain ⟨-, hvacant, hroot⟩ := outcome_inspectCleanTarget.mp hobserved
    split at h
    · cases h
    · rename_i hagrees
      exact ⟨outcome_binding.mp h, observed, hvacant, Bool.not_eq_false _ ▸ hagrees, hroot⟩
  · rintro ⟨hbound, observed, hvacant, hagrees, hroot⟩
    refine ⟨observed, outcome_inspectCleanTarget.mpr ⟨hbound.session, hvacant, hroot⟩, ?_⟩
    rw [if_neg (by simp [hagrees])]
    exact outcome_binding.mpr hbound

theorem outcome_present {jobId : JobId} {there : Bool} :
    outcome world (present jobId) = .ok there ↔
      isHex32 jobId = true ∧ world (.read (.pathState jobId)) = .ok (.ok there) := by
  simp only [present, outcome_bind_eq_ok, outcome_ofExcept]
  constructor
  · rintro ⟨response, hsend, rfl⟩
    exact outcome_send.mp hsend
  · intro h
    exact ⟨.ok there, outcome_send.mpr h, rfl⟩

theorem outcome_inspectInstalledApk {descriptor : InstallDescriptor} {installed : Bool} :
    outcome world (inspectInstalledApk s descriptor) = .ok installed ↔
      Open world s ∧ ReportsInstalled world descriptor installed := by
  simp only [inspectInstalledApk, outcome_bind_eq_ok]
  constructor
  · rintro ⟨_, hopen, response, hsend, _, _, h⟩
    obtain ⟨hpackage, hread⟩ := outcome_send.mp hsend
    split at h
    · cases h
    · rename_i hobservable
      rw [outcome_bind_eq_ok] at h
      obtain ⟨file, hfile, h⟩ := h
      rw [outcome_ofExcept] at hfile
      subst hfile
      exact ⟨outcome_portGuard.mp hopen, eq_of_beq hpackage,
        Bool.not_eq_false _ ▸ hobservable, file, hread, Except.ok.inj h⟩
  · rintro ⟨hopen, hpackage, hobservable, file, hread, hfile⟩
    have hguard := outcome_portGuard.mpr hopen
    refine ⟨(), hguard, .ok file, outcome_send.mpr ⟨beq_iff_eq.mpr hpackage, hread⟩, (), hguard, ?_⟩
    rw [if_neg (by simp [hobservable])]
    exact congrArg Except.ok hfile

/-! ## Ports -/

theorem reaches_prepare {jobId : JobId} :
    Reaches world IsPreparation (prepare jobId) ↔ isHex32 jobId = true := by
  have hadmitted : (Program.stagedPreparation jobId).admitted = isHex32 jobId := rfl
  rw [prepare, reaches_before fun response => only_ofExcept response, send, hadmitted]
  split
  · rename_i hhex
    rw [reaches_perform]
    exact iff_of_true (.inl ⟨jobId, rfl⟩) hhex
  · rename_i hhex
    exact iff_of_false (not_reaches only_refuse) hhex

/-- What follows a preparation is no other one. -/
theorem reaches_staged {jobId : JobId} {release : UsbRelease} :
    Reaches world IsPreparation (staged jobId release) ↔ isHex32 jobId = true := by
  rw [← reaches_prepare, staged]
  refine reaches_before fun _ =>
    only_bind (only_send fun _ => Program.noConfusion) fun response => ?_
  split
  · exact only_refuse
  · refine only_bind (only_ofExcept response) fun file => ?_
    split
    · exact only_refuse
    · exact only_pure _

theorem reaches_stagedPrefix {jobId : JobId} {release : UsbRelease} :
    Reaches world IsPreparation (stagedPrefix W jobId release) ↔ isHex32 jobId = true := by
  rw [← reaches_prepare, stagedPrefix]
  refine reaches_before fun _ =>
    only_bind (only_send fun _ => Program.noConfusion) fun response => ?_
  dsimp only
  split
  · exact only_refuse
  · refine only_bind (only_ofExcept response) fun file => ?_
    split
    · exact only_refuse
    · exact only_pure _

theorem reaches_ofJob {id : Option JobId} {action : JobId → PortProg α} :
    Reaches world IsPreparation (ofJob id action) ↔
      ∃ jobId, id = some jobId ∧ Reaches world IsPreparation (action jobId) := by
  cases id with
  | some jobId => simp [ofJob]
  | none => simp [ofJob, refuse]

theorem outcome_ofJob {id : Option JobId} {action : JobId → PortProg α} {a : α} :
    outcome world (ofJob id action) = .ok a ↔
      ∃ jobId, id = some jobId ∧ outcome world (action jobId) = .ok a := by
  cases id with
  | some jobId => simp [ofJob]
  | none => simp [ofJob, refuse]

/-- The panel is the target, and clean. -/
structure Fit (W : Surroundings) (world : (c : PortCall) → PortReply c) (s : State)
    (target : Records.Target) (release : UsbRelease) : Prop where
  bound : Bound W world s target release
  identified : Identified W world target
  clean : FoundClean world target release.descriptor

theorem reaches_inspectStaged {subject : UsbSubject} {release : UsbRelease} :
    Reaches world IsPreparation (inspectStaged W s subject release) ↔
      (Bound W world s subject.target release ∧
        FoundClean world subject.target release.descriptor) ∧
      subject.phase ≠ .prepared ∧ ∃ jobId, subject.id? = some jobId ∧ isHex32 jobId = true := by
  have hrest : Reaches world IsPreparation
      (if subject.phase = .prepared then pure false
      else if lost s subject then ofJob subject.id? fun jobId => stagedPrefix W jobId release
      else ofJob subject.id? fun jobId => staged jobId release) ↔
      subject.phase ≠ .prepared ∧ ∃ jobId, subject.id? = some jobId ∧ isHex32 jobId = true := by
    split
    · rename_i hprepared
      simp [hprepared]
    · rename_i hprepared
      simp only [hprepared, ne_eq, not_false_eq_true, true_and]
      split
      · simp only [reaches_ofJob, reaches_stagedPrefix]
      · simp only [reaches_ofJob, reaches_staged]
  rw [inspectStaged, reaches_after only_clean, ← outcome_clean]
  constructor
  · rintro ⟨_, hclean, h⟩
    exact ⟨hclean, hrest.mp h⟩
  · rintro ⟨hclean, h⟩
    exact ⟨(), hclean, hrest.mpr h⟩

theorem outcome_stillThere {subject : UsbSubject} :
    outcome world (stillThere s subject) = .ok true ↔ (lost s subject = true →
      ∃ jobId, subject.id? = some jobId ∧ isHex32 jobId = true ∧ Present world jobId) := by
  unfold stillThere
  cases hlost : lost s subject with
  | true => simp [outcome_ofJob, outcome_present, Present]
  | false => simp

/-- The inspections that prepare a file: of a job being copied, on a panel that is fit. -/
theorem reaches_inspect {subject : UsbSubject} {release : UsbRelease} :
    Reaches world IsPreparation (inspect W s subject release) ↔
      Fit W world s subject.target release ∧ (subject.phase = .staging ∨ subject.phase = .staged) ∧
        ∃ jobId, subject.id? = some jobId ∧ isHex32 jobId = true ∧
          (lost s subject = true → Present world jobId) := by
  rw [inspect, reaches_after only_posture]
  constructor
  · rintro ⟨live, hlive, h⟩
    obtain ⟨hbound, hidentified⟩ := exists_posture.mp ⟨live, hlive⟩
    rw [reaches_after only_stillThere] at h
    obtain ⟨there, hthere, h⟩ := h
    cases there with
    | false => exact absurd h (not_reaches (only_bind only_binding fun _ => only_pure _))
    | true =>
      rw [if_neg (by decide)] at h
      split at h
      · rename_i hphase
        rw [reaches_before fun _ => only_bind only_binding fun _ => only_pure _,
          reaches_inspectStaged] at h
        obtain ⟨⟨-, hclean⟩, hprepared, jobId, hid, hhex⟩ := h
        refine ⟨⟨hbound, hidentified, hclean⟩, hphase.resolve_left hprepared, jobId, hid, hhex,
          fun hlost => ?_⟩
        obtain ⟨other, hother, -, hpresent⟩ := outcome_stillThere.mp hthere hlost
        rw [hid] at hother
        obtain rfl := Option.some.inj hother
        exact hpresent
      · exact absurd h (not_reaches (only_bind only_inspectInstalledApk fun _ =>
          only_bind only_inspectHealth fun _ => only_bind only_binding fun _ => only_pure _))
  · rintro ⟨⟨hbound, hidentified, hclean⟩, hphase, jobId, hid, hhex, hpresent⟩
    obtain ⟨live, hlive⟩ := exists_posture.mpr ⟨hbound, hidentified⟩
    refine ⟨live, hlive, ?_⟩
    rw [reaches_after only_stillThere]
    refine ⟨true, outcome_stillThere.mpr fun hlost => ⟨jobId, hid, hhex, hpresent hlost⟩, ?_⟩
    rw [if_neg (by decide), if_pos (.inr hphase),
      reaches_before fun _ => only_bind only_binding fun _ => only_pure _, reaches_inspectStaged]
    refine ⟨⟨hbound, hclean⟩, ?_, jobId, hid, hhex⟩
    rcases hphase with hphase | hphase
    · rw [hphase]
      exact Phase.noConfusion
    · rw [hphase]
      exact Phase.noConfusion

/-- A recovery that finds the file prepares it. -/
theorem reaches_recovery {subject : UsbSubject} {release : UsbRelease} :
    Reaches world IsPreparation (recovery W s subject release) ↔
      Fit W world s subject.target release ∧
        ∃ jobId, subject.id? = some jobId ∧ isHex32 jobId = true ∧ Present world jobId := by
  have hpresent : ∀ jobId, Only PortCall.ReadsOnly (present jobId) := fun _ => only_present
  rw [recovery, reaches_after only_posture]
  constructor
  · rintro ⟨live, hlive, h⟩
    obtain ⟨hbound, hidentified⟩ := exists_posture.mp ⟨live, hlive⟩
    rw [reaches_after only_clean] at h
    obtain ⟨_, hclean, h⟩ := h
    rw [reaches_after (only_ofJob hpresent)] at h
    obtain ⟨there, hthere, h⟩ := h
    obtain ⟨jobId, hid, hthere⟩ := outcome_ofJob.mp hthere
    obtain ⟨hhex, hread⟩ := outcome_present.mp hthere
    rw [reaches_before fun _ => only_bind only_binding fun _ => only_pure _, verifyPresent] at h
    cases there with
    | true =>
      exact ⟨⟨hbound, hidentified, (outcome_clean.mp hclean).2⟩, jobId, hid, hhex, hread⟩
    | false => exact absurd h (not_reaches (only_pure ()))
  · rintro ⟨⟨hbound, hidentified, hclean⟩, jobId, hid, hhex, hread⟩
    obtain ⟨live, hlive⟩ := exists_posture.mpr ⟨hbound, hidentified⟩
    refine ⟨live, hlive, ?_⟩
    rw [reaches_after only_clean]
    refine ⟨(), outcome_clean.mpr ⟨hbound, hclean⟩, ?_⟩
    rw [reaches_after (only_ofJob hpresent)]
    refine ⟨true, outcome_ofJob.mpr ⟨jobId, hid, outcome_present.mpr ⟨hhex, hread⟩⟩, ?_⟩
    rw [reaches_before fun _ => only_bind only_binding fun _ => only_pure _, verifyPresent,
      if_pos rfl]
    refine (reaches_before fun _ => only_pure ()).mpr ?_
    exact reaches_ofJob.mpr ⟨jobId, hid, reaches_stagedPrefix.mpr hhex⟩

end PanelAssistant.Usb.Ports
