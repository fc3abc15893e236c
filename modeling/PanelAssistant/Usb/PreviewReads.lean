import PanelAssistant.Usb.Ports

/-!
# What a preview does to the panel

A preview writes no record, and every program it sends only reads, but for one: before a staged
file is looked at, its mode is set. `Prepares` says of a receipt, a release and a panel exactly when
a preview gets there.
-/

namespace PanelAssistant.Usb.Ports

open Library Library.Coop

variable {W : Surroundings} {s s' : State} {α β : Type}

/-! ## Whatever the panel answers -/

/-- The preparation of a staged file. -/
def IsPreparation (c : PortCall) : Prop := ∃ jobId, c = .read (.stagedPreparation jobId)

/-- What a preview calls. -/
def Tame (c : PortCall) : Prop := c.ReadsOnly ∨ IsPreparation c

theorem readsOnly_iff {c : PortCall} (h : Tame c) : c.ReadsOnly ↔ ¬ IsPreparation c := by
  constructor
  · rintro hreads ⟨jobId, rfl⟩
    exact not_readOnly_preparation jobId hreads
  · exact fun hnot => h.resolve_right hnot

theorem tame_of_readsOnly {p : PortProg α} (hp : Only PortCall.ReadsOnly p) : Only Tame p :=
  only_mono (fun _ => .inl) hp

theorem only_portFail (c : Code) : Only PortCall.ReadsOnly (portFail c : PortProg α) := trivial

theorem only_refuse : Only PortCall.ReadsOnly (refuse : PortProg α) := trivial

theorem only_send {program : Program} (h : ∀ jobId, program ≠ .stagedPreparation jobId) :
    Only PortCall.ReadsOnly (send program) := by
  unfold send
  split
  · exact only_perform (readOnly_of_ne h) fun response => only_ofExcept response
  · exact only_refuse

theorem only_portGuard : Only PortCall.ReadsOnly (portGuard s) := by
  unfold portGuard
  split
  · exact only_refuse
  · exact only_perform trivial fun reply => only_ofExcept reply

theorem only_binding {target : Records.Target} {release : UsbRelease} :
    Only PortCall.ReadsOnly (binding W s target release) := by
  refine only_bind only_portGuard fun _ => ?_
  split
  · exact only_portFail _
  split
  · exact only_portFail _
  · exact only_pure ()

theorem only_parsePosture {target : Records.Target} {response : Program.posture.Response} :
    Only PortCall.ReadsOnly (parsePosture W target response) := by
  unfold parsePosture
  split
  · exact only_refuse
  · refine only_bind (only_ofExcept response) fun observed => ?_
    split
    · exact only_portFail _
    · exact only_pure observed

theorem only_posture {target : Records.Target} {release : UsbRelease} :
    Only PortCall.ReadsOnly (posture W s target release) :=
  only_bind only_binding fun _ => only_bind (only_send fun _ => Program.noConfusion) fun _ =>
    only_bind only_parsePosture fun _ => only_bind only_binding fun _ => only_pure _

theorem only_parseInventory {descriptor : InstallDescriptor}
    {response : Program.preflight.Response} :
    Only PortCall.ReadsOnly (parseInventory descriptor response) := by
  unfold parseInventory
  split
  · exact only_refuse
  · refine only_bind (only_ofExcept response) fun found => ?_
    split
    · exact only_refuse
    cases found with
    | installed => exact only_raise _
    | clean observed =>
      dsimp only
      split
      · exact only_refuse
      · exact only_pure observed

theorem only_inventory {descriptor : InstallDescriptor} :
    Only PortCall.ReadsOnly (inventory s descriptor) :=
  only_bind only_portGuard fun _ => only_bind (only_send fun _ => Program.noConfusion) fun _ =>
    only_bind only_portGuard fun _ => only_parseInventory

theorem only_delegated {suPrefixes : List (List String)} {answered : Bool} :
    Only PortCall.ReadsOnly (delegated s suPrefixes answered) := by
  induction suPrefixes generalizing answered with
  | nil => exact only_raise _
  | cons suPrefix rest ih =>
    refine only_bind only_portGuard fun _ =>
      only_bind (only_attempt (only_send fun _ => Program.noConfusion)) fun reply => ?_
    split
    · exact ih
    · exact only_raise _
    · refine only_bind only_portGuard fun _ => only_bind (only_ofExcept _) fun proved => ?_
      split
      · exact only_pure ()
      · exact ih

theorem only_inspectCleanTarget {descriptor : InstallDescriptor} :
    Only PortCall.ReadsOnly (inspectCleanTarget s descriptor) := by
  refine only_bind only_inventory fun initial => ?_
  split
  · exact only_pure initial
  · refine only_bind only_delegated fun _ => only_bind only_inventory fun final => ?_
    split
    · exact only_portFail _
    · exact only_pure final

theorem only_clean {target : Records.Target} {release : UsbRelease} :
    Only PortCall.ReadsOnly (clean W s target release) := by
  refine only_bind only_inspectCleanTarget fun result => ?_
  split
  · exact only_portFail _
  · exact only_binding

theorem only_present {jobId : JobId} : Only PortCall.ReadsOnly (present jobId) :=
  only_bind (only_send fun _ => Program.noConfusion) fun response => only_ofExcept response

theorem only_inspectInstalledApk {descriptor : InstallDescriptor} :
    Only PortCall.ReadsOnly (inspectInstalledApk s descriptor) := by
  refine only_bind only_portGuard fun _ =>
    only_bind (only_send fun _ => Program.noConfusion) fun response =>
      only_bind only_portGuard fun _ => ?_
  split
  · exact only_refuse
  · exact only_bind (only_ofExcept response) fun file => only_pure _

theorem only_readHealth {descriptor : InstallDescriptor} :
    Only PortCall.ReadsOnly (readHealth s descriptor) := by
  refine only_bind (only_send fun _ => Program.noConfusion) fun response =>
    only_bind (only_ofExcept response) fun found => only_bind only_portGuard fun _ =>
      only_bind (only_attempt (only_perform trivial fun reply => only_ofExcept reply)) fun reply =>
        ?_
  cases reply with
  | ok healthy => exact only_pure _
  | error e => exact only_perform trivial fun _ => only_raise e

/-- What follows the preparation only reads. -/
theorem only_prepare {jobId : JobId} : Only Tame (prepare jobId) := by
  refine only_bind ?_ fun response => only_ofExcept response
  unfold send
  split
  · exact only_perform (.inr ⟨jobId, rfl⟩) fun response => only_ofExcept response
  · exact only_raise _

theorem only_staged {jobId : JobId} {release : UsbRelease} : Only Tame (staged jobId release) := by
  refine only_bind only_prepare fun _ =>
    only_bind (tame_of_readsOnly (only_send fun _ => Program.noConfusion)) fun response => ?_
  split
  · exact only_raise _
  · refine only_bind (only_ofExcept response) fun file => ?_
    split
    · exact only_raise _
    · exact only_pure _

theorem only_stagedPrefix {jobId : JobId} {release : UsbRelease} :
    Only Tame (stagedPrefix W jobId release) := by
  refine only_bind only_prepare fun _ =>
    only_bind (tame_of_readsOnly (only_send fun _ => Program.noConfusion)) fun response => ?_
  dsimp only
  split
  · exact only_raise _
  · refine only_bind (only_ofExcept response) fun file => ?_
    split
    · exact only_raise _
    · exact only_pure _

theorem only_ofJob {good : PortCall → Prop} {id : Option JobId} {action : JobId → PortProg α}
    (h : ∀ jobId, Only good (action jobId)) : Only good (ofJob id action) := by
  cases id with
  | some jobId => exact h jobId
  | none => exact only_raise _

theorem only_inspectStaged {subject : UsbSubject} {release : UsbRelease} :
    Only Tame (inspectStaged W s subject release) := by
  refine only_bind (tame_of_readsOnly only_clean) fun _ => ?_
  split
  · exact only_pure false
  split
  · exact only_ofJob fun jobId => only_stagedPrefix
  · exact only_ofJob fun jobId => only_staged

theorem only_stillThere {subject : UsbSubject} :
    Only PortCall.ReadsOnly (stillThere s subject) := by
  unfold stillThere
  split
  · exact only_ofJob fun jobId => only_present
  · exact only_pure true

theorem only_inspectHealth {installed : Bool} {subject : UsbSubject}
    {descriptor : InstallDescriptor} :
    Only PortCall.ReadsOnly (inspectHealth s installed subject descriptor) := by
  unfold inspectHealth
  split
  · exact only_readHealth
  · exact only_pure _

theorem only_inspect {subject : UsbSubject} {release : UsbRelease} :
    Only Tame (inspect W s subject release) := by
  refine only_bind (tame_of_readsOnly only_posture) fun target =>
    only_bind (tame_of_readsOnly only_stillThere) fun there => ?_
  split
  · exact only_bind (tame_of_readsOnly only_binding) fun _ => only_pure _
  split
  · exact only_bind only_inspectStaged fun _ =>
      only_bind (tame_of_readsOnly only_binding) fun _ => only_pure _
  · exact only_bind (tame_of_readsOnly only_inspectInstalledApk) fun installed =>
      only_bind (tame_of_readsOnly only_inspectHealth) fun read =>
        only_bind (tame_of_readsOnly only_binding) fun _ => only_pure _

theorem only_verifyPresent {there : Bool} {id : Option JobId} {release : UsbRelease} :
    Only Tame (verifyPresent W there id release) := by
  unfold verifyPresent
  split
  · exact only_bind (only_ofJob fun jobId => only_stagedPrefix) fun _ => only_pure ()
  · exact only_pure ()

theorem only_recovery {subject : UsbSubject} {release : UsbRelease} :
    Only Tame (recovery W s subject release) :=
  only_bind (tame_of_readsOnly only_posture) fun _ =>
    only_bind (tame_of_readsOnly only_clean) fun _ =>
      only_bind (only_ofJob fun _ => tame_of_readsOnly only_present) fun _ =>
        only_bind only_verifyPresent fun _ =>
          only_bind (tame_of_readsOnly only_binding) fun _ => only_pure _

theorem only_protect {action : PortProg (α × State)} (h : Only Tame action) :
    Only Tame (protect s action) := by
  refine only_bind (only_attempt h) fun reply => ?_
  split
  · exact only_pure _
  · split
    · exact only_pure _
    · exact only_perform (.inl trivial) fun _ => only_pure _

/-- A call that changes nothing is served by calls that change nothing but a file's mode. -/
theorem only_serve {c : UsbCall} (h : c.changes = false) : Only Tame (serve W s c) := by
  unfold serve
  split
  · refine only_protect (tame_of_readsOnly ?_)
    exact only_bind only_portGuard fun _ =>
      only_bind (only_perform trivial fun reply => only_ofExcept reply) fun release =>
        only_bind only_portGuard fun _ => only_pure _
  · refine only_protect ?_
    split
    · exact only_recovery
    · exact only_inspect
  · exact only_perform (.inl h) fun reply => only_pure _

/-! ## The controller -/

abbrev Verdicts : Type := Verdict Records.Target InstallDescriptor

def Unchanging (c : UsbCall) : Prop := c.changes = false

theorem only_ask {c : UsbCall} (h : Unchanging c) : Only Unchanging (ask c) :=
  only_perform h fun reply => only_ofExcept reply

theorem only_runs {target : Records.Target} {release : UsbRelease} :
    Only Unchanging (runs target release) :=
  only_bind (only_ask rfl) fun _ => only_bind (only_ask rfl) fun _ => only_pure _

/-- The end of a preview. -/
def inspectProposed (target : Records.Target) (release : UsbRelease) (verdict : Verdicts)
    (adopt : Bool) (proposed : UsbSubject) :
    Prog Records.Target InstallDescriptor (Preview Records.Target InstallDescriptor) := do
  if proposed.phase.recovering then discard (ask (.inspect true proposed release))
  else if !adopt then discard (ask (.inspect false proposed release))
  else pure ()
  guard
  pure ⟨target, release.descriptor, verdict.receipt, adopt, verdict.discarded, verdict.setAside⟩

/-- A preview, once it knows what becomes of the saved job. -/
def afterVerdict (target : Records.Target) (release : UsbRelease) (verdict : Verdicts) :
    Prog Records.Target InstallDescriptor (Preview Records.Target InstallDescriptor) :=
  match verdict.receipt with
  | some receipt => inspectProposed target release verdict false (.saved receipt)
  | none => do
    let adopt ← runs target release
    inspectProposed target release verdict adopt
      (.proposed (if adopt then .installed else .prepared) target release.descriptor)

/-- A preview, of genuine bytes. -/
def judge (target : Records.Target) (release : UsbRelease) :
    Prog Records.Target InstallDescriptor (Preview Records.Target InstallDescriptor) := do
  let saved ← ask .load
  let finished ← judgeFinished saved release
  let recovering ← judgeRecovering finished target release
  afterVerdict target release (judgeRelease recovering release)

theorem preview_eq (target : Records.Target) :
    (preview target : Prog Records.Target InstallDescriptor _) = (do
      guard
      let release ← ask .authenticate
      guard
      if !release.genuine then fail .artifactChanged else judge target release) := by
  unfold preview judge afterVerdict
  refine congrArg (guard >>= ·) (funext fun _ => congrArg (ask _ >>= ·) (funext fun release =>
    congrArg (guard >>= ·) (funext fun _ => ?_)))
  cases release.genuine
  · rfl
  refine congrArg (ask _ >>= ·) (funext fun saved => congrArg (judgeFinished _ _ >>= ·)
    (funext fun finished => congrArg (judgeRecovering _ _ _ >>= ·) (funext fun recovering => ?_)))
  obtain ⟨receipt, discarded, setAside⟩ := judgeRelease recovering release
  cases receipt with
  | none => rfl
  | some receipt => rfl

theorem only_inspectProposed {target : Records.Target} {release : UsbRelease} {verdict : Verdicts}
    {adopt : Bool} {proposed : UsbSubject} :
    Only Unchanging (inspectProposed target release verdict adopt proposed) := by
  unfold inspectProposed
  have hend : Only Unchanging (guard >>= fun _ => pure (⟨target, release.descriptor,
      verdict.receipt, adopt, verdict.discarded, verdict.setAside⟩ :
        Preview Records.Target InstallDescriptor)) :=
    only_bind (only_ask rfl) fun _ => only_pure _
  have hinspect : ∀ recovering : Bool, Only Unchanging
      (discard (ask (.inspect recovering proposed release))) :=
    fun _ => only_bind (only_ask rfl) fun _ => only_pure ()
  split
  · exact only_bind (hinspect true) fun _ => hend
  split
  · exact only_bind (hinspect false) fun _ => hend
  · exact hend

theorem only_judgeFinished {saved : Option UsbReceipt} {release : UsbRelease} :
    Only Unchanging (judgeFinished saved release) := by
  unfold judgeFinished
  have hend : ∀ (receipt : UsbReceipt) (current : Bool), Only Unchanging
      (guard >>= fun _ => if current then pure (⟨some receipt, none, none⟩ : Verdicts)
        else pure ⟨none, none, some (aside receipt)⟩) := by
    intro receipt current
    refine only_bind (only_ask rfl) fun _ => ?_
    split
    · exact only_pure _
    · exact only_pure _
  split
  · rename_i receipt
    split
    · split
      · exact only_bind (only_ask rfl) fun state => hend receipt state.installed
      · exact hend receipt false
    · exact only_pure _
  · exact only_pure _

theorem only_judgeRecovering {verdict : Verdicts} {target : Records.Target} {release : UsbRelease} :
    Only Unchanging (judgeRecovering verdict target release) := by
  unfold judgeRecovering
  split
  · split
    · refine only_bind only_runs fun installed => ?_
      split
      · exact only_pure _
      · exact only_pure _
    · exact only_pure _
  · exact only_pure _

theorem only_afterVerdict {target : Records.Target} {release : UsbRelease} {verdict : Verdicts} :
    Only Unchanging (afterVerdict target release verdict) := by
  unfold afterVerdict
  split
  · exact only_inspectProposed
  · exact only_bind only_runs fun _ => only_inspectProposed

theorem only_preview {target : Records.Target} :
    Only Unchanging (preview target : Prog Records.Target InstallDescriptor _) := by
  rw [preview_eq]
  refine only_bind (only_ask rfl) fun _ => only_bind (only_ask rfl) fun release =>
    only_bind (only_ask rfl) fun _ => ?_
  split
  · exact only_raise _
  · exact only_bind (only_ask rfl) fun _ => only_bind only_judgeFinished fun _ =>
      only_bind only_judgeRecovering fun _ => only_afterVerdict

/-- Whatever the browser, the release and the panel answer. -/
theorem only_previewOver {ports : State} {target : Records.Target} :
    Only Tame (previewOver W ports target) := by
  refine only_interpret (fun s c => only_serve) ?_
  split
  · exact only_preview
  · exact only_bind (only_ask rfl) fun _ => only_raise _

end PanelAssistant.Usb.Ports
