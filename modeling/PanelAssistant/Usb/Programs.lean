import PanelAssistant.Usb.Calls

/-!
# The programs of the installer

`advanceTransaction`, `recoverTransaction` and the install controller, call by call. A transaction
performs at most one mutation: it writes the pending phase, acts, observes and writes what the
observation shows.
-/

namespace PanelAssistant.Usb

open Library

variable {Target Artifact : Type}

/-! ## The job store -/

/-- `store.advance`: load, then change the record that was loaded. -/
def storeAdvance (expectedRevision : ℕ) (next : Phase) :
    Prog Target Artifact (Receipt Target Artifact) := do
  match ← ask .load with
  | none => fail .jobConflict
  | some snapshot =>
    if snapshot.revision = expectedRevision then ask (.put snapshot expectedRevision next)
    else fail .jobConflict

variable [DecidableEq Target] [DecidableEq Artifact]

/-! ## Transactions -/

/-- `observe()`: the panel must be the one the job is about, and clean for a recovery. -/
def observe (recovery : Bool) (receipt : Receipt Target Artifact) (release : Release Artifact) :
    Prog Target Artifact (Observation Target) := do
  guard
  let state ← ask (.inspect recovery (.saved receipt) release)
  guard
  if state.target ≠ some receipt.target then fail .targetChanged
  else if recovery && !state.clean then fail .recoveryNotClean
  else pure state

/-- `advance(phase)` of a transaction; a recovery looks at its session once more. -/
def advance (recovery : Bool) (receipt : Receipt Target Artifact) (next : Phase) :
    Prog Target Artifact (Receipt Target Artifact) := do
  guard
  let moved ← storeAdvance receipt.revision next
  if recovery then guard
  pure moved

/-- Write the intent, act, observe, and write what was proved. -/
def mutate (recovery : Bool) (actuator : Actuator) (receipt : Receipt Target Artifact)
    (release : Release Artifact) : Prog Target Artifact (Receipt Target Artifact) := do
  let intent ← advance recovery receipt actuator.pending
  guard
  ask (.actuate actuator intent release)
  let after ← observe recovery intent release
  advance recovery intent
    (if proves actuator.completed after then actuator.completed else .recoveryRequired)

/-- Bytes that the ports have verified afresh, of the release the job is about. -/
def authenticated (receipt : Receipt Target Artifact) :
    Prog Target Artifact (Release Artifact) := do
  let release ← ask .authenticate
  guard
  if release.genuine ∧ receipt.artifact = release.descriptor then pure release
  else fail .artifactChanged

/-- Advance at most one actuator under the device lock. -/
def advanceTransaction : Prog Target Artifact (Receipt Target Artifact) :=
  locked .advance do
    guard
    match ← ask .load with
    | none => fail .transactionMissing
    | some receipt =>
      if receipt.phase = .healthy ∨ receipt.phase = .recoveryRequired then pure receipt
      else
        let release ← authenticated receipt
        let state ← observe false receipt release
        let act := fun actuator : Actuator =>
          if actuator.admits state then mutate false actuator receipt release
          else advance false receipt .recoveryRequired
        match receipt.phase with
        -- pending mutations are reconciled with observations, never replayed
        | .staging =>
          advance false receipt (if proves .staged state then .staged else .recoveryRequired)
        | .installing =>
          advance false receipt (if proves .installed state then .installed else .recoveryRequired)
        | .launching =>
          advance false receipt (if proves .healthy state then .healthy else .recoveryRequired)
        | .prepared => act .stage
        | .staged => act .install
        | .installed => act .launch
        | _ => fail .transactionInvalid

/-- Recovery permits one exact staged-file cleanup, never installation. -/
def recoverTransaction (expectedJobId : JobId) (confirmed : Bool) :
    Prog Target Artifact (Receipt Target Artifact) :=
  if !confirmed then fail .recoveryConfirmationRequired
  else
    locked .recover do
      guard
      let loaded ← ask .load
      guard
      match loaded with
      | none => fail .transactionMissing
      | some receipt =>
        if receipt.id ≠ expectedJobId then fail .jobConflict
        else if !receipt.phase.recovering then fail .transactionInvalid
        else
          let release ← authenticated receipt
          let state ← observe true receipt release
          -- a prior cleanup attempt is only reconciled, including lost completion
          if receipt.phase = .cleanupPending then
            advance true receipt (if state.absent then .prepared else .recoveryRequired)
          else if state.absent then advance true receipt .prepared
          else if !state.removable then fail .recoveryNotRemovable
          else mutate true .cleanup receipt release

/-! ## The install controller -/

/-- The job a preview sets aside. -/
structure SetAside where
  jobId : JobId
  phase : Phase
  revision : ℕ
  deriving DecidableEq

def aside (saved : Receipt Target Artifact) : SetAside := ⟨saved.id, saved.phase, saved.revision⟩

structure Preview (Target Artifact : Type) where
  target : Target
  descriptor : Artifact
  receipt : Option (Receipt Target Artifact)
  adopt : Bool
  discarded : Option Artifact
  setAside : Option SetAside
  deriving DecidableEq

/-- The panel runs exactly this build. -/
def runs (target : Target) (release : Release Artifact) : Prog Target Artifact Bool := do
  let state ← ask (.inspect false (.proposed .installed target release.descriptor) release)
  guard
  pure state.installed

/-- What a preview decides about the saved job: it resumes, or it is set aside. -/
structure Verdict (Target Artifact : Type) where
  receipt : Option (Receipt Target Artifact)
  discarded : Option Artifact
  setAside : Option SetAside

/-- A finished job resumes only while the panel still runs exactly its app. -/
def judgeFinished (saved : Option (Receipt Target Artifact)) (release : Release Artifact) :
    Prog Target Artifact (Verdict Target Artifact) :=
  match saved with
  | some receipt =>
    if receipt.phase = .healthy then do
      let current ←
        if receipt.artifact = release.descriptor then do
          pure (← ask (.inspect false (.saved receipt) release)).installed
        else pure false
      guard
      if current then pure ⟨some receipt, none, none⟩ else pure ⟨none, none, some (aside receipt)⟩
    else pure ⟨some receipt, none, none⟩
  | none => pure ⟨none, none, none⟩

/-- A job that ended in recovery on a panel that already runs its release has nothing left to
recover. -/
def judgeRecovering (verdict : Verdict Target Artifact) (target : Target)
    (release : Release Artifact) : Prog Target Artifact (Verdict Target Artifact) :=
  match verdict.receipt with
  | some receipt =>
    if receipt.phase.recovering ∧ receipt.artifact = release.descriptor then do
      if ← runs target release then pure ⟨none, none, some (aside receipt)⟩ else pure verdict
    else pure verdict
  | none => pure verdict

/-- A job for another release than the one that was chosen is set aside. -/
def judgeRelease (verdict : Verdict Target Artifact) (release : Release Artifact) :
    Verdict Target Artifact :=
  match verdict.receipt with
  | some receipt =>
    if receipt.artifact ≠ release.descriptor then
      ⟨none, some receipt.artifact, some (aside receipt)⟩
    else verdict
  | none => verdict

/-- Changes nothing, in this browser or on the panel. -/
def preview (target : Target) : Prog Target Artifact (Preview Target Artifact) := do
  guard
  let release ← ask .authenticate
  guard
  if !release.genuine then fail .artifactChanged
  else
    let saved ← ask .load
    let finished ← judgeFinished saved release
    let recovering ← judgeRecovering finished target release
    let verdict := judgeRelease recovering release
    let adopt ← if verdict.receipt.isNone then runs target release else pure false
    let proposed : Subject Target Artifact :=
      match verdict.receipt with
      | some receipt => .saved receipt
      | none => .proposed (if adopt then .installed else .prepared) target release.descriptor
    if proposed.phase.recovering then discard (ask (.inspect true proposed release))
    else if !adopt then discard (ask (.inspect false proposed release))
    else pure ()
    guard
    pure ⟨target, release.descriptor, verdict.receipt, adopt, verdict.discarded, verdict.setAside⟩

/-- Let go of the job that the preview set aside, and of its staged copy. -/
def letGo (selected : Preview Target Artifact) (job : SetAside) (release : Release Artifact) :
    Prog Target Artifact String :=
  locked .setAside do
    guard
    match ← ask .load with
    | none => pure ()
    | some saved =>
      if saved.id ≠ job.jobId then fail .jobConflict
      else if job.phase = .healthy then ask (.remove .retire job.revision)
      else ask (.remove .discard job.revision)
    guard
    ask (.removeSetAside job.jobId selected.target release)

/-- Grant the app its permissions under the device lock, from a healthy job for exactly this
release. -/
def grantPermissions (selected : Preview Target Artifact) (expectedJobId : JobId) :
    Prog Target Artifact Bool :=
  locked .permissions do
    guard
    match ← ask .load with
    | none => fail .transactionInvalid
    | some receipt =>
      if receipt.phase ≠ .healthy ∨ receipt.artifact ≠ selected.descriptor then
        fail .transactionInvalid
      else if receipt.id ≠ expectedJobId then fail .jobConflict
      else
        let release ← authenticated receipt
        let outcome ← ask (.removeSetAside receipt.id receipt.target release)
        guard
        ask (.onStagedCopy receipt.id outcome)
        let granted ← ask (.commissionPermissions receipt release)
        guard
        pure granted

/-- `MAX_STEPS` -/
def maxSteps : ℕ := 12

/-- Run the saved job to a healthy app, recovering on the way. -/
def steps (expectedJobId : JobId) :
    ℕ → Receipt Target Artifact → Prog Target Artifact (Receipt Target Artifact)
  | 0, receipt => pure receipt
  | n + 1, receipt =>
    if receipt.phase = .healthy then pure receipt
    else do
      guard
      let next ←
        if receipt.phase.recovering then recoverTransaction expectedJobId true
        else advanceTransaction
      guard
      ask (.onReceipt next)
      steps expectedJobId n next

/-- The job that an installation works on: the saved one, or a new one. -/
def jobFor (selected : Preview Target Artifact) (release : Release Artifact) :
    Prog Target Artifact (Receipt Target Artifact) := do
  let saved ← ask .load
  let saved := saved.filter fun receipt => !selected.setAside.any fun job => receipt.id == job.jobId
  match saved with
  | some receipt =>
    if selected.receipt.any fun previewed => receipt.id == previewed.id then pure receipt
    else fail .jobConflict
  | none =>
    if selected.receipt.isSome then fail .transactionMissing
    else
      match selected.setAside with
      | some job =>
        let outcome ← letGo selected job release
        guard
        ask (.onSetAside job.jobId job.phase outcome)
      | none => pure ()
      ask (.add selected.target release.descriptor
        (if selected.adopt then .installed else .prepared))

/-- The one Install press. -/
def install (selected : Preview Target Artifact) :
    Prog Target Artifact (Receipt Target Artifact × Bool) := do
  guard
  let release ← ask .authenticate
  guard
  if !release.genuine ∨ release.descriptor ≠ selected.descriptor then fail .artifactChanged
  else
    let receipt ← jobFor selected release
    ask (.own receipt.id)
    ask (.onReceipt receipt)
    let settled ← steps receipt.id maxSteps receipt
    if settled.phase ≠ .healthy then fail .installIncomplete
    else
      let granted ← grantPermissions selected receipt.id
      if !granted then fail .permissionsUnverified
      else
        pure (settled, selected.adopt || selected.receipt.any fun previewed =>
          previewed.phase = .installed || previewed.phase = .launching ||
            previewed.phase = .healthy)

/-- Launch and observe the installed app afresh, once the panel's next resume has settled. -/
def completeSetup (selected : Preview Target Artifact) (expectedJobId : Option JobId) :
    Prog Target Artifact Unit :=
  locked .setup do
    guard
    match ← ask .load with
    | none => fail .transactionInvalid
    | some receipt =>
      if receipt.phase ≠ .healthy ∨ receipt.artifact ≠ selected.descriptor then
        fail .transactionInvalid
      else if some receipt.id ≠ expectedJobId then fail .jobConflict
      else
        let release ← authenticated receipt
        ask (.completeSetup receipt release)
        guard

end PanelAssistant.Usb
