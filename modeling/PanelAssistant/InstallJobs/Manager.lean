import PanelAssistant.InstallJobs.Store

/-!
# The install-job manager

`InstallJobManager`: the two store files, the cached receipts and the claims held in
memory. Every operation runs under the manager's lock, so an operation is one function
of the state; what the environment decides while it runs (whether each read succeeds,
whether each write reaches its file, whether the caller is cancelled, the clock, the
random ids) is an argument.

`_async_save_locked` performs at most three writes: the union of the old and the new
details, the primary document, and the new details alone. `SaveIo` says what becomes of
each of them and of the readbacks between them.
-/

namespace PanelAssistant

open Library Library.Text

variable (P : Platform)

/-! ## State -/

/-- The two store files; `none` is an absent file. -/
structure Disk where
  primary : Option Json
  detail : Option Json

/-- `InstallJobManager`, with the files it owns. -/
structure Manager where
  disk : Disk
  /-- `_jobs` -/
  jobs : Option Jobs
  /-- `_claimed_jobs` -/
  claimedJobs : Dict String Int

namespace Manager

/-- Before the first save, in a process that has just started. -/
def initial : Manager := ⟨⟨none, none⟩, none, ∅⟩

def invalidateCache (m : Manager) : Manager := { m with jobs := none, claimedJobs := ∅ }

/-- A new process: the files stay, the memory is gone. -/
def restart (m : Manager) : Manager := m.invalidateCache

/-- Whether a claim of this generation survives `_reconcile_claims`. -/
def claimCurrent (jobs : Jobs) (jobId : String) (generation : Int) : Bool :=
  (jobs.get? jobId).any fun receipt =>
    !receipt.isTerminal && decide (receipt.phase ≠ .healthyUnclaimed) &&
      receipt.executorGeneration == generation

def reconcileClaims (m : Manager) : Manager :=
  match m.jobs with
  | none => { m with claimedJobs := ∅ }
  | some jobs => { m with claimedJobs := m.claimedJobs.filter (claimCurrent jobs) }

end Manager

/-! ## Reads -/

/-- What becomes of a read outside a drained operation. -/
inductive ReadIo where
  | ok
  | error
  | cancelled
  deriving DecidableEq

def ReadIo.guard : ReadIo → Except InstallJobError Unit
  | .ok => pure ()
  | .error => throw .store
  | .cancelled => throw .cancelled

/-- `_read_durable_document`: the size of the file is checked before it is parsed. -/
def readDurable {α : Type} (parse : Json → Except InstallJobError α) (file : Json) :
    Except InstallJobError α :=
  if sizeAllowed file then parse file else throw .store

/-- The primary store, empty while its file is absent. -/
def readJobs (disk : Disk) : Except InstallJobError Jobs :=
  match disk.primary with
  | none => pure ∅
  | some file => readDurable (parseStoreDocument P) file

/-- `_async_read_details` -/
def readDetails (disk : Disk) : Except InstallJobError Details :=
  match disk.detail with
  | none => pure ∅
  | some file => readDurable parseDetailStoreDocument file

/-- The receipts both files hold, details joined. -/
def loadDurable (disk : Disk) : Except InstallJobError Jobs := do
  joinDetails P (← readJobs P disk) (← readDetails disk)

/-- Every exception but a cancellation is reported as `InstallJobStoreError`. -/
def asStoreError {α : Type} : Except InstallJobError α → Except InstallJobError α
  | .ok a => .ok a
  | .error .cancelled => .error .cancelled
  | .error _ => .error .store

structure LoadIo where
  primary : ReadIo
  detail : ReadIo

/-- Whether a claimed job reads otherwise than it is cached. -/
def claimDrifted (m : Manager) (loaded : Jobs) : Bool :=
  m.jobs.any fun cached =>
    m.claimedJobs.keys.any fun jobId => decide (loaded.get? jobId ≠ cached.get? jobId)

/-- `_async_load_locked(refresh=True)` up to its exception handlers. -/
def readLocked (m : Manager) (io : LoadIo) : Except InstallJobError Jobs := do
  io.primary.guard
  let loaded ← readJobs P m.disk
  io.detail.guard
  let loaded ← joinDetails P loaded (← readDetails m.disk)
  check .store (!claimDrifted m loaded)
  return loaded

def Manager.loadLocked (m : Manager) (io : LoadIo) (refresh : Bool) :
    Manager × Except InstallJobError Jobs :=
  match m.jobs, refresh with
  | some jobs, false => (m, .ok jobs)
  | _, _ =>
    match asStoreError (readLocked P m io) with
    | .ok loaded => ({ m with jobs := some loaded }.reconcileClaims, .ok loaded)
    | .error e => (m.invalidateCache, .error e)

/-- One snapshot of `_async_load_durable_locked`: an absent store is refused. -/
def readSnapshot (m : Manager) (io : LoadIo) : Except InstallJobError Jobs := do
  io.primary.guard
  check .store m.disk.primary.isSome
  let loaded ← readJobs P m.disk
  io.detail.guard
  joinDetails P loaded (← readDetails m.disk)

def readSnapshots (m : Manager) (io io' : LoadIo) : Except InstallJobError Jobs := do
  let first ← readSnapshot P m io
  let second ← readSnapshot P m io'
  check .store (first.beq second)
  return second

/-- `_async_load_durable_locked` -/
def Manager.loadDurableLocked (m : Manager) (io io' : LoadIo) :
    Manager × Except InstallJobError Jobs :=
  match asStoreError (readSnapshots P m io io') with
  | .ok loaded => ({ m with jobs := some loaded }.reconcileClaims, .ok loaded)
  | .error e => (m.invalidateCache, .error e)

/-! ## Saves -/

/-- What becomes of one atomic `Store` write. -/
inductive WriteIo where
  /-- The file was replaced and the call returned. -/
  | saved
  /-- The call raised and the file is unchanged. -/
  | lost
  /-- The file was replaced and the call raised. -/
  | unreported
  deriving DecidableEq

/-- Whether the file was replaced. -/
def WriteIo.landed (w : WriteIo) : Bool := w != .lost

structure SaveIo where
  staleRead : ReadIo
  detailWrite : WriteIo
  detailRead : Bool
  /-- The caller was cancelled while the details were drained. -/
  detailCancelled : Bool
  write : WriteIo
  presence : Bool
  read : Bool
  detailReread : Bool
  /-- The caller was cancelled while the primary store was drained. -/
  cancelled : Bool
  compactWrite : WriteIo
  /-- The caller was cancelled while the compaction was drained. -/
  compactCancelled : Bool

/-- What `_async_save_locked` has worked out before its first write. -/
structure SavePlan where
  document : Json
  /-- The details of the new receipts. -/
  retained : Details
  /-- These and the details of the cached receipts. -/
  details : Details
  /-- The last document to write, when the details need compaction. -/
  compactDocument : Option Json
  /-- The first document to write, when there are details. -/
  detailDocument : Option Json

/-- Whether a receipt's clock would run backwards. -/
def clockReversed (previous jobs : Jobs) : Bool :=
  previous.entries.any fun e =>
    (jobs.get? e.1).any fun candidate => decide (candidate.updatedAt < e.2.updatedAt)

/-- Whether a save without details finds details on the disk. -/
def staleDetails (m : Manager) (io : SaveIo) (details : Details) : Except InstallJobError Bool :=
  if details.entries.isEmpty then do
    io.staleRead.guard
    return !(← readDetails m.disk).entries.isEmpty
  else return false

/-- A detail document to write, if there is one. -/
def optionalDetailDocument (wanted : Bool) (details : Details) :
    Except InstallJobError (Option Json) :=
  if wanted then some <$> validatedDetailDocument details else pure none

def planSave (m : Manager) (io : SaveIo) (jobs : Jobs) : Except InstallJobError SavePlan := do
  let document ← validatedDocumentForSave P jobs
  let some cached := m.jobs | throw .store
  check .store (!clockReversed cached jobs)
  let retained := detailsOf P jobs
  let details := (detailsOf P cached).update retained
  let stale ← staleDetails m io details
  let compactDocument ← optionalDetailDocument (!details.beq retained || stale) retained
  let detailDocument ← optionalDetailDocument (!details.entries.isEmpty) details
  return { document, retained, details, compactDocument, detailDocument }

def Disk.writeDetail (disk : Disk) (w : WriteIo) (document : Json) : Disk :=
  if w.landed then { disk with detail := some (wrapDocument detailStoreKey document) } else disk

def Disk.writePrimary (disk : Disk) (w : WriteIo) (document : Json) : Disk :=
  if w.landed then { disk with primary := some (wrapDocument storeKey document) } else disk

/-- A drained readback: an error of the file system, or what the file says. -/
def readback {α : Type} (ok : Bool) (value : Except InstallJobError α) : Option α :=
  if ok then value.toOption else none

/-- The detail union write and its readback. -/
def saveDetails (plan : SavePlan) (disk : Disk) (io : SaveIo) :
    Disk × Except InstallJobError Unit :=
  match plan.detailDocument with
  | none => (disk, .ok ())
  | some document =>
    let disk := disk.writeDetail io.detailWrite document
    if io.detailCancelled then (disk, .error .cancelled)
    else if io.detailWrite ≠ .saved then (disk, .error .store)
    else
      match readback io.detailRead (readDetails disk) with
      | none => (disk, .error .store)
      | some verified => (disk, if verified.beq plan.details then .ok () else .error .store)

/-- What the primary readback verified; `failed` records any earlier failure. -/
structure Verification where
  failed : Bool
  verified : Option Jobs

/-- The presence check and the readback after the primary write. -/
def verifyPrimary (jobs : Jobs) (plan : SavePlan) (disk : Disk) (io : SaveIo) :
    Except InstallJobError Verification :=
  let failed := io.write != .saved || !io.presence || disk.primary.isNone
  if !io.presence || disk.primary.isNone then .ok ⟨true, none⟩
  else
    match readback io.read (readJobs P disk) with
    | none => .ok ⟨true, none⟩
    | some read => do
      let detailsFailed :=
        plan.detailDocument.isSome &&
          !(readback io.detailReread (readDetails disk)).any fun reread => reread.beq plan.details
      let details := if plan.detailDocument.isSome then plan.details else ∅
      let verified ← joinDetails P read details
      let mismatch := !verified.beq jobs || !(serializeDocument read == plan.document)
      return ⟨failed || detailsFailed || mismatch, some verified⟩

/-- The primary write and its verification: the receipts to cache, or what is raised. -/
def savePrimary (jobs : Jobs) (plan : SavePlan) (disk : Disk) (io : SaveIo) :
    Disk × Except InstallJobError Jobs :=
  let disk := disk.writePrimary io.write plan.document
  match verifyPrimary P jobs plan disk io with
  | .error _ => (disk, .error .store)
  | .ok ⟨true, _⟩ => (disk, .error (if io.cancelled then .cancelled else .store))
  | .ok ⟨false, none⟩ => (disk, .error (if io.cancelled then .cancelled else .store))
  | .ok ⟨false, some verified⟩ => (disk, .ok verified)

/-- `_async_save_locked` -/
def Manager.saveLocked (m : Manager) (io : SaveIo) (jobs : Jobs) :
    Manager × Except InstallJobError Jobs :=
  match asStoreError (planSave P m io jobs) with
  | .error e => (m.invalidateCache, .error e)
  | .ok plan =>
    let (disk, detailsSaved) := saveDetails plan m.disk io
    let m := { m with disk := disk }
    match detailsSaved with
    | .error e => (m.invalidateCache, .error e)
    | .ok () =>
      let (disk, saved) := savePrimary P jobs plan disk io
      let m := { m with disk := disk }
      match saved with
      | .error e => (m.invalidateCache, .error e)
      | .ok verified =>
        let m := { m with jobs := some verified }.reconcileClaims
        -- A cancelled caller may have committed; its authority is revoked all the same.
        if io.cancelled then (m.invalidateCache, .error .cancelled)
        else
          match plan.compactDocument with
          | none => (m, .ok verified)
          | some document =>
            let m := { m with disk := m.disk.writeDetail io.compactWrite document }
            if io.compactCancelled then (m.invalidateCache, .error .cancelled)
            else (m, .ok verified)

/-! ## Pruning -/

/-- The order `(updated_at, job_id)`, last first. -/
def updatedOrder (a b : InstallJobReceipt) : Prop :=
  b.updatedAt < a.updatedAt ∨ a.updatedAt = b.updatedAt ∧ b.jobId ≤ a.jobId

instance : DecidableRel updatedOrder := fun _ _ => inferInstanceAs (Decidable (_ ∨ _))

/-- `_prune`: keep the newest terminal receipts of the retention period. -/
def prune (jobs : Jobs) (now : String) : Except InstallJobError Jobs := do
  let some instant := fromIsoFormat now | throw .store
  let cutoff := instant - terminalRetention
  check .overflow (0 ≤ cutoff)
  let terminal := (terminalOf jobs.values).insertionSort updatedOrder
  let retained := (terminal.take maxTerminalJobs).filter fun r =>
    (fromIsoFormat r.updatedAt).any fun updated => decide (cutoff ≤ updated)
  return jobs.filter fun jobId r => !r.isTerminal || (retained.map (·.jobId)).contains jobId

/-! ## Operations -/

structure OpIo where
  load : LoadIo
  save : SaveIo
  /-- What `self._now()` returns. -/
  now : String

/-- What an operation has decided under the lock: answer a receipt as it is, or save a table
and answer one of its receipts. -/
inductive Plan where
  | answer (receipt : InstallJobReceipt)
  | save (jobs : Jobs) (jobId : String)

/-- A receipt, and whether the call saved it. -/
structure Reply where
  receipt : InstallJobReceipt
  saved : Bool
  deriving DecidableEq

/-- The frame of every changing operation: load, decide, save, and look the receipt up. -/
def Manager.perform (m : Manager) (io : OpIo)
    (decide : Jobs → Dict String Int → Except InstallJobError Plan) :
    Manager × Except InstallJobError Reply :=
  match m.loadLocked P io.load true with
  | (m, .error e) => (m, .error e)
  | (m, .ok jobs) =>
    match decide jobs m.claimedJobs with
    | .error e => (m, .error e)
    | .ok (.answer receipt) => (m, .ok ⟨receipt, false⟩)
    | .ok (.save candidate jobId) =>
      match m.saveLocked P io.save candidate with
      | (m, .error e) => (m, .error e)
      | (m, .ok saved) =>
        match saved.get? jobId with
        | none => (m, .error .key)
        | some receipt => (m, .ok ⟨receipt, true⟩)

/-- `_checked_current` -/
def checkedCurrent (jobs : Jobs) (jobId : String) (expectedRevision : Int) :
    Except InstallJobError InstallJobReceipt := do
  check .notFound (isHex32 jobId)
  let some current := jobs.get? jobId | throw .notFound
  check .revision (current.revision = expectedRevision)
  return current

/-! ### `async_create_or_join` -/

def sharesTarget (r : InstallJobReceipt) (target : InstallTarget) : Bool :=
  r.target.address == target.address || r.target.pinnedAddress == target.pinnedAddress ||
    r.target.adbSerial == target.adbSerial

structure CreateArgs where
  target : InstallTarget
  artifact : InstallArtifact
  planSha256 : String
  adbCredentialId : String
  /-- The ids `token_hex(16)` draws. -/
  tokens : List String

/-- The receipt a creation starts from. -/
def approvedReceipt (a : CreateArgs) (jobId now : String) : InstallJobReceipt :=
  { jobId, revision := 0, executorGeneration := 0, createdAt := now, updatedAt := now,
    phase := .approved, cancelRequested := false, attempt := 0, target := a.target,
    artifact := a.artifact, planSha256 := a.planSha256, adbCredentialId := a.adbCredentialId,
    preflightRootMode := none, actualApkBytes := none, healthCheckedAt := none,
    resultCode := none, consumedEntryId := none, failureStage := none, resultSubcode := none,
    homeClaimDeferred := false }

/-- The checks made before the lock is taken. -/
def checkedCreate (a : CreateArgs) : Except InstallJobError CreateArgs := do
  let target ← parseTarget P a.target.asdict
  let artifact ← parseArtifact a.artifact.asdict
  let expected ← installPlanSha256 P target artifact a.adbCredentialId currentPlanSchema
  check .transition (a.planSha256 == expected && isSha256 a.adbCredentialId &&
    artifact.supportedAbis.contains target.primaryAbi &&
    decide (artifact.minSdk ≤ target.androidSdk))
  return { a with target, artifact }

def createOrJoin (a : CreateArgs) (now : String) (jobs : Jobs) : Except InstallJobError Plan := do
  let now ← timestamp (.str now)
  let jobs ← prune jobs now
  match (activeOf jobs.values).find? fun r => sharesTarget r a.target with
  | some receipt =>
    if receipt.target = a.target ∧ receipt.artifact = a.artifact ∧
        receipt.planSha256 = a.planSha256 ∧ receipt.adbCredentialId = a.adbCredentialId then
      return .answer receipt
    else throw .conflict
  | none =>
    check .capacity ((activeOf jobs.values).length < maxActiveJobs)
    -- The draw repeats while the id is taken.
    let some jobId := a.tokens.find? fun token => !jobs.contains token | throw .key
    return .save (jobs.set jobId (approvedReceipt a jobId now)) jobId

def Manager.asyncCreateOrJoin (m : Manager) (io : OpIo) (a : CreateArgs) :
    Manager × Except InstallJobError Reply :=
  match checkedCreate P a with
  | .error e => (m, .error e)
  | .ok a => m.perform P io fun jobs _ => createOrJoin a io.now jobs

/-! ### `async_request_cancel` -/

/-- The receipt a cancellation request writes. -/
def cancelledReceipt (current : InstallJobReceipt) (updatedAt : String) : InstallJobReceipt :=
  { current with revision := current.revision + 1, updatedAt, cancelRequested := true }

def requestCancel (jobId : String) (expectedRevision : Int) (now : String) (jobs : Jobs) :
    Except InstallJobError Plan := do
  let current ← checkedCurrent jobs jobId expectedRevision
  check .transition (current.phase ∈ cancellablePhases)
  if current.cancelRequested then
    return .answer current
  else
    let updatedAt ← timestamp (.str now)
    return .save (jobs.set jobId (cancelledReceipt current updatedAt)) jobId

def Manager.asyncRequestCancel (m : Manager) (io : OpIo) (jobId : String)
    (expectedRevision : Int) : Manager × Except InstallJobError Reply :=
  m.perform P io fun jobs _ => requestCancel jobId expectedRevision io.now jobs

/-! ### `async_claim` -/

def attemptsExhausted (r : InstallJobReceipt) : Bool :=
  decide (maxExecutorGeneration ≤ r.executorGeneration) || decide (maxAttempts ≤ r.attempt)

/-- The receipt a claim writes. -/
def claimedReceipt (current : InstallJobReceipt) (updatedAt : String) : InstallJobReceipt :=
  if attemptsExhausted current then
    { current with
      revision := current.revision + 1, updatedAt, phase := .recoveryRequired,
      resultCode := some .verificationRequired, failureStage := some current.phase,
      resultSubcode := some "job:attempts_exhausted" }
  else if current.phase ∈ restartAmbiguousPhases then
    { current with
      revision := current.revision + 1, executorGeneration := current.executorGeneration + 1,
      updatedAt, phase := .recoveryRequired, attempt := current.attempt + 1,
      resultCode := some .verificationRequired, failureStage := some current.phase,
      resultSubcode := some "job:interrupted_mutation" }
  else
    { current with
      revision := current.revision + 1, executorGeneration := current.executorGeneration + 1,
      updatedAt, attempt := current.attempt + 1, resultCode := none, failureStage := none,
      resultSubcode := none }

def claim (jobId : String) (expectedRevision : Int) (cleanupConfirmedRevision : Option Int)
    (now : String) (jobs : Jobs) (claimed : Dict String Int) : Except InstallJobError Plan := do
  let current ← checkedCurrent jobs jobId expectedRevision
  check .transition (!current.isTerminal && current.phase ≠ .healthyUnclaimed)
  check .revision (cleanupConfirmedRevision.all (· == current.revision))
  if claimed.get? jobId = some current.executorGeneration then
    return .answer current
  else
    check .cleanupRequired
      (!(attemptsExhausted current || decide (current.phase ∈ restartAmbiguousPhases)) ||
        cleanupConfirmedRevision.isSome)
    let updatedAt ← timestamp (.str now)
    let updated := claimedReceipt current updatedAt
    return .save (← prune (jobs.set jobId updated) updatedAt) jobId

/-- A saved claim that is not terminal is held in memory. -/
def Manager.holdClaim (m : Manager) (jobId : String) (reply : Reply) : Manager :=
  if reply.saved && !reply.receipt.isTerminal then
    { m with claimedJobs := m.claimedJobs.set jobId reply.receipt.executorGeneration }
  else m

def Manager.asyncClaim (m : Manager) (io : OpIo) (jobId : String) (expectedRevision : Int)
    (cleanupConfirmedRevision : Option Int) : Manager × Except InstallJobError Reply :=
  match m.perform P io (claim jobId expectedRevision cleanupConfirmedRevision io.now) with
  | (m, .error e) => (m, .error e)
  | (m, .ok reply) => (m.holdClaim jobId reply, .ok reply)

/-! ### `async_transition` -/

structure TransitionArgs where
  phase : InstallPhase
  preflightRootMode : Option String := none
  actualApkBytes : Option Int := none
  healthCheckedAt : Option String := none
  resultCode : Option InstallResultCode := none
  resultSubcode : Option String := none
  consumedEntryId : Option String := none
  homeClaimDeferred : Option Bool := none

/-- The argument checks made before the lock is taken. -/
def checkedTransition (a : TransitionArgs) : Bool :=
  a.resultSubcode.all subcodeAllowed &&
    a.preflightRootMode.all (fun mode =>
      (safeText (.str mode) 16).isOk && preflightRootModes.contains mode) &&
    a.actualApkBytes.all (fun bytes => (integer (.int bytes) 1 maxApkBytes).isOk) &&
    a.healthCheckedAt.all (fun checked => (timestamp (.str checked)).isOk) &&
    a.consumedEntryId.all fun entry =>
      (safeText (.str entry) 32).isOk && isConfigEntryId P entry

/-- The edge from HEALTHY_UNCLAIMED that a finalizer takes without a claim. -/
def finalizerEdge (current phase : InstallPhase) : Bool :=
  current = .healthyUnclaimed && (phase = .consumed || phase = .recoveryRequired)

/-- A fact is learned exactly on its edge, once. -/
def learnsOnce {α : Type} (edge : Bool) (argument known : Option α) : Bool :=
  if edge then argument.isSome && known.isNone else argument.isNone

def learnsRootMode (current phase : InstallPhase) : Bool :=
  current = .preflight && (phase = .downloading || phase = .installed)

def learnsActualApkBytes (current phase : InstallPhase) : Bool :=
  phase = .artifactReady || current = .preflight && phase = .installed

/-- Whether the outcome arguments are the ones the phase asks for. -/
def outcomeArguments (current : InstallJobReceipt) (a : TransitionArgs) : Bool :=
  match a.phase with
  | .cancelled =>
    current.cancelRequested &&
      a.resultCode == some (if current.phase = .staging then .cancelledAfterStagingCleanup
        else .cancelledByUser) && a.consumedEntryId.isNone
  | .failed => a.consumedEntryId.isNone
  | .recoveryRequired =>
    a.resultCode.any (fun code => decide (code ∈ recoveryCodes)) && a.consumedEntryId.isNone
  | .consumed => a.resultCode == some .entryCreated && a.consumedEntryId.isSome
  | _ => a.resultCode.isNone && a.consumedEntryId.isNone

/-- The guards of `async_transition` on the current receipt, with its claim. -/
def transitionAllowed (current : InstallJobReceipt) (claimed : Option Int) (a : TransitionArgs) :
    Bool :=
  decide (a.phase ∈ nextPhase current.phase) &&
    (!current.cancelRequested || a.phase = .cancelled || a.phase = .failed ||
      a.phase = .recoveryRequired) &&
    (finalizerEdge current.phase a.phase || claimed == some current.executorGeneration) &&
    learnsOnce (learnsRootMode current.phase a.phase) a.preflightRootMode
      current.preflightRootMode &&
    learnsOnce (learnsActualApkBytes current.phase a.phase) a.actualApkBytes
      current.actualApkBytes &&
    learnsOnce (a.phase = .healthyUnclaimed) a.healthCheckedAt current.healthCheckedAt &&
    (a.homeClaimDeferred.isNone || a.phase = .healthCheck || a.phase = .healthyUnclaimed) &&
    outcomeArguments current a

/-- The receipt a transition writes. -/
def transitionedReceipt (current : InstallJobReceipt) (a : TransitionArgs) (updatedAt : String) :
    InstallJobReceipt :=
  let stopped : Bool := a.phase = .failed || a.phase = .recoveryRequired
  { current with
    revision := current.revision + 1
    updatedAt
    phase := a.phase
    preflightRootMode := a.preflightRootMode.or current.preflightRootMode
    actualApkBytes := a.actualApkBytes.or current.actualApkBytes
    healthCheckedAt :=
      if current.phase = .healthyUnclaimed ∧ a.phase = .recoveryRequired then none
      else a.healthCheckedAt.or current.healthCheckedAt
    resultCode := a.resultCode
    failureStage := if stopped then some current.phase else none
    resultSubcode := if stopped && a.resultCode.isSome then a.resultSubcode else none
    consumedEntryId := a.consumedEntryId
    homeClaimDeferred := a.homeClaimDeferred.getD current.homeClaimDeferred }

/-- `async_transition` from the guards to the receipt rules. -/
def advanceReceipt (current : InstallJobReceipt) (claimed : Option Int) (a : TransitionArgs)
    (now : String) : Except InstallJobError InstallJobReceipt := do
  check .transition (transitionAllowed current claimed a)
  let updatedAt ← timestamp (.str now)
  let updated := transitionedReceipt current a updatedAt
  match validateReceiptInvariants P updated with
  | .ok _ => return updated
  | .error _ => throw .transition

def transition (jobId : String) (expectedRevision : Int) (a : TransitionArgs) (now : String)
    (jobs : Jobs) (claimed : Dict String Int) : Except InstallJobError Plan := do
  let current ← checkedCurrent jobs jobId expectedRevision
  let updated ← advanceReceipt P current (claimed.get? jobId) a now
  return .save (← prune (jobs.set jobId updated) updated.updatedAt) jobId

def Manager.asyncTransition (m : Manager) (io : OpIo) (jobId : String) (expectedRevision : Int)
    (a : TransitionArgs) : Manager × Except InstallJobError Reply :=
  if checkedTransition P a then
    m.perform P io (transition P jobId expectedRevision a io.now)
  else (m, .error .transition)

/-! ### Reads and barriers -/

def Manager.asyncGet (m : Manager) (io : LoadIo) (jobId : String) :
    Manager × Except InstallJobError InstallJobReceipt :=
  if isHex32 jobId then
    match m.loadLocked P io true with
    | (m, .error e) => (m, .error e)
    | (m, .ok jobs) => (m, (jobs.get? jobId).elim (.error .notFound) .ok)
  else (m, .error .notFound)

/-- `async_list` -/
def Manager.asyncList (m : Manager) (io : LoadIo) :
    Manager × Except InstallJobError (List InstallJobReceipt) :=
  match m.loadLocked P io true with
  | (m, .error e) => (m, .error e)
  | (m, .ok jobs) => (m, .ok (jobs.values.insertionSort createdOrder))

structure BarrierIo where
  load : LoadIo
  first : LoadIo
  second : LoadIo

/-- What both barriers do: compare the cache with a fresh durable read, and require the
phase, the cancellation flag and the claim. -/
def Manager.verifyBarrier (m : Manager) (io : BarrierIo) (jobId : String)
    (expectedRevision : Int) (phase : InstallPhase) (cancelRequested : Bool) :
    Manager × Except InstallJobError InstallJobReceipt :=
  match m.loadLocked P io.load false with
  | (m, .error e) => (m, .error e)
  | (m, .ok cached) =>
    match checkedCurrent cached jobId expectedRevision with
    | .error e => (m, .error e)
    | .ok inMemory =>
      match m.loadDurableLocked P io.first io.second with
      | (m, .error e) => (m, .error e)
      | (m, .ok durable) =>
        match checkedCurrent durable jobId expectedRevision with
        | .error e => (m, .error e)
        | .ok receipt =>
          if receipt = inMemory ∧ receipt.phase = phase ∧
              receipt.cancelRequested = cancelRequested ∧
              m.claimedJobs.get? jobId = some receipt.executorGeneration then
            (m, .ok receipt)
          else (m.invalidateCache, .error .transition)

def Manager.asyncVerifyMutationBarrier (m : Manager) (io : BarrierIo) (jobId : String)
    (expectedRevision : Int) (phase : InstallPhase) :
    Manager × Except InstallJobError InstallJobReceipt :=
  if phase ∈ mutationBarriers then m.verifyBarrier P io jobId expectedRevision phase false
  else (m, .error .transition)

def Manager.asyncVerifyCleanupBarrier (m : Manager) (io : BarrierIo) (jobId : String)
    (expectedRevision : Int) (phase : InstallPhase) :
    Manager × Except InstallJobError InstallJobReceipt :=
  match cleanupBarrierCancelPolarity phase with
  | some cancelRequested => m.verifyBarrier P io jobId expectedRevision phase cancelRequested
  | none => (m, .error .transition)

end PanelAssistant
