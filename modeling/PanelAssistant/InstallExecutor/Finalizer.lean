import PanelAssistant.InstallExecutor.Basic
import PanelAssistant.Library.Tasks

/-!
# The finalizer lease

A receipt at HEALTHY_UNCLAIMED is finalized by one owner at a time: the config flow that
adds the entry, or the setup of an entry that was already added. `_finalizers` maps a job to
its lease, a mutable record that the verification of a receipt keeps a reference to; here
the records stand in a list in the order in which they were made, and a reference is a
place in it.

A call is a task (`FinalizerTask`): between two of its awaits it runs alone, and at an await
any other call may run, with any result of the awaited operation.
-/

namespace PanelAssistant

open Library InstallPhase InstallResultCode

/-! ## Re-proving a healthy receipt -/

/-- What re-proving one healthy receipt concluded. -/
inductive FinalizationOutcome where
  | verified
  | busy
  | retry
  | recoveryRequired
  | receiptError
  deriving DecidableEq

/-- How the durable credential reads. -/
inductive CredentialRead where
  | held (generationId : String)
  | refused
  | failed

/-- What the read-only steps of a verification report. -/
structure ReverifyIo where
  revalidated : Except InstallNetworkErrorCode Unit
  credential : CredentialRead
  installed : Except InstallAdbErrorCode Unit
  health : Except ClientError InstallHealth
  /-- The HOME state of the status read. -/
  status : Except ClientError (Option String)

/-- What the steps come to: an outcome, or a drift that is recorded under a subcode. -/
inductive Reverified where
  | outcome (o : FinalizationOutcome)
  | drift (subcode : String)

/-- The last two steps of `_async_reverify`. -/
def reverifyPanel (receipt : InstallJobReceipt) (io : ReverifyIo) : Reverified :=
  match io.health with
  | .error .cannotConnect => .outcome .retry
  | .error .invalidResponse => .drift "health:invalid_response"
  | .ok health =>
    if !healthIsInstalledApp health receipt.artifact then .drift "health:identity_mismatch"
    else
      match io.status with
      | .error .cannotConnect => .outcome .retry
      | .error .invalidResponse => .drift "home_ui:invalid_response"
      | .ok state =>
        if homeUiAllowsSetup state then .outcome .verified else .drift "home_ui:not_ready"

/-- `_async_reverify` up to the transition of `_async_reject_healthy`. -/
def reverify (receipt : InstallJobReceipt) (io : ReverifyIo) : Reverified :=
  match io.revalidated with
  | .error code =>
    if code = .resolutionFailed ∨ code = .resolutionTimeout then .outcome .retry
    else .drift (resultSubcode (.network code))
  | .ok () =>
    match io.credential with
    | .refused => .drift (resultSubcode .credential)
    | .failed => .drift "finalization:credential_error"
    | .held generationId =>
      if generationId ≠ receipt.adbCredentialId then .drift "finalization:credential_changed"
      else if receipt.preflightRootMode.isNone then .drift "finalization:root_mode_missing"
      else
        match io.installed with
        | .error .targetUnreachable => .outcome .retry
        | .error code => .drift (resultSubcode (.adb code))
        | .ok () => reverifyPanel receipt io

/-! ## Leases -/

/-- The one owner allowed to finalize a healthy receipt, and what it is doing. -/
structure FinalizerLease where
  owner : String
  verifying : Bool
  releaseRequested : Bool
  deriving DecidableEq

/-- What an owner's call did to its lease. -/
inductive FinalizerNote where
  | verified
  | lapsed
  | released
  deriving DecidableEq

/-- The part of the executor that the finalizers share. -/
structure Finalizers where
  /-- Every lease record that was made. -/
  leases : List FinalizerLease
  /-- `_finalizers` -/
  finalizers : Dict String Nat
  /-- Whether `_lock` is held. -/
  locked : Bool
  /-- What the calls of each job and owner did, the last first. -/
  log : List (String × String × FinalizerNote)

namespace Finalizers

def initial : Finalizers := ⟨[], ∅, false, []⟩

/-- `self._finalizers.get(job_id)`, with the record it refers to. -/
def leaseOf (x : Finalizers) (jobId : String) : Option (Nat × FinalizerLease) :=
  (x.finalizers.get? jobId).bind fun ref => (x.leases[ref]?).map (ref, ·)

def newLease (x : Finalizers) (jobId : String) (lease : FinalizerLease) : Finalizers :=
  { x with
    leases := x.leases ++ [lease]
    finalizers := x.finalizers.set jobId x.leases.length }

def setLease (x : Finalizers) (ref : Nat) (lease : FinalizerLease) : Finalizers :=
  { x with leases := x.leases.set ref lease }

def popLease (x : Finalizers) (jobId : String) : Finalizers :=
  { x with finalizers := x.finalizers.pop jobId }

def note (x : Finalizers) (jobId owner : String) (n : FinalizerNote) : Finalizers :=
  { x with log := (jobId, owner, n) :: x.log }

def setLocked (x : Finalizers) (locked : Bool) : Finalizers := { x with locked }

end Finalizers

/-- `_FINALIZER_ID` -/
def isFinalizerId (owner : String) : Bool :=
  Text.repeats (fun c => Text.isAlnum c || c == '_' || c == '-') 1 128 owner.toList

/-- `release_finalizer` -/
def releaseFinalizer (x : Finalizers) (jobId owner : String) : Finalizers :=
  match x.leaseOf jobId with
  | none => x
  | some (ref, lease) =>
    if lease.owner ≠ owner then x
    else if lease.verifying then x.setLease ref { lease with releaseRequested := true }
    else x.popLease jobId

/-- `release_finalizer`, asked for by a call of this owner. -/
def askRelease (x : Finalizers) (jobId owner : String) : Finalizers :=
  releaseFinalizer (x.note jobId owner .released) jobId owner

/-- The end of `_async_acquire_finalizer`, under the lock: whether the receipt is granted. -/
def grantFinalizer (x : Finalizers) (jobId owner : String) (phase : InstallPhase) :
    Finalizers × Bool :=
  if phase ≠ healthyUnclaimed then (x, false)
  else
    match x.leaseOf jobId with
    | none => (x.newLease jobId ⟨owner, false, false⟩, true)
    | some (_, lease) => (x, lease.owner == owner)

/-- The `finally` of `async_verify_finalization`. -/
def finishVerification (x : Finalizers) (jobId owner : String) (ref : Nat)
    (outcome : Option FinalizationOutcome) : Finalizers :=
  let keep := outcome == some .verified
  let x := x.note jobId owner (if keep then .verified else .lapsed)
  match x.leases[ref]? with
  | none => x
  | some lease =>
    let x := x.setLease ref { lease with verifying := false }
    if !keep || lease.releaseRequested then releaseFinalizer x jobId owner else x

/-! ## Calls -/

/-- What a granted receipt is settled with. -/
inductive Settlement where
  | consume (entryId : String)
  | reconcile (entryId : String) (health : InstallHealth)

/-- The transition a granted receipt is asked to make. -/
def Settlement.arguments (receipt : InstallJobReceipt) : Settlement → TransitionArgs
  | .consume entryId =>
    { phase := consumed, resultCode := some entryCreated, consumedEntryId := some entryId }
  | .reconcile entryId health =>
    if healthIsInstalledApp health receipt.artifact then
      { phase := consumed, resultCode := some entryCreated, consumedEntryId := some entryId }
    else
      { phase := recoveryRequired, resultCode := some verificationRequired,
        resultSubcode := some "finalization:entry_health_mismatch" }

inductive FinalizerCall where
  | verify (jobId owner : String)
  | release (jobId owner : String)
  | consume (jobId owner entryId : String)
  | reconcile (entryId address : String) (health : InstallHealth)
  /-- `async_ensure_job`, the other user of `_lock`. -/
  | ensureJob

/-- Where a call awaits. -/
inductive FinalizerTask where
  | verifyReading (jobId owner : String) (lease : Nat)
  | verifyChecking (jobId owner : String) (lease : Nat) (receipt : InstallJobReceipt)
  /-- The transition of `_async_reject_healthy`. -/
  | verifyRejecting (jobId owner : String) (lease : Nat) (subcode : String)
  | listing (entryId address : String) (health : InstallHealth)
  /-- Waiting for `_lock`. -/
  | acquiring (jobId owner : String) (settlement : Settlement)
  | reading (jobId owner : String) (settlement : Settlement)
  | moving (jobId owner : String) (revision : Int) (a : TransitionArgs)
  | ensuring
  | ensured
  | returned (outcome : Option FinalizationOutcome)

/-- How an await ends. -/
inductive FinalizerEvent where
  | receipt (r : InstallJobReceipt)
  | receipts (rs : List InstallJobReceipt)
  | checked (io : ReverifyIo)
  | moved
  /-- The lock was granted. -/
  | entered
  | jobError
  /-- Any other exception. -/
  | exception
  | cancelled

/-- A settling call up to the lock; another owner name raises, and is released all the same. -/
def startSettling (x : Finalizers) (jobId owner : String) (settlement : Settlement) :
    Finalizers × FinalizerTask :=
  if isFinalizerId owner then (x, .acquiring jobId owner settlement)
  else (askRelease x jobId owner, .returned none)

/-- `async_verify_finalization` up to its first await. -/
def startVerification (x : Finalizers) (jobId owner : String) : Finalizers × FinalizerTask :=
  if !isFinalizerId owner then (x, .returned (some .receiptError))
  else
    match x.leaseOf jobId with
    | none => (x.newLease jobId ⟨owner, true, false⟩, .verifyReading jobId owner x.leases.length)
    | some (ref, lease) =>
      if lease.owner ≠ owner ∨ lease.verifying then (x, .returned (some .busy))
      else (x.setLease ref { lease with verifying := true }, .verifyReading jobId owner ref)

def FinalizerCall.start (x : Finalizers) : FinalizerCall → Finalizers × FinalizerTask
  | .verify jobId owner => startVerification x jobId owner
  | .release jobId owner => (askRelease x jobId owner, .returned none)
  | .consume jobId owner entryId => startSettling x jobId owner (.consume entryId)
  | .reconcile entryId address health => (x, .listing entryId address health)
  | .ensureJob => (x, .ensuring)

/-- What `async_verify_finalization` returns where an await raises; a cancellation passes. -/
def verificationFailure : FinalizerEvent → Option (Option FinalizationOutcome)
  | .jobError => some (some .receiptError)
  | .exception => some (some .retry)
  | .cancelled => some none
  | _ => none

def endVerification (x : Finalizers) (jobId owner : String) (ref : Nat)
    (outcome : Option FinalizationOutcome) : Finalizers × FinalizerTask :=
  (finishVerification x jobId owner ref outcome, .returned outcome)

/-- A settling call ends, in whatever way: its `finally` releases its owner's lease. -/
def endSettling (x : Finalizers) (jobId owner : String) : Finalizers × FinalizerTask :=
  (askRelease x jobId owner, .returned none)

def raises : FinalizerEvent → Bool
  | .jobError => true
  | .exception => true
  | .cancelled => true
  | _ => false

/-- The job an entry's setup finds waiting for it. -/
def healthyJobAt (address : String) (rs : List InstallJobReceipt) : Option String :=
  (rs.find? fun r => r.phase = healthyUnclaimed && r.target.address == address).map (·.jobId)

def FinalizerTask.wake (x : Finalizers) :
    FinalizerTask → FinalizerEvent → Option (Finalizers × FinalizerTask)
  | .verifyReading jobId owner ref, .receipt r =>
    if r.phase ≠ healthyUnclaimed ∨ (x.leases[ref]?).any (·.releaseRequested) then
      some (endVerification x jobId owner ref (some .busy))
    else some (x, .verifyChecking jobId owner ref r)
  | .verifyReading jobId owner ref, event =>
    (verificationFailure event).map (endVerification x jobId owner ref)
  | .verifyChecking jobId owner ref r, .checked io =>
    match reverify r io with
    | .outcome o => some (endVerification x jobId owner ref (some o))
    | .drift subcode => some (x, .verifyRejecting jobId owner ref subcode)
  | .verifyChecking jobId owner ref _, event =>
    (verificationFailure event).map (endVerification x jobId owner ref)
  | .verifyRejecting jobId owner ref _, .moved =>
    some (endVerification x jobId owner ref (some .recoveryRequired))
  | .verifyRejecting jobId owner ref _, .cancelled => some (endVerification x jobId owner ref none)
  | .verifyRejecting jobId owner ref _, event =>
    -- `_async_reject_healthy` reports every exception of its transition alike.
    if raises event then some (endVerification x jobId owner ref (some .receiptError)) else none
  | .listing entryId address health, .receipts rs =>
    match healthyJobAt address rs with
    | none => some (x, .returned none)
    | some jobId => some (startSettling x jobId ("setup_" ++ entryId) (.reconcile entryId health))
  | .listing _ _ _, event => if raises event then some (x, .returned none) else none
  | .acquiring jobId owner settlement, .entered =>
    if x.locked then none else some (x.setLocked true, .reading jobId owner settlement)
  | .acquiring jobId owner _, .cancelled => some (endSettling x jobId owner)
  | .reading jobId owner settlement, .receipt r =>
    match grantFinalizer (x.setLocked false) jobId owner r.phase with
    | (x, true) => some (x, .moving jobId owner r.revision (settlement.arguments r))
    | (x, false) => some (endSettling x jobId owner)
  | .reading jobId owner _, event =>
    if raises event then some (endSettling (x.setLocked false) jobId owner) else none
  | .moving jobId owner _ _, .moved => some (endSettling x jobId owner)
  | .moving jobId owner _ _, event =>
    if raises event then some (endSettling x jobId owner) else none
  | .ensuring, .entered => if x.locked then none else some (x.setLocked true, .ensured)
  | .ensuring, .cancelled => some (x, .returned none)
  | .ensured, .receipt _ => some (x.setLocked false, .returned none)
  | .ensured, event => if raises event then some (x.setLocked false, .returned none) else none
  | _, _ => none

/-- All the calls that finalize receipts. -/
def finalizerProgram : Tasks.Program Finalizers FinalizerTask FinalizerCall FinalizerEvent where
  start := fun x call => call.start x
  wake := fun x task event => task.wake x event

end PanelAssistant
