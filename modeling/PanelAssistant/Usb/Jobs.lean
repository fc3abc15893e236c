import PanelAssistant.Library.Binary64

/-!
# Saved jobs of the USB installer

`job-store.mjs`, for one device key: the one record the browser keeps for a panel, and the
transactions that read and change it. A record moves along `edges`, one revision at a time, and is
replaced only after it was removed at a revision the caller has seen. Every other check a
transaction makes (the closed shape of the record, its size, storage itself) can fail it and change
nothing; such a failure is a reply of the store, not a branch of these functions.
-/

namespace PanelAssistant.Usb

open Library

/-! ## Phases -/

inductive Phase
  | prepared
  | staging
  | staged
  | installing
  | installed
  | launching
  | healthy
  | recoveryRequired
  | cleanupPending
  deriving DecidableEq, Repr

/-- `EDGES` -/
def edges : Phase → List Phase
  | .prepared => [.staging, .recoveryRequired]
  | .staging => [.staged, .recoveryRequired]
  | .staged => [.installing, .recoveryRequired]
  | .installing => [.installed, .recoveryRequired]
  | .installed => [.launching, .recoveryRequired]
  | .launching => [.healthy, .recoveryRequired]
  | .healthy => []
  | .recoveryRequired => [.cleanupPending, .prepared]
  | .cleanupPending => [.prepared, .recoveryRequired]

/-- `RECOVERING` -/
def Phase.recovering (phase : Phase) : Bool :=
  phase == .recoveryRequired || phase == .cleanupPending

/-- A phase that is written before a mutation, and left only by an observation. -/
def Phase.pending : Phase → Bool
  | .staging | .installing | .launching | .cleanupPending => true
  | _ => false

/-! ## Failures -/

inductive Code
  | transactionBusy
  | transactionMissing
  | transactionInvalid
  | artifactChanged
  | targetChanged
  | recoveryConfirmationRequired
  | recoveryNotClean
  | recoveryNotRemovable
  | confirmationRequired
  | installIncomplete
  | permissionsUnverified
  | jobConflict
  | jobMalformed
  | jobTransitionInvalid
  deriving DecidableEq, Repr

/-- A code of these modules, or whatever a port, a guard or the storage throws. -/
inductive Failure
  | code (c : Code)
  | thrown
  deriving DecidableEq, Repr

/-! ## Records -/

abbrev JobId := String

structure Receipt (Target Artifact : Type) where
  id : JobId
  revision : ℕ
  phase : Phase
  target : Target
  artifact : Artifact
  deriving DecidableEq

variable {Target Artifact : Type}

/-- The record after one more transition. -/
def Receipt.moved (r : Receipt Target Artifact) (next : Phase) : Receipt Target Artifact :=
  { r with revision := r.revision + 1, phase := next }

/-- How a record leaves the store without being finished, or after it was. -/
inductive Removal
  | discard
  | retire
  deriving DecidableEq, Repr

/-- The transaction of `discard` and of `retire`. -/
def remove (saved : Option (Receipt Target Artifact)) (removal : Removal) (expectedRevision : ℕ) :
    Except Failure Unit :=
  match saved with
  | none => .error (.code .jobConflict)
  | some current =>
    if current.revision ≠ expectedRevision then .error (.code .jobConflict)
    else
      match removal, current.phase with
      | .discard, .healthy => .error (.code .jobTransitionInvalid)
      | .discard, _ => .ok ()
      | .retire, .healthy => .ok ()
      | .retire, _ => .error (.code .jobTransitionInvalid)

/-- The transaction of `create`: `add` fails where a record is. -/
def add (saved : Option (Receipt Target Artifact)) (id : JobId) (target : Target)
    (artifact : Artifact) (phase : Phase) : Except Failure (Receipt Target Artifact) :=
  match saved with
  | some _ => .error (.code .jobConflict)
  | none =>
    match phase with
    | .prepared | .installed => .ok ⟨id, 0, phase, target, artifact⟩
    | _ => .error (.code .jobTransitionInvalid)

variable [DecidableEq Target] [DecidableEq Artifact]

/-- The transaction of `advance`, with the record it loaded before. -/
def put (saved : Option (Receipt Target Artifact)) (snapshot : Receipt Target Artifact)
    (expectedRevision : ℕ) (next : Phase) : Except Failure (Receipt Target Artifact) :=
  match saved with
  | none => .error (.code .jobConflict)
  | some current =>
    if current.revision ≠ expectedRevision ∨ current ≠ snapshot then .error (.code .jobConflict)
    else if next ∉ edges current.phase then .error (.code .jobTransitionInvalid)
    else if current.revision + 1 ≤ Binary64.maxSafeInteger then .ok (current.moved next)
    else .error (.code .jobMalformed)

/-- What a transition does: one step along an edge of the record that was loaded. -/
theorem put_ok {saved : Option (Receipt Target Artifact)} {snapshot r : Receipt Target Artifact}
    {expectedRevision : ℕ} {next : Phase} (h : put saved snapshot expectedRevision next = .ok r) :
    saved = some snapshot ∧ next ∈ edges snapshot.phase ∧ r = snapshot.moved next := by
  unfold put at h
  split at h
  · cases h
  · rename_i current
    split at h
    · cases h
    · rename_i hsame
      split at h
      · cases h
      · rename_i hedge
        split at h
        · rw [not_or, not_not, not_not] at hsame
          obtain ⟨-, rfl⟩ := hsame
          exact ⟨rfl, not_not.mp hedge, (Except.ok.inj h).symm⟩
        · cases h

omit [DecidableEq Target] [DecidableEq Artifact] in
theorem add_ok {saved : Option (Receipt Target Artifact)} {id : JobId} {target : Target}
    {artifact : Artifact} {phase : Phase} {r : Receipt Target Artifact}
    (h : add saved id target artifact phase = .ok r) :
    saved = none ∧ (phase = .prepared ∨ phase = .installed) ∧
      r = ⟨id, 0, phase, target, artifact⟩ := by
  unfold add at h
  split at h
  · cases h
  · cases phase
    case prepared => exact ⟨rfl, .inl rfl, (Except.ok.inj h).symm⟩
    case installed => exact ⟨rfl, .inr rfl, (Except.ok.inj h).symm⟩
    all_goals cases h

omit [DecidableEq Target] [DecidableEq Artifact] in
theorem remove_ok {saved : Option (Receipt Target Artifact)} {removal : Removal}
    {expectedRevision : ℕ} (h : remove saved removal expectedRevision = .ok ()) :
    ∃ current, saved = some current ∧ current.revision = expectedRevision ∧
      (removal = .retire ↔ current.phase = .healthy) := by
  unfold remove at h
  split at h
  · cases h
  · rename_i current
    split at h
    · cases h
    · rename_i hrevision
      refine ⟨current, rfl, not_not.mp hrevision, ?_⟩
      split at h <;> simp_all

end PanelAssistant.Usb
