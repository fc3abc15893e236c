import PanelAssistant.Library.Guard
import PanelAssistant.Usb.Jobs

/-!
# What the installer asks of its surroundings

Every `await` of `transaction.mjs`, `recovery-transaction.mjs` and `install-controller.mjs` is one
call: of the device lock, the job store, the ports of the connection, and the guard of the session.
A call is answered or throws. The callbacks to the view are calls as well, since what they are told
is part of what an installation promises.
-/

namespace PanelAssistant.Usb

open Library

/-- What `ports.inspect` and `ports.inspectRecovery` report of a panel: its live target, and what is
`true` of it for the artifact it was asked about. -/
structure Observation (Target : Type) where
  target : Option Target
  clean : Bool
  staged : Bool
  installed : Bool
  healthy : Bool
  absent : Bool
  removable : Bool
  deriving DecidableEq

/-- What a panel is inspected for: a saved job, or a job that would be created. -/
inductive Subject (Target Artifact : Type)
  | saved (receipt : Receipt Target Artifact)
  | proposed (phase : Phase) (target : Target) (artifact : Artifact)
  deriving DecidableEq

def Subject.phase {Target Artifact : Type} : Subject Target Artifact → Phase
  | .saved receipt => receipt.phase
  | .proposed phase _ _ => phase

def Subject.target {Target Artifact : Type} : Subject Target Artifact → Target
  | .saved receipt => receipt.target
  | .proposed _ target _ => target

/-- What `ports.authenticate` returns: `genuine` is its kind, `authenticated-apk-bytes`. -/
structure Release (Artifact : Type) where
  genuine : Bool
  descriptor : Artifact
  deriving DecidableEq

/-- The ports that change the panel for a job. -/
inductive Actuator
  | stage
  | install
  | launch
  | cleanup
  deriving DecidableEq, Repr

namespace Actuator

/-- The phase a job has when the mutation is considered. -/
def source : Actuator → Phase
  | stage => .prepared
  | install => .staged
  | launch => .installed
  | cleanup => .recoveryRequired

/-- The phase that is written before the mutation. -/
def pending : Actuator → Phase
  | stage => .staging
  | install => .installing
  | launch => .launching
  | cleanup => .cleanupPending

/-- The phase of a mutation that took. -/
def completed : Actuator → Phase
  | stage => .staged
  | install => .installed
  | launch => .healthy
  | cleanup => .prepared

variable {Target : Type}

/-- What must be observed before the mutation. -/
def admits : Actuator → Observation Target → Bool
  | stage, state => state.clean
  | install, state => state.clean && state.staged
  | launch, state => state.installed
  | cleanup, state => state.clean && state.removable && !state.absent

end Actuator

/-- What an observation must show before a job reaches a phase. -/
def proves {Target : Type} (next : Phase) (state : Observation Target) : Bool :=
  match next with
  | .staged => state.clean && state.staged
  | .installed => state.installed
  | .healthy => state.healthy
  | .prepared => state.clean && state.absent
  | _ => true

/-- The functions that hold the device lock. -/
inductive Site
  | advance
  | recover
  | setAside
  | permissions
  | setup
  deriving DecidableEq, Repr

inductive Call (Target Artifact : Type)
  | ensureCurrent
  | authenticate
  | acquire (site : Site)
  | release
  | load
  | put (snapshot : Receipt Target Artifact) (expectedRevision : ℕ) (next : Phase)
  | add (target : Target) (artifact : Artifact) (phase : Phase)
  | remove (removal : Removal) (expectedRevision : ℕ)
  | inspect (recovery : Bool) (subject : Subject Target Artifact) (release : Release Artifact)
  | actuate (actuator : Actuator) (receipt : Receipt Target Artifact) (release : Release Artifact)
  | removeSetAside (id : JobId) (target : Target) (release : Release Artifact)
  | commissionPermissions (receipt : Receipt Target Artifact) (release : Release Artifact)
  | completeSetup (receipt : Receipt Target Artifact) (release : Release Artifact)
  | own (id : JobId)
  | onReceipt (receipt : Receipt Target Artifact)
  | onSetAside (id : JobId) (phase : Phase) (outcome : String)
  | onStagedCopy (id : JobId) (outcome : String)

abbrev Answer {Target Artifact : Type} : Call Target Artifact → Type
  | .authenticate => Release Artifact
  | .acquire _ => Bool
  | .load => Option (Receipt Target Artifact)
  | .put .. => Receipt Target Artifact
  | .add .. => Receipt Target Artifact
  | .inspect .. => Observation Target
  | .removeSetAside .. => String
  | .commissionPermissions .. => Bool
  | _ => Unit

abbrev Reply {Target Artifact : Type} (c : Call Target Artifact) : Type := Except Failure (Answer c)

/-- A function of the installer. -/
abbrev Prog (Target Artifact α : Type) : Type := Coop (Call Target Artifact) Reply Failure α

variable {Target Artifact α : Type}

/-- Await one call. -/
def ask (c : Call Target Artifact) : Prog Target Artifact (Answer c) :=
  .perform c Coop.ofExcept

def fail (c : Code) : Prog Target Artifact α := .raise (.code c)

/-- `ensureCurrent()` -/
def guard : Prog Target Artifact Unit := ask .ensureCurrent

/-- `locks.request` for the device, exclusive and only if it is free. The lock is held until the
callback has settled. -/
def locked (site : Site) (callback : Prog Target Artifact α) : Prog Target Artifact α := do
  if ← ask (.acquire site) then
    let settled ← Coop.attempt callback
    ask .release
    Coop.ofExcept settled
  else fail .transactionBusy

end PanelAssistant.Usb
