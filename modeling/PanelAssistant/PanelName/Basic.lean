import PanelAssistant.Library.Runs
import PanelAssistant.Transport.Protocol

/-!
# The name of a panel's device

`async_follow_panel_name` of `device.py`: the listeners of the device registry and of the
coordinator, and the one task that delivers the alias of the panel's device as a settings write.
Everything between two awaits of the task is one step; what Home Assistant and the panel do happens
between the steps, in any order. What was sent goes to `log`, the newest first.
-/

namespace PanelAssistant.PanelName

open Library

/-! ## The device registry -/

/-- `DOMAIN` -/
def domain : String := "panel_assistant"

structure DeviceEntry where
  id : String
  configEntryId : String
  identifiers : List (String × String)
  nameByUser : Option String

structure Registry where
  devices : List DeviceEntry
  nodup : (devices.map (·.id)).Nodup

/-- `EventDeviceRegistryUpdatedData` -/
structure RegistryEvent where
  action : String
  deviceId : String
  changes : List String

def DeviceEntry.rename (id : String) (name : Option String) (device : DeviceEntry) : DeviceEntry :=
  if device.id = id then { device with nameByUser := name } else device

@[simp] theorem DeviceEntry.rename_id (id : String) (name : Option String) (device : DeviceEntry) :
    (device.rename id name).id = device.id := by
  unfold rename
  split <;> rfl

namespace Registry

def asyncGet (registry : Registry) (id : String) : Option DeviceEntry :=
  registry.devices.find? fun device => device.id = id

def asyncGetDeviceByIdentifier (registry : Registry) (identifier : String × String)
    (entryId : String) :
    Option DeviceEntry :=
  registry.devices.find? fun device =>
    device.configEntryId = entryId && device.identifiers.contains identifier

/-- `async_update_device` with a `name_by_user`. -/
def rename (registry : Registry) (id : String) (name : Option String) : Registry where
  devices := registry.devices.map (·.rename id name)
  nodup := by
    rw [List.map_map, Function.comp_def]
    simpa only [DeviceEntry.rename_id] using registry.nodup

/-- The alias of a config entry's device. -/
def nameByUser (registry : Registry) (entryId : String) : Option String :=
  (registry.asyncGetDeviceByIdentifier (domain, entryId) entryId).bind (·.nameByUser)

end Registry

/-! ## The state -/

/-- What a delivery reads of a live session. -/
structure PanelSession where
  token : String
  capabilities : List String

/-- `session_manages` -/
def sessionManages (session : PanelSession) : Bool :=
  session.capabilities.contains capabilityManagement

/-- A settings write, as the command it became. -/
structure Write where
  id : ℕ
  token : String
  name : String
  deriving DecidableEq

inductive Stage where
  /-- Created, and not begun. -/
  | scheduled
  /-- In `async_manage`, at the future of the command. Its result is `none` when the session ended
  first. -/
  | waiting (write : Write) (future : Option (Option CommandOutcome))
  /-- Cancelled before it began: its `finally` did not run. -/
  | done

/-- `deliver()` as a task. -/
structure Task where
  stage : Stage
  cancelled : Bool

inductive Entry where
  /-- The alias of the panel's device was changed to this. -/
  | renamed (name : Option String)
  | sent (token name : String)
  | closed

structure State where
  registry : Registry
  /-- The events of the registry whose listeners have not run, the oldest first. -/
  events : List RegistryEvent
  session : Option PanelSession
  /-- The tokens of all sessions so far. -/
  tokens : List String
  identityMismatch : Bool
  /-- Something changed since the coordinator's listeners last ran. -/
  outdated : Bool
  isStopping : Bool
  task : Option Task
  attempted : Option (String × String)
  closed : Bool
  /-- The writes still waited for: `pending` of their sessions. -/
  pending : List Write
  /-- How many writes there were. -/
  writes : ℕ
  log : List Entry

/-- The check of `registry_changed` on the device of its event. -/
def isPanel (entryId : String) (device : DeviceEntry) : Bool :=
  device.configEntryId = entryId && device.identifiers.contains (domain, entryId)

namespace State

variable (entryId : String) (s : State)

/-! ## Delivery -/

/-- An alias of blanks is none. -/
def desiredName : Option String :=
  (s.registry.nameByUser entryId).filter fun name => !(Text.strip name.toList).isEmpty

/-- No delivery is running: `task is None or task.done()`. -/
def idle : Bool :=
  match s.task with
  | some ⟨.scheduled, _⟩ | some ⟨.waiting _ _, _⟩ => false
  | some ⟨.done, _⟩ | none => true

/-- The end of a delivery: its `finally`. -/
def finish : State := { s with task := none }

/-- `async_manage`, up to its await. The session was just read, so it is the live one. -/
def manage (session : PanelSession) (name : String) : State :=
  let write : Write := ⟨s.writes, session.token, name⟩
  { s with
    pending := s.pending ++ [write]
    writes := s.writes + 1
    task := some ⟨.waiting write none, false⟩
    log := .sent session.token name :: s.log }

/-- `deliver`, from the head of its loop to a write or to its end. -/
def deliver : State :=
  if s.closed || s.isStopping then s.finish
  else
    match s.desiredName entryId, s.session with
    | some name, some session =>
      if !sessionManages session || s.identityMismatch then s.finish
      else if s.attempted = some (session.token, name) then s.finish
      else { s with attempted := some (session.token, name) }.manage session name
    | _, _ => s.finish

/-- A write is no longer waited for. -/
def stopWaiting (write : Write) : State := { s with pending := s.pending.filter (· ≠ write) }

/-- The task runs on from where it waits, if it can: `timedOut` is whether the timeout of the write
fired. A write that failed leads back to the loop as one that was applied does. -/
def woken (timedOut : Bool) : State :=
  match s.task with
  | some ⟨.scheduled, cancelled⟩ =>
    if cancelled then { s with task := some ⟨.done, true⟩ } else s.deliver entryId
  | some ⟨.waiting write future, cancelled⟩ =>
    let ended := if future.isNone then s.stopWaiting write else s
    if cancelled then ended.finish
    else if future.isSome || timedOut then ended.deliver entryId
    else s
  | some ⟨.done, _⟩ | none => s

/-! ## Listeners -/

/-- `changed` -/
def changed : State :=
  if s.closed then s
  else
    match s.desiredName entryId with
    | none => { s with attempted := none }
    | some _ => if s.idle then { s with task := some ⟨.scheduled, false⟩ } else s

/-- Whether `registry_changed` calls `changed`. -/
def follows (event : RegistryEvent) : Bool :=
  event.action = "update" && event.changes.contains "name_by_user" &&
    (s.registry.asyncGet event.deviceId).any (isPanel entryId)

/-- `registry_changed` -/
def registryChanged (event : RegistryEvent) : State :=
  if s.follows entryId event then s.changed entryId else s

def cancelTask : State := { s with task := s.task.map fun task => { task with cancelled := true } }

/-- `close` -/
def close : State := { s with closed := true, log := .closed :: s.log }.cancelTask

/-! ## Home Assistant and the panel -/

/-- The alias of a device is set. -/
def rename (id : String) (name : Option String) : State :=
  match s.registry.asyncGet id with
  | none => s
  | some device =>
    if device.nameByUser = name then s
    else
      let registry := s.registry.rename id name
      { s with
        registry
        events := s.events ++ [⟨"update", id, ["name_by_user"]⟩]
        log :=
          if registry.nameByUser entryId = s.registry.nameByUser entryId then s.log
          else .renamed (registry.nameByUser entryId) :: s.log }

/-- The result of the commands that `which` selects arrives. -/
def resolve (which : Write → Bool) (result : Option CommandOutcome) : State :=
  { s with
    pending := s.pending.filter (!which ·)
    task := s.task.map fun task =>
      match task.stage with
      | .waiting write none =>
        if which write then { task with stage := .waiting write (some result) } else task
      | _ => task }

/-- The live session ends: `_forget`. -/
def forget : State :=
  match s.session with
  | none => s
  | some session =>
    { s.resolve (·.token = session.token) none with session := none, outdated := true }

end State

open State

/-- What happens to a followed panel. -/
inductive Move where
  | rename (deviceId : String) (name : Option String)
  /-- Another change of the registry. -/
  | fire (event : RegistryEvent)
  /-- The listeners of the oldest event run. -/
  | registryChanged
  | opened (session : PanelSession)
  | ended
  | granted (capabilities : List String)
  | identity (mismatch : Bool)
  /-- The coordinator's listeners run. -/
  | updated
  /-- A final answer of the panel, to a write still waited for or to an earlier one. -/
  | answered (write : ℕ) (outcome : CommandOutcome)
  | woken (timedOut : Bool)
  | stopped
  /-- A stopping Home Assistant cancels its background tasks. -/
  | cancelled
  | closed

/-- One move. A token is drawn at random, so no session has the token of an earlier one. -/
def step (entryId : String) (s : State) : Move → State
  | .rename id name => s.rename entryId id name
  | .fire event => { s with events := s.events ++ [event] }
  | .registryChanged =>
    match s.events with
    | [] => s
    | event :: events => { s with events }.registryChanged entryId event
  | .opened session =>
    if session.token ∈ s.tokens then s
    else { s.forget with
      session := some session
      tokens := session.token :: s.tokens
      outdated := true }
  | .ended => s.forget
  | .granted capabilities =>
    { s with
      session := s.session.map fun session => { session with capabilities }
      outdated := true }
  | .identity mismatch => { s with identityMismatch := mismatch, outdated := true }
  | .updated => { s with outdated := false }.changed entryId
  | .answered write outcome => s.resolve (·.id = write) (some outcome)
  | .woken timedOut => s.woken entryId timedOut
  | .stopped => { s with isStopping := true }
  | .cancelled => if s.isStopping then s.cancelTask else s
  | .closed => s.close

/-- `async_follow_panel_name`, with what it finds. -/
def asyncFollowPanelName (entryId : String) (registry : Registry) (session : Option PanelSession)
    (identityMismatch isStopping : Bool) : State :=
  State.changed entryId
    { registry
      events := []
      session
      tokens := (session.map (·.token)).toList
      identityMismatch
      outdated := false
      isStopping
      task := none
      attempted := none
      closed := false
      pending := []
      writes := 0
      log := [] }

end PanelAssistant.PanelName
