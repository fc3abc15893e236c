import PanelAssistant.Adb.Frames
import PanelAssistant.Library.Runs
import PanelAssistant.Release
import PanelAssistant.VendorRecovery.Log

/-!
# Recovery from a vendor's stop

`VendorRecovery` of `vendor_recovery.py` with its two tasks, `_arm` and `_recover`. A task runs from
one await to the next against the state, and is told what it awaited; an answer of another kind
stands for an exception. Everything else happens between the steps, in any order. `homes` is what
the panel was sent. -/

namespace PanelAssistant.VendorRecovery

open Library Library.Text

/-! ## Observations -/

def uuidText (cs : List Char) : Bool :=
  match cs.splitOn '-' with
  | [a, b, c, d, e] =>
    repeats isHex 8 8 a && repeats isHex 4 4 b && repeats isHex 4 4 c && repeats isHex 4 4 d &&
      repeats isHex 12 12 e
  | _ => false

/-- `\d+\.\d+` -/
def uptime? (cs : List Char) : Option ℚ := do
  let (whole, cs) ← some? isDigit cs
  let cs ← after? ['.'] cs
  let (fraction, cs) ← some? isDigit cs
  if cs.isEmpty then some (seconds false whole fraction) else none

/-- How often a word stands in a text that follows a character. -/
def occurrences (word : List Char) : Option Char → List Char → ℕ
  | _, [] => 0
  | previous, c :: cs =>
    let here := word.isPrefixOf (c :: cs) && !previous.any Adb.isWordChar &&
      !((c :: cs).drop word.length).head?.any Adb.isWordChar
    (if here then 1 else 0) + occurrences word (some c) cs

def userZeroText : List Char := "User 0:".toList

def installedText : List Char := "installed=true".toList

def stoppedText : List Char := "stopped=true".toList

def notStoppedText : List Char := "stopped=false".toList

/-- Whether the package is stopped, from its line for user 0. -/
def stopped? (line : List Char) : Option Bool := do
  let rest ← after? userZeroText (line.dropWhile isSpace)
  if occurrences installedText (some ':') (rest.takeWhile (· != '\n')) = 0 then none
  else
    match occurrences stoppedText none line, occurrences notStoppedText none line with
    | 1, 0 => some true
    | 0, 1 => some false
    | _, _ => none

structure Observation where
  boot : List Char
  uptime : ℚ
  home : List Char
  vendorPid : ℕ
  stopped : Bool

/-- `_read` -/
def read? : List (List Char) → Option Observation
  | boot :: uptime :: home :: pid :: package :: _ => do
    let uptime ← uptime? uptime
    let vendorPid ← number? pid
    let stopped ← stopped? package
    if uuidText boot && decide (0 < uptime) then
      some { boot, uptime, home, vendorPid, stopped }
    else none
  | _ => none

/-! ## The coordinator -/

structure Session where
  id : ℕ
  did : String
  token : String
  deriving DecidableEq

/-- A config entry, which is told apart as an object. -/
structure Entry where
  object : ℕ
  uniqueId : Option String
  address : String

structure Device where
  manufacturer : Option String
  model : Option String

structure Snapshot where
  /-- `status.panel_assistant_device` -/
  device : Option Device
  discoveryId : Option String
  package : Option String

/-- What the coordinator and Home Assistant hold beside the recovery. -/
structure Environment where
  entry : Option Entry
  clientAddress : String
  identityMismatch : Bool
  isStopping : Bool
  restartNotice : Bool
  updateRunning : Bool
  /-- The panel is claimed for an operation. -/
  operation : Bool
  data : Option Snapshot

/-- `_Context` -/
structure Context where
  entry : ℕ
  did : String
  address : String
  session : Session
  package : String

/-- `_Witness` -/
structure ArmedWitness where
  context : Context
  credential : String
  boot : List Char
  uptime : ℚ
  home : List Char
  vendorPid : ℕ
  isLocal : Bool

def ArmedWitness.witness (w : ArmedWitness) : Witness where
  package := w.context.package.toList
  uptime := w.uptime
  vendorPid := w.vendorPid
  isLocal := w.isLocal

/-! ## Tasks -/

/-- A pinned target: the address as given, and as pinned. -/
abbrev Pinned : Type := String × String

inductive ArmStage where
  | credential
  | pin (credential : String)
  | target (credential : String) (pinned : Pinned)
  | probe (credential : String) (pinned : Pinned)
  | observation (credential : String) (pinned : Pinned) (isLocal : Bool)
  | revalidate (credential : String) (pinned : Pinned) (isLocal : Bool) (seen : Observation)
  | proven (credential : String) (pinned : Pinned) (isLocal : Bool) (seen : Observation)

inductive RecoverStage where
  | grace
  | health
  | manager
  | active
  | credential
  | revalidate
  | connect
  | retry
  | identity
  | observation
  | credentialAgain (stop : List Char)
  | activeAgain (stop : List Char)
  /-- In the shell call that sends HOME. -/
  | launch (stop : List Char)
  | outcome
  | refresh
  /-- In `finally`. -/
  | close

inductive Work where
  | arm (context : Context) (stage : ArmStage)
  | recover (witness : ArmedWitness) (claimed : Bool) (stage : RecoverStage)
  | done

structure Task where
  work : Work
  cancelled : Bool

/-- What a task is told. -/
inductive Answer where
  | failed
  | done
  | credential (generation : String)
  | pinned (target : Option Pinned)
  /-- `local_adb.async_target`: whether it selected local ADB. -/
  | target (found : Bool)
  /-- `async_probe_install_target`: whether an installed target was found. -/
  | probe (installed : Bool)
  | lines (lines : List (List Char)) (status : ℕ)
  /-- Whether the app answered, or cannot be connected to. -/
  | health (answered : Bool)
  | active (found : Bool)
  /-- `TARGET_UNREACHABLE`, and whether the deadline has passed. -/
  | unreachable (late : Bool)
  | outcome (started : Bool)

/-- A HOME that was sent. -/
structure Press where
  witness : ArmedWitness
  stop : List Char

structure State where
  env : Environment
  /-- The live session, and the last one that ended. -/
  live : Option Session
  last : Option Session
  /-- How many sessions were opened. -/
  opened : ℕ
  key : Option (String × String × String × String)
  witness : Option ArmedWitness
  closed : Bool
  /-- The task in `_task`. -/
  task : Option ℕ
  tasks : List Task
  homes : List Press

namespace State

variable (s : State)

def latest : Option Session := s.live.or s.last

/-- `_current` -/
def current (context : Context) (connected : Bool) : Bool :=
  !s.closed && !s.env.isStopping &&
    s.env.entry.any (fun entry =>
      entry.object = context.entry && entry.uniqueId = some context.did &&
        entry.address = context.address) &&
    decide (s.env.clientAddress = context.address) && !s.env.identityMismatch &&
    decide (s.live = if connected then some context.session else none) &&
      decide (s.latest = some context.session)

/-- `_allowed` -/
def allowed (context : Context) : Bool :=
  s.current context false && !s.env.restartNotice && !s.env.updateRunning

def cancelTask : State :=
  match s.task with
  | none => s
  | some i => { s with tasks := s.tasks.modify i fun task => { task with cancelled := true } }

/-- `_replace` -/
def replace (work : Work) : State :=
  { s.cancelTask with
    task := some s.tasks.length
    tasks := s.cancelTask.tasks ++ [⟨work, false⟩] }

def manufacturer : String := "Shelly"

def model : String := "Wall Display X2i"

/-- What `observe` would arm, if the snapshot is one of a healthy panel of this kind. -/
def contextOf? (snapshot : Snapshot) : Option Context := do
  let device ← snapshot.device
  let entry ← s.env.entry
  let session ← s.live
  let did ← snapshot.discoveryId
  let package ← snapshot.package
  if device.manufacturer = some manufacturer ∧ device.model = some model ∧ did.isEmpty = false ∧
      entry.uniqueId = some did ∧ session.did = did ∧ package = packageId then
    some { entry := entry.object, did, address := entry.address, session, package }
  else none

/-- `observe` -/
def observe (snapshot : Option Snapshot) : State :=
  match snapshot.bind s.contextOf? with
  | none => s
  | some context =>
    let key := (context.did, context.address, context.session.token, context.package)
    if s.key = some key || !s.current context true then s
    else { s with key := some key, witness := none }.replace (.arm context .credential)

/-- `changed` -/
def changed : State :=
  match s.witness.filter fun witness => s.current witness.context false with
  | some witness => { s with witness := none }.replace (.recover witness false .grace)
  | none => if s.live.isSome then s.observe s.env.data else s

/-- `close` -/
def close : State := { s with closed := true, witness := none }.cancelTask

end State

/-! ## `_arm` -/

/-- `EQUIVALENT_HOME_COMPONENTS` -/
def equivalentHomeComponents (launch : String) : List String :=
  if launch = oldClassesSuccessorLaunch then
    ["io.panelassistant.android/io.github.maxlyth.hapaneld.DashboardActivity"]
  else if launch = newClassesSuccessorLaunch then
    ["io.panelassistant.android/.DashboardActivity",
      "io.panelassistant.android/io.panelassistant.android.DashboardActivity"]
  else []

/-- The dashboards of the package. -/
def homeComponents : List String := launchComponents.flatMap equivalentHomeComponents

inductive ArmNext where
  | goto (stage : ArmStage)
  | leave
  | armed (witness : ArmedWitness)

/-- `_arm`, from one await to the next. -/
def State.arm (s : State) (context : Context) : ArmStage → Answer → ArmNext
  | .credential, .credential generation => .goto (.pin generation)
  | .pin credential, .pinned (some pinned) =>
    if s.current context true then .goto (.target credential pinned) else .leave
  | .target credential pinned, .target found =>
    if found then .goto (.observation credential pinned true) else .goto (.probe credential pinned)
  | .probe credential pinned, .probe installed =>
    if installed then .goto (.observation credential pinned false) else .leave
  | .observation credential pinned isLocal, .lines lines status =>
    match read? lines with
    | some seen => if status = 0 then .goto (.revalidate credential pinned isLocal seen) else .leave
    | none => .leave
  | .revalidate credential pinned isLocal seen, .done =>
    .goto (.proven credential pinned isLocal seen)
  | .proven credential pinned isLocal seen, .pinned proven =>
    if !seen.stopped && decide (0 < seen.vendorPid) && homeComponents.any (·.toList = seen.home) &&
        decide (proven = some pinned) && s.current context true then
      .armed
        { context
          credential
          boot := seen.boot
          uptime := seen.uptime
          home := seen.home
          vendorPid := seen.vendorPid
          isLocal }
    else .leave
  | _, _ => .leave

/-! ## `_recover` -/

/-- The stop to recover from, as the panel's second observation shows it. -/
def stopOf? (w : ArmedWitness) (lines : List (List Char)) (status : ℕ) : Option (List Char) :=
  match lines with
  | boot :: _ :: home :: pid :: package :: logs =>
    match logs.getLast? with
    | none => none
    | some uptime =>
      match read? [boot, uptime, home, pid, package] with
      | none => none
      | some seen =>
        if status = 0 ∧ seen.boot = w.boot ∧ seen.home = w.home ∧ seen.stopped then
          vendorStop logs.dropLast w.witness seen.uptime
        else none
  | _ => none

inductive RecoverNext where
  | goto (stage : RecoverStage)
  | leave
  /-- The panel was claimed. -/
  | claimed
  /-- HOME was sent. -/
  | sent (stop : List Char)

/-- `_recover`, from one await to the next. -/
def State.recover (s : State) (w : ArmedWitness) : RecoverStage → Answer → RecoverNext
  | .grace, .done => if s.allowed w.context && !s.env.operation then .claimed else .leave
  | .health, .health answered => if answered then .leave else .goto .manager
  | .manager, .done => .goto .active
  | .active, .active found => if found then .leave else .goto .credential
  | .credential, .credential generation =>
    if generation = w.credential && s.allowed w.context then .goto .revalidate else .leave
  | .revalidate, .done => if s.allowed w.context then .goto .connect else .leave
  | .connect, .done => if s.allowed w.context then .goto .identity else .leave
  | .connect, .unreachable late => if late || !s.allowed w.context then .leave else .goto .retry
  | .retry, .done => .goto .connect
  | .identity, .done => .goto .observation
  | .observation, .lines lines status =>
    match stopOf? w lines status with
    | some stop => if s.allowed w.context then .goto (.credentialAgain stop) else .leave
    | none => .leave
  | .credentialAgain stop, .credential generation =>
    if generation = w.credential then .goto (.activeAgain stop) else .leave
  | .activeAgain stop, .active found =>
    if !found && s.allowed w.context then .goto (.launch stop) else .leave
  | .launch stop, .done => .sent stop
  | .outcome, .outcome started => if started then .goto .refresh else .leave
  | _, _ => .leave

namespace State

variable (s : State)

def put (i : ℕ) (work : Work) : State :=
  { s with tasks := s.tasks.modify i fun task => { task with work } }

/-- A task runs on from where it waits. A cancelled one gets no further than its `finally`. -/
def resume (i : ℕ) (answer : Answer) : State :=
  match s.tasks[i]? with
  | none => s
  | some ⟨.done, _⟩ => s
  | some ⟨.arm context stage, cancelled⟩ =>
    if cancelled then s.put i .done
    else
      match s.arm context stage answer with
      | .goto stage => s.put i (.arm context stage)
      | .leave => s.put i .done
      | .armed witness => { s with witness := some witness }.put i .done
  | some ⟨.recover _ claimed .close, _⟩ =>
    { s with env := { s.env with operation := s.env.operation && !claimed } }.put i .done
  | some ⟨.recover witness claimed stage, cancelled⟩ =>
    if cancelled then s.put i (.recover witness claimed .close)
    else
      match s.recover witness stage answer with
      | .goto stage => s.put i (.recover witness claimed stage)
      | .leave => s.put i (.recover witness claimed .close)
      | .claimed =>
        { s with env := { s.env with operation := true } }.put i (.recover witness true .health)
      | .sent stop =>
        { s with homes := ⟨witness, stop⟩ :: s.homes }.put i (.recover witness claimed .outcome)

/-- `PanelSessions.open` -/
def openSession (did token : String) : State :=
  { s with
    env := { s.env with restartNotice := false }
    live := some ⟨s.opened, did, token⟩
    last := none
    opened := s.opened + 1 }

/-- The live session ends. -/
def endSession : State :=
  match s.live with
  | none => s
  | some session => { s with live := none, last := some session }

def initial (env : Environment) : State where
  env := env
  live := none
  last := none
  opened := 0
  key := none
  witness := none
  closed := false
  task := none
  tasks := []
  homes := []

end State

inductive Move where
  | environment (env : Environment)
  | openSession (did token : String)
  | endSession
  /-- `forget_entry` -/
  | forgetEntry
  | observe (snapshot : Option Snapshot)
  | changed
  | close
  | resume (i : ℕ) (answer : Answer)

def step (s : State) : Move → State
  | .environment env => { s with env }
  | .openSession did token => s.openSession did token
  | .endSession => s.endSession
  | .forgetEntry => { s with last := none, env := { s.env with restartNotice := false } }
  | .observe snapshot => s.observe snapshot
  | .changed => s.changed
  | .close => s.close
  | .resume i answer => s.resume i answer

end PanelAssistant.VendorRecovery
