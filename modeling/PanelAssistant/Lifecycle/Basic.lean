import Mathlib.Data.List.Sort
import Mathlib.Logic.Function.Basic
import PanelAssistant.Library.Binary64
import PanelAssistant.Library.Wire

/-!
# Core's lifecycle

`lifecycle.py`: the stamp of an orderly shutdown, the measured times from such a stamp to STARTED,
and the store that keeps both. The store is written by a delayed save, 30 seconds after the last
request, or at Home Assistant's final write (`Process.save`). What a document holds is checked when
it is loaded, whoever wrote it (`plausible_load`).
-/

namespace PanelAssistant.Lifecycle

open Library

/-! ## Values -/

/-- `_REASONS` -/
inductive Reason where
  | restart
  | hostReboot
  | coreUpdate
  | unknown
  deriving DecidableEq

def Reason.text : Reason → String
  | restart => "restart"
  | hostReboot => "host_reboot"
  | coreUpdate => "core_update"
  | unknown => "unknown"

/-- `value in _REASONS` -/
def reason? : Wire → Option Reason
  | .str "restart" => some .restart
  | .str "host_reboot" => some .hostReboot
  | .str "core_update" => some .coreUpdate
  | .str "unknown" => some .unknown
  | _ => none

/-- `_MAX_DURATION_MS` -/
def maxDurationMs : ℤ := 3600000

/-- `_MAX_AGE` -/
def maxAge : ℚ := 30 * 86400

/-- An int or a float that is finite, as a float. -/
def seconds? : Wire → Option ℚ
  | .int n => some (Binary64.nearest n)
  | .float (.finite q) => some q
  | _ => none

/-- A difference of two floats. -/
def minus (x y : ℚ) : ℚ := Binary64.nearest (x - y)

/-- `seconds * 1000` -/
def milliseconds (seconds : ℚ) : ℚ := Binary64.nearest (seconds * 1000)

/-- `int(x)` of a float -/
def truncate (x : ℚ) : ℤ := x.num.tdiv x.den

/-- A measured time. -/
structure Sample where
  durationMs : ℤ
  atTime : ℚ
  deriving DecidableEq

/-- What an orderly shutdown leaves behind. -/
structure Stamp where
  reason : Reason
  atTime : ℚ
  deriving DecidableEq

/-- `samples[-8:]` -/
def lastEight {α : Type} (samples : List α) : List α := samples.drop (samples.length - 8)

/-! ## Documents -/

/-- What the store is given to write. -/
structure Document where
  history : Reason → Option (List Sample)
  pending : Option Stamp
  expectedEntityCount : Option ℤ

def Sample.encode (sample : Sample) : Wire :=
  .obj [("duration_ms", .int sample.durationMs), ("at", .float (.finite sample.atTime))]

def Stamp.encode (stamp : Stamp) : Wire :=
  .obj [("reason", .str stamp.reason.text), ("at", .float (.finite stamp.atTime))]

def encodeHistory (history : Reason → Option (List Sample)) : Wire :=
  .obj ([Reason.restart, .hostReboot, .coreUpdate, .unknown].filterMap fun reason =>
    (history reason).map fun samples => (reason.text, .arr (samples.map Sample.encode)))

def Document.encode (document : Document) : Wire :=
  .obj [("history", encodeHistory document.history),
    ("pending", (document.pending.map Stamp.encode).getD .null),
    ("expected_entity_count", (document.expectedEntityCount.map Wire.int).getD .null)]

/-- A stored sample, if it is plausible and recent. -/
def loadSample (now : ℚ) : Wire → Option Sample
  | .obj item =>
    match Wire.get item "duration_ms", seconds? (Wire.get item "at") with
    | .int duration, some atTime =>
      if (0 < duration ∧ duration ≤ maxDurationMs) ∧ 0 ≤ minus now atTime ∧
        minus now atTime ≤ maxAge then
        some ⟨duration, atTime⟩
      else none
    | _, _ => none
  | _ => none

def loadHistory (now : ℚ) : Wire → Reason → Option (List Sample)
  | .obj history, reason =>
    match Wire.get history reason.text with
    | .arr samples => some ((lastEight samples).filterMap (loadSample now))
    | _ => none
  | _, _ => none

/-- A stored stamp, if it is at most an hour old. -/
def loadPending (now : ℚ) : Wire → Option Stamp
  | .obj pending =>
    match reason? (Wire.get pending "reason"), seconds? (Wire.get pending "at") with
    | some reason, some atTime =>
      if 0 ≤ minus now atTime ∧
        minus now atTime ≤ maxDurationMs / 1000 then some ⟨reason, atTime⟩ else none
    | _, _ => none
  | _ => none

def loadCount : Wire → Option ℤ
  | .int count => if 0 < count then some count else none
  | _ => none

/-! ## The lifecycle -/

inductive Phase where
  | starting
  | ready
  | shuttingDown
  deriving DecidableEq

/-- `CoreLifecycle` -/
structure CoreLifecycle where
  history : Reason → Option (List Sample)
  pending : Option Stamp
  expectedEntityCount : Option ℤ
  reason : Reason
  phase : Phase
  startedAt : Option ℚ

namespace CoreLifecycle

/-- `__init__` -/
def new (running : Bool) : CoreLifecycle where
  history := fun _ => none
  pending := none
  expectedEntityCount := none
  reason := .unknown
  phase := if running then .ready else .starting
  startedAt := none

/-- `history.get(reason, [])` -/
def samples (self : CoreLifecycle) (reason : Reason) : List Sample := (self.history reason).getD []

/-- What `_save` writes. -/
def document (self : CoreLifecycle) : Document :=
  ⟨self.history, self.pending, self.expectedEntityCount⟩

/-- `async_load` of a new lifecycle, and whether it requests a save. -/
def load (now loop : ℚ) (self : CoreLifecycle) : Wire → CoreLifecycle × Bool
  | .obj raw =>
    let pending := loadPending now (Wire.get raw "pending")
    ({ self with
        history := loadHistory now (Wire.get raw "history")
        pending := pending
        expectedEntityCount := loadCount (Wire.get raw "expected_entity_count")
        reason := (pending.map Stamp.reason).getD self.reason
        startedAt :=
          (pending.map fun stamp => minus loop (minus now stamp.atTime)).or self.startedAt },
      true)
  | _ => (self, false)

/-- `entity_count`, and whether it requests a save. -/
def entityCount (running : Bool) (count : ℕ) (self : CoreLifecycle) : CoreLifecycle × Bool :=
  if running ∧ 0 < count ∧ some (count : ℤ) ≠ self.expectedEntityCount then
    ({ self with expectedEntityCount := some count }, true)
  else (self, false)

/-- `async_shutdown` -/
def shutdown (now loop : ℚ) (reason : Reason) (self : CoreLifecycle) : CoreLifecycle :=
  { self with
    reason := reason
    phase := .shuttingDown
    startedAt := some loop
    pending := some ⟨reason, now⟩ }

/-- The sample that `started` takes. -/
def measure (now loop : ℚ) (self : CoreLifecycle) : Option Sample :=
  match self.pending with
  | none => none
  | some pending =>
    let duration := truncate (milliseconds (minus now pending.atTime))
    let monotonic := match self.startedAt with
      | some startedAt => milliseconds (minus loop startedAt)
      | none => -1
    if (0 < duration ∧ duration ≤ maxDurationMs) ∧ |minus duration monotonic| ≤ 5000 then
      some ⟨duration, now⟩
    else none

/-- `started` -/
def started (now loop : ℚ) (running : Bool) (count : ℕ) (self : CoreLifecycle) : CoreLifecycle :=
  let history := match self.measure now loop with
    | some sample =>
      Function.update self.history self.reason
        (some (lastEight (self.samples self.reason ++ [sample])))
    | none => self.history
  (({ self with history := history, pending := none, phase := .ready } : CoreLifecycle).entityCount
    running count).1

end CoreLifecycle

/-! ## Home Assistant -/

/-- A running process: its lifecycle, whether STARTED is still listened for, and when the delayed
save is due. -/
structure Process where
  lifecycle : CoreLifecycle
  listening : Bool
  due : Option ℚ

structure Core where
  disk : Wire
  process : Option Process
  wall : ℚ
  loop : ℚ

inductive Event where
  /-- A process starts and sets the lifecycle up. -/
  | load (loop : ℚ) (running : Bool)
  | started (running : Bool) (count : ℕ)
  | entityCount (running : Bool) (count : ℕ)
  | shutdown (reason : Reason)
  /-- The delayed save, or the final write. -/
  | save (final : Bool)
  /-- The process ends, however. -/
  | crash
  /-- Time passes. -/
  | tick (wall loop : ℚ)

namespace Process

/-- The save may run now. -/
def saves (loop : ℚ) (final : Bool) (p : Process) : Bool :=
  match p.due with
  | some due => if final then p.lifecycle.phase = .shuttingDown else due ≤ loop
  | none => false

/-- `async_setup_lifecycle` -/
def setup (now loop : ℚ) (running : Bool) (disk : Wire) : Process :=
  let loaded := (CoreLifecycle.new running).load now loop disk
  ⟨loaded.1, true, if loaded.2 then some (loop + 30) else none⟩

end Process

namespace Core

/-- What a running process does. -/
def act (s : Core) (p : Process) : Event → Core
  | .load _ _ => s
  | .started running count =>
    if p.listening then
      { s with
        process := some ⟨p.lifecycle.started s.wall s.loop running count, false,
          some (s.loop + 30)⟩ }
    else s
  | .entityCount running count =>
    let counted := p.lifecycle.entityCount running count
    { s with
      process := some ⟨counted.1, p.listening,
        if counted.2 then some (s.loop + 30) else p.due⟩ }
  | .shutdown reason =>
    { s with
      process := some ⟨p.lifecycle.shutdown s.wall s.loop reason, p.listening,
        some (s.loop + 30)⟩ }
  | .save final =>
    if p.saves s.loop final then
      { s with disk := p.lifecycle.document.encode, process := some { p with due := none } }
    else s
  | .crash => { s with process := none }
  | .tick wall loop => { s with wall := max s.wall wall, loop := max s.loop loop }

def step (s : Core) (event : Event) : Core :=
  match s.process, event with
  | some p, event => s.act p event
  | none, .load loop running =>
    { s with process := some (Process.setup s.wall loop running s.disk), loop := loop }
  | none, .tick wall loop => { s with wall := max s.wall wall, loop := max s.loop loop }
  | none, _ => s

end Core

end PanelAssistant.Lifecycle
