import PanelAssistant.Library.Dict
import PanelAssistant.Library.Text
import PanelAssistant.Library.Wire

/-!
# The wire vocabulary of the native transport

Error codes, bounds, outcomes and the messages a panel sends, as their schemas leave them:
unknown fields are dropped, and a message that would break one of the consistency rules
cannot be built.
-/

namespace PanelAssistant

open Library

/-! ## Error codes and bounds -/

def errUnknownChannel : String := "unknown_channel"

def errInvalidValue : String := "invalid_value"

def errInvalidFormat : String := "invalid_format"

def maxLateCommands : Nat := 16

def maxRecentOutcomes : Nat := 16

def maxCommandDeadlineMs : Int := 60000

def commandDeadlineMs : Int := 10000

def maxAttributes : Nat := 32

def maxStringLength : Nat := 255

def maxUrlLength : Nat := 2048

def maxJsonInteger : Int := 2 ^ 63

def capabilityCommands : String := "commands"

def capabilityManagement : String := "management"

def capabilityUiSubscribe : String := "ui_subscribe"

def capabilityUiBundle : String := "ui_bundle"

/-! ## Texts -/

/-- `[\x00-\x1f\x7f]` -/
def isControlCharacter (c : Char) : Bool := c.toNat < 32 || c.toNat == 127

/-- `[a-z][a-z0-9_]{0,n}` -/
def isName (n : Nat) (text : String) : Bool :=
  match text.toList with
  | [] => false
  | c :: rest =>
    Text.isLower c && Text.repeats (fun c => Text.isLower c || Text.isDigit c || c == '_') 0 n rest

/-- `_CODE_PATTERN` -/
def isCode (text : String) : Bool := isName 63 text

/-! ## Descriptors -/

/-- The platform a channel's descriptor names. -/
inductive EntityPlatform where
  | binarySensor
  | button
  | camera
  | event
  | image
  | light
  | mediaPlayer
  | number
  | select
  | sensor
  | switch
  | text
  | update
  deriving DecidableEq

/-- What a described channel's values are checked against. -/
structure Descriptor where
  channel : String
  platform : EntityPlatform
  deviceClass : Option String
  unit : Option String
  stateClass : Option String
  options : Option (List String)
  min : Option Rat
  max : Option Rat
  step : Option Rat
  deriving DecidableEq

/-- `_descriptor_consistent` -/
def descriptorConsistent (d : Descriptor) : Bool :=
  (match d.min, d.max with
    | some low, some high => decide (low ≤ high)
    | _, _ => true) &&
  (match d.step with
    | some step => decide (0 < step)
    | none => true) &&
  !(d.platform = .select && d.options.isNone)

/-- `_options`: unique and not empty. -/
def optionsConsistent (d : Descriptor) : Bool :=
  match d.options with
  | none => true
  | some options => !options.isEmpty && decide options.Nodup

/-- `_channels`: each descriptor is consistent, and no channel is described twice. -/
def channelsAccepted (channels : List Descriptor) : Bool :=
  channels.all (fun d => descriptorConsistent d && optionsConsistent d) &&
    decide (channels.map (·.channel)).Nodup

/-! ## Messages -/

inductive Sync where
  | fullBegin
  | delta
  | fullEnd
  deriving DecidableEq

inductive ObservedState where
  | known
  | unavailable
  | unknown
  deriving DecidableEq

/-- One observation of a report, with the rules of `_observation_consistent`. -/
structure ReportedObservation where
  channel : String
  state : ObservedState
  value : Option Wire
  attributes : Option Wire
  refresh : Bool
  reason : Option String
  hasValue : state = .known → value.isSome = true
  hasReason : state = .unknown ↔ reason.isSome = true

structure StateReport where
  sync : Sync
  observations : List ReportedObservation

structure EventReport where
  channel : String
  eventId : Nat
  eventType : String
  deriving DecidableEq

/-- The outcomes a panel reports for a command. -/
inductive ReportedOutcome where
  | applied
  | superseded
  | pendingApproval
  | refused
  | failed
  deriving DecidableEq

/-- `OUTCOMES_WITH_CODE` -/
def ReportedOutcome.withCode : ReportedOutcome → Bool
  | .refused => true
  | .failed => true
  | _ => false

/-- Whether a command is answered for good. -/
def ReportedOutcome.isFinal (o : ReportedOutcome) : Bool := o ≠ .pendingApproval

/-- The final outcome a panel reported for one command. -/
structure CommandOutcome where
  outcome : ReportedOutcome
  code : Option String
  result : Option Wire
  status : Option Int
  headers : Option (List (String × String))

/-- `command_result` with its rule: a code comes with `refused` and `failed` alone. -/
structure ResultReport where
  commandId : String
  outcome : CommandOutcome
  hasCode : outcome.outcome.withCode = outcome.code.isSome

/-- One observation of a `ui_update`. -/
structure UiObservation where
  channel : String
  known : Bool
  value : Option Wire
  hasValue : known = true → value.isSome = true

/-- `ui_update`: one subscription's observations. -/
structure UiUpdate where
  subscription : String
  observations : List UiObservation

/-- How a message is answered. -/
inductive Answer where
  | result
  | rejected (observations : List (String × String))
  | error (code message : String)
  /-- The handler raised; Core answers for it. -/
  | raised

end PanelAssistant
