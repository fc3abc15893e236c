import PanelAssistant.Transport.Values

/-!
# What a panel reports on its session

`report_state` and `report_event` on the fields of a session they read and write. A state
report is decided one observation at a time: `judge` reads only the descriptors, and
`Batch.take` stores, refuses or forgets.
-/

namespace PanelAssistant

open Library

/-- The validated latest observation of one channel. -/
structure Observation where
  state : ObservedState
  value : Option Wire
  attributes : Dict String Wire
  refresh : Bool
  receivedAt : Nat
  reason : Option String

/-- The fields of a session that reports read and write. -/
structure SessionReports where
  descriptors : Dict String Descriptor
  observations : Dict String Observation
  fullSyncBegun : Bool
  fullSyncComplete : Bool
  rejectedObservations : Nat
  eventsReceived : Nat
  lastEventId : Int
  rejections : Dict String String

/-- `{item["channel"]: item for item in msg["channels"]}` -/
def describe (channels : List Descriptor) : Dict String Descriptor :=
  Dict.ofList (channels.map fun d => (d.channel, d))

/-- A session as an accepted hello opens it. -/
def SessionReports.fresh (descriptors : Dict String Descriptor) : SessionReports where
  descriptors
  observations := ∅
  fullSyncBegun := false
  fullSyncComplete := false
  rejectedObservations := 0
  eventsReceived := 0
  lastEventId := -1
  rejections := ∅

/-! ## Observations -/

/-- What becomes of one observation. -/
inductive Verdict where
  | stored (o : Observation)
  /-- Its value or its attributes are refused under a code. -/
  | refused (code : String)
  /-- Its channel is not described, or its platform reports no values. -/
  | unknownChannel
  /-- A validator raises what the loop does not catch. -/
  | raised

/-- The value and the attributes of an observation, validated. -/
def validateObservation (validate : Validator) (d : Descriptor) (o : ReportedObservation) :
    Validated (Option Wire × Dict String Wire) :=
  if o.state = .known then do
    let value ← validate (o.value.getD .null) d
    let attributes ← validateAttributes o.attributes
    .ok (some value, attributes)
  else .ok (none, ∅)

def judge (F : WireFormats) (descriptors : Dict String Descriptor) (now : Nat)
    (o : ReportedObservation) : Verdict :=
  match descriptors.get? o.channel with
  | none => .unknownChannel
  | some d =>
    match valueValidator F d.platform with
    | none => .unknownChannel
    | some validate =>
      match validateObservation validate d o with
      | .ok (value, attributes) =>
        .stored ⟨o.state, value, attributes, o.refresh, now, o.reason⟩
      | .error (.rejected code) => .refused code
      | .error .valueError => .raised

/-- The loop of `ws_report_state` between two observations. -/
structure Batch where
  reports : SessionReports
  rejected : List (String × String)
  accepted : List String

/-- One turn of the loop. -/
def Batch.take (b : Batch) (channel : String) : Verdict → Batch
  | .stored o =>
    { b with
      reports :=
        { b.reports with
          rejections := b.reports.rejections.pop channel
          observations := b.reports.observations.set channel o }
      accepted := b.accepted ++ [channel] }
  | .refused code =>
    -- Only described channels are remembered.
    { b with
      reports := { b.reports with rejections := b.reports.rejections.set channel code }
      rejected := b.rejected ++ [(channel, code)] }
  | .unknownChannel => { b with rejected := b.rejected ++ [(channel, errUnknownChannel)] }
  | .raised => b

/-- The loop, and whether it was left by an exception. -/
def takeObservations (F : WireFormats) (now : Nat) : List ReportedObservation → Batch → Batch × Bool
  | [], b => (b, false)
  | o :: rest, b =>
    match judge F b.reports.descriptors now o with
    | .raised => (b, true)
    | verdict => takeObservations F now rest (b.take o.channel verdict)

/-! ## Handlers -/

/-- What a handler does besides changing the session. -/
structure Handled where
  reports : SessionReports
  answer : Answer
  /-- The channels of the dispatched observations, if any. -/
  accepted : List String := []
  /-- Whether the full sync completed just now. -/
  completed : Bool := false
  /-- Whether the event reached its entity. -/
  fired : Bool := false

/-- The end of a state report whose observations were all decided. -/
def finishReport (b : Batch) (sync : Sync) : Handled :=
  let s := { b.reports with
    rejectedObservations := b.reports.rejectedObservations + b.rejected.length }
  match sync with
  | .fullBegin =>
    { reports := { s with fullSyncBegun := true }, answer := .rejected b.rejected,
      accepted := b.accepted }
  | .delta => { reports := s, answer := .rejected b.rejected, accepted := b.accepted }
  | .fullEnd =>
    { reports := { s with fullSyncBegun := false, fullSyncComplete := true },
      answer := .rejected b.rejected, accepted := b.accepted, completed := !s.fullSyncComplete }

/-- `ws_report_state` on a known session. -/
def reportState (F : WireFormats) (s : SessionReports) (now : Nat) (msg : StateReport) : Handled :=
  if msg.sync = .fullEnd ∧ s.fullSyncBegun = false ∧ s.fullSyncComplete = false then
    { reports := s, answer := .error errInvalidFormat "A full sync must begin before it ends." }
  else
    match takeObservations F now msg.observations ⟨s, [], []⟩ with
    | (b, true) => { reports := b.reports, answer := .raised }
    | (b, false) => finishReport b msg.sync

/-- `ws_report_event` on a known session. -/
def reportEvent (s : SessionReports) (msg : EventReport) : Handled :=
  match s.descriptors.get? msg.channel with
  | none => { reports := s, answer := .error errUnknownChannel "Not an event channel." }
  | some d =>
    if d.platform ≠ .event then
      { reports := s, answer := .error errUnknownChannel "Not an event channel." }
    else if s.fullSyncComplete = false then
      -- Not counted, so the panel's retry after its full sync still fires.
      { reports := s, answer := .error errInvalidFormat "Events wait for the full sync." }
    else if (d.options.any fun options => !options.contains msg.eventType) = true then
      { reports := s, answer := .error errInvalidValue "Unknown event type." }
    else if (msg.eventId : Int) > s.lastEventId then
      { reports :=
          { s with lastEventId := msg.eventId, eventsReceived := s.eventsReceived + 1 }
        answer := .result
        fired := true }
    else { reports := s, answer := .result }

/-- A message that reports. -/
inductive Report where
  | state (msg : StateReport)
  | event (msg : EventReport)

def SessionReports.handle (F : WireFormats) (s : SessionReports) (now : Nat) : Report → Handled
  | .state msg => reportState F s now msg
  | .event msg => reportEvent s msg

end PanelAssistant
