import PanelAssistant.Transport.Reports

/-!
# The live panel sessions

`TransportSessions` and the objects it refers to. Sessions, the commands sent on them and
the sidebar relays are mutable objects; here each kind stands in a list in the order in
which its objects were made, and a reference is a place in that list. What the code sends,
announces or resolves goes to `log`, the last first.
-/

namespace PanelAssistant

open Library

/-! ## Objects -/

/-- Whom a relayed request comes from. -/
structure Origin where
  user : String
  connection : String
  deriving DecidableEq

/-- The body of an event sent on a session. -/
inductive Request where
  | command (channel : String) (value : Wire) (origin : Option Origin)
  | manage (op : String) (args : List (String × Wire)) (origin : Option Origin)

def Request.label : Request → String
  | .command channel _ _ => channel
  | .manage op _ _ => "manage:" ++ op

/-- What an interim answer does to the wait: end it now, or extend it. -/
inductive Interim where
  | stop
  | extend
  deriving DecidableEq

/-- One command sent on a session and not yet answered with a final outcome. -/
structure PendingCommand where
  channel : String
  /-- Not done, or its result; the result is `none` when the session ended first. -/
  future : Option (Option CommandOutcome)
  approvalPending : Bool
  onInterim : Option Interim
  /-- The blob tokens that `on_settled` discards. -/
  onSettled : Option (List String)

/-- How a wait for an answer fails. -/
inductive DeliveryError where
  | panelUnavailable
  | approvalPending
  | cancelled
  deriving DecidableEq

/-- The timeout of a wait. -/
inductive Scope where
  | waiting
  /-- It fired, and the waiting task has not run yet. -/
  | expiring
  | finished (result : Except DeliveryError CommandOutcome)

/-- What a management request of the relay is for. -/
inductive Purpose where
  | relayed
  | subscribe (relay : Nat)
  | unsubscribe
  | panelLogs (relay : Nat)

/-- Who waits for a command. -/
inductive Caller where
  | command
  | manage
  | relayCommand
  /-- `ui_relay.async_manage`, with the tokens its `release` discards. -/
  | uiManage (held : List String) (purpose : Purpose)

/-- One call of `async_deliver`, with the command it made. -/
structure Delivery where
  session : Nat
  commandId : String
  command : PendingCommand
  scope : Scope
  caller : Caller

/-- One browser subscription relayed to one panel subscription. -/
structure Subscription where
  connection : Nat
  msgId : Nat
  browserId : String
  session : Nat
  origin : Origin
  panelId : String
  applied : Bool
  ended : Bool
  /-- Updates that arrived before the answer was forwarded, in order. -/
  held : Option (List (List UiObservation))

/-- The diagnostics' one initial logs update. -/
structure PanelLogSnapshot where
  session : Nat
  origin : Origin
  key : String
  backlog : Option (Option (List Wire))
  /-- Whether its task went through its `finally`. -/
  finished : Bool

inductive Relay where
  | browser (r : Subscription)
  | logs (r : PanelLogSnapshot)

structure RecentOutcome where
  channel : String
  outcome : ReportedOutcome
  code : Option String
  late : Bool
  time : Nat
  deriving DecidableEq

/-- One accepted `hello` subscription on one connection. -/
structure PanelSession extends SessionReports where
  entryId : String
  token : String
  connection : Nat
  subscriptionId : Nat
  userId : String
  capabilities : List String
  prereleasePanelBuilds : Option Bool
  voiceStreamClientId : Option String
  closedAt : Option Nat
  uiRelays : Dict String (List Nat)
  pending : Dict String Nat
  late : Dict String Nat
  recentOutcomes : List RecentOutcome
  commandCounts : Dict String Nat

structure RestartNotice where
  scope : String
  reason : String
  expectedBackMs : Nat
  deadline : Nat
  deriving DecidableEq

/-- Who is called back when a subscription of a connection ends. -/
inductive Subscriber where
  | teardown (session : Nat)
  | browserEnded (relay : Nat)
  deriving DecidableEq

/-- What a browser subscription is sent. -/
inductive BrowserEvent where
  | answer (outcome : CommandOutcome)
  | update (observations : List UiObservation)
  | closed

/-- What the transport did. -/
inductive Note where
  | changed (entryId : String)
  | sessionClosed (session : Nat) (reason : String)
  | sent (session command : Nat) (commandId : String) (request : Request) (deadlineMs : Int)
  | resolved (command : Nat) (result : Option CommandOutcome)
  | recorded (command : Nat) (outcome : ReportedOutcome) (late : Bool)
  | released (command : Nat) (held : List String)
  | waitEnded (command : Nat)
  | detached (token : String)
  /-- A state or an event report of the session, and its answer. -/
  | reported (session : Nat) (time : Nat) (report : Report) (answer : Answer)
  | observed (session : Nat) (channels : List String)
  | eventFired (session : Nat) (eventId : Nat) (channel eventType : String)
  | resultReported (session : Nat) (msg : ResultReport)
  | updated (session : Nat) (msg : UiUpdate)
  | toBrowser (relay : Nat) (event : BrowserEvent)

/-- Every live panel session, at most one per config entry. -/
structure TransportSessions where
  sessions : List PanelSession
  deliveries : List Delivery
  relays : List Relay
  byEntry : Dict String Nat
  byToken : Dict String Nat
  lastByEntry : Dict String Nat
  restart : Dict String RestartNotice
  /-- The subscriptions of every connection. -/
  subscriptions : Dict (Nat × Nat) Subscriber
  now : Nat
  log : List Note

namespace TransportSessions

def initial : TransportSessions where
  sessions := []
  deliveries := []
  relays := []
  byEntry := ∅
  byToken := ∅
  lastByEntry := ∅
  restart := ∅
  subscriptions := ∅
  now := 0
  log := []

def note (x : TransportSessions) (n : Note) : TransportSessions := { x with log := n :: x.log }

def setSession (x : TransportSessions) (k : Nat) (f : PanelSession → PanelSession) :
    TransportSessions :=
  { x with sessions := x.sessions.modify k f }

def setDelivery (x : TransportSessions) (c : Nat) (f : Delivery → Delivery) : TransportSessions :=
  { x with deliveries := x.deliveries.modify c f }

def setRelay (x : TransportSessions) (r : Nat) (relay : Relay) : TransportSessions :=
  { x with relays := x.relays.set r relay }

/-- `_changed` -/
def changed (x : TransportSessions) (entryId : String) : TransportSessions :=
  x.note (.changed entryId)

/-- Whether the session is its entry's live one. -/
def isLive (x : TransportSessions) (k : Nat) : Bool :=
  match x.sessions[k]? with
  | none => false
  | some s => x.byEntry.get? s.entryId = some k

/-- `for_request` -/
def forRequest (x : TransportSessions) (token : String) (connection : Nat) : Option Nat :=
  (x.byToken.get? token).bind fun k =>
    (x.sessions[k]?).bind fun s => if s.connection = connection then some k else none

/-! ## Ending a session -/

/-- `future.set_result(result)`, unless the future is done. -/
def resolve (x : TransportSessions) (c : Nat) (result : Option CommandOutcome) :
    TransportSessions :=
  match x.deliveries[c]? with
  | none => x
  | some d =>
    if d.command.future.isSome then x
    else
      (x.setDelivery c fun d =>
        { d with command := { d.command with future := some result } }).note (.resolved c result)

/-- `settle`: run `on_settled` once. -/
def settle (x : TransportSessions) (c : Nat) : TransportSessions :=
  match x.deliveries[c]? with
  | none => x
  | some d =>
    match d.command.onSettled with
    | none => x
    | some held =>
      (x.setDelivery c fun d =>
        { d with command := { d.command with onSettled := none } }).note (.released c held)

/-- `session_ended` of a relay. -/
def sessionEnded (x : TransportSessions) (r : Nat) : TransportSessions :=
  match x.relays[r]? with
  | none => x
  | some (.browser s) =>
    if s.ended then x
    else
      { x.setRelay r (.browser { s with ended := true }) with
        subscriptions := x.subscriptions.pop (s.connection, s.msgId) }.note (.toBrowser r .closed)
  | some (.logs s) =>
    if s.backlog.isSome then x else x.setRelay r (.logs { s with backlog := some none })

/-- The objects a closing session lets go: commands still waited for, commands whose wait is
over, relays. -/
def letGo (x : TransportSessions) (s : PanelSession) : TransportSessions :=
  let x := s.pending.values.foldl (fun x c => x.resolve c none) x
  let x := s.late.values.foldl settle x
  (s.uiRelays.values.flatten).foldl sessionEnded x

/-- `_forget` -/
def forget (x : TransportSessions) (k : Nat) : TransportSessions × Bool :=
  match x.sessions[k]? with
  | none => (x, false)
  | some s =>
    if x.byEntry.get? s.entryId ≠ some k then (x, false)
    else
      let x := { x with
        byEntry := x.byEntry.pop s.entryId
        byToken := x.byToken.pop s.token
        lastByEntry := x.lastByEntry.set s.entryId k }
      let x := x.setSession k fun s =>
        { s with closedAt := some x.now, pending := ∅, late := ∅, uiRelays := ∅ }
      let x := x.letGo s
      (if s.voiceStreamClientId.isSome then x.note (.detached s.token) else x, true)

/-- `close` -/
def close (x : TransportSessions) (k : Nat) (reason : String) (announce : Bool) :
    TransportSessions :=
  match x.sessions[k]?, x.forget k with
  | some s, (x, true) =>
    let x := { x with subscriptions := x.subscriptions.pop (s.connection, s.subscriptionId) }
    let x := x.note (.sessionClosed k reason)
    if announce then x.changed s.entryId else x
  | _, _ => x

/-- `_teardown_callback` -/
def teardown (x : TransportSessions) (k : Nat) : TransportSessions :=
  match x.sessions[k]?, x.forget k with
  | some s, (x, true) => x.changed s.entryId
  | _, _ => x

/-- `close_entry` -/
def closeEntry (x : TransportSessions) (entryId reason : String) : TransportSessions :=
  match x.byEntry.get? entryId with
  | none => x
  | some k => x.close k reason true

/-- `close_user` -/
def closeUser (x : TransportSessions) (userId reason : String) : TransportSessions :=
  let own := x.byEntry.values.filter fun k => (x.sessions[k]?).any (·.userId == userId)
  own.foldl (fun x k => x.close k reason true) x

/-- `mark_changed` -/
def markChanged (x : TransportSessions) (k : Nat) : TransportSessions :=
  match x.sessions[k]? with
  | none => x
  | some s => if x.byEntry.get? s.entryId = some k then x.changed s.entryId else x

/-! ## Restart notices -/

/-- `set_restart_notice` -/
def setRestartNotice (x : TransportSessions) (entryId scope reason : String) (remainingMs : Nat) :
    TransportSessions :=
  let notice := ⟨scope, reason, remainingMs, x.now + remainingMs⟩
  { x with restart := x.restart.set entryId notice }.changed entryId

/-- `clear_restart_notice` -/
def clearRestartNotice (x : TransportSessions) (entryId : String) : TransportSessions :=
  match x.restart.get? entryId with
  | none => x
  | some _ => { x with restart := x.restart.pop entryId }.changed entryId

/-- `forget_entry` -/
def forgetEntry (x : TransportSessions) (entryId : String) : TransportSessions :=
  { x with lastByEntry := x.lastByEntry.pop entryId }.clearRestartNotice entryId

/-! ## Opening a session -/

/-- `open` -/
def openSession (x : TransportSessions) (s : PanelSession) : TransportSessions :=
  let x := match x.byEntry.get? s.entryId with
    | none => x
    | some previous => x.close previous "superseded" false
  let x := x.clearRestartNotice s.entryId
  let k := x.sessions.length
  { x with
    sessions := x.sessions ++ [s]
    byEntry := x.byEntry.set s.entryId k
    byToken := x.byToken.set s.token k
    lastByEntry := x.lastByEntry.pop s.entryId
    subscriptions := x.subscriptions.set (s.connection, s.subscriptionId) (.teardown k)
    }.changed s.entryId

end TransportSessions

/-! ## Hello -/

/-- An admitted `hello`, as `_accept_hello` reads it. -/
structure Hello where
  entryId : String
  token : String
  connection : Nat
  subscriptionId : Nat
  userId : String
  capabilities : List String
  channels : List Descriptor
  prereleasePanelBuilds : Option Bool
  voiceStreamClientId : Option String
  accepted : channelsAccepted channels = true

/-- The session an accepted hello opens. -/
def Hello.session (h : Hello) : PanelSession where
  toSessionReports := SessionReports.fresh (describe h.channels)
  entryId := h.entryId
  token := h.token
  connection := h.connection
  subscriptionId := h.subscriptionId
  userId := h.userId
  capabilities := h.capabilities
  prereleasePanelBuilds := h.prereleasePanelBuilds
  voiceStreamClientId := h.voiceStreamClientId
  closedAt := none
  uiRelays := ∅
  pending := ∅
  late := ∅
  recentOutcomes := []
  commandCounts := ∅

end PanelAssistant
