import PanelAssistant.Transport.Relays
import PanelAssistant.Library.Runs

/-!
# The transport as one system

Every entry point of the transport is a move. The handlers are synchronous; a call that
waits is taken up again by `wake`, at any later time and in any order, and a callback that
was handed out runs whenever its owner calls it.
-/

namespace PanelAssistant

open Library

/-- How a call of `async_manage_outcome` wants interim answers treated. -/
structure ApprovalWait where
  approves : Bool
  waitsForApproval : Bool
  deriving DecidableEq

def ApprovalWait.interim (w : ApprovalWait) : Option Interim :=
  if !w.waitsForApproval then some .stop else if w.approves then some .extend else none

inductive TransportMove where
  | hello (h : Hello)
  | close (session : Nat) (reason : String)
  | closeEntry (entryId reason : String)
  | closeUser (userId reason : String)
  | teardown (session : Nat)
  | forgetEntry (entryId : String)
  | markChanged (session : Nat)
  | setRestartNotice (entryId scope reason : String) (remainingMs : Nat)
  | clearRestartNotice (entryId : String)
  /-- `restart_notice` of a panel. -/
  | restartNotice (token : String) (connection : Nat) (scope reason : String)
      (expectedBackMs : Nat)
  | report (token : String) (connection : Nat) (msg : Report)
  | commandResult (token : String) (connection : Nat) (msg : ResultReport)
  | uiUpdate (token : String) (connection : Nat) (msg : UiUpdate)
  /-- `async_send_command` -/
  | sendCommand (session : Nat) (channel : String) (value : Wire) (draws : Draws)
  /-- `async_manage_outcome` -/
  | manage (session : Nat) (op : String) (args : List (String × Wire)) (wait : ApprovalWait)
      (draws : Draws)
  /-- A page's command, relayed. -/
  | relayCommand (session : Nat) (channel : String) (value : Wire) (origin : Origin)
      (deadlineMs : Int) (draws : Draws)
  /-- A management request of the relay. -/
  | relayManage (session : Nat) (op : String) (args : List (String × Wire))
      (origin : Option Origin) (deadlineMs : Int) (lent : List String) (draws : Draws)
  | subscribe (session connection msgId : Nat) (browserId : String)
      (args : List (String × Wire)) (origin : Origin) (deadlineMs : Int) (draws : Draws)
  | panelLogs (session : Nat) (draws : Draws)
  | endPanelLogs (relay : Nat) (draws : Draws)
  | browserEnded (relay : Nat) (draws : Draws)
  | fireTimer (command : Nat)
  /-- A waiting call runs on; `arrived` is whether the blob its answer names came. -/
  | wake (command : Nat) (awaited : Awaited) (arrived : Bool) (draws : Draws)
  | tick (n : Nat)

namespace TransportSessions

/-- A report of a panel, answered. -/
def report (F : WireFormats) (x : TransportSessions) (k : Nat) (s : PanelSession) (msg : Report) :
    TransportSessions :=
  let handled := s.toSessionReports.handle F x.now msg
  let x := x.setSession k fun s => { s with toSessionReports := handled.reports }
  let x := if handled.accepted.isEmpty then x else x.note (.observed k handled.accepted)
  let x := if handled.completed then x.markChanged k else x
  let x := match msg with
    | .event e =>
      if handled.fired then x.note (.eventFired k e.eventId e.channel e.eventType) else x
    | .state _ => x
  x.note (.reported k x.now msg handled.answer)

/-- What the caller does with the result of its delivery. -/
def continueCall (x : TransportSessions) (c : Nat) (d : Delivery)
    (result : Except DeliveryError CommandOutcome) (arrived : Bool) (draws : Draws) :
    TransportSessions :=
  match d.caller with
  | .uiManage held purpose =>
    let x := x.releaseUnlessLate c d held
    match purpose with
    | .subscribe r =>
      match result with
      | .ok outcome => x.endSubscribe r (.ok (readAnswer outcome arrived)) draws
      | .error e => x.endSubscribe r (.error e) draws
    | _ => x
  | _ => x

def wake (x : TransportSessions) (c : Nat) (awaited : Awaited) (arrived : Bool) (draws : Draws) :
    TransportSessions :=
  match x.deliveries[c]? with
  | none => x
  | some d =>
    match awaitFuture d awaited with
    | none => x
    | some r => (x.endDelivery c d r).continueCall c d (deliveryResult r) arrived draws

/-- Whether a command may be sent on the session: `async_send_command`. -/
def commandable (x : TransportSessions) (k : Nat) : Bool :=
  x.isLive k && (x.sessions[k]?).any fun s =>
    s.fullSyncComplete && s.capabilities.contains capabilityCommands

/-- Whether the session is live and was granted a capability. -/
def grants (x : TransportSessions) (k : Nat) (capability : String) : Bool :=
  x.isLive k && (x.sessions[k]?).any fun s => s.capabilities.contains capability

/-- A message of a panel, on the session it names. -/
def onSession (x : TransportSessions) (token : String) (connection : Nat)
    (handler : Nat → PanelSession → TransportSessions) : TransportSessions :=
  match x.forRequest token connection with
  | none => x
  | some k =>
    match x.sessions[k]? with
    | none => x
    | some s => handler k s

def step (F : WireFormats) (x : TransportSessions) : TransportMove → TransportSessions
  | .hello h => x.openSession h.session
  | .close k reason => x.close k reason true
  | .closeEntry entryId reason => x.closeEntry entryId reason
  | .closeUser userId reason => x.closeUser userId reason
  | .teardown k => x.teardown k
  | .forgetEntry entryId => x.forgetEntry entryId
  | .markChanged k => x.markChanged k
  | .setRestartNotice entryId scope reason ms => x.setRestartNotice entryId scope reason ms
  | .clearRestartNotice entryId => x.clearRestartNotice entryId
  | .restartNotice token connection scope reason ms =>
    x.onSession token connection fun _ s => x.setRestartNotice s.entryId scope reason ms
  | .report token connection msg => x.onSession token connection fun k s => x.report F k s msg
  | .commandResult token connection msg =>
    x.onSession token connection fun k s =>
      (x.note (.resultReported k msg)).commandResult k s msg |>.1
  | .uiUpdate token connection msg =>
    x.onSession token connection fun k s =>
      if s.capabilities.contains capabilityUiSubscribe then
        (x.note (.updated k msg)).uiUpdate s msg
      else x
  | .sendCommand k channel value draws =>
    if x.commandable k then
      x.deliver k draws.commandId (.command channel value none) commandDeadlineMs none none
        .command
    else x
  | .manage k op args wait draws =>
    if x.grants k capabilityManagement then
      x.deliver k draws.commandId (.manage op args none) commandDeadlineMs wait.interim none
        .manage
    else x
  | .relayCommand k channel value origin deadlineMs draws =>
    if x.grants k capabilityUiBundle then
      x.deliver k draws.commandId (.command channel value (some origin)) deadlineMs
        (some .extend) none .relayCommand
    else x
  | .relayManage k op args origin deadlineMs lent draws =>
    x.uiManage k op args origin deadlineMs draws lent .relayed
  | .subscribe k connection msgId browserId args origin deadlineMs draws =>
    if x.grants k capabilityUiBundle && x.grants k capabilityUiSubscribe then
      x.subscribe k connection msgId browserId args origin deadlineMs draws
    else x
  | .panelLogs k draws =>
    if x.grants k capabilityManagement && x.grants k capabilityUiSubscribe then
      match x.sessions[k]? with
      | none => x
      | some s => x.panelLogs k s.userId draws
    else x
  | .endPanelLogs r draws => x.endPanelLogs r draws
  | .browserEnded r draws => x.browserEnded r draws
  | .fireTimer c => x.fireTimer c
  | .wake c awaited arrived draws => x.wake c awaited arrived draws
  | .tick n => { x with now := x.now + n }

/-- The table after a run from an empty one. -/
abbrev run (F : WireFormats) (moves : List TransportMove) : TransportSessions :=
  Runs.run (step F) initial moves

end TransportSessions

end PanelAssistant
