import PanelAssistant.Transport.Sessions

/-!
# Commands on a session

`async_deliver` up to its await and from its await on, and `command_result`. A delivery is
one call; the command it made is in `pending` while the call waits, in `late` when the wait
ended first, and in neither once it was answered or given up.
-/

namespace PanelAssistant

open Library

/-- The random tokens one call draws: a command id, and the id of an upload slot. -/
structure Draws where
  commandId : String
  slot : String
  deriving DecidableEq

/-- How a waiting call is woken. -/
inductive Awaited where
  | resumed
  | expired
  | cancelled
  deriving DecidableEq

/-- `count` -/
def PanelSession.count (s : PanelSession) (name : String) : PanelSession :=
  { s with commandCounts := s.commandCounts.set name ((s.commandCounts.get? name).getD 0 + 1) }

/-- The name an outcome is counted under. -/
def ReportedOutcome.name : ReportedOutcome → String
  | .applied => "applied"
  | .superseded => "superseded"
  | .pendingApproval => "pending_approval"
  | .refused => "refused"
  | .failed => "failed"

/-- `_record_outcome` on the session. -/
def PanelSession.record (s : PanelSession) (channel : String) (o : CommandOutcome) (late : Bool)
    (now : Nat) : PanelSession :=
  let s := s.count o.outcome.name
  let s := if late then s.count "late" else s
  let outcome : RecentOutcome := ⟨channel, o.outcome, o.code, late, now⟩
  let outcomes := s.recentOutcomes ++ [outcome]
  { s with recentOutcomes := outcomes.drop (outcomes.length - maxRecentOutcomes) }

namespace TransportSessions

/-- `async_deliver` up to its await. -/
def deliver (x : TransportSessions) (k : Nat) (commandId : String) (request : Request)
    (deadlineMs : Int) (onInterim : Option Interim) (onSettled : Option (List String))
    (caller : Caller) : TransportSessions :=
  let c := x.deliveries.length
  let command : PendingCommand := ⟨request.label, none, false, onInterim, onSettled⟩
  let d : Delivery := ⟨k, commandId, command, .waiting, caller⟩
  let x := { x with deliveries := x.deliveries ++ [d] }
  let x := x.setSession k fun s =>
    { s with pending := s.pending.set commandId c }.count "sent"
  x.note (.sent k c commandId request (min deadlineMs maxCommandDeadlineMs))

/-- The loop of `_stop_waiting`: forget and settle the oldest while there are too many. -/
def evictLate (k : Nat) : Nat → TransportSessions → TransportSessions
  | 0, x => x
  | n + 1, x =>
    match x.sessions[k]? with
    | none => x
    | some s =>
      if s.late.size ≤ maxLateCommands then x
      else
        match s.late.entries with
        | [] => x
        | (id, c) :: _ =>
          evictLate k n ((x.setSession k fun s => { s with late := s.late.pop id }).settle c)

/-- `_stop_waiting` -/
def stopWaiting (x : TransportSessions) (k : Nat) (commandId : String) : TransportSessions :=
  match x.sessions[k]? with
  | none => x
  | some s =>
    let x := x.setSession k fun s => { s with pending := s.pending.pop commandId }
    match s.pending.get? commandId with
    | none => x
    | some c =>
      if s.closedAt.isSome then x
      else
        let x := x.setSession k fun s => { s with late := s.late.set commandId c }
        evictLate k (s.late.size + 1) x

/-- What the wait comes to before the `finally`: the future's result, or the error raised;
`none` where the call cannot be woken so. -/
def awaitFuture (d : Delivery) : Awaited → Option (Except DeliveryError (Option CommandOutcome))
  | .resumed =>
    match d.scope with
    | .finished _ => none
    | _ => d.command.future.map .ok
  | .expired =>
    match d.scope, d.command.future with
    | .expiring, some result => some (.ok result)
    | .expiring, none =>
      some (.error (if d.command.approvalPending then .approvalPending else .panelUnavailable))
    | _, _ => none
  | .cancelled =>
    match d.scope with
    | .finished _ => none
    | _ => some (.error .cancelled)

/-- The result of the call; a session that ended first counts as unavailable. -/
def deliveryResult : Except DeliveryError (Option CommandOutcome) →
    Except DeliveryError CommandOutcome
  | .error e => .error e
  | .ok none => .error .panelUnavailable
  | .ok (some outcome) => .ok outcome

/-- `async_deliver` from its await to its end. -/
def endDelivery (x : TransportSessions) (c : Nat) (d : Delivery)
    (awaited : Except DeliveryError (Option CommandOutcome)) : TransportSessions :=
  let timedOut := match awaited with
    | .error .cancelled => false
    | .error _ => true
    | .ok _ => false
  let x := if timedOut then x.setSession d.session (·.count "timed_out") else x
  let x := x.setDelivery c fun d =>
    { d with
      command := { d.command with onInterim := none }
      scope := .finished (deliveryResult awaited) }
  let x := x.note (.waitEnded c)
  let x := if d.command.future.isNone then x.stopWaiting d.session d.commandId else x
  match awaited with
  | .ok none => x.setSession d.session (·.count "session_ended")
  | _ => x

/-- The timer of a wait fires. -/
def fireTimer (x : TransportSessions) (c : Nat) : TransportSessions :=
  x.setDelivery c fun d =>
    match d.scope with
    | .waiting => { d with scope := .expiring }
    | _ => d

/-! ## Results -/

/-- The command a result is for, and whether its wait is over. -/
def answeredCommand (s : PanelSession) (commandId : String) : Option (Nat × Bool) :=
  match s.pending.get? commandId with
  | some c => some (c, false)
  | none => (s.late.get? commandId).map (·, true)

/-- An interim answer of a command; an extension of a wait whose timeout already fired
raises, after the answer was recorded. -/
def interimAnswer (x : TransportSessions) (c : Nat) (d : Delivery) : TransportSessions × Answer :=
  let x := x.setDelivery c fun d =>
    { d with command := { d.command with approvalPending := true } }
  match d.command.onInterim, d.scope with
  | some _, .expiring => (x, .raised)
  | _, _ => (x, .result)

/-- `ws_command_result` on a known session. -/
def commandResult (x : TransportSessions) (k : Nat) (s : PanelSession) (msg : ResultReport) :
    TransportSessions × Answer :=
  match answeredCommand s msg.commandId with
  | none => (x.setSession k (·.count "ignored"), .result)
  | some (c, late) =>
    match x.deliveries[c]? with
    | none => (x, .result)
    | some d =>
      if msg.outcome.outcome = .pendingApproval ∧ d.command.approvalPending then
        (x.setSession k (·.count "ignored"), .result)
      else
        let x := x.setSession k (·.record d.command.channel msg.outcome late x.now)
        let x := x.note (.recorded c msg.outcome.outcome late)
        if msg.outcome.outcome = .pendingApproval then x.interimAnswer c d
        else if late then
          let x := x.setSession k fun s => { s with late := s.late.pop msg.commandId }
          (x.settle c, .result)
        else
          let x := x.setSession k fun s => { s with pending := s.pending.pop msg.commandId }
          (x.resolve c (some msg.outcome), .result)

end TransportSessions

end PanelAssistant
