import PanelAssistant.Transport.Delivery

/-!
# The sidebar's relay

`ui_relay.async_manage`, the browser subscriptions relayed to panel subscriptions, and the
panel-log snapshot of the diagnostics. Background tasks start eagerly: an unsubscribe is
sent in the step that asks for it.
-/

namespace PanelAssistant

open Library

def opSubscribe : String := "subscribe"

def opUnsubscribe : String := "unsubscribe"

/-- A failed outcome as the relay makes it up itself. -/
def failedOutcome : CommandOutcome := ⟨.failed, some "failed", none, none, none⟩

/-- The panel's id of the subscription an answer names. -/
def CommandOutcome.subscription (o : CommandOutcome) : Option String :=
  match o.result with
  | some (.obj fields) => (Wire.get fields "subscription").str?
  | _ => none

/-- Whether an answer says that it moved its bytes as a blob. -/
def CommandOutcome.movesBlob (o : CommandOutcome) : Bool :=
  match o.result with
  | some (.obj fields) =>
    match Wire.get fields "blob" with
    | .obj _ => true
    | _ => false
  | _ => false

/-- The answer of `async_manage`: one that moved a blob fails where the bytes did not come. -/
def readAnswer (o : CommandOutcome) (arrived : Bool) : CommandOutcome :=
  if o.movesBlob && !arrived then failedOutcome else o

/-- The backlog an update carries: the value of its first logs observation. -/
def backlogOf (observations : List UiObservation) : Option (Option (List Wire)) :=
  (observations.find? (·.channel == "logs")).map fun o =>
    match o.known, o.value with
    | true, some (.arr lines) => some lines
    | _, _ => none

namespace TransportSessions

/-- `async_manage` up to its await; the session must still be its entry's. -/
def uiManage (x : TransportSessions) (k : Nat) (op : String) (args : List (String × Wire))
    (origin : Option Origin) (deadlineMs : Int) (draws : Draws) (lent : List String)
    (purpose : Purpose) : TransportSessions :=
  if x.isLive k then
    let held := draws.slot :: lent
    x.deliver k draws.commandId (.manage op (args ++ [("blob_token", .str draws.slot)]) origin)
      deadlineMs (origin.map fun _ => .extend) (some held) (.uiManage held purpose)
  else x

/-- The `release` in the `finally` of `async_manage`: not while the command is kept. -/
def releaseUnlessLate (x : TransportSessions) (c : Nat) (d : Delivery) (held : List String) :
    TransportSessions :=
  match x.sessions[d.session]? with
  | none => x
  | some s => if s.late.contains d.commandId then x else x.note (.released c held)

/-! ## Subscriptions -/

def addRelay (x : TransportSessions) (relay : Relay) : TransportSessions :=
  { x with relays := x.relays ++ [relay] }

/-- `setdefault(panel_id, []).append(self)` -/
def join (x : TransportSessions) (k : Nat) (panelId : String) (r : Nat) : TransportSessions :=
  x.setSession k fun s =>
    { s with uiRelays := s.uiRelays.set panelId ((s.uiRelays.get? panelId).getD [] ++ [r]) }

/-- `_leave`: whether no relay is left on the panel subscription. -/
def leave (x : TransportSessions) (r : Nat) (b : Subscription) : TransportSessions × Bool :=
  match x.sessions[b.session]? with
  | none => (x, true)
  | some s =>
    let group := ((s.uiRelays.get? b.panelId).getD []).erase r
    if group.isEmpty then
      (x.setSession b.session fun s => { s with uiRelays := s.uiRelays.pop b.panelId }, true)
    else
      (x.setSession b.session fun s => { s with uiRelays := s.uiRelays.set b.panelId group },
        false)

/-- `_unsubscribe` -/
def unsubscribe (x : TransportSessions) (r : Nat) (b : Subscription) (pending : Bool)
    (draws : Draws) : TransportSessions :=
  match x.leave r b with
  | (x, empty) =>
    if !empty || !(b.applied || pending) then x
    else
      x.uiManage b.session opUnsubscribe [("subscription", .str b.panelId)] (some b.origin)
        10000 draws [] .unsubscribe

/-- Where `answered` puts the relay: under the id the panel shares, if it names another. -/
def follow (x : TransportSessions) (r : Nat) (b : Subscription) (outcome : CommandOutcome) :
    TransportSessions × Subscription :=
  let b := { b with applied := outcome.outcome = ReportedOutcome.applied }
  match b.applied, outcome.subscription with
  | true, some panelId =>
    if panelId = b.panelId then (x.setRelay r (.browser b), b)
    else
      let x := (x.leave r b).1
      let b := { b with panelId }
      ((x.setRelay r (.browser b)).join b.session panelId r, b)
  | _, _ => (x.setRelay r (.browser b), b)

/-- The answer as the browser reads it: under the browser's own subscription id. -/
def browserAnswer (b : Subscription) (outcome : CommandOutcome) : CommandOutcome :=
  if b.applied then
    { outcome with result := some (.obj [("subscription", .str b.browserId)]) }
  else outcome

/-- `answered` -/
def answered (x : TransportSessions) (r : Nat) (b : Subscription) (outcome : CommandOutcome)
    (draws : Draws) : TransportSessions :=
  match x.follow r b outcome with
  | (x, b) =>
    if b.ended then x.unsubscribe r b false draws
    else
      let x := x.note (.toBrowser r (.answer (browserAnswer b outcome)))
      let x := (b.held.getD []).foldl (fun x update => x.note (.toBrowser r (.update update))) x
      let b := { b with held := none }
      if b.applied then x.setRelay r (.browser b)
      else
        let b := { b with ended := true }
        let x := ((x.setRelay r (.browser b)).leave r b).1
        { x with subscriptions := x.subscriptions.pop (b.connection, b.msgId) }

/-- `update` of a relay. -/
def updateRelay (x : TransportSessions) (r : Nat) (observations : List UiObservation) :
    TransportSessions :=
  match x.relays[r]? with
  | none => x
  | some (.browser b) =>
    if b.ended then x
    else
      match b.held with
      | some held => x.setRelay r (.browser { b with held := some (held ++ [observations]) })
      | none => x.note (.toBrowser r (.update observations))
  | some (.logs s) =>
    if s.backlog.isSome then x
    else
      match backlogOf observations with
      | none => x
      | some backlog => x.setRelay r (.logs { s with backlog := some backlog })

/-- `browser_ended` -/
def browserEnded (x : TransportSessions) (r : Nat) (draws : Draws) : TransportSessions :=
  match x.relays[r]? with
  | some (.browser b) =>
    if b.ended then x
    else
      let b' := { b with ended := true }
      let x := x.setRelay r (.browser b')
      if b.held.isNone then x.unsubscribe r b' false draws else x
  | _ => x

/-- `_async_subscribe` up to its await. -/
def subscribe (x : TransportSessions) (k connection msgId : Nat) (browserId : String)
    (args : List (String × Wire)) (origin : Origin) (deadlineMs : Int) (draws : Draws) :
    TransportSessions :=
  let r := x.relays.length
  let b : Subscription :=
    ⟨connection, msgId, browserId, k, origin, draws.commandId, false, false, some []⟩
  let x := x.addRelay (.browser b)
  let x := { x with subscriptions := x.subscriptions.set (connection, msgId) (.browserEnded r) }
  let x := x.join k draws.commandId r
  x.uiManage k opSubscribe args (some origin) deadlineMs draws [] (.subscribe r)

/-- `_async_subscribe` from its await on. -/
def endSubscribe (x : TransportSessions) (r : Nat)
    (result : Except DeliveryError CommandOutcome) (draws : Draws) : TransportSessions :=
  match x.relays[r]? with
  | some (.browser b) =>
    match result with
    | .ok outcome => x.answered r b outcome draws
    | .error e =>
      -- The command id is the native handle, even when its answer misses the bounded wait.
      let x := x.unsubscribe r b true draws
      if e = .cancelled then x.browserEnded r draws else x.answered r b failedOutcome draws
  | _ => x

/-! ## The panel-log snapshot -/

/-- `_async_panel_logs` up to its await. -/
def panelLogs (x : TransportSessions) (k : Nat) (userId : String) (draws : Draws) :
    TransportSessions :=
  let r := x.relays.length
  let origin : Origin := ⟨userId, draws.commandId⟩
  let x := x.addRelay (.logs ⟨k, origin, draws.commandId, none, false⟩)
  let x := x.setSession k fun s => { s with uiRelays := s.uiRelays.set draws.commandId [r] }
  x.uiManage k opSubscribe [("family", .str "logs"), ("source", .str "app")] (some origin) 10000
    draws [] (.panelLogs r)

/-- The `finally` of `_async_panel_logs` up to its await. -/
def endPanelLogs (x : TransportSessions) (r : Nat) (draws : Draws) : TransportSessions :=
  match x.relays[r]? with
  | some (.logs s) =>
    if s.finished then x
    else
      let x := x.setRelay r (.logs { s with finished := true })
      let x := x.setSession s.session fun p => { p with uiRelays := p.uiRelays.pop s.key }
      x.uiManage s.session opUnsubscribe [("subscription", .str s.key)] (some s.origin) 10000
        draws [] .unsubscribe
  | _ => x

/-! ## Updates -/

/-- `ws_ui_update` on a known session that granted subscriptions. -/
def uiUpdate (x : TransportSessions) (s : PanelSession) (msg : UiUpdate) : TransportSessions :=
  ((s.uiRelays.get? msg.subscription).getD []).foldl
    (fun x r => x.updateRelay r msg.observations) x

end TransportSessions

end PanelAssistant
