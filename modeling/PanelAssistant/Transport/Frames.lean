import PanelAssistant.Transport.Program

/-!
# What each group of operations leaves alone

The operations fall into three groups: those on relays, those on commands, and those on the
table of sessions. A view of the transport that does not see what a group touches is kept by
every operation of the group. The views are the reports of the sessions (`reportView`), the
table with its commands (`coreView`), and the relays (`relayView`).
-/

namespace PanelAssistant

open Library

/-- A report of a session, its answer, or an event it fired. -/
def Note.isReport : Note → Bool
  | .reported .. => true
  | .eventFired .. => true
  | _ => false

/-- What happens to one command. -/
def Note.isCommand : Note → Bool
  | .sent .. => true
  | .resolved .. => true
  | .recorded .. => true
  | .released .. => true
  | .waitEnded .. => true
  | .resultReported .. => true
  | _ => false

def Note.isClosing : Note → Bool
  | .sessionClosed .. => true
  | _ => false

/-- The fields of a session that the table and its commands are about. -/
structure SessionCore where
  entryId : String
  token : String
  closedAt : Option Nat
  pending : Dict String Nat
  late : Dict String Nat

def PanelSession.core (s : PanelSession) : SessionCore :=
  ⟨s.entryId, s.token, s.closedAt, s.pending, s.late⟩

/-- The table of sessions with their commands. -/
structure TransportCore where
  sessions : List SessionCore
  deliveries : List Delivery
  byEntry : Dict String Nat
  byToken : Dict String Nat
  log : List Note

/-- The moves that open or close no session and report nothing. -/
def TransportMove.isQuiet : TransportMove → Bool
  | .hello _ => false
  | .close _ _ => false
  | .closeEntry _ _ => false
  | .closeUser _ _ => false
  | .teardown _ => false
  | .report _ _ _ => false
  | _ => true

namespace TransportSessions

/-- The reports of every session, and what was said about them. -/
def reportView (x : TransportSessions) : List SessionReports × List Note :=
  (x.sessions.map (·.toSessionReports), x.log.filter Note.isReport)

def coreView (x : TransportSessions) : TransportCore where
  sessions := x.sessions.map (·.core)
  deliveries := x.deliveries
  byEntry := x.byEntry
  byToken := x.byToken
  log := x.log.filter fun n => n.isCommand || n.isClosing

/-- The relays, and where each session carries them. -/
def relayView (x : TransportSessions) : List Relay × List (Option Nat × Dict String (List Nat)) :=
  (x.relays, x.sessions.map fun s => (s.closedAt, s.uiRelays))

/-! ## Blind views -/

/-- A session update that leaves everything but the commands. -/
def OnCommands (f : PanelSession → PanelSession) : Prop :=
  ∀ s, f s = { s with
    pending := (f s).pending, late := (f s).late,
    recentOutcomes := (f s).recentOutcomes, commandCounts := (f s).commandCounts }

/-- A session update that leaves everything but the relays. -/
def OnRelays (f : PanelSession → PanelSession) : Prop :=
  ∀ s, f s = { s with uiRelays := (f s).uiRelays }

structure CommandBlind {β : Type} (view : TransportSessions → β) : Prop where
  deliveries : ∀ x l, view { x with deliveries := l } = view x
  session : ∀ x k f, OnCommands f → view (x.setSession k f) = view x
  note : ∀ x n, n.isCommand = true → view (x.note n) = view x

structure RelayBlind {β : Type} (view : TransportSessions → β) : Prop where
  relays : ∀ x l, view { x with relays := l } = view x
  subscriptions : ∀ x s, view { x with subscriptions := s } = view x
  session : ∀ x k f, OnRelays f → view (x.setSession k f) = view x
  note : ∀ x r e, view (x.note (.toBrowser r e)) = view x

theorem map_modify_of_eq {α β : Type} (g : α → β) (f : α → α) (h : ∀ a, g (f a) = g a)
    (l : List α) (k : Nat) : (l.modify k f).map g = l.map g := by
  apply List.ext_getElem?
  intro i
  simp only [List.getElem?_map, List.getElem?_modify]
  by_cases hki : k = i
  · subst hki
    cases l[k]? with
    | none => rfl
    | some a => simp [h]
  · simp [hki]

theorem foldl_view {α β : Type} {v : TransportSessions → β}
    {f : TransportSessions → α → TransportSessions} (h : ∀ x a, v (f x a) = v x)
    (l : List α) (x : TransportSessions) : v (l.foldl f x) = v x := by
  induction l generalizing x with
  | nil => rfl
  | cons a rest ih => rw [List.foldl_cons, ih, h]

theorem reportView_commandBlind : CommandBlind reportView where
  deliveries _ _ := rfl
  session x k f hf := by
    have h : ∀ s, (f s).toSessionReports = s.toSessionReports := by
      intro s
      rw [hf s]
    simp only [reportView, setSession, map_modify_of_eq (·.toSessionReports) f h]
  note x n hn := by
    cases n <;> first | rfl | cases hn

theorem relayView_commandBlind : CommandBlind relayView where
  deliveries _ _ := rfl
  session x k f hf := by
    have h : ∀ s, ((f s).closedAt, (f s).uiRelays) = (s.closedAt, s.uiRelays) := by
      intro s
      rw [hf s]
    simp only [relayView, setSession, map_modify_of_eq (fun s => (s.closedAt, s.uiRelays)) f h]
  note _ _ _ := rfl

theorem reportView_relayBlind : RelayBlind reportView where
  relays _ _ := rfl
  subscriptions _ _ := rfl
  session x k f hf := by
    have h : ∀ s, (f s).toSessionReports = s.toSessionReports := by
      intro s
      rw [hf s]
    simp only [reportView, setSession, map_modify_of_eq (·.toSessionReports) f h]
  note _ _ _ := rfl

theorem coreView_relayBlind : RelayBlind coreView where
  relays _ _ := rfl
  subscriptions _ _ := rfl
  session x k f hf := by
    have h : ∀ s, (f s).core = s.core := by
      intro s
      rw [hf s]
      rfl
    simp only [coreView, setSession, map_modify_of_eq (·.core) f h]
  note _ _ _ := rfl

/-! ## Operations on commands -/

section Commands

variable {β : Type} {view : TransportSessions → β} (hv : CommandBlind view)

include hv

theorem CommandBlind.setDelivery (x : TransportSessions) (c : Nat) (f : Delivery → Delivery) :
    view (x.setDelivery c f) = view x := hv.deliveries x _

theorem CommandBlind.resolve (x : TransportSessions) (c : Nat) (r : Option CommandOutcome) :
    view (x.resolve c r) = view x := by
  unfold TransportSessions.resolve
  split
  · rfl
  · split
    · rfl
    · rw [hv.note _ _ rfl, hv.setDelivery]

theorem CommandBlind.settle (x : TransportSessions) (c : Nat) :
    view (x.settle c) = view x := by
  unfold TransportSessions.settle
  split
  · rfl
  · split
    · rfl
    · rw [hv.note _ _ rfl, hv.setDelivery]

theorem CommandBlind.count (x : TransportSessions) (k : Nat) (name : String) :
    view (x.setSession k (·.count name)) = view x := hv.session _ _ _ fun _ => rfl

theorem CommandBlind.deliver (x : TransportSessions) (k : Nat) (commandId : String)
    (request : Request) (deadlineMs : Int) (onInterim : Option Interim)
    (onSettled : Option (List String)) (caller : Caller) :
    view (x.deliver k commandId request deadlineMs onInterim onSettled caller) = view x := by
  unfold TransportSessions.deliver
  rw [hv.note _ _ rfl, hv.session _ _ _ fun _ => rfl, hv.deliveries]

theorem CommandBlind.evictLate (k n : Nat) (x : TransportSessions) :
    view (evictLate k n x) = view x := by
  induction n generalizing x with
  | zero => rfl
  | succ n ih =>
    unfold TransportSessions.evictLate
    split
    · rfl
    · split
      · rfl
      · split
        · rfl
        · rw [ih, hv.settle, hv.session _ _ _ fun _ => rfl]

theorem CommandBlind.stopWaiting (x : TransportSessions) (k : Nat) (commandId : String) :
    view (x.stopWaiting k commandId) = view x := by
  unfold TransportSessions.stopWaiting
  split
  · rfl
  · dsimp only
    split
    · rw [hv.session _ _ _ fun _ => rfl]
    · split
      · rw [hv.session _ _ _ fun _ => rfl]
      · rw [hv.evictLate, hv.session _ _ _ fun _ => rfl, hv.session _ _ _ fun _ => rfl]

theorem CommandBlind.fireTimer (x : TransportSessions) (c : Nat) :
    view (x.fireTimer c) = view x := hv.setDelivery x c _

theorem CommandBlind.releaseUnlessLate (x : TransportSessions) (c : Nat) (d : Delivery)
    (held : List String) : view (x.releaseUnlessLate c d held) = view x := by
  unfold TransportSessions.releaseUnlessLate
  split
  · rfl
  · split
    · rfl
    · rw [hv.note _ _ rfl]

theorem CommandBlind.endDelivery (x : TransportSessions) (c : Nat) (d : Delivery)
    (awaited : Except DeliveryError (Option CommandOutcome)) :
    view (x.endDelivery c d awaited) = view x := by
  have hstart : ∀ b : Bool, view (if b then x.setSession d.session (·.count "timed_out") else x) =
      view x := by
    intro b
    cases b
    · rfl
    · exact hv.count _ _ _
  unfold TransportSessions.endDelivery
  dsimp only
  split
  · rw [hv.count]
    split
    · rw [hv.stopWaiting, hv.note _ _ rfl, hv.setDelivery, hstart]
    · rw [hv.note _ _ rfl, hv.setDelivery, hstart]
  · split
    · rw [hv.stopWaiting, hv.note _ _ rfl, hv.setDelivery, hstart]
    · rw [hv.note _ _ rfl, hv.setDelivery, hstart]

theorem CommandBlind.commandResult (x : TransportSessions) (k : Nat) (s : PanelSession)
    (msg : ResultReport) : view (x.commandResult k s msg).1 = view x := by
  have hrecord : ∀ (x : TransportSessions) channel late,
      view (x.setSession k (·.record channel msg.outcome late x.now)) = view x := by
    intro x channel late
    refine hv.session _ _ _ ?_
    intro s
    cases late <;> rfl
  unfold TransportSessions.commandResult
  split
  · exact hv.count _ _ _
  · split
    · rfl
    · split
      · exact hv.count _ _ _
      · dsimp only
        split
        · unfold TransportSessions.interimAnswer
          dsimp only
          split <;> rw [hv.setDelivery, hv.note _ _ rfl, hrecord]
        · split
          · rw [hv.settle, hv.session _ _ _ fun _ => rfl, hv.note _ _ rfl, hrecord]
          · rw [hv.resolve, hv.session _ _ _ fun _ => rfl, hv.note _ _ rfl, hrecord]

theorem CommandBlind.uiManage (x : TransportSessions) (k : Nat) (op : String)
    (args : List (String × Wire)) (origin : Option Origin) (deadlineMs : Int) (draws : Draws)
    (lent : List String) (purpose : Purpose) :
    view (x.uiManage k op args origin deadlineMs draws lent purpose) = view x := by
  unfold TransportSessions.uiManage
  split
  · exact hv.deliver _ _ _ _ _ _ _ _
  · rfl

end Commands

/-! ## Operations on relays -/

section Relays

variable {β : Type} {view : TransportSessions → β} (hv : RelayBlind view)

include hv

theorem RelayBlind.setRelay (x : TransportSessions) (r : Nat) (relay : Relay) :
    view (x.setRelay r relay) = view x := hv.relays x _

theorem RelayBlind.addRelay (x : TransportSessions) (relay : Relay) :
    view (x.addRelay relay) = view x := hv.relays x _

theorem RelayBlind.sessionEnded (x : TransportSessions) (r : Nat) :
    view (x.sessionEnded r) = view x := by
  unfold TransportSessions.sessionEnded
  split
  · rfl
  · split
    · rfl
    · rw [hv.note, hv.subscriptions, hv.setRelay]
  · split
    · rfl
    · exact hv.setRelay _ _ _

theorem RelayBlind.join (x : TransportSessions) (k : Nat) (panelId : String) (r : Nat) :
    view (x.join k panelId r) = view x := hv.session _ _ _ fun _ => rfl

theorem RelayBlind.leave (x : TransportSessions) (r : Nat) (b : Subscription) :
    view (x.leave r b).1 = view x := by
  unfold TransportSessions.leave
  split
  · rfl
  · dsimp only
    split <;> exact hv.session _ _ _ fun _ => rfl

theorem RelayBlind.follow (x : TransportSessions) (r : Nat) (b : Subscription)
    (outcome : CommandOutcome) : view (x.follow r b outcome).1 = view x := by
  unfold TransportSessions.follow
  dsimp only
  split
  · split
    · exact hv.setRelay _ _ _
    · rw [hv.join, hv.setRelay, hv.leave]
  · exact hv.setRelay _ _ _

theorem RelayBlind.updateRelay (x : TransportSessions) (r : Nat)
    (observations : List UiObservation) : view (x.updateRelay r observations) = view x := by
  unfold TransportSessions.updateRelay
  split
  · rfl
  · split
    · rfl
    · split
      · exact hv.setRelay _ _ _
      · exact hv.note _ _ _
  · split
    · rfl
    · split
      · rfl
      · exact hv.setRelay _ _ _

theorem RelayBlind.uiUpdate (x : TransportSessions) (s : PanelSession) (msg : UiUpdate) :
    view (x.uiUpdate s msg) = view x :=
  foldl_view (fun x r => hv.updateRelay x r msg.observations) _ x

end Relays

/-! ## Operations on both -/

/-- A view that sees neither commands nor relays, nor what is announced about the table. -/
structure Blind {β : Type} (view : TransportSessions → β) : Prop where
  commands : CommandBlind view
  relays : RelayBlind view
  restart : ∀ x r, view { x with restart := r } = view x
  lastByEntry : ∀ x l, view { x with lastByEntry := l } = view x
  now : ∀ x n, view { x with now := n } = view x
  changed : ∀ x entryId, view (x.changed entryId) = view x
  updated : ∀ x k msg, view (x.note (.updated k msg)) = view x

theorem reportView_blind : Blind reportView :=
  ⟨reportView_commandBlind, reportView_relayBlind, fun _ _ => rfl, fun _ _ => rfl, fun _ _ => rfl,
    fun _ _ => rfl, fun _ _ _ => rfl⟩

section Both

variable {β : Type} {view : TransportSessions → β} (hv : Blind view)

include hv

theorem Blind.unsubscribe (x : TransportSessions) (r : Nat) (b : Subscription) (pending : Bool)
    (draws : Draws) : view (x.unsubscribe r b pending draws) = view x := by
  have hleave := hv.relays.leave x r b
  unfold TransportSessions.unsubscribe
  generalize x.leave r b = p at hleave
  obtain ⟨y, empty⟩ := p
  dsimp only at hleave ⊢
  split
  · exact hleave
  · rw [hv.commands.uiManage, hleave]

theorem Blind.answered (x : TransportSessions) (r : Nat) (b : Subscription)
    (outcome : CommandOutcome) (draws : Draws) : view (x.answered r b outcome draws) = view x := by
  have hfollow := hv.relays.follow x r b outcome
  have hnotes : ∀ (updates : List (List UiObservation)) (z : TransportSessions),
      view (updates.foldl (fun z update => z.note (.toBrowser r (.update update))) z) = view z :=
    fun updates z => foldl_view (fun z _ => hv.relays.note z r _) updates z
  unfold TransportSessions.answered
  generalize x.follow r b outcome = p at hfollow
  obtain ⟨y, b'⟩ := p
  dsimp only at hfollow ⊢
  split
  · rw [hv.unsubscribe, hfollow]
  · split
    · rw [hv.relays.setRelay, hnotes, hv.relays.note, hfollow]
    · rw [hv.relays.subscriptions, hv.relays.leave, hv.relays.setRelay, hnotes, hv.relays.note,
        hfollow]

theorem Blind.browserEnded (x : TransportSessions) (r : Nat) (draws : Draws) :
    view (x.browserEnded r draws) = view x := by
  unfold TransportSessions.browserEnded
  split
  · split
    · rfl
    · dsimp only
      split
      · rw [hv.unsubscribe, hv.relays.setRelay]
      · exact hv.relays.setRelay _ _ _
  · rfl

theorem Blind.endSubscribe (x : TransportSessions) (r : Nat)
    (result : Except DeliveryError CommandOutcome) (draws : Draws) :
    view (x.endSubscribe r result draws) = view x := by
  unfold TransportSessions.endSubscribe
  split
  · cases result with
    | ok outcome => exact hv.answered _ _ _ _ _
    | error e =>
      dsimp only
      split
      · rw [hv.browserEnded, hv.unsubscribe]
      · rw [hv.answered, hv.unsubscribe]
  · rfl

theorem Blind.subscribe (x : TransportSessions) (k connection msgId : Nat) (browserId : String)
    (args : List (String × Wire)) (origin : Origin) (deadlineMs : Int) (draws : Draws) :
    view (x.subscribe k connection msgId browserId args origin deadlineMs draws) = view x := by
  unfold TransportSessions.subscribe
  dsimp only
  rw [hv.commands.uiManage, hv.relays.join, hv.relays.subscriptions, hv.relays.addRelay]

theorem Blind.panelLogs (x : TransportSessions) (k : Nat) (userId : String) (draws : Draws) :
    view (x.panelLogs k userId draws) = view x := by
  unfold TransportSessions.panelLogs
  dsimp only
  rw [hv.commands.uiManage, hv.relays.session _ _ _ fun _ => rfl, hv.relays.addRelay]

theorem Blind.endPanelLogs (x : TransportSessions) (r : Nat) (draws : Draws) :
    view (x.endPanelLogs r draws) = view x := by
  unfold TransportSessions.endPanelLogs
  split
  · split
    · rfl
    · dsimp only
      rw [hv.commands.uiManage, hv.relays.session _ _ _ fun _ => rfl, hv.relays.setRelay]
  · rfl

theorem Blind.continueCall (x : TransportSessions) (c : Nat) (d : Delivery)
    (result : Except DeliveryError CommandOutcome) (arrived : Bool) (draws : Draws) :
    view (x.continueCall c d result arrived draws) = view x := by
  unfold TransportSessions.continueCall
  split
  · dsimp only
    split
    · split <;> rw [hv.endSubscribe, hv.commands.releaseUnlessLate]
    · exact hv.commands.releaseUnlessLate _ _ _ _
  · rfl

theorem Blind.wake (x : TransportSessions) (c : Nat) (awaited : Awaited) (arrived : Bool)
    (draws : Draws) : view (x.wake c awaited arrived draws) = view x := by
  unfold TransportSessions.wake
  split
  · rfl
  · split
    · rfl
    · rw [hv.continueCall, hv.commands.endDelivery]

theorem Blind.clearRestartNotice (x : TransportSessions) (entryId : String) :
    view (x.clearRestartNotice entryId) = view x := by
  unfold TransportSessions.clearRestartNotice
  split
  · rfl
  · rw [hv.changed, hv.restart]

theorem Blind.setRestartNotice (x : TransportSessions) (entryId scope reason : String)
    (ms : Nat) : view (x.setRestartNotice entryId scope reason ms) = view x := by
  unfold TransportSessions.setRestartNotice
  dsimp only
  rw [hv.changed, hv.restart]

omit hv in
theorem view_onSession {x : TransportSessions} {token : String} {connection : Nat}
    {handler : Nat → PanelSession → TransportSessions}
    (h : ∀ k s, view (handler k s) = view x) :
    view (x.onSession token connection handler) = view x := by
  unfold TransportSessions.onSession
  split
  · rfl
  · split
    · rfl
    · exact h _ _

/-- What a quiet move leaves alone. -/
theorem Blind.step (F : WireFormats) (x : TransportSessions) {m : TransportMove}
    (hm : m.isQuiet = true) : view (step F x m) = view x := by
  cases m with
  | hello h => cases hm
  | close k reason => cases hm
  | closeEntry entryId reason => cases hm
  | closeUser userId reason => cases hm
  | teardown k => cases hm
  | report token connection msg => cases hm
  | forgetEntry entryId =>
    show view ({ x with lastByEntry := x.lastByEntry.pop entryId }.clearRestartNotice entryId) = _
    rw [hv.clearRestartNotice, hv.lastByEntry]
  | markChanged k =>
    show view (x.markChanged k) = _
    unfold TransportSessions.markChanged
    split
    · rfl
    · split
      · exact hv.changed _ _
      · rfl
  | setRestartNotice entryId scope reason ms => exact hv.setRestartNotice x entryId scope reason ms
  | clearRestartNotice entryId => exact hv.clearRestartNotice x entryId
  | restartNotice token connection scope reason ms =>
    exact view_onSession fun k s => hv.setRestartNotice x s.entryId scope reason ms
  | commandResult token connection msg =>
    refine view_onSession fun k s => ?_
    rw [hv.commands.commandResult, hv.commands.note _ _ rfl]
  | uiUpdate token connection msg =>
    refine view_onSession fun k s => ?_
    split
    · rw [hv.relays.uiUpdate, hv.updated]
    · rfl
  | sendCommand k channel value draws =>
    show view (if x.commandable k then _ else x) = _
    split
    · exact hv.commands.deliver _ _ _ _ _ _ _ _
    · rfl
  | manage k op args wait draws =>
    show view (if x.grants k capabilityManagement then _ else x) = _
    split
    · exact hv.commands.deliver _ _ _ _ _ _ _ _
    · rfl
  | relayCommand k channel value origin deadlineMs draws =>
    show view (if x.grants k capabilityUiBundle then _ else x) = _
    split
    · exact hv.commands.deliver _ _ _ _ _ _ _ _
    · rfl
  | relayManage k op args origin deadlineMs lent draws =>
    exact hv.commands.uiManage x k op args origin deadlineMs draws lent _
  | subscribe k connection msgId browserId args origin deadlineMs draws =>
    show view (if x.grants k capabilityUiBundle && x.grants k capabilityUiSubscribe then _ else x) =
      _
    split
    · exact hv.subscribe _ _ _ _ _ _ _ _ _
    · rfl
  | panelLogs k draws =>
    show view (if x.grants k capabilityManagement &&
      x.grants k capabilityUiSubscribe then _ else x) =
      _
    split
    · split
      · rfl
      · exact hv.panelLogs _ _ _ _
    · rfl
  | endPanelLogs r draws => exact hv.endPanelLogs x r draws
  | browserEnded r draws => exact hv.browserEnded x r draws
  | fireTimer c => exact hv.commands.fireTimer x c
  | wake c awaited arrived draws => exact hv.wake x c awaited arrived draws
  | tick n => exact hv.now x _

end Both

/-! ## Reports -/

/-- The note of an event that a report fired. -/
def firedNotes (k : Nat) (msg : Report) (handled : Handled) : List Note :=
  match msg with
  | .event e => if handled.fired then [.eventFired k e.eventId e.channel e.eventType] else []
  | .state _ => []

/-- A report rewrites the reports of its session and adds notes, which concern no command and
close no session. -/
theorem report_eq (F : WireFormats) (x : TransportSessions) (k : Nat) (s : PanelSession)
    (msg : Report) : ∃ l : List Note,
      (∀ n ∈ l, n.isCommand = false ∧ n.isClosing = false) ∧
      l.filter Note.isReport =
        .reported k x.now msg (s.toSessionReports.handle F x.now msg).answer ::
          firedNotes k msg (s.toSessionReports.handle F x.now msg) ∧
      x.report F k s msg = { x.setSession k (fun s' => { s' with
          toSessionReports := (s.toSessionReports.handle F x.now msg).reports }) with
        log := l ++ x.log } := by
  unfold report
  generalize s.toSessionReports.handle F x.now msg = handled
  obtain ⟨l₁, hl₁, hobserved⟩ : ∃ l₁ : List Note,
      (∀ n ∈ l₁, n.isCommand = false ∧ n.isClosing = false ∧ n.isReport = false) ∧
      (if handled.accepted.isEmpty then
        x.setSession k fun s' => { s' with toSessionReports := handled.reports }
      else (x.setSession k fun s' => { s' with toSessionReports := handled.reports }).note
        (.observed k handled.accepted)) =
      { x.setSession k (fun s' => { s' with toSessionReports := handled.reports }) with
        log := l₁ ++ x.log } := by
    split
    · exact ⟨[], by simp, rfl⟩
    · exact ⟨[.observed k
        handled.accepted], by simp [Note.isCommand, Note.isClosing, Note.isReport],
        rfl⟩
  have hmark : ∀ y : TransportSessions, ∃ l₂ : List Note,
      (∀ n ∈ l₂, n.isCommand = false ∧ n.isClosing = false ∧ n.isReport = false) ∧
      (if handled.completed then y.markChanged k else y) = { y with log := l₂ ++ y.log } := by
    intro y
    split
    · unfold markChanged
      split
      · exact ⟨[], by simp, rfl⟩
      · rename_i s' _
        split
        · exact ⟨[.changed s'.entryId], by simp [Note.isCommand, Note.isClosing, Note.isReport],
            rfl⟩
        · exact ⟨[], by simp, rfl⟩
    · exact ⟨[], by simp, rfl⟩
  obtain ⟨l₂, hl₂, hmarked⟩ := hmark { x.setSession k (fun s' => { s' with
    toSessionReports := handled.reports }) with log := l₁ ++ x.log }
  have hquiet : ∀ n ∈ l₂ ++ l₁,
      n.isCommand = false ∧ n.isClosing = false ∧ n.isReport = false := by
    intro n hn
    rcases List.mem_append.mp hn with hn | hn
    · exact hl₂ n hn
    · exact hl₁ n hn
  have hnone : (l₂ ++ l₁).filter Note.isReport = [] := by
    rw [List.filter_eq_nil_iff]
    intro n hn
    simp [(hquiet n hn).2.2]
  refine ⟨.reported k x.now msg handled.answer :: (firedNotes k msg handled ++ (l₂ ++ l₁)), ?_, ?_,
    ?_⟩
  · intro n hn
    rcases List.mem_cons.mp hn with rfl | hn
    · exact ⟨rfl, rfl⟩
    · rcases List.mem_append.mp hn with hn | hn
      · cases msg with
        | state report => cases hn
        | event e =>
          simp only [firedNotes] at hn
          split at hn
          · rw [List.mem_singleton.mp hn]
            exact ⟨rfl, rfl⟩
          · cases hn
      · exact ⟨(hquiet n hn).1, (hquiet n hn).2.1⟩
  · rw [List.filter_cons_of_pos rfl, List.filter_append, hnone, List.append_nil]
    cases msg with
    | state report => rfl
    | event e =>
      simp only [firedNotes]
      split <;> rfl
  · dsimp only
    rw [hobserved, hmarked, List.cons_append, List.append_assoc, List.append_assoc]
    cases msg with
    | state report => rfl
    | event e =>
      simp only [firedNotes]
      split <;> rfl

theorem filter_append_of_none {p : Note → Bool} {l : List Note} (h : ∀ n ∈ l, p n = false)
    (log : List Note) : (l ++ log).filter p = log.filter p := by
  rw [List.filter_append, List.filter_eq_nil_iff.mpr (fun n hn => by simp [h n hn]),
    List.nil_append]

end TransportSessions

end PanelAssistant
