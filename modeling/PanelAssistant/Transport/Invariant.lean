import Mathlib.Data.List.Induction
import PanelAssistant.Transport.Closings

/-!
# The transport in order

`TransportOk` gathers what holds of the table, its commands and its relays after any run in
which no session token and no command id is drawn twice. The run lemma carries along which
tokens and ids were drawn so far.
-/

namespace PanelAssistant

open Library

/-- The session token a move draws. -/
def TransportMove.token? : TransportMove → Option String
  | .hello h => some h.token
  | _ => none

/-- The command id a move draws. -/
def TransportMove.commandId? : TransportMove → Option String
  | .sendCommand _ _ _ draws => some draws.commandId
  | .manage _ _ _ _ draws => some draws.commandId
  | .relayCommand _ _ _ _ _ draws => some draws.commandId
  | .relayManage _ _ _ _ _ _ draws => some draws.commandId
  | .subscribe _ _ _ _ _ _ _ draws => some draws.commandId
  | .panelLogs _ draws => some draws.commandId
  | .endPanelLogs _ draws => some draws.commandId
  | .browserEnded _ draws => some draws.commandId
  | .wake _ _ _ draws => some draws.commandId
  | _ => none

/-- No session token and no command id is drawn twice. -/
structure DistinctDraws (moves : List TransportMove) : Prop where
  tokens : (moves.filterMap (·.token?)).Nodup
  commandIds : (moves.filterMap (·.commandId?)).Nodup

namespace TransportSessions

structure TransportOk (x : TransportSessions) : Prop where
  table : TableOk x
  commands : CommandsOk x
  late : LateBounded x
  relays : RelaysOk x
  carriers : CarriersOk x

/-- Every token and every command id in use was drawn. -/
structure Drawn (tokens ids : List String) (x : TransportSessions) : Prop where
  tokens : ∀ (k : Nat) s, x.seat k = some s → s.token ∈ tokens
  ids : ∀ (c : Nat) p, x.posting c = some p → p.commandId ∈ ids

structure Traced (tokens ids : List String) (x : TransportSessions) : Prop where
  ok : TransportOk x
  drawn : Drawn tokens ids x

section Traced

variable {x y x' : TransportSessions} {tokens ids : List String}

theorem Drawn.mono (h : Drawn tokens ids x) (tokens' ids' : List String) :
    Drawn (tokens ++ tokens') (ids ++ ids') x where
  tokens k s hs := List.mem_append_left _ (h.tokens k s hs)
  ids c p hp := List.mem_append_left _ (h.ids c p hp)

theorem Traced.mono (h : Traced tokens ids x) (tokens' ids' : List String) :
    Traced (tokens ++ tokens') (ids ++ ids') x := ⟨h.ok, h.drawn.mono tokens' ids'⟩

theorem Drawn.of_views (h : Drawn tokens ids x)
    (hseats : ∀ (k : Nat) s, x'.seat k = some s → ∃ s', x.seat k = some s' ∧ s'.token = s.token)
    (hpostings : ∀ c : Nat, (x'.posting c).map (·.commandId) = (x.posting c).map (·.commandId)) :
    Drawn tokens ids x' where
  tokens k s hs := by
    obtain ⟨s', hs', ht⟩ := hseats k s hs
    exact ht ▸ h.tokens k s' hs'
  ids c p hp := by
    have hc := hpostings c
    rw [hp, Option.map_some] at hc
    obtain ⟨p', hp', heq⟩ := Option.map_eq_some_iff.mp hc.symm
    exact heq ▸ h.ids c p' hp'

theorem seats_of_tableView (h : x'.tableView = x.tableView) (k : Nat) (s : Seat)
    (hs : x'.seat k = some s) : ∃ s', x.seat k = some s' ∧ s'.token = s.token :=
  ⟨s, (seat_of_view h k).symm.trans hs, rfl⟩

theorem postings_of_carrierView (h : x'.carrierView = x.carrierView) (c : Nat) :
    (x'.posting c).map (·.commandId) = (x.posting c).map (·.commandId) := by
  rw [posting_of_view h]

theorem posting_of_coreView (h : x'.coreView = x.coreView) (c : Nat) :
    x'.posting c = x.posting c := by
  rw [posting, posting, deliveries_of_view h]

/-- A step that nothing here sees. -/
theorem Traced.quiet (h : Traced tokens ids x) (hcore : x'.coreView = x.coreView)
    (hcarrier : x'.carrierView = x.carrierView) : Traced tokens ids x' where
  ok := ⟨h.ok.table.of_view (tableView_of_coreView hcore), h.ok.commands.of_view hcore,
    h.ok.late.of_view hcore, h.ok.relays.of_view hcarrier, h.ok.carriers.of_view hcarrier⟩
  drawn := h.drawn.of_views (seats_of_tableView (tableView_of_coreView hcore))
    (postings_of_carrierView hcarrier)

/-- A step of the relays that sends at most one command. -/
theorem Traced.sends (h : Traced tokens ids x) {id : String} (hfresh : id ∉ ids)
    (hsends : Sends id x x') (hrelays : RelaysOk x') (hcarriers : CarriersOk x') :
    Traced tokens (ids ++ [id]) x' := by
  have hids : ∀ (c : Nat) d, x.deliveries[c]? = some d → d.commandId ≠ id := by
    intro c d hd heq
    refine hfresh ?_
    have hin := h.drawn.ids c d.posting (by rw [posting, hd]; rfl)
    exact heq ▸ hin
  refine ⟨⟨h.ok.table.sends hsends, h.ok.commands.sends h.ok.table hids hsends,
    h.ok.late.sends hsends, hrelays, hcarriers⟩, ?_, ?_⟩
  · intro k s hs
    refine h.drawn.tokens k s ?_
    cases hsends with
    | nothing hview => rw [← seat_of_view (tableView_of_coreView hview), hs]
    | one z k' request deadlineMs onInterim caller hz _ hview =>
      have htable : x'.tableView = x.tableView := by
        rw [tableView_of_coreView hview, tableView_commandBlind.deliver, tableView_of_coreView hz]
      rw [← seat_of_view htable, hs]
  · intro c p hp
    cases hsends with
    | nothing hview =>
      rw [posting_of_coreView hview] at hp
      exact List.mem_append_left _ (h.drawn.ids c p hp)
    | one z k' request deadlineMs onInterim caller hz _ hview =>
      rw [posting_of_coreView hview, posting_deliver] at hp
      split at hp
      · cases hp
        exact List.mem_append_right _ (List.mem_singleton_self id)
      · rw [posting_of_coreView hz] at hp
        exact List.mem_append_left _ (h.drawn.ids c p hp)

/-! ## Closing and opening -/

theorem posting_forget (x : TransportSessions) (k c : Nat) :
    (x.forget k).1.posting c = x.posting c := by
  by_cases hlive : ∃ s, x.sessions[k]? = some s ∧ x.byEntry.get? s.entryId = some k
  · obtain ⟨s, hk, hs⟩ := hlive
    rw [posting_of_view (carrierView_forget hk hs)]
    exact congrArg (fun l : List Delivery => (l[c]?).map (·.posting)) (deliveries_endAll _ x)
  · rw [forget_of_stale fun s hk hs => hlive ⟨s, hk, hs⟩]

theorem posting_close (x : TransportSessions) (k : Nat) (reason : String) (announce : Bool)
    (c : Nat) : (x.close k reason announce).posting c = x.posting c := by
  rcases close_eq x k reason announce with ⟨s, -, -, heq⟩ | ⟨-, heq⟩
  · rw [heq, posting_of_view (carrierView_sayClosed _ _ _ _ _), posting_forget]
  · rw [heq]

theorem Traced.close (h : Traced tokens ids x) (k : Nat) (reason : String) (announce : Bool) :
    Traced tokens ids (x.close k reason announce) where
  ok := ⟨h.ok.table.close k reason announce, h.ok.commands.close k reason announce,
    h.ok.late.close k reason announce, h.ok.relays.close k reason announce,
    h.ok.carriers.close k reason announce⟩
  drawn := h.drawn.of_views (fun _ _ hs => token_close x k reason announce hs)
    fun c => congrArg _ (posting_close x k reason announce c)

theorem token_forget (x : TransportSessions) (k : Nat) {k' : Nat} {s : Seat}
    (hs : (x.forget k).1.seat k' = some s) : ∃ s', x.seat k' = some s' ∧ s'.token = s.token := by
  rcases close_eq x k "" false with ⟨r, -, -, heq⟩ | ⟨hstale, -⟩
  · refine token_close x k "" false ?_
    rw [heq, seat_of_view (tableView_sayClosed _ _ _ _ _)]
    exact hs
  · rw [forget_of_stale hstale] at hs
    exact ⟨s, hs, rfl⟩

theorem Traced.forget (h : Traced tokens ids x) (k : Nat) : Traced tokens ids (x.forget k).1 where
  ok := ⟨h.ok.table.forget k, h.ok.commands.forget k, h.ok.late.forget k, h.ok.relays.forget k,
    h.ok.carriers.forget k⟩
  drawn := h.drawn.of_views (fun _ _ hs => token_forget x k hs)
    fun c => congrArg _ (posting_forget x k c)

theorem teardown_eq (x : TransportSessions) (k : Nat) :
    (∃ s, x.sessions[k]? = some s ∧ x.byEntry.get? s.entryId = some k ∧
      x.teardown k = (x.forget k).1.changed s.entryId) ∨
    ((∀ s, x.sessions[k]? = some s → x.byEntry.get? s.entryId ≠ some k) ∧ x.teardown k = x) := by
  by_cases hlive : ∃ s, x.sessions[k]? = some s ∧ x.byEntry.get? s.entryId = some k
  · obtain ⟨s, hk, hs⟩ := hlive
    refine Or.inl ⟨s, hk, hs, ?_⟩
    have htrue := (forget_of_live hk hs).1
    unfold teardown
    rw [hk]
    generalize x.forget k = p at htrue
    obtain ⟨z, b⟩ := p
    simp only at htrue
    subst htrue
    rfl
  · have hstale : ∀ s, x.sessions[k]? = some s → x.byEntry.get? s.entryId ≠ some k :=
      fun s hk hs => hlive ⟨s, hk, hs⟩
    refine Or.inr ⟨hstale, ?_⟩
    unfold teardown
    rw [forget_of_stale hstale]
    split
    · rename_i heq
      cases heq
    · rfl

theorem Traced.teardown (h : Traced tokens ids x) (k : Nat) :
    Traced tokens ids (x.teardown k) := by
  rcases teardown_eq x k with ⟨s, -, -, heq⟩ | ⟨-, heq⟩
  · rw [heq]
    exact (h.forget k).quiet rfl rfl
  · rw [heq]
    exact h

theorem Traced.closeUser (h : Traced tokens ids x) (userId reason : String) :
    Traced tokens ids (x.closeUser userId reason) := by
  unfold TransportSessions.closeUser
  dsimp only
  generalize x.byEntry.values.filter _ = own
  induction own generalizing x with
  | nil => exact h
  | cons k rest ih => exact ih (h.close k reason true)

theorem Traced.clearRestartNotice (h : Traced tokens ids x) (entryId : String) :
    Traced tokens ids (x.clearRestartNotice entryId) :=
  h.quiet (coreView_clearRestartNotice x entryId) (carrierView_clearRestartNotice x entryId)

theorem Traced.hello (h : Traced tokens ids x) (hello : Hello) (hfresh : hello.token ∉ tokens) :
    Traced (tokens ++ [hello.token]) ids (x.openSession hello.session) := by
  have hnew : ∀ (k : Nat) s', x.seat k = some s' → s'.token ≠ hello.session.token := by
    intro k s' hs' heq
    have hin := h.drawn.tokens k s' hs'
    rw [heq] at hin
    exact hfresh hin
  refine ⟨⟨h.ok.table.openSession rfl hnew, h.ok.commands.openSession rfl rfl,
    h.ok.late.openSession rfl, h.ok.relays.openSession _, h.ok.carriers.openSession rfl⟩, ?_, ?_⟩
  · intro k s hs
    rw [openSession_eq, seat_of_view (tableView_changed _ _), seat_enlist] at hs
    split at hs
    · cases hs
      exact List.mem_append_right _ (List.mem_singleton_self _)
    · obtain ⟨s', hs', ht⟩ := (h.ok.table.supersede hello.session.entryId).2.2 k s hs
      exact List.mem_append_left _ (ht ▸ h.drawn.tokens k s' hs')
  · intro c p hp
    refine h.drawn.ids c p ?_
    have hopen : (x.openSession hello.session).posting c = x.posting c := by
      rw [openSession_eq]
      show (x.supersede hello.session.entryId).posting c = x.posting c
      unfold supersede
      rw [posting_of_view (carrierView_clearRestartNotice _ _)]
      split
      · rfl
      · exact posting_close _ _ _ _ _
    rw [← hopen, hp]

/-! ## Commands -/

theorem Traced.fireTimer (h : Traced tokens ids x) (c : Nat) :
    Traced tokens ids (x.fireTimer c) where
  ok := ⟨h.ok.table.of_view (tableView_commandBlind.fireTimer x c), h.ok.commands.fireTimer c,
    fun k s hs => h.ok.late k s ((core_fireTimer x c k).symm.trans hs),
    h.ok.relays.of_view (carrierView_fireTimer x c),
    h.ok.carriers.of_view (carrierView_fireTimer x c)⟩
  drawn := h.drawn.of_views (seats_of_tableView (tableView_commandBlind.fireTimer x c))
    (postings_of_carrierView (carrierView_fireTimer x c))

theorem Traced.commandResult (h : Traced tokens ids x) {k : Nat} {s : PanelSession}
    (hk : x.sessions[k]? = some s) (hopen : s.closedAt = none) (msg : ResultReport) :
    Traced tokens ids ((x.note (.resultReported k msg)).commandResult k s msg).1 := by
  have htable : ((x.note (.resultReported k msg)).commandResult k s msg).1.tableView =
      x.tableView := by
    rw [tableView_commandBlind.commandResult, tableView_commandBlind.note _ _ rfl]
  have hcarrier : ((x.note (.resultReported k msg)).commandResult k s msg).1.carrierView =
      x.carrierView := by
    rw [carrierView_commandResult, carrierView_note]
  have hlate : LateBounded (x.note (.resultReported k msg)) := h.ok.late
  exact ⟨⟨h.ok.table.of_view htable, h.ok.commands.commandResult hk hopen msg,
    hlate.commandResult k s msg, h.ok.relays.of_view hcarrier, h.ok.carriers.of_view hcarrier⟩,
    h.drawn.of_views (seats_of_tableView htable) (postings_of_carrierView hcarrier)⟩

/-! ## Waking -/

theorem tableView_releaseCall (x : TransportSessions) (c : Nat) (d : Delivery) :
    (x.releaseCall c d).tableView = x.tableView := by
  unfold releaseCall
  split
  · exact tableView_commandBlind.releaseUnlessLate _ _ _ _
  · rfl

/-- From the await of a call to its release. -/
theorem Traced.endDelivery (h : Traced tokens ids x) {c : Nat} {d : Delivery}
    (hd : x.deliveries[c]? = some d) {a : Awaited}
    {r : Except DeliveryError (Option CommandOutcome)} (hr : awaitFuture d a = some r) :
    Traced tokens ids ((x.endDelivery c d r).releaseCall c d) := by
  have htable : ((x.endDelivery c d r).releaseCall c d).tableView = x.tableView := by
    rw [tableView_releaseCall, tableView_commandBlind.endDelivery]
  have hcarrier : ((x.endDelivery c d r).releaseCall c d).carrierView =
      (x.setDelivery c (waited r)).carrierView := by
    rw [carrierView_releaseCall, carrierView_endDelivery]
  have hcommands := h.ok.commands.endDelivery h.ok.late hd hr
  have hcarriers : CarriersOk (x.setDelivery c (waited r)) := h.ok.carriers
  refine ⟨⟨h.ok.table.of_view htable, hcommands.1, hcommands.2,
    (h.ok.relays.finished c r).1.of_view hcarrier, hcarriers.of_view hcarrier⟩, ?_⟩
  refine h.drawn.of_views (seats_of_tableView htable) ?_
  intro c'
  rw [posting_of_view hcarrier, posting_setDelivery x c (waited r)
    (fun p => { p with finished := true }) (fun _ => rfl)]
  split
  · rw [Option.map_map]
    rfl
  · rfl

/-- The relay of a subscribe whose wait ended: its browser listens only on an open session. -/
theorem RelaysOk.afterWait (h : RelaysOk x) {c : Nat} {d : Delivery}
    (hd : x.deliveries[c]? = some d) {a : Awaited}
    {r : Except DeliveryError (Option CommandOutcome)} (hr : awaitFuture d a = some r)
    {held : List String} {relay : Nat} (hcaller : d.caller = .uiManage held (.subscribe relay)) :
    Settled ((x.endDelivery c d r).releaseCall c d) relay ∧
      ∀ b, ((x.endDelivery c d r).releaseCall c d).relays[relay]? = some (.browser b) →
        b.held.isSome = true ∧ (b.ended = false →
          NotClosed ((x.endDelivery c d r).releaseCall c d) b.session) := by
  have hcarrier : ((x.endDelivery c d r).releaseCall c d).carrierView =
      (x.setDelivery c (waited r)).carrierView := by
    rw [carrierView_releaseCall, carrierView_endDelivery]
  have hposting : x.posting c = some d.posting := by
    rw [posting, hd]
    rfl
  have hsubscribes : d.posting.subscribes relay := ⟨held, hcaller⟩
  refine ⟨((h.finished c r).2 _ relay hposting hsubscribes).of_view hcarrier, ?_⟩
  intro b hb
  rw [relays_of_carrierView hcarrier] at hb
  obtain ⟨b', hb'⟩ := h.waiting hposting hsubscribes (awaitFuture_eq_some hr).1
  have hbb : b' = b := by
    have hrelay : x.relays[relay]? = some (.browser b) := hb
    rw [hb'.relay, Option.some.injEq, Relay.browser.injEq] at hrelay
    exact hrelay
  subst hbb
  refine ⟨hb'.held, ?_⟩
  intro hlistens t u hk
  obtain ⟨u', hu', -⟩ := hb'.carried hlistens
  rw [carrier_of_view hcarrier, hb'.session] at hk
  have hsame : (x.setDelivery c (waited r)).carrier d.posting.session =
      x.carrier d.posting.session := rfl
  rw [hsame, hu'] at hk
  cases hk

theorem Traced.endSubscribe (h : Traced tokens ids x) {relay : Nat} (hsettled : Settled x relay)
    (hb : ∀ b, x.relays[relay]? = some (.browser b) →
      b.held.isSome = true ∧ (b.ended = false → NotClosed x b.session))
    (result : Except DeliveryError CommandOutcome) {draws : Draws}
    (hfresh : draws.commandId ∉ ids) :
    Traced tokens (ids ++ [draws.commandId]) (x.endSubscribe relay result draws) :=
  h.sends hfresh (sends_endSubscribe x relay (fun b hr => (hb b hr).1) result draws)
    (h.ok.relays.endSubscribe hsettled result draws)
    (h.ok.carriers.endSubscribe (fun b hr => (hb b hr).2) result draws)

theorem continueCall_eq (x : TransportSessions) (c : Nat) (d : Delivery)
    (result : Except DeliveryError CommandOutcome) (arrived : Bool) (draws : Draws) :
    x.continueCall c d result arrived draws = x.releaseCall c d ∨
      ∃ held relay result', d.caller = .uiManage held (.subscribe relay) ∧
        x.continueCall c d result arrived draws =
          (x.releaseCall c d).endSubscribe relay result' draws := by
  unfold continueCall releaseCall
  cases hcaller : d.caller with
  | uiManage held purpose =>
    dsimp only
    cases purpose with
    | subscribe relay =>
      refine Or.inr ⟨held, relay, ?_⟩
      cases result with
      | ok outcome => exact ⟨.ok (readAnswer outcome arrived), rfl, rfl⟩
      | error e => exact ⟨.error e, rfl, rfl⟩
    | _ => exact Or.inl rfl
  | _ => exact Or.inl rfl

theorem Traced.wake (h : Traced tokens ids x) (c : Nat) (awaited : Awaited) (arrived : Bool)
    {draws : Draws} (hfresh : draws.commandId ∉ ids) :
    Traced tokens (ids ++ [draws.commandId]) (x.wake c awaited arrived draws) := by
  have hsame : ∀ {z}, Traced tokens ids z → Traced tokens (ids ++ [draws.commandId]) z := by
    intro z hz
    simpa using hz.mono [] [draws.commandId]
  unfold TransportSessions.wake
  cases hd : x.deliveries[c]? with
  | none => exact hsame h
  | some d =>
    dsimp only
    cases hr : awaitFuture d awaited with
    | none => exact hsame h
    | some r =>
      dsimp only
      have hended := h.endDelivery hd hr
      rcases continueCall_eq (x.endDelivery c d r) c d (deliveryResult r) arrived draws with
        heq | ⟨held, relay, result, hcaller, heq⟩
      · rw [heq]
        exact hsame hended
      · rw [heq]
        obtain ⟨hsettled, hb⟩ := h.ok.relays.afterWait hd hr hcaller
        exact hended.endSubscribe hsettled hb result hfresh

/-! ## Reports and updates -/

theorem Traced.report (h : Traced tokens ids x) (F : WireFormats) (k : Nat) (s : PanelSession)
    (msg : Report) : Traced tokens ids (x.report F k s msg) := by
  obtain ⟨l, hl, -, heq⟩ := report_eq F x k s msg
  have hlog : (l ++ x.log).filter (fun n => n.isCommand || n.isClosing) =
      x.log.filter fun n => n.isCommand || n.isClosing := by
    refine filter_append_of_none ?_ x.log
    intro n hn
    rw [(hl n hn).1, (hl n hn).2]
    rfl
  have hset := coreView_setSession_of_eq x k (fun s' => { s' with
    toSessionReports := (s.toSessionReports.handle F x.now msg).reports }) (fun _ => rfl)
  rw [heq]
  refine h.quiet ?_ (carrierView_setSession x k _ fun _ => rfl)
  simp only [coreView, hlog] at hset ⊢
  exact hset

theorem Traced.uiUpdate (h : Traced tokens ids x) (s : PanelSession) (msg : UiUpdate) :
    Traced tokens ids (x.uiUpdate s msg) := by
  unfold TransportSessions.uiUpdate
  generalize (s.uiRelays.get? msg.subscription).getD [] = relays
  induction relays generalizing x with
  | nil => exact h
  | cons r rest ih =>
    refine ih ?_
    have hcore := coreView_relayBlind.updateRelay x r msg.observations
    refine ⟨⟨h.ok.table.of_view (tableView_of_coreView hcore), h.ok.commands.of_view hcore,
      h.ok.late.of_view hcore, h.ok.relays.updateRelay r _, h.ok.carriers.updateRelay r _⟩, ?_⟩
    refine h.drawn.of_views (seats_of_tableView (tableView_of_coreView hcore)) ?_
    intro c
    rw [posting_of_coreView hcore]

/-! ## Steps and runs -/

theorem session_of_request {token : String} {connection k : Nat}
    (hk : x.forRequest token connection = some k) : x.byToken.get? token = some k := by
  unfold forRequest at hk
  obtain ⟨k', hk', hrest⟩ := Option.bind_eq_some_iff.mp hk
  obtain ⟨s, -, hs⟩ := Option.bind_eq_some_iff.mp hrest
  split at hs
  · cases hs
    exact hk'
  · cases hs

/-- A message of a panel is handled on an open session, or dropped. -/
theorem Traced.onSession (h : Traced tokens ids x) (token : String) (connection : Nat)
    {handler : Nat → PanelSession → TransportSessions}
    (hhandler : ∀ (k : Nat) s, x.sessions[k]? = some s → s.closedAt = none →
      Traced tokens ids (handler k s)) :
    Traced tokens ids (x.onSession token connection handler) := by
  unfold TransportSessions.onSession
  split
  · exact h
  · rename_i k hk
    split
    · exact h
    · rename_i s hs
      obtain ⟨seat, hseat, -, hopen⟩ := h.ok.table.token (session_of_request hk)
      rw [seat_of_session hs, Option.some.injEq] at hseat
      subst hseat
      exact hhandler k s hs hopen

theorem grants_live {k : Nat} {capability : String} (h : x.grants k capability = true) :
    x.isLive k = true := by
  unfold grants at h
  exact (Bool.and_eq_true_iff.mp h).1

theorem sends_deliver (k : Nat) {draws : Draws} (request : Request) (deadlineMs : Int)
    (onInterim : Option Interim) {caller : Caller} (hcaller : caller.held = none)
    (hlive : x.isLive k = true) : Sends draws.commandId x
      (x.deliver k draws.commandId request deadlineMs onInterim none caller) := by
  refine .one x k request deadlineMs onInterim caller rfl hlive ?_
  rw [hcaller]

/-- A command whose caller is no relay. -/
theorem Traced.deliver (h : Traced tokens ids x) {k : Nat} (hlive : x.isLive k = true)
    {draws : Draws} (hfresh : draws.commandId ∉ ids) (request : Request) (deadlineMs : Int)
    (onInterim : Option Interim) {caller : Caller} (hcaller : caller.held = none) :
    Traced tokens (ids ++ [draws.commandId])
      (x.deliver k draws.commandId request deadlineMs onInterim none caller) := by
  refine h.sends hfresh (sends_deliver k request deadlineMs onInterim hcaller hlive) ?_
    (h.ok.carriers.deliver _ _ _ _ _ _ _)
  refine h.ok.relays.deliver _ _ _ _ _ _ _ ?_
  rintro r ⟨held, hh⟩
  have hheld := congrArg Caller.held hh
  rw [hcaller] at hheld
  cases hheld

theorem Traced.afterStep (F : WireFormats) (h : Traced tokens ids x) (m : TransportMove)
    (htoken : ∀ token, m.token? = some token → token ∉ tokens)
    (hid : ∀ id, m.commandId? = some id → id ∉ ids) :
    Traced (tokens ++ m.token?.toList) (ids ++ m.commandId?.toList) (step F x m) := by
  have hsame : ∀ {z}, Traced tokens ids z →
      Traced (tokens ++ []) (ids ++ []) z := by
    intro z hz
    simpa using hz
  have hmissed : ∀ id, Traced (tokens ++ []) (ids ++ [id]) x := fun id => h.mono [] [id]
  have hsent : ∀ {id z}, Traced tokens (ids ++ [id]) z → Traced (tokens ++ []) (ids ++ [id]) z := by
    intro id z hz
    simpa using hz
  cases m with
  | hello hello =>
    show Traced (tokens ++ [hello.token]) (ids ++ []) (x.openSession hello.session)
    rw [List.append_nil]
    exact h.hello hello (htoken _ rfl)
  | close k reason => exact hsame (h.close k reason true)
  | closeEntry entryId reason =>
    refine hsame ?_
    show Traced tokens ids (x.closeEntry entryId reason)
    unfold TransportSessions.closeEntry
    split
    · exact h
    · exact h.close _ _ _
  | closeUser userId reason => exact hsame (h.closeUser userId reason)
  | teardown k => exact hsame (h.teardown k)
  | forgetEntry entryId =>
    refine hsame ?_
    show Traced tokens ids
      ({ x with lastByEntry := x.lastByEntry.pop entryId }.clearRestartNotice entryId)
    refine Traced.clearRestartNotice ?_ entryId
    exact h.quiet rfl rfl
  | markChanged k =>
    refine hsame ?_
    show Traced tokens ids (x.markChanged k)
    unfold TransportSessions.markChanged
    split
    · exact h
    · split
      · exact h.quiet rfl rfl
      · exact h
  | setRestartNotice entryId scope reason ms => exact hsame (h.quiet rfl rfl)
  | clearRestartNotice entryId => exact hsame (h.clearRestartNotice entryId)
  | restartNotice token connection scope reason ms =>
    exact hsame (h.onSession token connection fun _ _ _ _ => h.quiet rfl rfl)
  | report token connection msg =>
    exact hsame (h.onSession token connection fun k s _ _ => h.report F k s msg)
  | commandResult token connection msg =>
    exact hsame (h.onSession token connection fun k s hk hopen => h.commandResult hk hopen msg)
  | uiUpdate token connection msg =>
    refine hsame (h.onSession token connection ?_)
    intro k s _ _
    have hnoted : Traced tokens ids (x.note (.updated k msg)) := h.quiet rfl rfl
    split
    · exact hnoted.uiUpdate s msg
    · exact h
  | sendCommand k channel value draws =>
    by_cases hlive : x.commandable k = true
    · have hl := (Bool.and_eq_true_iff.mp hlive).1
      refine hsent ?_
      show Traced _ _ (if x.commandable k then _ else x)
      rw [if_pos hlive]
      exact h.deliver hl (hid _ rfl) _ _ _ rfl
    · show Traced _ _ (if x.commandable k then _ else x)
      rw [if_neg hlive]
      exact hmissed _
  | manage k op args wait draws =>
    by_cases hlive : x.grants k capabilityManagement = true
    · refine hsent ?_
      show Traced _ _ (if x.grants k capabilityManagement then _ else x)
      rw [if_pos hlive]
      exact h.deliver (grants_live hlive) (hid _ rfl) _ _ _ rfl
    · show Traced _ _ (if x.grants k capabilityManagement then _ else x)
      rw [if_neg hlive]
      exact hmissed _
  | relayCommand k channel value origin deadlineMs draws =>
    by_cases hlive : x.grants k capabilityUiBundle = true
    · refine hsent ?_
      show Traced _ _ (if x.grants k capabilityUiBundle then _ else x)
      rw [if_pos hlive]
      exact h.deliver (grants_live hlive) (hid _ rfl) _ _ _ rfl
    · show Traced _ _ (if x.grants k capabilityUiBundle then _ else x)
      rw [if_neg hlive]
      exact hmissed _
  | relayManage k op args origin deadlineMs lent draws =>
    exact hsent (h.sends (hid _ rfl) (sends_uiManage x k op args origin deadlineMs draws lent _)
      (h.ok.relays.uiManage _ _ _ _ _ _ _ (fun _ hp => by cases hp))
      (h.ok.carriers.uiManage _ _ _ _ _ _ _ _))
  | subscribe k connection msgId browserId args origin deadlineMs draws =>
    by_cases hgrants : (x.grants k capabilityUiBundle && x.grants k capabilityUiSubscribe) = true
    · have hlive := grants_live (Bool.and_eq_true_iff.mp hgrants).1
      refine hsent ?_
      show Traced _ _ (if x.grants k capabilityUiBundle && x.grants k capabilityUiSubscribe then _
        else x)
      rw [if_pos hgrants]
      exact h.sends (hid _ rfl) (sends_subscribe _ _ _ _ _ _ _ _ _)
        (h.ok.relays.subscribe h.ok.table hlive _ _ _ _ _ _ _)
        (h.ok.carriers.subscribe (h.ok.table.notClosed_of_live hlive) _ _ _ _ _ _ _)
    · show Traced _ _ (if x.grants k capabilityUiBundle && x.grants k capabilityUiSubscribe then _
        else x)
      rw [if_neg hgrants]
      exact hmissed _
  | panelLogs k draws =>
    by_cases hgrants : (x.grants k capabilityManagement && x.grants k capabilityUiSubscribe) = true
    · have hlive := grants_live (Bool.and_eq_true_iff.mp hgrants).1
      obtain ⟨s, hs, -, -⟩ := h.ok.table.open_of_live hlive
      refine hsent ?_
      show Traced _ _ (if x.grants k capabilityManagement && x.grants k capabilityUiSubscribe then _
        else x)
      rw [if_pos hgrants, hs]
      refine h.sends (hid _ rfl) (sends_panelLogs _ _ _ _) (h.ok.relays.panelLogs hlive _ _ ?_)
        (h.ok.carriers.panelLogs (h.ok.table.notClosed_of_live hlive) _ _)
      intro c p hp heq
      exact hid _ rfl (heq ▸ h.drawn.ids c p hp)
    · show Traced _ _ (if x.grants k capabilityManagement && x.grants k capabilityUiSubscribe then
        _ else x)
      rw [if_neg hgrants]
      exact hmissed _
  | endPanelLogs r draws =>
    refine hsent (h.sends (hid _ rfl) (sends_endPanelLogs x r draws)
      (h.ok.relays.endPanelLogs r draws ?_) (h.ok.carriers.endPanelLogs r draws))
    intro c c' p p' hp hp' hk hcommand
    obtain ⟨d, hd, rfl⟩ := Option.map_eq_some_iff.mp hp
    obtain ⟨d', hd', rfl⟩ := Option.map_eq_some_iff.mp hp'
    exact h.ok.commands.fresh hd hd' hk hcommand
  | browserEnded r draws =>
    exact hsent (h.sends (hid _ rfl) (sends_browserEnded x r draws)
      (h.ok.relays.browserEnded r draws) (h.ok.carriers.browserEnded r draws))
  | fireTimer c => exact hsame (h.fireTimer c)
  | wake c awaited arrived draws => exact hsent (h.wake c awaited arrived (hid _ rfl))
  | tick n => exact hsame (h.quiet rfl rfl)

end Traced

theorem traced_initial : Traced [] [] initial := by
  refine ⟨⟨⟨?_, ?_, ?_, ?_, ?_⟩, ⟨?_, ?_, ?_, ?_, ?_, ?_⟩, ?_, ⟨?_, ?_, ?_, ?_⟩, ?_⟩, ?_, ?_⟩
  case refine_12 => exact fun _ _ hs => by simp [core, initial] at hs
  case refine_17 => exact fun _ _ _ hk => by simp [carrier, initial] at hk
  all_goals
    intros
    simp_all [initial, seat, core, posting, closings, tally, tallyOf]

/-- A draw that is distinct from the earlier ones is none of them. -/
theorem not_mem_of_nodup_append {α : Type} {l : List α} {o : Option α}
    (h : (l ++ o.toList).Nodup) (a : α) (ha : o = some a) : a ∉ l := by
  subst ha
  intro hin
  exact (List.nodup_append.mp h).2.2 a hin a (List.mem_singleton_self a) rfl

theorem filterMap_concat {α β : Type} (f : α → Option β) (l : List α) (a : α) :
    (l ++ [a]).filterMap f = l.filterMap f ++ (f a).toList := by
  rw [List.filterMap_append]
  cases h : f a <;> simp [h]

/-- The run lemma: the transport is in order after any run whose draws are distinct. -/
theorem traced_run (F : WireFormats) {moves : List TransportMove} (h : DistinctDraws moves) :
    Traced (moves.filterMap (·.token?)) (moves.filterMap (·.commandId?)) (run F moves) := by
  induction moves using List.reverseRecOn with
  | nil => exact traced_initial
  | append_singleton moves m ih =>
    obtain ⟨htokens, hids⟩ := h
    rw [filterMap_concat] at htokens hids ⊢
    rw [filterMap_concat]
    have hrun := ih ⟨htokens.of_append_left, hids.of_append_left⟩
    have hstep :=
      hrun.afterStep F m (not_mem_of_nodup_append htokens) (not_mem_of_nodup_append hids)
    rw [run, Runs.run_concat]
    exact hstep

theorem transportOk_run (F : WireFormats) {moves : List TransportMove} (h : DistinctDraws moves) :
    TransportOk (run F moves) := (traced_run F h).ok

end TransportSessions

end PanelAssistant
