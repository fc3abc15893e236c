import PanelAssistant.Transport.Sends

/-!
# The relays a session carries

While a browser's subscribe waits for its answer, its relay stands in its session under the
command id, and holds what arrives. A session that closes ends every relay it carries, so a
relay that has not ended has an open session (`RelaysOk`), and a closed session carries none
(`CarriersOk`).
-/

namespace PanelAssistant

open Library

/-- What the relays see of a delivery. -/
structure Posting where
  session : Nat
  commandId : String
  caller : Caller
  finished : Bool

def Delivery.posting (d : Delivery) : Posting := ⟨d.session, d.commandId, d.caller, d.scope.isOver⟩

/-- The call is a browser's subscribe, for this relay. -/
def Posting.subscribes (p : Posting) (r : Nat) : Prop :=
  ∃ held, p.caller = .uiManage held (.subscribe r)

namespace TransportSessions

def posting (x : TransportSessions) (c : Nat) : Option Posting :=
  (x.deliveries[c]?).map (·.posting)

/-- When a session closed, and what it carries. -/
def carrier (x : TransportSessions) (k : Nat) : Option (Option Nat × Dict String (List Nat)) :=
  (x.sessions[k]?).map fun s => (s.closedAt, s.uiRelays)

/-- The relays under an id of a session. -/
def group (u : Dict String (List Nat)) (id : String) : List Nat := (u.get? id).getD []

/-- A relay whose subscribe waits: as it was made, and carried unless it ended. -/
structure Awaits (x : TransportSessions) (p : Posting) (r : Nat) (b : Subscription) : Prop where
  relay : x.relays[r]? = some (.browser b)
  session : b.session = p.session
  panelId : b.panelId = p.commandId
  applied : b.applied = false
  held : b.held.isSome = true
  carried : b.ended = false → ∃ u, x.carrier p.session = some (none, u) ∧ r ∈ group u p.commandId

structure RelaysOk (x : TransportSessions) : Prop where
  waiting : ∀ {c : Nat} {p : Posting} {r : Nat}, x.posting c = some p → p.subscribes r →
    p.finished = false → ∃ b, Awaits x p r b
  own : ∀ {c c' : Nat} {p p' : Posting} {r : Nat}, x.posting c = some p → x.posting c' = some p' →
    p.subscribes r → p'.subscribes r → c = c'
  bound : ∀ {c : Nat} {p : Posting} {r : Nat}, x.posting c = some p → p.subscribes r →
    r < x.relays.length
  logs : ∀ {r : Nat} {s : PanelLogSnapshot}, x.relays[r]? = some (.logs s) →
    ∃ c p, x.posting c = some p ∧ p.session = s.session ∧ p.commandId = s.key ∧
      ∀ r', ¬p.subscribes r'

/-- A closed session carries no relay. -/
def CarriersOk (x : TransportSessions) : Prop :=
  ∀ (k : Nat) (t : Nat) u, x.carrier k = some (some t, u) → u = ∅

/-- No subscribe waits for the relay. -/
def Settled (x : TransportSessions) (r : Nat) : Prop :=
  ∀ (c : Nat) (p : Posting), x.posting c = some p → p.subscribes r → p.finished = true

/-! ## Views -/

/-- What the relays see of the transport. -/
def carrierView (x : TransportSessions) :
    List Relay × List (Option Nat × Dict String (List Nat)) × List Posting :=
  (x.relays, x.sessions.map fun s => (s.closedAt, s.uiRelays), x.deliveries.map (·.posting))

theorem relays_of_carrierView {x x' : TransportSessions} (h : x'.carrierView = x.carrierView) :
    x'.relays = x.relays := congrArg Prod.fst h

theorem carrier_of_view {x x' : TransportSessions} (h : x'.carrierView = x.carrierView) (k : Nat) :
    x'.carrier k = x.carrier k := by
  have hs : x'.sessions.map (fun s => (s.closedAt, s.uiRelays)) =
      x.sessions.map fun s => (s.closedAt, s.uiRelays) := congrArg (·.2.1) h
  have hk := congrArg (·[k]?) hs
  simpa only [List.getElem?_map, carrier] using hk

theorem posting_of_view {x x' : TransportSessions} (h : x'.carrierView = x.carrierView) (c : Nat) :
    x'.posting c = x.posting c := by
  have hs : x'.deliveries.map (·.posting) = x.deliveries.map (·.posting) := congrArg (·.2.2) h
  have hk := congrArg (·[c]?) hs
  simpa [posting] using hk

theorem RelaysOk.of_view {x x' : TransportSessions} (h : RelaysOk x)
    (hview : x'.carrierView = x.carrierView) : RelaysOk x' := by
  have hrelays := relays_of_carrierView hview
  have hposting := posting_of_view hview
  refine ⟨?_, ?_, ?_, ?_⟩
  · intro c p r hp hr hover
    rw [hposting] at hp
    obtain ⟨b, hb⟩ := h.waiting hp hr hover
    refine ⟨b, by rw [hrelays]; exact hb.relay, hb.session, hb.panelId, hb.applied, hb.held, ?_⟩
    rw [carrier_of_view hview]
    exact hb.carried
  · intro c c' p p' r hp hp'
    rw [hposting] at hp hp'
    exact h.own hp hp'
  · intro c p r hp
    rw [hposting] at hp
    rw [hrelays]
    exact h.bound hp
  · intro r s hr
    rw [hrelays] at hr
    simp only [hposting]
    exact h.logs hr

theorem CarriersOk.of_view {x x' : TransportSessions} (h : CarriersOk x)
    (hview : x'.carrierView = x.carrierView) : CarriersOk x' := by
  intro k t u hk
  rw [carrier_of_view hview] at hk
  exact h k t u hk

theorem carrierView_setSession (x : TransportSessions) (k : Nat) (f : PanelSession → PanelSession)
    (h : ∀ s, ((f s).closedAt, (f s).uiRelays) = (s.closedAt, s.uiRelays)) :
    (x.setSession k f).carrierView = x.carrierView := by
  simp only [carrierView, setSession, map_modify_of_eq (fun s => (s.closedAt, s.uiRelays)) f h]

theorem carrierView_setDelivery (x : TransportSessions) (c : Nat) (f : Delivery → Delivery)
    (h : ∀ d, (f d).posting = d.posting) : (x.setDelivery c f).carrierView = x.carrierView := by
  simp only [carrierView, setDelivery, map_modify_of_eq (·.posting) f h]

theorem carrierView_note (x : TransportSessions) (n : Note) :
    (x.note n).carrierView = x.carrierView := rfl

theorem carrierView_resolve (x : TransportSessions) (c : Nat) (r : Option CommandOutcome) :
    (x.resolve c r).carrierView = x.carrierView := by
  unfold resolve
  split
  · rfl
  · split
    · rfl
    · rw [carrierView_note]
      exact carrierView_setDelivery x c _ fun _ => rfl

theorem carrierView_settle (x : TransportSessions) (c : Nat) :
    (x.settle c).carrierView = x.carrierView := by
  unfold settle
  split
  · rfl
  · split
    · rfl
    · rw [carrierView_note]
      exact carrierView_setDelivery x c _ fun _ => rfl

theorem carrierView_evictLate (k n : Nat) (x : TransportSessions) :
    (evictLate k n x).carrierView = x.carrierView := by
  induction n generalizing x with
  | zero => rfl
  | succ n ih =>
    unfold evictLate
    split
    · rfl
    · split
      · rfl
      · split
        · rfl
        · rw [ih, carrierView_settle]
          exact carrierView_setSession x k _ fun _ => rfl

theorem carrierView_stopWaiting (x : TransportSessions) (k : Nat) (commandId : String) :
    (x.stopWaiting k commandId).carrierView = x.carrierView := by
  unfold stopWaiting
  split
  · rfl
  · dsimp only
    split
    · exact carrierView_setSession x k _ fun _ => rfl
    · split
      · exact carrierView_setSession x k _ fun _ => rfl
      · rw [carrierView_evictLate]
        refine Eq.trans (carrierView_setSession _ k _ ?_) (carrierView_setSession x k _ ?_) <;>
          exact fun _ => rfl

theorem carrierView_fireTimer (x : TransportSessions) (c : Nat) :
    (x.fireTimer c).carrierView = x.carrierView := by
  refine carrierView_setDelivery x c _ ?_
  intro d
  obtain ⟨k, id, command, scope, caller⟩ := d
  cases scope <;> rfl

theorem carrierView_releaseCall (x : TransportSessions) (c : Nat) (d : Delivery) :
    (x.releaseCall c d).carrierView = x.carrierView := by
  unfold releaseCall
  split
  · unfold releaseUnlessLate
    split
    · rfl
    · split <;> rfl
  · rfl

theorem carrierView_commandResult (x : TransportSessions) (k : Nat) (s : PanelSession)
    (msg : ResultReport) : (x.commandResult k s msg).1.carrierView = x.carrierView := by
  have hrecord : ∀ (y : TransportSessions) channel late,
      (y.setSession k (·.record channel msg.outcome late y.now)).carrierView = y.carrierView := by
    intro y channel late
    refine carrierView_setSession y k _ ?_
    intro s
    cases late <;> rfl
  unfold commandResult
  split
  · exact carrierView_setSession x k _ fun _ => rfl
  · split
    · rfl
    · split
      · exact carrierView_setSession x k _ fun _ => rfl
      · dsimp only
        split
        · unfold interimAnswer
          dsimp only
          split
          · refine Eq.trans (carrierView_setDelivery _ _ _ ?_) (hrecord x _ _)
            exact fun _ => rfl
          · refine Eq.trans (carrierView_setDelivery _ _ _ ?_) (hrecord x _ _)
            exact fun _ => rfl
        · split
          · rw [carrierView_settle]
            refine Eq.trans (carrierView_setSession _ _ _ ?_) (hrecord x _ _)
            exact fun _ => rfl
          · rw [carrierView_resolve]
            refine Eq.trans (carrierView_setSession _ _ _ ?_) (hrecord x _ _)
            exact fun _ => rfl

/-- The end of a wait: only the posting of that call changes, and it is over. -/
theorem carrierView_endDelivery (x : TransportSessions) (c : Nat) (d : Delivery)
    (r : Except DeliveryError (Option CommandOutcome)) :
    (x.endDelivery c d r).carrierView = (x.setDelivery c (waited r)).carrierView := by
  have hcount : ∀ (y : TransportSessions) (k : Nat) (name : String),
      (y.setSession k (·.count name)).carrierView = y.carrierView :=
    fun y k name => carrierView_setSession y k _ fun _ => rfl
  have hstart : ∀ b : Bool, ((if b then x.setSession d.session (·.count "timed_out")
      else x).setDelivery c (waited r)).carrierView = (x.setDelivery c (waited r)).carrierView := by
    intro b
    cases b
    · rfl
    · exact carrierView_setSession (x.setDelivery c (waited r)) d.session (·.count "timed_out")
        fun _ => rfl
  unfold endDelivery
  dsimp only
  split
  · rw [hcount]
    split
    · rw [carrierView_stopWaiting, carrierView_note]
      exact hstart _
    · rw [carrierView_note]
      exact hstart _
  · split
    · rw [carrierView_stopWaiting, carrierView_note]
      exact hstart _
    · rw [carrierView_note]
      exact hstart _

/-! ## Postings -/

theorem posting_setDelivery (x : TransportSessions) (c : Nat) (f : Delivery → Delivery)
    (g : Posting → Posting) (hfg : ∀ d, (f d).posting = g d.posting) (c' : Nat) :
    (x.setDelivery c f).posting c' =
      if c' = c then (x.posting c').map g else x.posting c' := by
  rw [posting, deliveries_setDelivery]
  by_cases hc : c' = c
  · simp only [if_pos hc, posting, Option.map_map]
    cases x.deliveries[c']? with
    | none => rfl
    | some d => exact congrArg some (hfg d)
  · simp only [if_neg hc, posting]

/-- A call that is over frees its relay; the others wait as before. -/
theorem RelaysOk.finished {x : TransportSessions} (h : RelaysOk x) (c : Nat)
    (r : Except DeliveryError (Option CommandOutcome)) :
    RelaysOk (x.setDelivery c (waited r)) ∧
      ∀ p r', x.posting c = some p → p.subscribes r' → Settled (x.setDelivery c (waited r)) r' := by
  have hposting : ∀ c', (x.setDelivery c (waited r)).posting c' =
      if c' = c then (x.posting c').map fun p => { p with finished := true } else x.posting c' :=
    posting_setDelivery x c (waited r) (fun p => { p with finished := true }) fun _ => rfl
  have hold : ∀ {c' p}, (x.setDelivery c (waited r)).posting c' = some p →
      ∃ p', x.posting c' = some p' ∧ p.session = p'.session ∧ p.commandId = p'.commandId ∧
        p.caller = p'.caller ∧ (c' = c → p.finished = true) ∧ (p.finished = false → p' = p) := by
    intro c' p hp
    rw [hposting] at hp
    by_cases hc : c' = c
    · rw [if_pos hc] at hp
      obtain ⟨p', hp', rfl⟩ := Option.map_eq_some_iff.mp hp
      exact ⟨p', hp', rfl, rfl, rfl, fun _ => rfl, fun hover => by cases hover⟩
    · rw [if_neg hc] at hp
      exact ⟨p, hp, rfl, rfl, rfl, fun he => absurd he hc, fun _ => rfl⟩
  have hsubscribes : ∀ {p p' : Posting} {r' : Nat}, p.caller = p'.caller → p.subscribes r' →
      p'.subscribes r' := by
    rintro p p' r' hcaller ⟨held, hh⟩
    exact ⟨held, hcaller ▸ hh⟩
  refine ⟨⟨?_, ?_, ?_, ?_⟩, ?_⟩
  · intro c' p r' hp hr' hover
    obtain ⟨p', hp', -, -, -, -, hsame⟩ := hold hp
    obtain rfl := hsame hover
    obtain ⟨b, hb⟩ := h.waiting hp' hr' hover
    exact ⟨b, hb.relay, hb.session, hb.panelId, hb.applied, hb.held, hb.carried⟩
  · intro c₁ c₂ p₁ p₂ r' hp₁ hp₂ hr₁ hr₂
    obtain ⟨p₁', hp₁', -, -, hcaller₁, -⟩ := hold hp₁
    obtain ⟨p₂', hp₂', -, -, hcaller₂, -⟩ := hold hp₂
    exact h.own hp₁' hp₂' (hsubscribes hcaller₁ hr₁) (hsubscribes hcaller₂ hr₂)
  · intro c' p r' hp hr'
    obtain ⟨p', hp', -, -, hcaller, -⟩ := hold hp
    exact h.bound hp' (hsubscribes hcaller hr')
  · intro r' s hr'
    obtain ⟨c', p, hp, hk, hid, hnot⟩ := h.logs hr'
    by_cases hc : c' = c
    · refine ⟨c', { p with finished := true }, by rw [hposting, if_pos hc, hp]; rfl, hk, hid, ?_⟩
      intro r'' hs
      exact hnot r'' hs
    · exact ⟨c', p, by rw [hposting, if_neg hc, hp], hk, hid, hnot⟩
  · intro p r' hp hr' c' q hq hqr
    obtain ⟨q', hq', -, -, hcaller, hover, -⟩ := hold hq
    exact hover (h.own hq' hp (hsubscribes hcaller hqr) hr')

theorem posting_deliver (x : TransportSessions) (k : Nat) (commandId : String) (request : Request)
    (deadlineMs : Int) (onInterim : Option Interim) (onSettled : Option (List String))
    (caller : Caller) (c : Nat) :
    (x.deliver k commandId request deadlineMs onInterim onSettled caller).posting c =
      if c = x.deliveries.length then some ⟨k, commandId, caller, false⟩ else x.posting c := by
  show ((x.deliveries ++
    [⟨k, commandId, ⟨request.label, none, false, onInterim, onSettled⟩, .waiting, caller⟩])[c]?).map
    (·.posting) = _
  by_cases hc : c = x.deliveries.length
  · rw [if_pos hc, hc, List.getElem?_concat_length]
    rfl
  · rw [if_neg hc]
    rcases Nat.lt_or_ge c x.deliveries.length with hlt | hge
    · rw [List.getElem?_append_left hlt]
      rfl
    · have hgt : x.deliveries.length < c := Nat.lt_of_le_of_ne hge (Ne.symm hc)
      rw [List.getElem?_eq_none (by simp; omega), posting, List.getElem?_eq_none hge]

theorem posting_length (x : TransportSessions) : x.posting x.deliveries.length = none := by
  simp [posting]

theorem carrier_deliver (x : TransportSessions) (k : Nat) (commandId : String) (request : Request)
    (deadlineMs : Int) (onInterim : Option Interim) (onSettled : Option (List String))
    (caller : Caller) (k' : Nat) :
    (x.deliver k commandId request deadlineMs onInterim onSettled caller).carrier k' =
      x.carrier k' := by
  have hview := relayView_commandBlind.deliver x k commandId request deadlineMs onInterim
    onSettled caller
  have hsessions := congrArg Prod.snd hview
  have hk := congrArg (·[k']?) hsessions
  simpa only [relayView, List.getElem?_map, carrier] using hk

/-- Sending a command keeps the relays in order; a subscribe needs a relay that awaits it. -/
theorem RelaysOk.deliver {x : TransportSessions} (h : RelaysOk x) (k : Nat) (commandId : String)
    (request : Request) (deadlineMs : Int) (onInterim : Option Interim)
    (onSettled : Option (List String)) (caller : Caller)
    (hnew : ∀ r, Posting.subscribes ⟨k, commandId, caller, false⟩ r →
      (∃ b, Awaits x ⟨k, commandId, caller, false⟩ r b) ∧
        ∀ (c : Nat) p, x.posting c = some p → ¬p.subscribes r) :
    RelaysOk (x.deliver k commandId request deadlineMs onInterim onSettled caller) := by
  have hposting := posting_deliver x k commandId request deadlineMs onInterim onSettled caller
  have hcarrier := carrier_deliver x k commandId request deadlineMs onInterim onSettled caller
  have hrelays : (x.deliver k commandId request deadlineMs onInterim onSettled caller).relays =
      x.relays := rfl
  generalize x.deliver k commandId request deadlineMs onInterim onSettled caller = x' at *
  have hawaits : ∀ {p r b}, Awaits x p r b → Awaits x' p r b := by
    intro p r b hb
    refine ⟨by rw [hrelays]; exact hb.relay, hb.session, hb.panelId, hb.applied, hb.held, ?_⟩
    rw [hcarrier]
    exact hb.carried
  have hcases : ∀ {c p}, x'.posting c = some p →
      (c = x.deliveries.length ∧ p = ⟨k, commandId, caller, false⟩) ∨ x.posting c = some p := by
    intro c p hp
    rw [hposting] at hp
    by_cases hc : c = x.deliveries.length
    · rw [if_pos hc, Option.some.injEq] at hp
      exact Or.inl ⟨hc, hp.symm⟩
    · rw [if_neg hc] at hp
      exact Or.inr hp
  have hkeep : ∀ {c p}, x.posting c = some p → x'.posting c = some p := by
    intro c p hp
    rw [hposting, if_neg, hp]
    rintro rfl
    rw [posting_length] at hp
    cases hp
  refine ⟨?_, ?_, ?_, ?_⟩
  · intro c p r hp hr hover
    rcases hcases hp with ⟨-, rfl⟩ | hp
    · exact (hnew r hr).1.imp fun _ hb => hawaits hb
    · exact (h.waiting hp hr hover).imp fun _ hb => hawaits hb
  · intro c c' p p' r hp hp' hr hr'
    rcases hcases hp with ⟨rfl, rfl⟩ | hp <;> rcases hcases hp' with ⟨rfl, rfl⟩ | hp'
    · rfl
    · exact absurd hr' ((hnew r hr).2 _ _ hp')
    · exact absurd hr ((hnew r hr').2 _ _ hp)
    · exact h.own hp hp' hr hr'
  · intro c p r hp hr
    rw [hrelays]
    rcases hcases hp with ⟨-, rfl⟩ | hp
    · obtain ⟨b, hb⟩ := (hnew r hr).1
      exact (List.getElem?_eq_some_iff.mp hb.relay).1
    · exact h.bound hp hr
  · intro r s hr
    rw [hrelays] at hr
    obtain ⟨c, p, hp, hrest⟩ := h.logs hr
    exact ⟨c, p, hkeep hp, hrest⟩

theorem RelaysOk.uiManage {x : TransportSessions} (h : RelaysOk x) (k : Nat) (op : String)
    (args : List (String × Wire)) (origin : Option Origin) (deadlineMs : Int) (draws : Draws)
    (lent : List String) {purpose : Purpose} (hpurpose : ∀ r, purpose ≠ .subscribe r) :
    RelaysOk (x.uiManage k op args origin deadlineMs draws lent purpose) := by
  unfold TransportSessions.uiManage
  split
  · refine h.deliver _ _ _ _ _ _ _ ?_
    rintro r ⟨held, hh⟩
    cases hh
    exact absurd rfl (hpurpose r)
  · exact h

theorem CarriersOk.deliver {x : TransportSessions} (h : CarriersOk x) (k : Nat)
    (commandId : String) (request : Request) (deadlineMs : Int) (onInterim : Option Interim)
    (onSettled : Option (List String)) (caller : Caller) :
    CarriersOk (x.deliver k commandId request deadlineMs onInterim onSettled caller) := by
  intro k' t u hk
  rw [carrier_deliver] at hk
  exact h k' t u hk

theorem CarriersOk.uiManage {x : TransportSessions} (h : CarriersOk x) (k : Nat) (op : String)
    (args : List (String × Wire)) (origin : Option Origin) (deadlineMs : Int) (draws : Draws)
    (lent : List String) (purpose : Purpose) :
    CarriersOk (x.uiManage k op args origin deadlineMs draws lent purpose) := by
  unfold TransportSessions.uiManage
  split
  · exact h.deliver _ _ _ _ _ _ _
  · exact h

/-! ## Relays -/

/-- A relay that no subscribe waits for may become anything a browser's relay is. -/
theorem RelaysOk.setSettled {x : TransportSessions} (h : RelaysOk x) {r : Nat}
    (hr : Settled x r) (b : Subscription) : RelaysOk (x.setRelay r (.browser b)) := by
  have hother : ∀ {r'}, r' ≠ r →
      (x.setRelay r (.browser b)).relays[r']? = x.relays[r']? := by
    intro r' hne
    exact List.getElem?_set_ne (Ne.symm hne)
  refine ⟨?_, h.own, ?_, ?_⟩
  · intro c p r' hp hr' hover
    have hne : r' ≠ r := by
      rintro rfl
      rw [hr c p hp hr'] at hover
      cases hover
    obtain ⟨b', hb'⟩ := h.waiting hp hr' hover
    exact ⟨b', (hother hne).trans hb'.relay, hb'.session, hb'.panelId, hb'.applied, hb'.held,
      hb'.carried⟩
  · intro c p r' hp hr'
    have hlength : (x.setRelay r (.browser b)).relays.length = x.relays.length :=
      List.length_set
    rw [hlength]
    exact h.bound hp hr'
  · intro r' s hr'
    by_cases hne : r' = r
    · subst hne
      have hset : (x.setRelay r' (.browser b)).relays[r']? = (x.relays.set r' (.browser b))[r']? :=
        rfl
      rw [hset, List.getElem?_set] at hr'
      split at hr'
      · split at hr'
        · cases hr'
        · cases hr'
      · exact absurd rfl ‹_›
    · rw [hother hne] at hr'
      exact h.logs hr'

/-- A browser's relay that keeps its place may only end, and hold more. -/
theorem RelaysOk.soften {x : TransportSessions} (h : RelaysOk x) {r : Nat} {b b' : Subscription}
    (hr : x.relays[r]? = some (.browser b)) (hsession : b'.session = b.session)
    (hpanelId : b'.panelId = b.panelId) (happlied : b'.applied = b.applied)
    (hheld : b.held.isSome = true → b'.held.isSome = true)
    (hended : b'.ended = false → b.ended = false) :
    RelaysOk (x.setRelay r (.browser b')) := by
  have hlt := (List.getElem?_eq_some_iff.mp hr).1
  have hself : (x.setRelay r (.browser b')).relays[r]? = some (.browser b') :=
    List.getElem?_set_self hlt
  have hother : ∀ {r'}, r' ≠ r →
      (x.setRelay r (.browser b')).relays[r']? = x.relays[r']? := by
    intro r' hne
    exact List.getElem?_set_ne (Ne.symm hne)
  refine ⟨?_, h.own, ?_, ?_⟩
  · intro c p r' hp hr' hover
    obtain ⟨e, he⟩ := h.waiting hp hr' hover
    by_cases hne : r' = r
    · subst hne
      have heb : e = b := by
        have := he.relay
        rw [hr, Option.some.injEq, Relay.browser.injEq] at this
        exact this.symm
      subst heb
      exact ⟨b', hself, hsession.trans he.session, hpanelId.trans he.panelId,
        happlied.trans he.applied, hheld he.held, fun hn => he.carried (hended hn)⟩
    · exact ⟨e, (hother hne).trans he.relay, he.session, he.panelId, he.applied, he.held,
        he.carried⟩
  · intro c p r' hp hr'
    have hlength : (x.setRelay r (.browser b')).relays.length = x.relays.length :=
      List.length_set
    rw [hlength]
    exact h.bound hp hr'
  · intro r' s hr'
    by_cases hne : r' = r
    · subst hne
      rw [hself] at hr'
      cases hr'
    · rw [hother hne] at hr'
      exact h.logs hr'

theorem RelaysOk.setLogs {x : TransportSessions} (h : RelaysOk x) {r : Nat}
    {s s' : PanelLogSnapshot} (hr : x.relays[r]? = some (.logs s))
    (hsession : s'.session = s.session)
    (hkey : s'.key = s.key) : RelaysOk (x.setRelay r (.logs s')) := by
  have hlt := (List.getElem?_eq_some_iff.mp hr).1
  have hself : (x.setRelay r (.logs s')).relays[r]? = some (.logs s') :=
    List.getElem?_set_self hlt
  have hother : ∀ {r'}, r' ≠ r →
      (x.setRelay r (.logs s')).relays[r']? = x.relays[r']? := by
    intro r' hne
    exact List.getElem?_set_ne (Ne.symm hne)
  refine ⟨?_, h.own, ?_, ?_⟩
  · intro c p r' hp hr' hover
    obtain ⟨e, he⟩ := h.waiting hp hr' hover
    have hne : r' ≠ r := by
      rintro rfl
      have := he.relay
      rw [hr] at this
      cases this
    exact ⟨e, (hother hne).trans he.relay, he.session, he.panelId, he.applied, he.held, he.carried⟩
  · intro c p r' hp hr'
    have hlength : (x.setRelay r (.logs s')).relays.length = x.relays.length := List.length_set
    rw [hlength]
    exact h.bound hp hr'
  · intro r' s₁ hr'
    by_cases hne : r' = r
    · subst hne
      rw [hself, Option.some.injEq, Relay.logs.injEq] at hr'
      subst hr'
      rw [hsession, hkey]
      exact h.logs hr
    · rw [hother hne] at hr'
      exact h.logs hr'

theorem carrier_setRelay (x : TransportSessions) (r : Nat) (relay : Relay) (k : Nat) :
    (x.setRelay r relay).carrier k = x.carrier k := rfl

theorem CarriersOk.setRelay {x : TransportSessions} (h : CarriersOk x) (r : Nat) (relay : Relay) :
    CarriersOk (x.setRelay r relay) := h

/-! ## Groups -/

theorem carrier_setRelays (x : TransportSessions) (k : Nat)
    (g : Dict String (List Nat) → Dict String (List Nat)) (k' : Nat) :
    (x.setSession k fun s => { s with uiRelays := g s.uiRelays }).carrier k' =
      if k' = k then (x.carrier k').map fun p => (p.1, g p.2) else x.carrier k' := by
  simp only [carrier, setSession, List.getElem?_modify]
  by_cases h : k' = k
  · subst h
    cases x.sessions[k']? with
    | none => simp
    | some s => simp
  · cases x.sessions[k']? with
    | none => simp [h]
    | some s => simp [h, Ne.symm h]

/-- Changing what a session carries keeps the relays in order, if those that wait stay. -/
theorem RelaysOk.regroup {x : TransportSessions} (h : RelaysOk x) (k : Nat)
    (g : Dict String (List Nat) → Dict String (List Nat))
    (hg : ∀ (c : Nat) p r, x.posting c = some p → p.subscribes r → p.finished = false →
      p.session = k → ∀ u, r ∈ group u p.commandId → r ∈ group (g u) p.commandId) :
    RelaysOk (x.setSession k fun s => { s with uiRelays := g s.uiRelays }) := by
  refine ⟨?_, h.own, h.bound, h.logs⟩
  intro c p r hp hr hover
  obtain ⟨b, hb⟩ := h.waiting hp hr hover
  refine ⟨b, hb.relay, hb.session, hb.panelId, hb.applied, hb.held, ?_⟩
  intro hended
  obtain ⟨u, hu, hin⟩ := hb.carried hended
  rw [carrier_setRelays]
  by_cases hk : p.session = k
  · rw [if_pos hk, hu]
    exact ⟨g u, rfl, hg c p r hp hr hover hk u hin⟩
  · rw [if_neg hk]
    exact ⟨u, hu, hin⟩

theorem CarriersOk.regroup {x : TransportSessions} (h : CarriersOk x) (k : Nat)
    (g : Dict String (List Nat) → Dict String (List Nat))
    (hg : (∃ t, x.carrier k = some (some t, ∅)) → g ∅ = ∅) :
    CarriersOk (x.setSession k fun s => { s with uiRelays := g s.uiRelays }) := by
  intro k' t u hk'
  rw [carrier_setRelays] at hk'
  by_cases hkk : k' = k
  · rw [if_pos hkk, hkk] at hk'
    obtain ⟨p, hp, heq⟩ := Option.map_eq_some_iff.mp hk'
    obtain ⟨t', u'⟩ := p
    simp only [Prod.mk.injEq] at heq
    obtain ⟨rfl, rfl⟩ := heq
    have hempty := h k t u' hp
    subst hempty
    exact hg ⟨t, hp⟩
  · rw [if_neg hkk] at hk'
    exact h k' t u hk'

end TransportSessions

end PanelAssistant
