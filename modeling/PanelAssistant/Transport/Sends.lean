import PanelAssistant.Transport.Lifecycle

/-!
# Relay operations send at most one command

Seen from the table and its commands, an operation of the relay does nothing, or sends one
command on a live session under the id it drew (`Sends`).
-/

namespace PanelAssistant

open Library

namespace TransportSessions

/-- From the table's point of view, nothing happened or one command was sent. -/
inductive Sends (id : String) (x x' : TransportSessions) : Prop
  | nothing (h : x'.coreView = x.coreView)
  | one (y : TransportSessions) (k : Nat) (request : Request) (deadlineMs : Int)
      (onInterim : Option Interim) (caller : Caller) (hy : y.coreView = x.coreView)
      (hlive : y.isLive k = true)
      (h : x'.coreView =
        (y.deliver k id request deadlineMs onInterim caller.held caller).coreView)

theorem Sends.of_view {id : String} {x y x' : TransportSessions} (h : Sends id y x')
    (hview : y.coreView = x.coreView) : Sends id x x' := by
  cases h with
  | nothing h => exact .nothing (h.trans hview)
  | one z k request deadlineMs onInterim caller hy hlive h =>
    exact .one z k request deadlineMs onInterim caller (hy.trans hview) hlive h

theorem Sends.then_view {id : String} {x y x' : TransportSessions} (h : Sends id x y)
    (hview : x'.coreView = y.coreView) : Sends id x x' := by
  cases h with
  | nothing h => exact .nothing (hview.trans h)
  | one z k request deadlineMs onInterim caller hy hlive h =>
    exact .one z k request deadlineMs onInterim caller hy hlive (hview.trans h)

theorem sends_uiManage (x : TransportSessions) (k : Nat) (op : String)
    (args : List (String × Wire)) (origin : Option Origin) (deadlineMs : Int) (draws : Draws)
    (lent : List String) (purpose : Purpose) :
    Sends draws.commandId x (x.uiManage k op args origin deadlineMs draws lent purpose) := by
  unfold uiManage
  by_cases hlive : x.isLive k = true
  · rw [if_pos hlive]
    exact .one x k _ deadlineMs _ (.uiManage (draws.slot :: lent) purpose) rfl hlive rfl
  · rw [if_neg hlive]
    exact .nothing rfl

theorem sends_unsubscribe (x : TransportSessions) (r : Nat) (b : Subscription) (pending : Bool)
    (draws : Draws) : Sends draws.commandId x (x.unsubscribe r b pending draws) := by
  have hleave := coreView_relayBlind.leave x r b
  unfold unsubscribe
  generalize x.leave r b = p at hleave
  obtain ⟨y, empty⟩ := p
  dsimp only at hleave ⊢
  split
  · exact .nothing hleave
  · exact (sends_uiManage y _ _ _ _ _ _ _ _).of_view hleave

/-- An unsubscribe of a relay that was never applied sends nothing. -/
theorem coreView_unsubscribe_of_not_applied (x : TransportSessions) (r : Nat) {b : Subscription}
    (hb : b.applied = false) (draws : Draws) :
    (x.unsubscribe r b false draws).coreView = x.coreView := by
  have hleave := coreView_relayBlind.leave x r b
  unfold unsubscribe
  generalize x.leave r b = p at hleave
  obtain ⟨y, empty⟩ := p
  dsimp only at hleave ⊢
  simp only [hb, Bool.or_self, Bool.not_false, Bool.or_true, if_true]
  exact hleave

theorem follow_ended (x : TransportSessions) (r : Nat) (b : Subscription)
    (outcome : CommandOutcome) : (x.follow r b outcome).2.ended = b.ended ∧
      ((x.follow r b outcome).2.applied = decide (outcome.outcome = .applied)) ∧
      (x.follow r b outcome).2.session = b.session := by
  unfold follow
  dsimp only
  split
  · split <;> exact ⟨rfl, rfl, rfl⟩
  · exact ⟨rfl, rfl, rfl⟩

theorem foldl_note_view {β : Type} {view : TransportSessions → β} (hv : RelayBlind view) (r : Nat)
    (updates : List (List UiObservation)) (x : TransportSessions) :
    view (updates.foldl (fun x update => x.note (.toBrowser r (.update update))) x) = view x :=
  foldl_view (fun x _ => hv.note x r _) updates x

/-- The part of `answered` that speaks to a browser that still listens. -/
theorem coreView_answered_open {x : TransportSessions} {r : Nat} {b : Subscription}
    (hb : b.ended = false) (outcome : CommandOutcome) (draws : Draws) :
    (x.answered r b outcome draws).coreView = x.coreView := by
  have hfollow := coreView_relayBlind.follow x r b outcome
  have hended := (follow_ended x r b outcome).1
  unfold answered
  generalize x.follow r b outcome = p at hfollow hended
  obtain ⟨y, b'⟩ := p
  dsimp only at hfollow hended ⊢
  rw [hended, hb, if_neg (by simp)]
  split
  · rw [coreView_relayBlind.setRelay, foldl_note_view coreView_relayBlind, ← hfollow]
    exact coreView_relayBlind.note _ _ _
  · rw [coreView_relayBlind.subscriptions, coreView_relayBlind.leave,
      coreView_relayBlind.setRelay, foldl_note_view coreView_relayBlind, ← hfollow]
    exact coreView_relayBlind.note _ _ _

theorem sends_answered (x : TransportSessions) (r : Nat) (b : Subscription)
    (outcome : CommandOutcome) (draws : Draws) :
    Sends draws.commandId x (x.answered r b outcome draws) := by
  cases hb : b.ended with
  | false => exact .nothing (coreView_answered_open hb outcome draws)
  | true =>
    have hfollow := coreView_relayBlind.follow x r b outcome
    have hended := (follow_ended x r b outcome).1
    unfold answered
    generalize x.follow r b outcome = p at hfollow hended
    obtain ⟨y, b'⟩ := p
    dsimp only at hfollow hended ⊢
    rw [hended, hb, if_pos rfl]
    exact (sends_unsubscribe y r b' false draws).of_view hfollow

/-- A failed answer sends nothing, whether or not the browser still listens. -/
theorem coreView_answered_failed (x : TransportSessions) (r : Nat) (b : Subscription)
    {outcome : CommandOutcome} (ho : outcome.outcome ≠ .applied) (draws : Draws) :
    (x.answered r b outcome draws).coreView = x.coreView := by
  cases hb : b.ended with
  | false => exact coreView_answered_open hb outcome draws
  | true =>
    have hfollow := coreView_relayBlind.follow x r b outcome
    obtain ⟨hended, happlied, -⟩ := follow_ended x r b outcome
    unfold answered
    generalize x.follow r b outcome = p at hfollow hended happlied
    obtain ⟨y, b'⟩ := p
    dsimp only at hfollow hended happlied ⊢
    rw [hended, hb, if_pos rfl]
    rw [coreView_unsubscribe_of_not_applied y r (by simpa [ho] using happlied), hfollow]

theorem sends_browserEnded (x : TransportSessions) (r : Nat) (draws : Draws) :
    Sends draws.commandId x (x.browserEnded r draws) := by
  unfold browserEnded
  split
  · rename_i b _
    split
    · exact .nothing rfl
    · dsimp only
      split
      · exact (sends_unsubscribe _ r _ false draws).of_view (coreView_relayBlind.setRelay x r _)
      · exact .nothing (coreView_relayBlind.setRelay x r _)
  · exact .nothing rfl

/-- A browser that leaves before the answer sends nothing. -/
theorem coreView_browserEnded_of_held {x : TransportSessions} {r : Nat} {b : Subscription}
    (hr : x.relays[r]? = some (.browser b)) (hheld : b.held.isSome = true) (draws : Draws) :
    (x.browserEnded r draws).coreView = x.coreView := by
  have hnone : b.held.isNone = false := by
    cases hh : b.held with
    | none => simp [hh] at hheld
    | some l => rfl
  unfold browserEnded
  rw [hr]
  dsimp only
  split
  · rfl
  · rw [hnone, if_neg (by simp)]
    exact coreView_relayBlind.setRelay x r _

theorem relays_leave (x : TransportSessions) (r : Nat) (b : Subscription) :
    (x.leave r b).1.relays = x.relays := by
  unfold leave
  split
  · rfl
  · dsimp only
    split <;> rfl

theorem relays_uiManage (x : TransportSessions) (k : Nat) (op : String)
    (args : List (String × Wire)) (origin : Option Origin) (deadlineMs : Int) (draws : Draws)
    (lent : List String) (purpose : Purpose) :
    (x.uiManage k op args origin deadlineMs draws lent purpose).relays = x.relays := by
  unfold uiManage
  split <;> rfl

theorem relays_unsubscribe (x : TransportSessions) (r : Nat) (b : Subscription) (pending : Bool)
    (draws : Draws) : (x.unsubscribe r b pending draws).relays = x.relays := by
  have hleave := relays_leave x r b
  unfold unsubscribe
  generalize x.leave r b = p at hleave
  obtain ⟨y, empty⟩ := p
  dsimp only at hleave ⊢
  split
  · exact hleave
  · exact (relays_uiManage _ _ _ _ _ _ _ _ _).trans hleave

theorem sends_endSubscribe (x : TransportSessions) (r : Nat)
    (hheld : ∀ b, x.relays[r]? = some (.browser b) → b.held.isSome = true)
    (result : Except DeliveryError CommandOutcome) (draws : Draws) :
    Sends draws.commandId x (x.endSubscribe r result draws) := by
  unfold endSubscribe
  split
  · rename_i b hb
    cases result with
    | ok outcome => exact sends_answered x r b outcome draws
    | error e =>
      dsimp only
      have hr : (x.unsubscribe r b true draws).relays[r]? = some (.browser b) := by
        rw [relays_unsubscribe, hb]
      split
      · exact (sends_unsubscribe x r b true draws).then_view
          (coreView_browserEnded_of_held hr (hheld b hb) draws)
      · exact (sends_unsubscribe x r b true draws).then_view
          (coreView_answered_failed _ r b (by simp [failedOutcome]) draws)
  · exact .nothing rfl

theorem sends_subscribe (x : TransportSessions) (k connection msgId : Nat) (browserId : String)
    (args : List (String × Wire)) (origin : Origin) (deadlineMs : Int) (draws : Draws) :
    Sends draws.commandId x
      (x.subscribe k connection msgId browserId args origin deadlineMs draws) := by
  unfold subscribe
  dsimp only
  refine (sends_uiManage _ _ _ _ _ _ _ _ _).of_view ?_
  rw [coreView_relayBlind.join, coreView_relayBlind.subscriptions, coreView_relayBlind.addRelay]

theorem sends_panelLogs (x : TransportSessions) (k : Nat) (userId : String) (draws : Draws) :
    Sends draws.commandId x (x.panelLogs k userId draws) := by
  unfold panelLogs
  dsimp only
  refine (sends_uiManage _ _ _ _ _ _ _ _ _).of_view ?_
  rw [coreView_relayBlind.session _ _ _ fun _ => rfl, coreView_relayBlind.addRelay]

theorem sends_endPanelLogs (x : TransportSessions) (r : Nat) (draws : Draws) :
    Sends draws.commandId x (x.endPanelLogs r draws) := by
  unfold endPanelLogs
  split
  · split
    · exact .nothing rfl
    · dsimp only
      refine (sends_uiManage _ _ _ _ _ _ _ _ _).of_view ?_
      rw [coreView_relayBlind.session _ _ _ fun _ => rfl, coreView_relayBlind.setRelay]
  · exact .nothing rfl

/-! ## What a send keeps -/

/-- A live session is an open one. -/
theorem TableOk.open_of_live {x : TransportSessions} (h : TableOk x) {k : Nat}
    (hlive : x.isLive k = true) :
    ∃ s, x.sessions[k]? = some s ∧ s.closedAt = none ∧ x.byEntry.get? s.entryId = some k := by
  unfold isLive at hlive
  cases hk : x.sessions[k]? with
  | none => simp [hk] at hlive
  | some s =>
    simp only [hk, decide_eq_true_eq] at hlive
    obtain ⟨r, hr, -, hc⟩ := h.entry hlive
    rw [seat_of_session hk, Option.some.injEq] at hr
    subst hr
    exact ⟨s, rfl, hc, hlive⟩

theorem tableView_of_coreView {x y : TransportSessions} (h : y.coreView = x.coreView) :
    y.tableView = x.tableView := by
  have hsessions : y.sessions.map (·.core) = x.sessions.map (·.core) :=
    congrArg TransportCore.sessions h
  have hlog : y.log.filter (fun n => n.isCommand || n.isClosing) =
      x.log.filter (fun n => n.isCommand || n.isClosing) := congrArg TransportCore.log h
  have hseats : ∀ l : List PanelSession, l.map (·.seat) = (l.map (·.core)).map fun s =>
      (⟨s.entryId, s.token, s.closedAt⟩ : Seat) := by
    intro l
    rw [List.map_map]
    rfl
  have hclosing : ∀ l : List Note, l.filter Note.isClosing =
      (l.filter fun n => n.isCommand || n.isClosing).filter Note.isClosing := by
    intro l
    rw [List.filter_filter]
    refine List.filter_congr ?_
    intro n _
    cases n <;> rfl
  simp only [tableView]
  rw [hseats, hsessions, ← hseats, hclosing, hlog, ← hclosing,
    show y.byEntry = x.byEntry from congrArg TransportCore.byEntry h,
    show y.byToken = x.byToken from congrArg TransportCore.byToken h]

/-- The commands stay in order if one is sent under a new id. -/
theorem CommandsOk.sends {x x' : TransportSessions} {id : String} (h : CommandsOk x)
    (htable : TableOk x) (hfresh : ∀ (c : Nat) d, x.deliveries[c]? = some d → d.commandId ≠ id)
    (hsends : Sends id x x') : CommandsOk x' := by
  cases hsends with
  | nothing hview => exact h.of_view hview
  | one y k request deadlineMs onInterim caller hy hlive hview =>
    have hytable := htable.of_view (tableView_of_coreView hy)
    obtain ⟨s, hk, hopen, -⟩ := hytable.open_of_live hlive
    refine CommandsOk.of_view ?_ hview
    refine (h.of_view hy).deliver (core_of_session hk) hopen ?_ request deadlineMs onInterim caller
    intro c d hd
    rw [deliveries_of_view hy] at hd
    exact hfresh c d hd

theorem LateBounded.sends {x x' : TransportSessions} {id : String} (h : LateBounded x)
    (hsends : Sends id x x') : LateBounded x' := by
  cases hsends with
  | nothing hview => exact h.of_view hview
  | one y k request deadlineMs onInterim caller hy hlive hview =>
    exact ((h.of_view hy).deliver _ _ _ _ _ _ _).of_view hview

theorem TableOk.sends {x x' : TransportSessions} {id : String} (h : TableOk x)
    (hsends : Sends id x x') : TableOk x' := by
  cases hsends with
  | nothing hview => exact h.of_view (tableView_of_coreView hview)
  | one y k request deadlineMs onInterim caller hy hlive hview =>
    refine h.of_view ((tableView_of_coreView hview).trans ?_)
    rw [tableView_commandBlind.deliver, tableView_of_coreView hy]

end TransportSessions

end PanelAssistant
