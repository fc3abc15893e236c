import PanelAssistant.Transport.Carriers

/-!
# Relays that come and go

A session carries its relays in groups, one for each panel subscription. Each operation of a
relay moves one relay between groups, sends one command, or ends relays; a relay that a
subscribe still waits for stays where it was made, and a closed session stays empty.
-/

namespace PanelAssistant

open Library

namespace TransportSessions

/-! ## Entering and leaving a group -/

def enterGroup (u : Dict String (List Nat)) (id : String) (r : Nat) : Dict String (List Nat) :=
  u.set id (group u id ++ [r])

def leaveGroup (u : Dict String (List Nat)) (id : String) (r : Nat) : Dict String (List Nat) :=
  if ((group u id).erase r).isEmpty then u.pop id else u.set id ((group u id).erase r)

theorem group_set (u : Dict String (List Nat)) (id : String) (l : List Nat) (id' : String) :
    group (u.set id l) id' = if id' = id then l else group u id' := by
  unfold group
  rw [Dict.get?_set]
  split <;> rfl

theorem group_pop (u : Dict String (List Nat)) (id id' : String) :
    group (u.pop id) id' = if id' = id then [] else group u id' := by
  unfold group
  rw [Dict.get?_pop]
  split <;> rfl

theorem group_enterGroup (u : Dict String (List Nat)) (id : String) (r : Nat) (id' : String) :
    group (enterGroup u id r) id' = if id' = id then group u id ++ [r] else group u id' :=
  group_set u id _ id'

theorem group_leaveGroup (u : Dict String (List Nat)) (id : String) (r : Nat) (id' : String) :
    group (leaveGroup u id r) id' = if id' = id then (group u id).erase r else group u id' := by
  unfold leaveGroup
  split
  · rename_i hempty
    rw [group_pop, List.isEmpty_iff.mp hempty]
  · exact group_set u id _ id'

theorem mem_enterGroup {u : Dict String (List Nat)} {id id' : String} {r r' : Nat}
    (h : r' ∈ group u id') : r' ∈ group (enterGroup u id r) id' := by
  rw [group_enterGroup]
  by_cases hid : id' = id
  · subst hid
    rw [if_pos rfl]
    exact List.mem_append_left _ h
  · rw [if_neg hid]
    exact h

theorem mem_enterGroup_self (u : Dict String (List Nat)) (id : String) (r : Nat) :
    r ∈ group (enterGroup u id r) id := by
  rw [group_enterGroup, if_pos rfl]
  exact List.mem_append_right _ (List.mem_singleton_self r)

theorem mem_leaveGroup {u : Dict String (List Nat)} {id id' : String} {r r' : Nat} (hne : r' ≠ r)
    (h : r' ∈ group u id') : r' ∈ group (leaveGroup u id r) id' := by
  rw [group_leaveGroup]
  by_cases hid : id' = id
  · subst hid
    rw [if_pos rfl]
    exact (List.mem_erase_of_ne hne).mpr h
  · rw [if_neg hid]
    exact h

theorem leaveGroup_empty (id : String) (r : Nat) : leaveGroup ∅ id r = ∅ := by
  rfl

theorem leaveGroup_enterGroup_empty (id : String) (r : Nat) :
    leaveGroup (enterGroup ∅ id r) id r = ∅ := by
  have hgroup : group (enterGroup ∅ id r) id = [r] := by
    rw [group_enterGroup, if_pos rfl]
    rfl
  unfold leaveGroup
  rw [hgroup, List.erase_cons_head, List.isEmpty_nil, if_pos rfl]
  apply Dict.eq_empty_of_get?
  intro id'
  simp [enterGroup]

theorem setSession_congr {x : TransportSessions} {k : Nat} {f g : PanelSession → PanelSession}
    (h : ∀ s, x.sessions[k]? = some s → f s = g s) : x.setSession k f = x.setSession k g := by
  have hsessions : x.sessions.modify k f = x.sessions.modify k g := by
    apply List.ext_getElem?
    intro i
    simp only [List.getElem?_modify]
    by_cases hk : k = i
    · subst hk
      cases hs : x.sessions[k]? with
      | none => rfl
      | some s => simp [h s hs]
    · simp [hk]
  simp only [setSession, hsessions]

theorem setSession_of_none {x : TransportSessions} {k : Nat} (h : x.sessions[k]? = none)
    (f : PanelSession → PanelSession) : x.setSession k f = x := by
  have hlength : x.sessions.length ≤ k := List.getElem?_eq_none_iff.mp h
  simp only [setSession, List.modify_eq_self hlength]

theorem leave_eq (x : TransportSessions) (r : Nat) (b : Subscription) :
    (x.leave r b).1 =
      x.setSession b.session fun s => { s with uiRelays := leaveGroup s.uiRelays b.panelId r } := by
  unfold leave
  cases hs : x.sessions[b.session]? with
  | none => exact (setSession_of_none hs _).symm
  | some s =>
    dsimp only
    split
    · rename_i hempty
      refine setSession_congr ?_
      intro s' hs'
      rw [hs, Option.some.injEq] at hs'
      subst hs'
      rw [leaveGroup, group, if_pos hempty]
    · rename_i hempty
      refine setSession_congr ?_
      intro s' hs'
      rw [hs, Option.some.injEq] at hs'
      subst hs'
      rw [leaveGroup, group, if_neg hempty]

theorem carrier_leave (x : TransportSessions) (r : Nat) (b : Subscription) (k : Nat) :
    (x.leave r b).1.carrier k = if k = b.session then
      (x.carrier k).map fun p => (p.1, leaveGroup p.2 b.panelId r) else x.carrier k := by
  rw [leave_eq]
  exact carrier_setRelays x b.session (fun u => leaveGroup u b.panelId r) k

theorem carrier_join (x : TransportSessions) (k : Nat) (panelId : String) (r k' : Nat) :
    (x.join k panelId r).carrier k' = if k' = k then
      (x.carrier k').map fun p => (p.1, enterGroup p.2 panelId r) else x.carrier k' :=
  carrier_setRelays x k (fun u => enterGroup u panelId r) k'

theorem RelaysOk.join {x : TransportSessions} (h : RelaysOk x) (k : Nat) (panelId : String)
    (r : Nat) : RelaysOk (x.join k panelId r) :=
  h.regroup k (fun u => enterGroup u panelId r) fun _ _ _ _ _ _ _ _ hin => mem_enterGroup hin

theorem RelaysOk.leave {x : TransportSessions} (h : RelaysOk x) {r : Nat} (hr : Settled x r)
    (b : Subscription) : RelaysOk (x.leave r b).1 := by
  rw [leave_eq]
  refine h.regroup b.session (fun u => leaveGroup u b.panelId r) ?_
  intro c p r' hp hr' hover _ u hin
  have hne : r' ≠ r := by
    rintro rfl
    rw [hr c p hp hr'] at hover
    cases hover
  exact mem_leaveGroup hne hin

theorem CarriersOk.leave {x : TransportSessions} (h : CarriersOk x) (r : Nat) (b : Subscription) :
    CarriersOk (x.leave r b).1 := by
  rw [leave_eq]
  exact h.regroup b.session (fun u => leaveGroup u b.panelId r) fun _ => leaveGroup_empty _ _

/-- The session is not a closed one. -/
def NotClosed (x : TransportSessions) (k : Nat) : Prop :=
  ∀ (t : Nat) u, x.carrier k ≠ some (some t, u)

theorem CarriersOk.join {x : TransportSessions} (h : CarriersOk x) {k : Nat}
    (hopen : NotClosed x k) (panelId : String) (r : Nat) : CarriersOk (x.join k panelId r) := by
  refine h.regroup k (fun u => enterGroup u panelId r) ?_
  rintro ⟨t, ht⟩
  exact absurd ht (hopen t ∅)

/-! ## Settled relays -/

theorem posting_leave (x : TransportSessions) (r : Nat) (b : Subscription) (c : Nat) :
    (x.leave r b).1.posting c = x.posting c := by
  rw [leave_eq]
  rfl

theorem Settled.leave {x : TransportSessions} {r : Nat} (h : Settled x r) (r' : Nat)
    (b : Subscription) : Settled (x.leave r' b).1 r := by
  intro c p hp
  rw [posting_leave] at hp
  exact h c p hp

theorem Settled.uiManage {x : TransportSessions} {r : Nat} (h : Settled x r) (k : Nat) (op : String)
    (args : List (String × Wire)) (origin : Option Origin) (deadlineMs : Int) (draws : Draws)
    (lent : List String) {purpose : Purpose} (hpurpose : purpose ≠ .subscribe r) :
    Settled (x.uiManage k op args origin deadlineMs draws lent purpose) r := by
  unfold TransportSessions.uiManage
  split
  · intro c p hp hr
    rw [posting_deliver] at hp
    split at hp
    · cases hp
      obtain ⟨held, hh⟩ := hr
      cases hh
      exact absurd rfl hpurpose
    · exact h c p hp hr
  · exact h

theorem Settled.unsubscribe {x : TransportSessions} {r : Nat} (h : Settled x r) (r' : Nat)
    (b : Subscription) (pending : Bool) (draws : Draws) :
    Settled (x.unsubscribe r' b pending draws) r := by
  have hleave := h.leave r' b
  unfold TransportSessions.unsubscribe
  generalize x.leave r' b = p at hleave
  obtain ⟨y, empty⟩ := p
  dsimp only at hleave ⊢
  split
  · exact hleave
  · exact hleave.uiManage _ _ _ _ _ _ _ (fun h => nomatch h)

/-! ## Unsubscribing -/

theorem RelaysOk.unsubscribe {x : TransportSessions} (h : RelaysOk x) {r : Nat} (hr : Settled x r)
    (b : Subscription) (pending : Bool) (draws : Draws) :
    RelaysOk (x.unsubscribe r b pending draws) := by
  have hleave := h.leave hr b
  unfold TransportSessions.unsubscribe
  generalize x.leave r b = p at hleave
  obtain ⟨y, empty⟩ := p
  dsimp only at hleave ⊢
  split
  · exact hleave
  · exact hleave.uiManage _ _ _ _ _ _ _ (fun _ h => nomatch h)

theorem CarriersOk.unsubscribe {x : TransportSessions} {r : Nat} {b : Subscription}
    (h : CarriersOk (x.leave r b).1) (pending : Bool) (draws : Draws) :
    CarriersOk (x.unsubscribe r b pending draws) := by
  unfold TransportSessions.unsubscribe
  generalize x.leave r b = p at h
  obtain ⟨y, empty⟩ := p
  dsimp only at h ⊢
  split
  · exact h
  · exact h.uiManage _ _ _ _ _ _ _ _

/-! ## Answers -/

theorem Settled.follow {x : TransportSessions} {r : Nat} (h : Settled x r) (b : Subscription)
    (outcome : CommandOutcome) : Settled (x.follow r b outcome).1 r := by
  unfold TransportSessions.follow
  dsimp only
  split
  · split
    · exact h
    · exact h.leave r _
  · exact h

theorem RelaysOk.follow {x : TransportSessions} (h : RelaysOk x) {r : Nat} (hr : Settled x r)
    (b : Subscription) (outcome : CommandOutcome) : RelaysOk (x.follow r b outcome).1 := by
  unfold TransportSessions.follow
  dsimp only
  split
  · split
    · exact h.setSettled hr _
    · exact ((h.leave hr _).setSettled (hr.leave r _) _).join _ _ _
  · exact h.setSettled hr _

theorem NotClosed.leave {x : TransportSessions} {k : Nat} (h : NotClosed x k) (r : Nat)
    (b : Subscription) : NotClosed (x.leave r b).1 k := by
  intro t u hk
  rw [carrier_leave] at hk
  split at hk
  · obtain ⟨⟨t', u'⟩, hp, heq⟩ := Option.map_eq_some_iff.mp hk
    obtain ⟨rfl, -⟩ := Prod.mk.inj heq
    exact h t u' hp
  · exact h t u hk

theorem CarriersOk.follow {x : TransportSessions} (h : CarriersOk x) {b : Subscription}
    (hopen : NotClosed x b.session) (r : Nat) (outcome : CommandOutcome) :
    CarriersOk (x.follow r b outcome).1 := by
  unfold TransportSessions.follow
  dsimp only
  split
  · split
    · exact h.setRelay r _
    · exact ((h.leave r _).setRelay r _).join (hopen.leave r _) _ _
  · exact h.setRelay r _

/-- Where `answered` moves a relay, it leaves a closed session as empty as it was. -/
theorem carrier_follow (x : TransportSessions) (r : Nat) (b : Subscription)
    (outcome : CommandOutcome) : ∃ g : Dict String (List Nat) → Dict String (List Nat),
      (∀ k, (x.follow r b outcome).1.carrier k = if k = b.session then
        (x.carrier k).map fun p => (p.1, g p.2) else x.carrier k) ∧
      leaveGroup (g ∅) (x.follow r b outcome).2.panelId r = ∅ := by
  have hid : ∀ k, x.carrier k = if k = b.session then
      (x.carrier k).map fun p => (p.1, id p.2) else x.carrier k := by
    intro k
    split
    · exact (Option.map_id' (x := x.carrier k)).symm
    · rfl
  unfold TransportSessions.follow
  dsimp only
  split
  · rename_i panelId _ _
    split
    · exact ⟨id, hid, leaveGroup_empty _ _⟩
    · refine ⟨fun u => enterGroup (leaveGroup u b.panelId r) panelId r, ?_, ?_⟩
      · intro k
        rw [carrier_join, carrier_setRelay, carrier_leave]
        by_cases hk : k = b.session
        · simp only [hk, if_true, Option.map_map]
          rfl
        · simp only [if_neg hk]
      · show leaveGroup (enterGroup (leaveGroup ∅ b.panelId r) panelId r) panelId r = ∅
        rw [leaveGroup_empty]
        exact leaveGroup_enterGroup_empty panelId r
  · exact ⟨id, hid, leaveGroup_empty _ _⟩

theorem CarriersOk.followLeave {x : TransportSessions} (h : CarriersOk x) (r : Nat)
    (b : Subscription) (outcome : CommandOutcome) :
    CarriersOk ((x.follow r b outcome).1.leave r (x.follow r b outcome).2).1 := by
  obtain ⟨g, hg, hempty⟩ := carrier_follow x r b outcome
  have hsession : (x.follow r b outcome).2.session = b.session := (follow_ended x r b outcome).2.2
  intro k t u hk
  rw [carrier_leave, hsession, hg] at hk
  by_cases hks : k = b.session
  · simp only [if_pos hks, Option.map_map, Option.map_eq_some_iff] at hk
    obtain ⟨⟨t', u'⟩, hp, heq⟩ := hk
    obtain ⟨rfl, rfl⟩ := Prod.mk.inj heq
    have hu := h k t u' hp
    subst hu
    exact hempty
  · simp only [if_neg hks] at hk
    exact h k t u hk

theorem carrierView_foldl_note (r : Nat) (updates : List (List UiObservation))
    (x : TransportSessions) :
    (updates.foldl (fun x update => x.note (.toBrowser r (.update update))) x).carrierView =
      x.carrierView := by
  induction updates generalizing x with
  | nil => rfl
  | cons update rest ih => rw [List.foldl_cons, ih, carrierView_note]

/-- What `answered` says to a browser that listens does not concern the relays. -/
theorem carrierView_said (x : TransportSessions) (r : Nat) (event : BrowserEvent)
    (updates : List (List UiObservation)) :
    (updates.foldl (fun x update => x.note (.toBrowser r (.update update)))
      (x.note (.toBrowser r event))).carrierView = x.carrierView := by
  rw [carrierView_foldl_note, carrierView_note]

theorem Settled.of_view {x x' : TransportSessions} {r : Nat} (h : Settled x r)
    (hview : x'.carrierView = x.carrierView) : Settled x' r := by
  intro c p hp
  rw [posting_of_view hview] at hp
  exact h c p hp

theorem RelaysOk.answered {x : TransportSessions} (h : RelaysOk x) {r : Nat} (hr : Settled x r)
    (b : Subscription) (outcome : CommandOutcome) (draws : Draws) :
    RelaysOk (x.answered r b outcome draws) := by
  have hfollow := h.follow hr b outcome
  have hsettled := hr.follow b outcome
  unfold TransportSessions.answered
  generalize x.follow r b outcome = p at hfollow hsettled
  obtain ⟨y, b'⟩ := p
  dsimp only at hfollow hsettled ⊢
  split
  · exact hfollow.unsubscribe hsettled _ _ _
  · have hview := carrierView_said y r (.answer (browserAnswer b' outcome)) (b'.held.getD [])
    have hsaid := hfollow.of_view hview
    have hsaidSettled := hsettled.of_view hview
    split
    · exact hsaid.setSettled hsaidSettled _
    · exact ((hsaid.setSettled hsaidSettled _).leave hsaidSettled _).of_view rfl

theorem CarriersOk.answered {x : TransportSessions} (h : CarriersOk x) {b : Subscription}
    (hopen : b.ended = false → NotClosed x b.session) (r : Nat) (outcome : CommandOutcome)
    (draws : Draws) : CarriersOk (x.answered r b outcome draws) := by
  have hfollow := fun hb => h.follow (hopen hb) r outcome
  have hleave := h.followLeave r b outcome
  have hended := (follow_ended x r b outcome).1
  unfold TransportSessions.answered
  generalize x.follow r b outcome = p at hfollow hleave hended
  obtain ⟨y, b'⟩ := p
  dsimp only at hfollow hleave hended ⊢
  rw [hended]
  split
  · exact hleave.unsubscribe _ _
  · rename_i hb
    have hy := hfollow (by simpa using hb)
    have hsaid := hy.of_view
      (carrierView_said y r (.answer (browserAnswer b' outcome)) (b'.held.getD []))
    split
    · exact hsaid.setRelay r _
    · exact ((hsaid.setRelay r _).leave r _).of_view rfl

/-! ## A browser that leaves -/

/-- A relay that holds nothing back is not waited for. -/
theorem RelaysOk.settled_of_held {x : TransportSessions} (h : RelaysOk x) {r : Nat}
    {b : Subscription} (hr : x.relays[r]? = some (.browser b)) (hheld : b.held.isNone = true) :
    Settled x r := by
  intro c p hp hs
  by_contra hover
  obtain ⟨b', hb'⟩ := h.waiting hp hs (by simpa using hover)
  have hbb : b' = b := by
    have hrelay := hb'.relay
    rw [hr, Option.some.injEq, Relay.browser.injEq] at hrelay
    exact hrelay.symm
  subst hbb
  have hsome := hb'.held
  rw [Option.isNone_iff_eq_none.mp hheld] at hsome
  cases hsome

theorem RelaysOk.browserEnded {x : TransportSessions} (h : RelaysOk x) (r : Nat) (draws : Draws) :
    RelaysOk (x.browserEnded r draws) := by
  unfold TransportSessions.browserEnded
  split
  · rename_i b hb
    split
    · exact h
    · have hset : RelaysOk (x.setRelay r (.browser { b with ended := true })) :=
        h.soften hb rfl rfl rfl (fun hheld => hheld) (fun hended => by cases hended)
      dsimp only
      split
      · rename_i hheld
        exact hset.unsubscribe (h.settled_of_held hb hheld) _ _ _
      · exact hset
  · exact h

theorem CarriersOk.browserEnded {x : TransportSessions} (h : CarriersOk x) (r : Nat)
    (draws : Draws) : CarriersOk (x.browserEnded r draws) := by
  unfold TransportSessions.browserEnded
  split
  · split
    · exact h
    · dsimp only
      split
      · exact CarriersOk.unsubscribe ((h.setRelay r _).leave r _) _ _
      · exact h.setRelay r _
  · exact h

/-! ## Subscribing -/

theorem RelaysOk.endSubscribe {x : TransportSessions} (h : RelaysOk x) {r : Nat}
    (hr : Settled x r) (result : Except DeliveryError CommandOutcome) (draws : Draws) :
    RelaysOk (x.endSubscribe r result draws) := by
  unfold TransportSessions.endSubscribe
  split
  · rename_i b _
    cases result with
    | ok outcome => exact h.answered hr b outcome draws
    | error e =>
      dsimp only
      have hunsubscribed := h.unsubscribe hr b true draws
      split
      · exact hunsubscribed.browserEnded r draws
      · exact hunsubscribed.answered (hr.unsubscribe r b true draws) b failedOutcome draws
  · exact h

/-- A failed answer moves no relay. -/
theorem follow_failed (x : TransportSessions) (r : Nat) (b : Subscription) :
    x.follow r b failedOutcome =
      (x.setRelay r (.browser { b with applied := false }), { b with applied := false }) := rfl

theorem CarriersOk.answeredFailed {x : TransportSessions} (h : CarriersOk x) (r : Nat)
    (b : Subscription) (draws : Draws) : CarriersOk (x.answered r b failedOutcome draws) := by
  unfold TransportSessions.answered
  rw [follow_failed]
  dsimp only
  split
  · exact CarriersOk.unsubscribe ((h.setRelay r _).leave r _) _ _
  · rw [if_neg (by simp)]
    have hsaid := (h.setRelay r (.browser { b with applied := false })).of_view
      (carrierView_said (x.setRelay r (.browser { b with applied := false })) r
        (.answer (browserAnswer { b with applied := false } failedOutcome)) (b.held.getD []))
    exact ((hsaid.setRelay r _).leave r _).of_view rfl

theorem CarriersOk.endSubscribe {x : TransportSessions} (h : CarriersOk x) {r : Nat}
    (hopen : ∀ b, x.relays[r]? = some (.browser b) → b.ended = false → NotClosed x b.session)
    (result : Except DeliveryError CommandOutcome) (draws : Draws) :
    CarriersOk (x.endSubscribe r result draws) := by
  unfold TransportSessions.endSubscribe
  split
  · rename_i b hb
    cases result with
    | ok outcome => exact h.answered (hopen b hb) r outcome draws
    | error e =>
      dsimp only
      have hunsubscribed := CarriersOk.unsubscribe (h.leave r b) true draws
      split
      · exact hunsubscribed.browserEnded r draws
      · exact hunsubscribed.answeredFailed r b draws
  · exact h

theorem isLive_setSession (x : TransportSessions) (k : Nat) (f : PanelSession → PanelSession)
    (hf : ∀ s, (f s).entryId = s.entryId) (k' : Nat) :
    (x.setSession k f).isLive k' = x.isLive k' := by
  simp only [isLive, setSession, List.getElem?_modify]
  by_cases hk : k = k'
  · subst hk
    cases x.sessions[k]? with
    | none => simp
    | some s => simp [hf]
  · cases x.sessions[k']? with
    | none => simp [hk]
    | some s =>
      simp only [if_neg hk, Option.map_eq_map, Option.map_some]
      rfl

theorem RelaysOk.addRelay {x : TransportSessions} (h : RelaysOk x) (relay : Relay)
    (hlogs : ∀ s, relay = .logs s → ∃ (c : Nat) (p : Posting), x.posting c = some p ∧
      p.session = s.session ∧ p.commandId = s.key ∧ ∀ r', ¬p.subscribes r') :
    RelaysOk (x.addRelay relay) := by
  have hrelays : (x.addRelay relay).relays = x.relays ++ [relay] := rfl
  refine ⟨?_, h.own, ?_, ?_⟩
  · intro c p r hp hr hover
    obtain ⟨b, hb⟩ := h.waiting hp hr hover
    refine ⟨b, ?_, hb.session, hb.panelId, hb.applied, hb.held, hb.carried⟩
    rw [hrelays, List.getElem?_append_left (List.getElem?_eq_some_iff.mp hb.relay).1]
    exact hb.relay
  · intro c p r hp hr
    have hlt := h.bound hp hr
    rw [hrelays, List.length_append]
    omega
  · intro r s hr
    rw [hrelays] at hr
    rcases Nat.lt_trichotomy r x.relays.length with hlt | heq | hgt
    · rw [List.getElem?_append_left hlt] at hr
      exact h.logs hr
    · subst heq
      rw [List.getElem?_concat_length, Option.some.injEq] at hr
      exact hlogs s hr
    · rw [List.getElem?_eq_none (by simp; omega)] at hr
      cases hr

theorem carrier_of_session {x : TransportSessions} {k : Nat} {s : PanelSession}
    (h : x.sessions[k]? = some s) : x.carrier k = some (s.closedAt, s.uiRelays) := by
  rw [carrier, h]
  rfl

/-- A live session carries what it carries in the open. -/
theorem TableOk.carrier_of_live {x : TransportSessions} (h : TableOk x) {k : Nat}
    (hlive : x.isLive k = true) : ∃ u, x.carrier k = some (none, u) := by
  obtain ⟨s, hs, hopen, -⟩ := h.open_of_live hlive
  rw [carrier_of_session hs, hopen]
  exact ⟨s.uiRelays, rfl⟩

theorem TableOk.notClosed_of_live {x : TransportSessions} (h : TableOk x) {k : Nat}
    (hlive : x.isLive k = true) : NotClosed x k := by
  obtain ⟨u, hu⟩ := h.carrier_of_live hlive
  intro t u' hk
  rw [hu] at hk
  cases hk

/-- A relay that joins for a subscribe awaits its answer, on a live session. -/
theorem Awaits.of_join {x : TransportSessions} {k r : Nat} {b : Subscription} {id : String}
    {u : Dict String (List Nat)} (hr : x.relays[r]? = some (.browser b))
    (hk : x.carrier k = some (none, u)) (hsession : b.session = k) (hid : b.panelId = id)
    (happlied : b.applied = false) (hheld : b.held.isSome = true) (caller : Caller) :
    Awaits (x.join k id r) ⟨k, id, caller, false⟩ r b := by
  refine ⟨hr, hsession, hid, happlied, hheld, ?_⟩
  intro _
  rw [carrier_join, if_pos rfl, hk]
  exact ⟨_, rfl, mem_enterGroup_self u id r⟩

/-- The subscribe of a relay that no other call is for. -/
theorem RelaysOk.sendSubscribe {x : TransportSessions} (h : RelaysOk x) {k r : Nat} {draws : Draws}
    (hr : ∃ b, x.relays[r]? = some (.browser b) ∧ b.session = k ∧ b.panelId = draws.commandId ∧
      b.applied = false ∧ b.held.isSome = true)
    (hk : ∃ u, x.carrier k = some (none, u))
    (hbound : ∀ (c : Nat) p, x.posting c = some p → ¬p.subscribes r) (op : String)
    (args : List (String × Wire)) (origin : Option Origin) (deadlineMs : Int) :
    RelaysOk ((x.join k draws.commandId r).uiManage k op args origin deadlineMs draws []
      (.subscribe r)) := by
  obtain ⟨b, hrelay, hsession, hid, happlied, hheld⟩ := hr
  obtain ⟨u, hu⟩ := hk
  have hjoined := h.join k draws.commandId r
  unfold TransportSessions.uiManage
  split
  · refine hjoined.deliver _ _ _ _ _ _ _ ?_
    rintro r' ⟨held, hh⟩
    cases hh
    exact ⟨⟨b, Awaits.of_join hrelay hu hsession hid happlied hheld _⟩, hbound⟩
  · exact hjoined

theorem RelaysOk.subscribe {x : TransportSessions} (h : RelaysOk x) (htable : TableOk x) {k : Nat}
    (hlive : x.isLive k = true) (connection msgId : Nat) (browserId : String)
    (args : List (String × Wire)) (origin : Origin) (deadlineMs : Int) (draws : Draws) :
    RelaysOk (x.subscribe k connection msgId browserId args origin deadlineMs draws) := by
  have hcarrier := htable.carrier_of_live hlive
  have hadded := h.addRelay (.browser ⟨connection, msgId, browserId, k, origin, draws.commandId,
    false, false, some []⟩) (fun _ hs => nomatch hs)
  unfold TransportSessions.subscribe
  dsimp only
  refine RelaysOk.sendSubscribe ?_ ?_ ?_ ?_ _ _ _ _
  · exact hadded.of_view rfl
  · exact ⟨_, List.getElem?_concat_length, rfl, rfl, rfl, rfl⟩
  · exact hcarrier
  · exact fun c p hp hr => Nat.lt_irrefl _ (h.bound hp hr)

theorem CarriersOk.subscribe {x : TransportSessions} (h : CarriersOk x) {k : Nat}
    (hopen : NotClosed x k) (connection msgId : Nat) (browserId : String)
    (args : List (String × Wire)) (origin : Origin) (deadlineMs : Int) (draws : Draws) :
    CarriersOk (x.subscribe k connection msgId browserId args origin deadlineMs draws) := by
  unfold TransportSessions.subscribe
  dsimp only
  refine CarriersOk.uiManage ?_ _ _ _ _ _ _ _ _
  exact CarriersOk.join (x := { x.addRelay _ with subscriptions := _ }) h hopen _ _

/-! ## The panel-log snapshot -/

theorem RelaysOk.panelLogs {x : TransportSessions} (h : RelaysOk x) {k : Nat}
    (hlive : x.isLive k = true) (userId : String) (draws : Draws)
    (hfresh : ∀ (c : Nat) p, x.posting c = some p → p.commandId ≠ draws.commandId) :
    RelaysOk (x.panelLogs k userId draws) := by
  have hregroup : RelaysOk (x.setSession k fun s =>
      { s with uiRelays := s.uiRelays.set draws.commandId [x.relays.length] }) := by
    refine h.regroup k (fun u => u.set draws.commandId [x.relays.length]) ?_
    intro c p r hp _ _ _ u hin
    rw [group_set, if_neg (hfresh c p hp)]
    exact hin
  have hstill : ((x.addRelay (.logs ⟨k, ⟨userId, draws.commandId⟩, draws.commandId, none,
      false⟩)).setSession k fun s =>
      { s with uiRelays := s.uiRelays.set draws.commandId [x.relays.length] }).isLive k = true := by
    refine Eq.trans (isLive_setSession _ k _ ?_ k) hlive
    exact fun _ => rfl
  unfold TransportSessions.panelLogs TransportSessions.uiManage
  dsimp only
  rw [if_pos hstill]
  refine (hregroup.deliver _ _ _ _ _ _ _ ?_).addRelay (.logs ⟨k, ⟨userId, draws.commandId⟩,
    draws.commandId, none, false⟩) ?_
  · rintro r ⟨held, hh⟩
    cases hh
  · intro s hs
    cases hs
    refine ⟨x.deliveries.length, ⟨k, draws.commandId,
      .uiManage [draws.slot] (.panelLogs x.relays.length), false⟩, ?_, rfl, rfl, ?_⟩
    · refine Eq.trans (posting_deliver _ _ _ _ _ _ _ _ _) ?_
      exact if_pos rfl
    · rintro r ⟨held, hh⟩
      cases hh

theorem CarriersOk.panelLogs {x : TransportSessions} (h : CarriersOk x) {k : Nat}
    (hopen : NotClosed x k) (userId : String) (draws : Draws) :
    CarriersOk (x.panelLogs k userId draws) := by
  unfold TransportSessions.panelLogs
  dsimp only
  refine CarriersOk.uiManage ?_ _ _ _ _ _ _ _ _
  refine CarriersOk.regroup (x := x.addRelay _) h k
    (fun u => u.set draws.commandId [x.relays.length]) ?_
  rintro ⟨t, ht⟩
  exact absurd ht (hopen t ∅)

theorem RelaysOk.endPanelLogs {x : TransportSessions} (h : RelaysOk x) (r : Nat) (draws : Draws)
    (hfresh : ∀ (c c' : Nat) p p', x.posting c = some p → x.posting c' = some p' →
      p.session = p'.session → p.commandId = p'.commandId → c = c') :
    RelaysOk (x.endPanelLogs r draws) := by
  unfold TransportSessions.endPanelLogs
  split
  · rename_i s hs
    split
    · exact h
    · dsimp only
      refine RelaysOk.uiManage ?_ _ _ _ _ _ _ _ (fun _ h => nomatch h)
      have hset : RelaysOk (x.setRelay r (.logs { s with finished := true })) :=
        h.setLogs hs rfl rfl
      refine hset.regroup s.session (fun u => u.pop s.key) ?_
      intro c p r' hp hr' _ hk u hin
      -- The key is the id of the request for the logs, which is no browser's subscribe.
      obtain ⟨c', p', hp', hk', hid', hnot⟩ := h.logs hs
      rw [group_pop, if_neg]
      · exact hin
      · intro hid
        have hcc := hfresh c c' p p' hp hp' (hk.trans hk'.symm) (hid.trans hid'.symm)
        subst hcc
        have hpp : x.posting c = some p := hp
        rw [hp', Option.some.injEq] at hpp
        subst hpp
        exact hnot r' hr'
  · exact h

theorem CarriersOk.endPanelLogs {x : TransportSessions} (h : CarriersOk x) (r : Nat)
    (draws : Draws) : CarriersOk (x.endPanelLogs r draws) := by
  unfold TransportSessions.endPanelLogs
  split
  · split
    · exact h
    · dsimp only
      refine CarriersOk.uiManage ?_ _ _ _ _ _ _ _ _
      refine CarriersOk.regroup (x := x.setRelay r _) h _ (fun u => u.pop _) ?_
      intro _
      rfl
  · exact h

/-! ## Updates -/

theorem RelaysOk.updateRelay {x : TransportSessions} (h : RelaysOk x) (r : Nat)
    (observations : List UiObservation) : RelaysOk (x.updateRelay r observations) := by
  unfold TransportSessions.updateRelay
  split
  · exact h
  · rename_i b hb
    split
    · exact h
    · split
      · exact h.soften hb rfl rfl rfl (fun _ => rfl) (fun hended => hended)
      · exact h.of_view (carrierView_note _ _)
  · rename_i s hs
    split
    · exact h
    · split
      · exact h
      · exact h.setLogs hs rfl rfl

theorem CarriersOk.updateRelay {x : TransportSessions} (h : CarriersOk x) (r : Nat)
    (observations : List UiObservation) : CarriersOk (x.updateRelay r observations) := by
  unfold TransportSessions.updateRelay
  split
  · exact h
  · split
    · exact h
    · split
      · exact h.setRelay r _
      · exact h
  · split
    · exact h
    · split
      · exact h
      · exact h.setRelay r _

end TransportSessions

end PanelAssistant
