import PanelAssistant.Transport.Groups

/-!
# Sessions that end their relays

A session that closes ends every relay it carries and carries none from then on, so the
relays stay in order (`RelaysOk`), and so does the emptiness of closed sessions
(`CarriersOk`).
-/

namespace PanelAssistant

open Library

namespace TransportSessions

/-! ## Ending relays -/

theorem sessions_sessionEnded (x : TransportSessions) (r : Nat) :
    (x.sessionEnded r).sessions = x.sessions := by
  unfold sessionEnded
  split
  · rfl
  · split <;> rfl
  · split <;> rfl

theorem deliveries_sessionEnded (x : TransportSessions) (r : Nat) :
    (x.sessionEnded r).deliveries = x.deliveries := by
  unfold sessionEnded
  split
  · rfl
  · split <;> rfl
  · split <;> rfl

/-- What becomes of the relays depends on the relays alone. -/
theorem relays_sessionEnded {x y : TransportSessions} (h : x.relays = y.relays) (r : Nat) :
    (x.sessionEnded r).relays = (y.sessionEnded r).relays := by
  unfold sessionEnded
  rw [h]
  cases y.relays[r]? with
  | none => exact h
  | some relay =>
    cases relay with
    | browser b =>
      dsimp only
      split
      · exact h
      · exact congrArg (·.set r (.browser { b with ended := true })) h
    | logs s =>
      dsimp only
      split
      · exact h
      · exact congrArg (·.set r (.logs { s with backlog := some none })) h

/-- The relays of the list end. -/
def endAll (x : TransportSessions) (relays : List Nat) : TransportSessions :=
  relays.foldl sessionEnded x

theorem sessions_endAll (relays : List Nat) (x : TransportSessions) :
    (x.endAll relays).sessions = x.sessions := by
  induction relays generalizing x with
  | nil => rfl
  | cons r rest ih => exact (ih (x.sessionEnded r)).trans (sessions_sessionEnded x r)

theorem deliveries_endAll (relays : List Nat) (x : TransportSessions) :
    (x.endAll relays).deliveries = x.deliveries := by
  induction relays generalizing x with
  | nil => rfl
  | cons r rest ih => exact (ih (x.sessionEnded r)).trans (deliveries_sessionEnded x r)

theorem relays_endAll (relays : List Nat) {x y : TransportSessions} (h : x.relays = y.relays) :
    (x.endAll relays).relays = (y.endAll relays).relays := by
  induction relays generalizing x y with
  | nil => exact h
  | cons r rest ih => exact ih (relays_sessionEnded h r)

/-- The relay, if it is a browser's, has ended. -/
def Ended (x : TransportSessions) (r : Nat) : Prop :=
  ∀ b, x.relays[r]? = some (.browser b) → b.ended = true

theorem relays_sessionEnded_other (x : TransportSessions) {r r' : Nat} (hne : r' ≠ r) :
    (x.sessionEnded r).relays[r']? = x.relays[r']? := by
  unfold sessionEnded
  split
  · rfl
  · split
    · rfl
    · exact List.getElem?_set_ne (Ne.symm hne)
  · split
    · rfl
    · exact List.getElem?_set_ne (Ne.symm hne)

theorem ended_sessionEnded (x : TransportSessions) (r : Nat) : Ended (x.sessionEnded r) r := by
  intro b hb
  unfold sessionEnded at hb
  split at hb
  · rename_i hnone
    rw [hnone] at hb
    cases hb
  · rename_i s hs
    have hlt := (List.getElem?_eq_some_iff.mp hs).1
    split at hb
    · rename_i hended
      rw [hs, Option.some.injEq, Relay.browser.injEq] at hb
      exact hb ▸ hended
    · have hset : (x.setRelay r (.browser { s with ended := true })).relays[r]? =
          some (.browser { s with ended := true }) := List.getElem?_set_self hlt
      have heq := hset.symm.trans hb
      rw [Option.some.injEq, Relay.browser.injEq] at heq
      rw [← heq]
  · rename_i s hs
    have hlt := (List.getElem?_eq_some_iff.mp hs).1
    split at hb
    · rw [hs] at hb
      cases hb
    · have hset : (x.setRelay r (.logs { s with backlog := some none })).relays[r]? =
          some (.logs { s with backlog := some none }) := List.getElem?_set_self hlt
      have heq := hset.symm.trans hb
      cases heq

theorem Ended.sessionEnded {x : TransportSessions} {r : Nat} (h : Ended x r) (r' : Nat) :
    Ended (x.sessionEnded r') r := by
  by_cases hne : r = r'
  · subst hne
    exact ended_sessionEnded x r
  · intro b hb
    rw [relays_sessionEnded_other x hne] at hb
    exact h b hb

theorem ended_endAll {relays : List Nat} {x : TransportSessions} {r : Nat}
    (h : r ∈ relays ∨ Ended x r) : Ended (x.endAll relays) r := by
  induction relays generalizing x with
  | nil =>
    rcases h with h | h
    · cases h
    · exact h
  | cons r' rest ih =>
    refine ih ?_
    rcases h with h | h
    · rcases List.mem_cons.mp h with rfl | h
      · exact Or.inr (ended_sessionEnded x r)
      · exact Or.inl h
    · exact Or.inr (h.sessionEnded r')

theorem RelaysOk.sessionEnded {x : TransportSessions} (h : RelaysOk x) (r : Nat) :
    RelaysOk (x.sessionEnded r) := by
  unfold TransportSessions.sessionEnded
  split
  · exact h
  · rename_i b hb
    split
    · exact h
    · have hsoft : RelaysOk (x.setRelay r (.browser { b with ended := true })) :=
        h.soften hb rfl rfl rfl (fun hheld => hheld) (fun hended => by cases hended)
      exact hsoft.of_view rfl
  · rename_i s hs
    split
    · exact h
    · exact h.setLogs hs rfl rfl

theorem RelaysOk.endAll {x : TransportSessions} (h : RelaysOk x) (relays : List Nat) :
    RelaysOk (x.endAll relays) := by
  induction relays generalizing x with
  | nil => exact h
  | cons r rest ih => exact ih (h.sessionEnded r)

/-! ## Closing -/

/-- The session closes and carries nothing. -/
def closeCarrier (x : TransportSessions) (k now : Nat) : TransportSessions :=
  x.setSession k fun s => { s with closedAt := some now, pending := ∅, late := ∅, uiRelays := ∅ }

theorem carrier_closeCarrier (x : TransportSessions) (k now k' : Nat) :
    (x.closeCarrier k now).carrier k' =
      if k' = k then (x.carrier k').map fun _ => (some now, ∅) else x.carrier k' := by
  simp only [carrier, closeCarrier, setSession, List.getElem?_modify]
  by_cases h : k' = k
  · subst h
    cases x.sessions[k']? with
    | none => simp
    | some s => simp
  · cases x.sessions[k']? with
    | none => simp [h]
    | some s => simp [h, Ne.symm h]

theorem mem_group_flatten {u : Dict String (List Nat)} {id : String} {r : Nat}
    (h : r ∈ group u id) : r ∈ u.values.flatten := by
  unfold group at h
  cases hu : u.get? id with
  | none => simp [hu] at h
  | some l =>
    rw [hu, Option.getD_some] at h
    exact List.mem_flatten.mpr ⟨l, Dict.mem_values.mpr ⟨id, hu⟩, h⟩

theorem RelaysOk.closeCarrier {x : TransportSessions} (h : RelaysOk x) {k : Nat}
    {closedAt : Option Nat} {u : Dict String (List Nat)} (hk : x.carrier k = some (closedAt, u))
    (hended : ∀ r ∈ u.values.flatten, Ended x r) (now : Nat) :
    RelaysOk (x.closeCarrier k now) := by
  refine ⟨?_, h.own, h.bound, h.logs⟩
  intro c p r hp hr hover
  obtain ⟨b, hb⟩ := h.waiting hp hr hover
  refine ⟨b, hb.relay, hb.session, hb.panelId, hb.applied, hb.held, ?_⟩
  intro hlistens
  obtain ⟨u', hu', hin⟩ := hb.carried hlistens
  by_cases hpk : p.session = k
  · rw [hpk, hk, Option.some.injEq, Prod.mk.injEq] at hu'
    obtain ⟨-, rfl⟩ := hu'
    have := hended r (mem_group_flatten hin) b hb.relay
    rw [hlistens] at this
    cases this
  · rw [carrier_closeCarrier, if_neg hpk]
    exact ⟨u', hu', hin⟩

theorem CarriersOk.closeCarrier {x : TransportSessions} (h : CarriersOk x) (k now : Nat) :
    CarriersOk (x.closeCarrier k now) := by
  intro k' t u hk'
  rw [carrier_closeCarrier] at hk'
  by_cases hkk : k' = k
  · rw [if_pos hkk] at hk'
    obtain ⟨p, -, heq⟩ := Option.map_eq_some_iff.mp hk'
    exact (Prod.mk.inj heq).2.symm
  · rw [if_neg hkk] at hk'
    exact h k' t u hk'

theorem carrierView_foldl {α : Type} {f : TransportSessions → α → TransportSessions}
    (h : ∀ x a, (f x a).carrierView = x.carrierView) (l : List α) (x : TransportSessions) :
    (l.foldl f x).carrierView = x.carrierView := foldl_view h l x

/-- Seen from the relays, a session that is forgotten ends what it carries and closes. -/
theorem carrierView_forget {x : TransportSessions} {k : Nat} {s : PanelSession}
    (hk : x.sessions[k]? = some s) (hlive : x.byEntry.get? s.entryId = some k) :
    (x.forget k).1.carrierView =
      ((x.endAll s.uiRelays.values.flatten).closeCarrier k x.now).carrierView := by
  obtain ⟨y, hy, hforget⟩ : ∃ y : TransportSessions, y.carrierView = (x.unlist k s).carrierView ∧
      (x.forget k).1.carrierView = (y.endAll s.uiRelays.values.flatten).carrierView := by
    refine ⟨s.late.values.foldl settle
      (s.pending.values.foldl (fun x c => x.resolve c none) (x.unlist k s)), ?_, ?_⟩
    · rw [carrierView_foldl carrierView_settle,
        carrierView_foldl fun x c => carrierView_resolve x c none]
    · unfold TransportSessions.forget
      rw [hk]
      simp only [hlive, ne_eq, not_true_eq_false, if_false]
      split <;> rfl
  rw [hforget]
  have hrelays : y.relays = x.relays := (relays_of_carrierView hy).trans rfl
  have hsessions := congrArg (·.2.1) hy
  have hdeliveries := congrArg (·.2.2) hy
  simp only [carrierView, closeCarrier, setSession, sessions_endAll, deliveries_endAll,
    relays_endAll _ hrelays] at hsessions hdeliveries ⊢
  rw [hsessions, hdeliveries]
  rfl

theorem RelaysOk.forget {x : TransportSessions} (h : RelaysOk x) (k : Nat) :
    RelaysOk (x.forget k).1 := by
  by_cases hlive : ∃ s, x.sessions[k]? = some s ∧ x.byEntry.get? s.entryId = some k
  · obtain ⟨s, hk, hs⟩ := hlive
    refine RelaysOk.of_view ?_ (carrierView_forget hk hs)
    have hcarrier : (x.endAll s.uiRelays.values.flatten).carrier k =
        some (s.closedAt, s.uiRelays) := by
      rw [carrier, sessions_endAll]
      exact carrier_of_session hk
    exact (h.endAll _).closeCarrier hcarrier (fun r hr => ended_endAll (Or.inl hr)) x.now
  · rw [forget_of_stale fun s hk hs => hlive ⟨s, hk, hs⟩]
    exact h

theorem CarriersOk.forget {x : TransportSessions} (h : CarriersOk x) (k : Nat) :
    CarriersOk (x.forget k).1 := by
  by_cases hlive : ∃ s, x.sessions[k]? = some s ∧ x.byEntry.get? s.entryId = some k
  · obtain ⟨s, hk, hs⟩ := hlive
    refine CarriersOk.of_view (CarriersOk.closeCarrier ?_ k x.now) (carrierView_forget hk hs)
    intro k' t u hk'
    rw [carrier, sessions_endAll] at hk'
    exact h k' t u hk'
  · rw [forget_of_stale fun s hk hs => hlive ⟨s, hk, hs⟩]
    exact h

theorem carrierView_sayClosed (x : TransportSessions) (k : Nat) (s : PanelSession) (reason : String)
    (announce : Bool) : (x.sayClosed k s reason announce).carrierView = x.carrierView := by
  unfold sayClosed
  dsimp only
  split <;> rfl

theorem RelaysOk.close {x : TransportSessions} (h : RelaysOk x) (k : Nat) (reason : String)
    (announce : Bool) : RelaysOk (x.close k reason announce) := by
  rcases close_eq x k reason announce with ⟨s, -, -, heq⟩ | ⟨-, heq⟩
  · rw [heq]
    exact (h.forget k).of_view (carrierView_sayClosed _ _ _ _ _)
  · rw [heq]
    exact h

theorem CarriersOk.close {x : TransportSessions} (h : CarriersOk x) (k : Nat) (reason : String)
    (announce : Bool) : CarriersOk (x.close k reason announce) := by
  rcases close_eq x k reason announce with ⟨s, -, -, heq⟩ | ⟨-, heq⟩
  · rw [heq]
    exact (h.forget k).of_view (carrierView_sayClosed _ _ _ _ _)
  · rw [heq]
    exact h

/-! ## Opening -/

theorem carrierView_clearRestartNotice (x : TransportSessions) (entryId : String) :
    (x.clearRestartNotice entryId).carrierView = x.carrierView := by
  unfold clearRestartNotice
  split <;> rfl

theorem carrier_enlist (x : TransportSessions) (s : PanelSession) (k : Nat) :
    (x.enlist s).carrier k =
      if k = x.sessions.length then some (s.closedAt, s.uiRelays) else x.carrier k := by
  show ((x.sessions ++ [s])[k]?).map (fun s => (s.closedAt, s.uiRelays)) = _
  by_cases hk : k = x.sessions.length
  · rw [if_pos hk, hk, List.getElem?_concat_length]
    rfl
  · rw [if_neg hk]
    rcases Nat.lt_or_ge k x.sessions.length with hlt | hge
    · rw [List.getElem?_append_left hlt]
      rfl
    · have hgt : x.sessions.length < k := Nat.lt_of_le_of_ne hge (Ne.symm hk)
      rw [List.getElem?_eq_none (by simp; omega), carrier, List.getElem?_eq_none hge]

theorem carrier_length (x : TransportSessions) : x.carrier x.sessions.length = none := by
  simp [carrier]

theorem RelaysOk.enlist {x : TransportSessions} (h : RelaysOk x) (s : PanelSession) :
    RelaysOk (x.enlist s) := by
  refine ⟨?_, h.own, h.bound, h.logs⟩
  intro c p r hp hr hover
  obtain ⟨b, hb⟩ := h.waiting hp hr hover
  refine ⟨b, hb.relay, hb.session, hb.panelId, hb.applied, hb.held, ?_⟩
  intro hlistens
  obtain ⟨u, hu, hin⟩ := hb.carried hlistens
  rw [carrier_enlist, if_neg]
  · exact ⟨u, hu, hin⟩
  · intro hk
    rw [hk, carrier_length] at hu
    cases hu

theorem CarriersOk.enlist {x : TransportSessions} (h : CarriersOk x) {s : PanelSession}
    (hs : s.uiRelays = ∅) : CarriersOk (x.enlist s) := by
  intro k t u hk
  rw [carrier_enlist] at hk
  split at hk
  · rw [Option.some.injEq, Prod.mk.injEq] at hk
    exact hk.2.symm.trans hs
  · exact h k t u hk

theorem RelaysOk.openSession {x : TransportSessions} (h : RelaysOk x) (s : PanelSession) :
    RelaysOk (x.openSession s) := by
  have hsuperseded : RelaysOk (x.supersede s.entryId) := by
    unfold TransportSessions.supersede
    split
    · exact h.of_view (carrierView_clearRestartNotice _ _)
    · exact (h.close _ _ _).of_view (carrierView_clearRestartNotice _ _)
  rw [openSession_eq]
  exact (hsuperseded.enlist s).of_view rfl

theorem CarriersOk.openSession {x : TransportSessions} (h : CarriersOk x) {s : PanelSession}
    (hs : s.uiRelays = ∅) : CarriersOk (x.openSession s) := by
  have hsuperseded : CarriersOk (x.supersede s.entryId) := by
    unfold TransportSessions.supersede
    split
    · exact h.of_view (carrierView_clearRestartNotice _ _)
    · exact (h.close _ _ _).of_view (carrierView_clearRestartNotice _ _)
  rw [openSession_eq]
  exact (hsuperseded.enlist hs).of_view rfl

end TransportSessions

end PanelAssistant
