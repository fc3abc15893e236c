import PanelAssistant.Transport.TableRuns

/-!
# Commands over any run

What the lives of the commands come to: a caller gets the first final outcome that was
reported for its command before its wait ended, or an error; a command stands in one place;
and its release work runs once, when it stands in none and its caller is done.
-/

namespace PanelAssistant

open Library

theorem Life.result {d : Delivery} {t : Tally} {o p l : Prop} (h : Life d t o p l)
    {r : Except DeliveryError CommandOutcome} (hr : d.scope = .finished r) :
    ResultOk t.first r := by
  cases h with
  | waiting _ _ ho => rw [hr] at ho; cases ho
  | answered _ _ _ ho => rw [hr] at ho; cases ho
  | abandoned _ _ _ ho => rw [hr] at ho; cases ho
  | late e _ _ ho _ _ ht =>
    rw [hr, Scope.finished.injEq] at ho
    subst ho
    rw [ht]
    exact Or.inr rfl
  | finished r' finals first _ _ ho _ hok ht =>
    rw [hr, Scope.finished.injEq] at ho
    subst ho
    rw [ht]
    exact hok

theorem Life.recorded {d : Delivery} {t : Tally} {o p l : Prop} (h : Life d t o p l) :
    t.finals ≤ 1 := by
  cases h with
  | waiting _ _ _ _ _ ht => rw [ht]; exact Nat.zero_le 1
  | answered _ _ _ _ _ ht => rw [ht]
  | abandoned _ _ _ _ _ ht => rw [ht]; exact Nat.zero_le 1
  | late _ _ _ _ _ _ ht => rw [ht]; exact Nat.zero_le 1
  | finished _ finals _ _ _ _ hfinals _ ht => rw [ht]; exact hfinals

theorem Life.released {d : Delivery} {t : Tally} {o p l : Prop} [Decidable p] [Decidable l]
    (h : Life d t o p l) :
    t.releases = if d.scope.isOver = true ∧ ¬p ∧ ¬l then d.caller.releases else 0 := by
  cases h with
  | waiting hp _ _ _ _ ht => rw [ht, if_neg fun hc => hc.2.1 hp]
  | answered _ _ _ ho _ ht => rw [ht, if_neg fun hc => by rw [ho] at hc; cases hc.1]
  | abandoned _ _ _ ho _ ht => rw [ht, if_neg fun hc => by rw [ho] at hc; cases hc.1]
  | late _ _ hl _ _ _ ht => rw [ht, if_neg fun hc => hc.2.2 hl]
  | finished _ _ _ hp hl ho _ _ ht =>
    have hover : d.scope.isOver = true := by rw [ho]; rfl
    rw [ht, if_pos ⟨hover, hp, hl⟩]

namespace TransportSessions

/-- What holds of every command. -/
structure AnsweredOnce (x : TransportSessions) : Prop where
  result : ∀ {c : Nat} {d : Delivery} {r : Except DeliveryError CommandOutcome},
    x.deliveries[c]? = some d → d.scope = .finished r →
      ResultOk (x.tally c d.session d.commandId).first r
  onePlace : ∀ {k : Nat} {s : PanelSession} (id : String), x.sessions[k]? = some s →
    s.pending.get? id = none ∨ s.late.get? id = none
  bounded : ∀ {k : Nat} {s : PanelSession}, x.sessions[k]? = some s →
    s.late.size ≤ maxLateCommands
  recorded : ∀ {c : Nat} {d : Delivery}, x.deliveries[c]? = some d →
    (x.tally c d.session d.commandId).finals ≤ 1
  released : ∀ {c : Nat} {d : Delivery} {s : PanelSession}, x.deliveries[c]? = some d →
    x.sessions[d.session]? = some s → (x.tally c d.session d.commandId).releases =
      if d.scope.isOver = true ∧ s.pending.get? d.commandId ≠ some c ∧
          s.late.get? d.commandId ≠ some c then d.caller.releases else 0

theorem CommandsOk.onePlace {x : TransportSessions} (h : CommandsOk x) {k : Nat}
    {s : SessionCore} (hk : x.core k = some s) (id : String) :
    s.pending.get? id = none ∨ s.late.get? id = none := by
  cases hp : s.pending.get? id with
  | none => exact Or.inl rfl
  | some c =>
    cases hl : s.late.get? id with
    | none => exact Or.inr rfl
    | some c' =>
      obtain ⟨d, hd, rfl, rfl⟩ := h.homes hk (Or.inl hp)
      obtain ⟨d', hd', hk', hid'⟩ := h.homes hk (Or.inr hl)
      have hcc := h.fresh hd' hd hk' hid'
      subst hcc
      cases h.life hd hk with
      | waiting _ hl' => exact absurd hl hl'
      | answered _ hp' => exact absurd hp hp'
      | abandoned _ hp' => exact absurd hp hp'
      | late _ hp' => exact absurd hp hp'
      | finished _ _ _ hp' => exact absurd hp hp'

theorem TransportOk.answeredOnce {x : TransportSessions} (h : TransportOk x) :
    AnsweredOnce x where
  result := by
    intro c d r hd hr
    obtain ⟨s, hs⟩ := h.commands.known hd
    exact (h.commands.life hd hs).result hr
  onePlace := fun id hk => h.commands.onePlace (core_of_session hk) id
  bounded := fun hk => h.late _ _ (core_of_session hk)
  recorded := by
    intro c d hd
    obtain ⟨s, hs⟩ := h.commands.known hd
    exact (h.commands.life hd hs).recorded
  released := fun hd hs => (h.commands.life hd (core_of_session hs)).released

/-- Every command of any run with distinct tokens and command ids is answered once, and what
its caller got stays what it got. -/
theorem command_answered_once (F : WireFormats) {moves : List TransportMove}
    (h : DistinctDraws moves) : AnsweredOnce (run F moves) ∧
      ∀ more (c : Nat) d r, (run F moves).deliveries[c]? = some d → d.scope = .finished r →
        ∃ d', (run F (moves ++ more)).deliveries[c]? = some d' ∧ d'.session = d.session ∧
          d'.commandId = d.commandId ∧ d'.scope = .finished r := by
  refine ⟨(transportOk_run F h).answeredOnce, ?_⟩
  intro more c d r hd hr
  obtain ⟨d', hd', he⟩ := (grows_run F moves more).delivery hd
  exact ⟨d', hd', he.session, he.commandId, he.finished r hr⟩

/-- The panel answers a relayed request, and its caller gets the answer. -/
def answeredMoves : List TransportMove :=
  [.hello (kitchenHello "t0" 1), .relayManage 0 "upload" [] none 10000 ["b0"] ⟨"c0", "s0"⟩,
    .commandResult "t0" 1 ⟨"c0", ⟨.applied, none, none, none, none⟩, rfl⟩,
    .wake 0 .resumed true ⟨"c1", "s1"⟩]

theorem command_answered_once_upload :
    ((run ⟨fun _ => none, fun _ => .malformed⟩ answeredMoves).tally 0 0 "c0").first =
        some ⟨.applied, none, none, none, none⟩ ∧
      ((run ⟨fun _ => none, fun _ => .malformed⟩ answeredMoves).tally 0 0 "c0").releases = 1 := by
  have hdraws : DistinctDraws answeredMoves := ⟨by decide, by decide⟩
  have h := command_answered_once ⟨fun _ => none, fun _ => .malformed⟩ hdraws
  exact ⟨h.1.result (c := 0) rfl rfl, (h.1.released (c := 0) rfl rfl).trans rfl⟩

end TransportSessions

end PanelAssistant
