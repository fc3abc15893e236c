import PanelAssistant.Transport.Table

/-!
# Sessions that open and close

Opening and closing a session keeps the commands in order, and the bound on the commands
that are kept late.
-/

namespace PanelAssistant

open Library

namespace TransportSessions

/-! ## Commands -/

theorem CommandsOk.closing {x : TransportSessions} (h : CommandsOk x) (k : Nat) (reason : String) :
    CommandsOk (x.note (.sessionClosed k reason)) :=
  ⟨h.homes, h.known, h.fresh, h.closed, h.life, h.unborn⟩

theorem CommandsOk.close {x : TransportSessions} (h : CommandsOk x) (k : Nat) (reason : String)
    (announce : Bool) : CommandsOk (x.close k reason announce) := by
  rcases close_eq x k reason announce with ⟨s, -, -, heq⟩ | ⟨-, heq⟩
  · rw [heq]
    exact ((h.forget k).closing k reason).of_view (coreView_sayClosed _ _ _ _ _)
  · rw [heq]
    exact h

theorem coreView_clearRestartNotice (x : TransportSessions) (entryId : String) :
    (x.clearRestartNotice entryId).coreView = x.coreView := by
  unfold clearRestartNotice
  split <;> rfl

theorem core_enlist (x : TransportSessions) (s : PanelSession) (k : Nat) :
    (x.enlist s).core k = if k = x.sessions.length then some s.core else x.core k := by
  show ((x.sessions ++ [s])[k]?).map (·.core) = _
  by_cases hk : k = x.sessions.length
  · rw [if_pos hk, hk, List.getElem?_concat_length]
    rfl
  · rw [if_neg hk]
    rcases Nat.lt_or_ge k x.sessions.length with hlt | hge
    · rw [List.getElem?_append_left hlt]
      rfl
    · have hgt : x.sessions.length < k := Nat.lt_of_le_of_ne hge (Ne.symm hk)
      rw [List.getElem?_eq_none (by simp; omega), core, List.getElem?_eq_none hge]

theorem core_lt {x : TransportSessions} {k : Nat} {s : SessionCore} (h : x.core k = some s) :
    k < x.sessions.length := by
  simp only [core, Option.map_eq_some_iff] at h
  obtain ⟨p, hp, -⟩ := h
  exact (List.getElem?_eq_some_iff.mp hp).1

/-- A new session brings no command with it. -/
theorem CommandsOk.enlist {x : TransportSessions} (h : CommandsOk x) {s : PanelSession}
    (hpending : s.pending = ∅) (hlate : s.late = ∅) : CommandsOk (x.enlist s) := by
  have hcases : ∀ {k : Nat} {r : SessionCore}, (x.enlist s).core k = some r →
      (k = x.sessions.length ∧ r = s.core) ∨ x.core k = some r := by
    intro k r hr
    rw [core_enlist] at hr
    by_cases hk : k = x.sessions.length
    · rw [if_pos hk, Option.some.injEq] at hr
      exact Or.inl ⟨hk, hr.symm⟩
    · rw [if_neg hk] at hr
      exact Or.inr hr
  have hkeep : ∀ {k : Nat} {r : SessionCore}, x.core k = some r →
      (x.enlist s).core k = some r := by
    intro k r hr
    rw [core_enlist, if_neg (Nat.ne_of_lt (core_lt hr)), hr]
  have hp : s.core.pending = ∅ := hpending
  have hl : s.core.late = ∅ := hlate
  refine ⟨?_, ?_, h.fresh, ?_, ?_, h.unborn⟩
  · intro k r id c hr hin
    rcases hcases hr with ⟨-, rfl⟩ | hr
    · rw [hp, hl] at hin
      simp at hin
    · exact h.homes hr hin
  · intro c d hd
    obtain ⟨r, hr⟩ := h.known hd
    exact ⟨r, hkeep hr⟩
  · intro k r hr hc
    rcases hcases hr with ⟨-, rfl⟩ | hr
    · exact ⟨hp, hl⟩
    · exact h.closed hr hc
  · intro c d r hd hr
    obtain ⟨r', hr'⟩ := h.known hd
    rw [hkeep hr', Option.some.injEq] at hr
    subst hr
    exact h.life hd hr'

theorem CommandsOk.supersede {x : TransportSessions} (h : CommandsOk x) (entryId : String) :
    CommandsOk (x.supersede entryId) := by
  unfold TransportSessions.supersede
  split
  · exact h.of_view (coreView_clearRestartNotice _ _)
  · exact (h.close _ _ _).of_view (coreView_clearRestartNotice _ _)

theorem CommandsOk.openSession {x : TransportSessions} (h : CommandsOk x) {s : PanelSession}
    (hpending : s.pending = ∅) (hlate : s.late = ∅) : CommandsOk (x.openSession s) := by
  rw [openSession_eq]
  exact ((h.supersede s.entryId).enlist hpending hlate).of_view rfl

/-! ## The bound on late commands -/

/-- No session keeps more late commands than before. -/
def LateShrinks (x x' : TransportSessions) : Prop :=
  ∀ (k : Nat) (s' : SessionCore), x'.core k = some s' →
    s'.late.size ≤ maxLateCommands ∨ ∃ s, x.core k = some s ∧ s'.late.size ≤ s.late.size

theorem LateBounded.of_shrinks {x x' : TransportSessions} (h : LateBounded x)
    (hx : LateShrinks x x') : LateBounded x' := by
  intro k s' hs'
  rcases hx k s' hs' with hle | ⟨s, hs, hle⟩
  · exact hle
  · exact Nat.le_trans hle (h k s hs)

theorem LateBounded.forget {x : TransportSessions} (h : LateBounded x) (k : Nat) :
    LateBounded (x.forget k).1 := by
  by_cases hlive : ∃ s, x.sessions[k]? = some s ∧ x.byEntry.get? s.entryId = some k
  · obtain ⟨s, hk, hs⟩ := hlive
    refine LateBounded.of_view ?_ (forget_of_live hk hs).2
    refine h.of_shrinks ?_
    intro k' s' hs'
    rw [core_releaseCommands, core_unlist] at hs'
    by_cases hkk : k' = k
    · rw [if_pos hkk] at hs'
      obtain ⟨r, -, rfl⟩ := Option.map_eq_some_iff.mp hs'
      exact Or.inl (Nat.zero_le _)
    · rw [if_neg hkk] at hs'
      exact Or.inr ⟨s', hs', Nat.le_refl _⟩
  · rw [forget_of_stale fun s hk hs => hlive ⟨s, hk, hs⟩]
    exact h

theorem LateBounded.close {x : TransportSessions} (h : LateBounded x) (k : Nat) (reason : String)
    (announce : Bool) : LateBounded (x.close k reason announce) := by
  rcases close_eq x k reason announce with ⟨s, -, -, heq⟩ | ⟨-, heq⟩
  · rw [heq]
    have hnoted : LateBounded ((x.forget k).1.note (.sessionClosed k reason)) := h.forget k
    exact hnoted.of_view (coreView_sayClosed _ _ _ _ _)
  · rw [heq]
    exact h

theorem LateBounded.openSession {x : TransportSessions} (h : LateBounded x) {s : PanelSession}
    (hlate : s.late = ∅) : LateBounded (x.openSession s) := by
  have hsuperseded : LateBounded (x.supersede s.entryId) := by
    unfold TransportSessions.supersede
    split
    · exact h.of_view (coreView_clearRestartNotice _ _)
    · exact (h.close _ _ _).of_view (coreView_clearRestartNotice _ _)
  rw [openSession_eq]
  refine LateBounded.of_view (x := (x.supersede s.entryId).enlist s) ?_ rfl
  intro k r hr
  rw [core_enlist] at hr
  by_cases hk : k = (x.supersede s.entryId).sessions.length
  · rw [if_pos hk, Option.some.injEq] at hr
    subst hr
    show s.late.size ≤ maxLateCommands
    rw [hlate]
    exact Nat.zero_le _
  · rw [if_neg hk] at hr
    exact hsuperseded k r hr

theorem LateBounded.deliver {x : TransportSessions} (h : LateBounded x) (k : Nat)
    (commandId : String) (request : Request) (deadlineMs : Int) (onInterim : Option Interim)
    (onSettled : Option (List String)) (caller : Caller) :
    LateBounded (x.deliver k commandId request deadlineMs onInterim onSettled caller) := by
  refine h.of_shrinks ?_
  intro k' s' hs'
  rw [core_deliver] at hs'
  by_cases hkk : k' = k
  · rw [if_pos hkk] at hs'
    obtain ⟨r, hr, rfl⟩ := Option.map_eq_some_iff.mp hs'
    exact Or.inr ⟨r, hr, Nat.le_refl _⟩
  · rw [if_neg hkk] at hs'
    exact Or.inr ⟨s', hs', Nat.le_refl _⟩

theorem size_pop_le (d : Dict String Nat) (id : String) : (d.pop id).size ≤ d.size :=
  List.length_filter_le _ _

theorem LateBounded.setSession {x : TransportSessions} (h : LateBounded x) (k : Nat)
    (f : PanelSession → PanelSession) (hf : ∀ s, (f s).late.size ≤ s.late.size) :
    LateBounded (x.setSession k f) := by
  intro k' s' hs'
  simp only [core, TransportSessions.setSession, List.getElem?_modify, Option.map_eq_some_iff]
    at hs'
  obtain ⟨p, hp, rfl⟩ := hs'
  by_cases hkk : k = k'
  · simp only [hkk, if_true] at hp
    obtain ⟨q, hq, rfl⟩ := Option.map_eq_some_iff.mp hp
    exact Nat.le_trans (hf q) (h k' q.core (core_of_session hq))
  · simp only [hkk, if_false, Option.map_eq_map] at hp
    obtain ⟨q, hq, rfl⟩ := Option.map_eq_some_iff.mp hp
    exact h k' q.core (core_of_session hq)

theorem LateBounded.commandResult {x : TransportSessions} (h : LateBounded x) (k : Nat)
    (s : PanelSession) (msg : ResultReport) : LateBounded (x.commandResult k s msg).1 := by
  have hrecord : ∀ channel late, LateBounded
      (x.setSession k (·.record channel msg.outcome late x.now)) := by
    intro channel late
    refine h.setSession k _ ?_
    intro s
    cases late <;> exact Nat.le_refl _
  unfold TransportSessions.commandResult
  split
  · exact h.setSession k _ fun _ => Nat.le_refl _
  · split
    · exact h
    · split
      · exact h.setSession k _ fun _ => Nat.le_refl _
      · rename_i c late _ _ d _ _
        have hnoted : LateBounded ((x.setSession k (·.record d.command.channel msg.outcome late
            x.now)).note (.recorded c msg.outcome.outcome late)) := hrecord _ _
        dsimp only
        split
        · unfold TransportSessions.interimAnswer
          dsimp only
          split <;> exact hnoted
        · split
          · intro k' s' hs'
            rw [core_settle] at hs'
            exact hnoted.setSession k (fun s => { s with late := s.late.pop msg.commandId })
              (fun s => size_pop_le s.late _) k' s' hs'
          · intro k' s' hs'
            rw [core_resolve] at hs'
            exact hnoted.setSession k (fun s => { s with pending := s.pending.pop msg.commandId })
              (fun _ => Nat.le_refl _) k' s' hs'

end TransportSessions

end PanelAssistant
