import PanelAssistant.Transport.Commands

/-!
# Commands that are answered

What resolving a future and settling a kept command do to one command and leave of the
others (`resolve_self`, `settle_other`), and from it that a result of a panel keeps
every command in one of its states (`CommandsOk.commandResult`).
-/

namespace PanelAssistant

open Library

namespace TransportSessions

/-! ## Resolving and settling -/

/-- A delivery whose future was resolved. -/
def resolved (r : Option CommandOutcome) (d : Delivery) : Delivery :=
  { d with command := { d.command with future := some r } }

/-- A delivery whose `on_settled` was taken. -/
def settled (d : Delivery) : Delivery :=
  { d with command := { d.command with onSettled := none } }

theorem resolve_of_done {x : TransportSessions} {c : Nat} {r : Option CommandOutcome}
    {d : Delivery} (hd : x.deliveries[c]? = some d) (hf : d.command.future = none) :
    x.resolve c r = (x.setDelivery c (resolved r)).note (.resolved c r) := by
  unfold resolve
  rw [hd]
  simp only [hf, Option.isSome_none, Bool.false_eq_true, if_false]
  rfl

theorem settle_of_some {x : TransportSessions} {c : Nat} {d : Delivery} {held : List String}
    (hd : x.deliveries[c]? = some d) (hs : d.command.onSettled = some held) :
    x.settle c = (x.setDelivery c settled).note (.released c held) := by
  unfold settle
  rw [hd]
  simp only [hs]
  rfl

theorem settle_of_none {x : TransportSessions} {c : Nat} {d : Delivery}
    (hd : x.deliveries[c]? = some d) (hs : d.command.onSettled = none) : x.settle c = x := by
  unfold settle
  rw [hd]
  simp only [hs]

@[simp] theorem core_resolve (x : TransportSessions) (c : Nat) (r : Option CommandOutcome)
    (k : Nat) : (x.resolve c r).core k = x.core k := by
  unfold resolve
  split
  · rfl
  · split <;> rfl

@[simp] theorem core_settle (x : TransportSessions) (c k : Nat) :
    (x.settle c).core k = x.core k := by
  unfold settle
  split
  · rfl
  · split <;> rfl

/-- What `settle` does to the delivery and the tally of the command it settles. -/
theorem settle_self {x : TransportSessions} {c : Nat} {d : Delivery}
    (hd : x.deliveries[c]? = some d) (hs : d.command.onSettled = d.caller.held) :
    (x.settle c).deliveries[c]? = some (settled d) ∧ ∀ k id, (x.settle c).tally c k id =
      { x.tally c k id with releases := (x.tally c k id).releases + d.caller.releases } := by
  cases hh : d.caller.held with
  | none =>
    have hnone : d.command.onSettled = none := hs.trans hh
    rw [settle_of_none hd hnone]
    refine ⟨?_, ?_⟩
    · rw [hd]
      simp only [settled, ← hnone]
    · intro k id
      simp [Caller.releases, hh]
  | some held =>
    rw [settle_of_some hd (hs.trans hh)]
    refine ⟨?_, ?_⟩
    · rw [deliveries_note, deliveries_setDelivery, if_pos rfl, hd]
      rfl
    · intro k id
      simp [Tally.add, Caller.releases, hh]

/-- `settle` leaves every other command alone. -/
theorem settle_other (x : TransportSessions) {c c' : Nat} (hne : c' ≠ c) :
    (x.settle c).deliveries[c']? = x.deliveries[c']? ∧
      ∀ k id, (x.settle c).tally c' k id = x.tally c' k id := by
  unfold settle
  split
  · exact ⟨rfl, fun _ _ => rfl⟩
  · split
    · exact ⟨rfl, fun _ _ => rfl⟩
    · refine ⟨?_, ?_⟩
      · rw [deliveries_note, deliveries_setDelivery, if_neg hne]
      · intro k id
        simp [Tally.add, Ne.symm hne]

theorem resolve_self {x : TransportSessions} {c : Nat} {d : Delivery}
    (hd : x.deliveries[c]? = some d) (hf : d.command.future = none) (r : Option CommandOutcome) :
    (x.resolve c r).deliveries[c]? = some (resolved r d) ∧ ∀ k id, (x.resolve c r).tally c k id =
      { x.tally c k id with resolutions := (x.tally c k id).resolutions ++ [r] } := by
  rw [resolve_of_done hd hf]
  refine ⟨?_, ?_⟩
  · rw [deliveries_note, deliveries_setDelivery, if_pos rfl, hd]
    rfl
  · intro k id
    simp [Tally.add]

theorem resolve_other (x : TransportSessions) {c c' : Nat} (hne : c' ≠ c)
    (r : Option CommandOutcome) : (x.resolve c r).deliveries[c']? = x.deliveries[c']? ∧
      ∀ k id, (x.resolve c r).tally c' k id = x.tally c' k id := by
  unfold resolve
  split
  · exact ⟨rfl, fun _ _ => rfl⟩
  · split
    · exact ⟨rfl, fun _ _ => rfl⟩
    · refine ⟨?_, ?_⟩
      · rw [deliveries_note, deliveries_setDelivery, if_neg hne]
      · intro k id
        simp [Tally.add, Ne.symm hne]

/-! ## Answers -/

/-- Another command than the one sent on a session under an id has another home. -/
theorem CommandsOk.other {x : TransportSessions} (h : CommandsOk x) {c c' : Nat} {d d' : Delivery}
    (hd : x.deliveries[c]? = some d) (hd' : x.deliveries[c']? = some d') (hne : c' ≠ c) :
    ¬(d'.session = d.session ∧ d'.commandId = d.commandId) :=
  fun hsame => hne (h.fresh hd' hd hsame.1 hsame.2)

/-- A step that changes one command of a session, and the entries under its id. -/
structure OnCommand (x x' : TransportSessions) (c : Nat) (d d' : Delivery) (s s' : SessionCore) :
    Prop where
  before : x.deliveries[c]? = some d
  after : x'.deliveries[c]? = some d'
  home : d'.session = d.session ∧ d'.commandId = d.commandId
  others : ∀ c', c' ≠ c → x'.deliveries[c']? = x.deliveries[c']?
  core : x.core d.session = some s
  core' : ∀ k, x'.core k = if k = d.session then some s' else x.core k
  closedAt : s'.closedAt = s.closedAt
  entries : ∀ id, id ≠ d.commandId → s'.pending.get? id = s.pending.get? id ∧
    s'.late.get? id = s.late.get? id
  entry : ∀ c', (s'.pending.get? d.commandId = some c' ∨ s'.late.get? d.commandId = some c') →
    c' = c ∧ (s.pending.get? d.commandId = some c ∨ s.late.get? d.commandId = some c)
  tallies : ∀ c' k id, c' ≠ c → ¬(k = d.session ∧ id = d.commandId) →
    x'.tally c' k id = x.tally c' k id

theorem CommandsOk.onCommand {x x' : TransportSessions} (h : CommandsOk x) {c : Nat}
    {d a : Delivery} {s t : SessionCore} (hx : OnCommand x x' c d a s t)
    (hclosed : t.closedAt.isSome → t.pending = ∅ ∧ t.late = ∅)
    (hunborn : ∀ {c : Nat}, x.deliveries.length ≤ c → ∀ k id, x'.tally c k id = Tally.empty)
    (hlife : Life a (x'.tally c d.session d.commandId) (s.closedAt = none)
      (t.pending.get? d.commandId = some c) (t.late.get? d.commandId = some c)) :
    CommandsOk x' := by
  have hcases : ∀ {k : Nat} {r : SessionCore}, x'.core k = some r →
      (k = d.session ∧ r = t) ∨ (k ≠ d.session ∧ x.core k = some r) := by
    intro k r hr
    rw [hx.core'] at hr
    by_cases hk : k = d.session
    · rw [if_pos hk, Option.some.injEq] at hr
      exact Or.inl ⟨hk, hr.symm⟩
    · rw [if_neg hk] at hr
      exact Or.inr ⟨hk, hr⟩
  refine h.of_sameHomes ⟨?_, ?_, ?_⟩ ?_ ?_ hunborn
  · intro c'
    by_cases hc : c' = c
    · subst hc
      rw [hx.after, hx.before, Option.map_some, Option.map_some, hx.home.1, hx.home.2]
    · rw [hx.others c' hc]
  · intro k r hr
    rw [hx.core']
    by_cases hk : k = d.session
    · exact ⟨t, if_pos hk⟩
    · exact ⟨r, (if_neg hk).trans hr⟩
  · intro k r hr
    rcases hcases hr with ⟨rfl, rfl⟩ | ⟨-, hr⟩
    · refine ⟨s, hx.core, ?_⟩
      intro id c' hin
      by_cases hid : id = d.commandId
      · subst hid
        obtain ⟨rfl, hin⟩ := hx.entry c' hin
        exact hin
      · rw [(hx.entries id hid).1, (hx.entries id hid).2] at hin
        exact hin
    · exact ⟨r, hr, fun _ _ hin => hin⟩
  · intro k r hr hc
    rcases hcases hr with ⟨rfl, rfl⟩ | ⟨-, hr⟩
    · exact hclosed hc
    · exact h.closed hr hc
  · intro c' e r he hr
    by_cases hc : c' = c
    · subst hc
      rw [hx.after, Option.some.injEq] at he
      subst he
      rw [hx.home.1, hx.home.2]
      rcases hcases hr with ⟨-, rfl⟩ | ⟨hne, -⟩
      · rw [hx.closedAt]
        exact hlife
      · exact absurd hx.home.1 hne
    · rw [hx.others c' hc] at he
      have hother := h.other hx.before he hc
      rw [hx.tallies c' _ _ hc hother]
      rcases hcases hr with ⟨hk, rfl⟩ | ⟨-, hr⟩
      · have hid : e.commandId ≠ d.commandId := fun hid => hother ⟨hk, hid⟩
        rw [(hx.entries _ hid).1, (hx.entries _ hid).2, hx.closedAt]
        exact h.life he (hk ▸ hx.core)
      · exact h.life he hr

theorem core_fireTimer (x : TransportSessions) (c k : Nat) : (x.fireTimer c).core k = x.core k :=
  rfl

theorem CommandsOk.fireTimer {x : TransportSessions} (h : CommandsOk x) (c : Nat) :
    CommandsOk (x.fireTimer c) := by
  cases hd : x.deliveries[c]? with
  | none =>
    have hsame : x.fireTimer c = x := by
      unfold TransportSessions.fireTimer TransportSessions.setDelivery
      rw [List.modify_eq_self (by simpa using hd)]
    rw [hsame]
    exact h
  | some d =>
    obtain ⟨s, hs⟩ := h.known hd
    have hafter : (x.fireTimer c).deliveries[c]? = _ := deliveries_setDelivery x c _ c
    rw [if_pos rfl, hd, Option.map_some] at hafter
    have hlife := h.life hd hs
    refine h.onCommand (s := s) (t := s) ⟨hd, hafter, ?_, ?_, hs, ?_, rfl, fun _ _ => ⟨rfl, rfl⟩,
      ?_, fun _ _ _ _ _ => rfl⟩ (h.closed hs) (fun hc k id => h.unborn hc k id) ?_
    · cases d.scope <;> exact ⟨rfl, rfl⟩
    · intro c' hc
      unfold TransportSessions.fireTimer
      rw [deliveries_setDelivery, if_neg hc]
    · intro k
      rw [core_fireTimer]
      by_cases hk : k = d.session
      · rw [if_pos hk, hk, hs]
      · rw [if_neg hk]
    · intro c' hin
      obtain ⟨e, he, hek, heid⟩ := h.homes hs hin
      obtain rfl := h.fresh he hd hek heid
      exact ⟨rfl, hin⟩
    · cases hscope : d.scope with
      | waiting => exact hlife.timer hscope
      | expiring => exact hlife
      | finished r => exact hlife

theorem coreView_setSession_of_eq (x : TransportSessions) (k : Nat)
    (f : PanelSession → PanelSession) (h : ∀ s, (f s).core = s.core) :
    (x.setSession k f).coreView = x.coreView := by
  simp only [coreView, setSession, map_modify_of_eq (·.core) f h]

/-- A report that answers no waiting command is heard by none. -/
theorem CommandsOk.resultReported {x : TransportSessions} (h : CommandsOk x) {k : Nat}
    {s : SessionCore} (hk : x.core k = some s) (hopen : s.closedAt = none) (msg : ResultReport)
    (hquiet : msg.outcome.outcome.isFinal = false ∨ s.pending.get? msg.commandId = none) :
    CommandsOk (x.note (.resultReported k msg)) := by
  refine h.of_sameHomes ⟨fun _ => rfl, fun k s hs => ⟨s, hs⟩,
    fun k s hs => ⟨s, hs, fun _ _ hin => hin⟩⟩
    h.closed ?_ ?_
  · intro c d s' hd hs'
    have hlife := h.life hd hs'
    rw [tally_note, Tally.add]
    by_cases hhome : k = d.session ∧ msg.commandId = d.commandId
    · rw [if_pos hhome]
      rcases hquiet with hfinal | hnone
      · rw [Tally.hear_of_not_final hfinal]
        exact hlife
      · have hs'' : s' = s := by
          rw [core_note, ← hhome.1, hk, Option.some.injEq] at hs'
          exact hs'.symm
        subst hs''
        rw [hlife.hear hopen (by rw [← hhome.2, hnone]; exact fun hc => by cases hc)]
        exact hlife
    · rw [if_neg hhome]
      exact hlife
  · intro c hc k' id
    rw [tally_note, h.unborn hc, Tally.add]
    split
    · exact Tally.hear_empty _
    · rfl

/-- The command an answer is for, and where it stands. -/
theorem answeredCommand_eq_some {s : PanelSession} {id : String} {c : Nat} {late : Bool}
    (h : answeredCommand s id = some (c, late)) :
    (late = false ∧ s.pending.get? id = some c) ∨
      (late = true ∧ s.pending.get? id = none ∧ s.late.get? id = some c) := by
  unfold answeredCommand at h
  cases hp : s.pending.get? id with
  | some c' =>
    rw [hp] at h
    cases h
    exact Or.inl ⟨rfl, rfl⟩
  | none =>
    rw [hp] at h
    simp only [Option.map_eq_some_iff, Prod.mk.injEq] at h
    obtain ⟨c', hc', rfl, rfl⟩ := h
    exact Or.inr ⟨rfl, rfl, hc'⟩

theorem core_record (s : PanelSession) (channel : String) (o : CommandOutcome) (late : Bool)
    (now : Nat) : (s.record channel o late now).core = s.core := by
  cases late <;> rfl

theorem core_of_session {x : TransportSessions} {k : Nat} {s : PanelSession}
    (h : x.sessions[k]? = some s) : x.core k = some s.core := by
  rw [TransportSessions.core, h]
  rfl

/-- A late answer: recorded, forgotten and settled. -/
theorem CommandsOk.lateAnswer {x : TransportSessions} (h : CommandsOk x) {k : Nat}
    {s : SessionCore} (hk : x.core k = some s) (msg : ResultReport) {c : Nat}
    (hfinal : msg.outcome.outcome.isFinal = true) (hl : s.late.get? msg.commandId = some c)
    (channel : String) (late : Bool) (now : Nat) :
    CommandsOk (((((x.note (.resultReported k msg)).setSession k
      (·.record channel msg.outcome late now)).note (.recorded c msg.outcome.outcome late)
      ).setSession k fun s => { s with late := s.late.pop msg.commandId }).settle c) := by
  obtain ⟨d, hd, rfl, hid⟩ := h.homes hk (Or.inr hl)
  have hlife := h.life hd hk
  rw [hid] at hlife
  cases hlife with
  | waiting hp hl' => exact absurd hl hl'
  | answered o hp hl' => exact absurd hl hl'
  | abandoned hopen hp hl' => exact absurd hl hl'
  | finished r finals first hp hl' => exact absurd hl hl'
  | late e hp _ ho hf hs ht =>
    generalize hy : (((x.note (.resultReported d.session msg)).setSession d.session
      (·.record channel msg.outcome late now)).note (.recorded c msg.outcome.outcome late)
      ).setSession d.session (fun s => { s with late := s.late.pop msg.commandId }) = y
    have hydeliveries : y.deliveries = x.deliveries := by
      rw [← hy]
      rfl
    have hytally : ∀ c' k' id, y.tally c' k' id =
        ((x.tally c' k' id).add c' k' id (.resultReported d.session msg)).add c' k' id
          (.recorded c msg.outcome.outcome late) := by
      intro c' k' id
      rw [← hy]
      rfl
    have hycore : ∀ k', y.core k' = if k' = d.session then
        some { s with late := s.late.pop msg.commandId } else x.core k' := by
      intro k'
      rw [← hy, core_setSession _ _ _ (fun s => { s with late := s.late.pop msg.commandId })
        (fun _ => rfl), core_note, core_setSession_of_eq _ _ _ (fun s => core_record s _ _ _ _),
        core_note]
      by_cases hk' : k' = d.session
      · rw [if_pos hk', if_pos hk', hk', hk]
        rfl
      · rw [if_neg hk', if_neg hk']
    have hyd : y.deliveries[c]? = some d := by rw [hydeliveries, hd]
    obtain ⟨hself, hselfTally⟩ := settle_self hyd hs
    refine h.onCommand (a := settled d) (t := { s with late := s.late.pop msg.commandId })
      ⟨hd, hself, ⟨rfl, rfl⟩, ?_, hk, ?_, rfl, ?_, ?_, ?_⟩ ?_ ?_ ?_
    · intro c' hc
      rw [(settle_other y hc).1, hydeliveries]
    · intro k'
      rw [core_settle, hycore]
    · intro id hne
      rw [hid] at hne
      exact ⟨rfl, Dict.get?_pop _ _ _ |>.trans (if_neg hne)⟩
    · intro c' hin
      rw [hid] at hin ⊢
      simp only [Dict.get?_pop, if_true, reduceCtorEq, or_false] at hin
      obtain ⟨e, he, hek, heid⟩ := h.homes hk (Or.inl hin)
      obtain rfl := h.fresh he hd hek (heid.trans hid.symm)
      exact ⟨rfl, Or.inl hin⟩
    · intro c' k' id hc hhome
      rw [(settle_other y hc).2, hytally]
      have hne : ¬(d.session = k' ∧ msg.commandId = id) := by
        rintro ⟨rfl, rfl⟩
        exact hhome ⟨rfl, hid.symm⟩
      simp [Tally.add, hne, Ne.symm hc]
    · intro hc
      obtain ⟨hpe, hle⟩ := h.closed hk hc
      rw [hle] at hl
      simp at hl
    · intro c' hc' k' id
      have hne : c' ≠ c := by
        have := (List.getElem?_eq_some_iff.mp hd).1
        omega
      rw [(settle_other y hne).2, hytally, h.unborn hc']
      simp only [Tally.add, Ne.symm hne, false_and, if_false]
      split
      · exact Tally.hear_empty _
      · rfl
    · rw [hselfTally, hytally, hid, ht]
      refine .finished (.error e) 1 none ?_ ?_ ho (Nat.le_refl 1) (Or.inr rfl) ?_
      · exact hp
      · simp
      · simp [Tally.add, Tally.hear, hfinal, settled, hf]

/-- The answer of a command that is waited for: recorded, and handed to its caller. -/
theorem CommandsOk.promptAnswer {x : TransportSessions} (h : CommandsOk x) {k : Nat}
    {s : SessionCore} (hk : x.core k = some s) (msg : ResultReport) {c : Nat}
    (hfinal : msg.outcome.outcome.isFinal = true) (hp : s.pending.get? msg.commandId = some c)
    (channel : String) (late : Bool) (now : Nat) :
    CommandsOk (((((x.note (.resultReported k msg)).setSession k
      (·.record channel msg.outcome late now)).note (.recorded c msg.outcome.outcome late)
      ).setSession k fun s => { s with pending := s.pending.pop msg.commandId }).resolve c
      (some msg.outcome)) := by
  obtain ⟨d, hd, rfl, hid⟩ := h.homes hk (Or.inl hp)
  have hlife := h.life hd hk
  rw [hid] at hlife
  cases hlife with
  | late e hp' => exact absurd hp hp'
  | answered o hp' => exact absurd hp hp'
  | abandoned hopen hp' => exact absurd hp hp'
  | finished r finals first hp' => exact absurd hp hp'
  | waiting _ hl ho hf hs ht =>
    generalize hy : (((x.note (.resultReported d.session msg)).setSession d.session
      (·.record channel msg.outcome late now)).note (.recorded c msg.outcome.outcome late)
      ).setSession d.session (fun s => { s with pending := s.pending.pop msg.commandId }) = y
    have hydeliveries : y.deliveries = x.deliveries := by
      rw [← hy]
      rfl
    have hytally : ∀ c' k' id, y.tally c' k' id =
        ((x.tally c' k' id).add c' k' id (.resultReported d.session msg)).add c' k' id
          (.recorded c msg.outcome.outcome late) := by
      intro c' k' id
      rw [← hy]
      rfl
    have hycore : ∀ k', y.core k' = if k' = d.session then
        some { s with pending := s.pending.pop msg.commandId } else x.core k' := by
      intro k'
      rw [← hy, core_setSession _ _ _ (fun s => { s with pending := s.pending.pop msg.commandId })
        (fun _ => rfl), core_note, core_setSession_of_eq _ _ _ (fun s => core_record s _ _ _ _),
        core_note]
      by_cases hk' : k' = d.session
      · rw [if_pos hk', if_pos hk', hk', hk]
        rfl
      · rw [if_neg hk', if_neg hk']
    have hyd : y.deliveries[c]? = some d := by rw [hydeliveries, hd]
    obtain ⟨hself, hselfTally⟩ := resolve_self hyd hf (some msg.outcome)
    refine h.onCommand (a := resolved (some msg.outcome) d)
      (t := { s with pending := s.pending.pop msg.commandId })
      ⟨hd, hself, ⟨rfl, rfl⟩, ?_, hk, ?_, rfl, ?_, ?_, ?_⟩ ?_ ?_ ?_
    · intro c' hc
      rw [(resolve_other y hc _).1, hydeliveries]
    · intro k'
      rw [core_resolve, hycore]
    · intro id hne
      rw [hid] at hne
      exact ⟨Dict.get?_pop _ _ _ |>.trans (if_neg hne), rfl⟩
    · intro c' hin
      rw [hid] at hin ⊢
      simp only [Dict.get?_pop, if_true, reduceCtorEq, false_or] at hin
      obtain ⟨e, he, hek, heid⟩ := h.homes hk (Or.inr hin)
      obtain rfl := h.fresh he hd hek (heid.trans hid.symm)
      exact ⟨rfl, Or.inr hin⟩
    · intro c' k' id hc hhome
      rw [(resolve_other y hc _).2, hytally]
      have hne : ¬(d.session = k' ∧ msg.commandId = id) := by
        rintro ⟨rfl, rfl⟩
        exact hhome ⟨rfl, hid.symm⟩
      simp [Tally.add, hne, Ne.symm hc]
    · intro hc
      obtain ⟨hpe, hle⟩ := h.closed hk hc
      rw [hpe] at hp
      simp at hp
    · intro c' hc' k' id
      have hne : c' ≠ c := by
        have := (List.getElem?_eq_some_iff.mp hd).1
        omega
      rw [(resolve_other y hne _).2, hytally, h.unborn hc']
      simp only [Tally.add, Ne.symm hne, false_and, if_false]
      split
      · exact Tally.hear_empty _
      · rfl
    · rw [hselfTally, hytally, hid, ht]
      refine .answered msg.outcome ?_ ?_ ho rfl ?_
      · simp
      · exact hl
      · simp [Tally.add, Tally.hear, hfinal]

/-- An interim answer is recorded, and remembered by the command. -/
theorem CommandsOk.interimAnswer {x : TransportSessions} (h : CommandsOk x) (c : Nat)
    (d : Delivery) : CommandsOk (x.interimAnswer c d).1 := by
  have hx : (x.interimAnswer c d).1 = x.setDelivery c fun d =>
      { d with command := { d.command with approvalPending := true } } := by
    unfold TransportSessions.interimAnswer
    dsimp only
    split <;> rfl
  rw [hx]
  refine h.of_sameHomes ⟨?_, fun k s hs => ⟨s, hs⟩, fun k s hs => ⟨s, hs, fun _ _ hin => hin⟩⟩
    h.closed ?_ h.unborn
  · intro c'
    rw [deliveries_setDelivery]
    split
    · cases x.deliveries[c']? <;> rfl
    · rfl
  · intro c' e s he hs
    rw [deliveries_setDelivery] at he
    split at he
    · simp only [Option.map_eq_some_iff] at he
      obtain ⟨e', he', rfl⟩ := he
      exact (h.life he' hs).interim
    · exact h.life he hs

theorem CommandsOk.recordedInterim {x : TransportSessions} (h : CommandsOk x) (k c : Nat)
    (channel : String) (o : CommandOutcome) (late : Bool) (now : Nat)
    (hfinal : o.outcome.isFinal = false) :
    CommandsOk ((x.setSession k (·.record channel o late now)).note
      (.recorded c o.outcome late)) := by
  have hx := h.of_view (coreView_setSession_of_eq x k (·.record channel o late now)
    (fun s => core_record s _ _ _ _))
  have htally : ∀ c' k' id, ((x.setSession k (·.record channel o late now)).note
      (.recorded c o.outcome late)).tally c' k' id =
      (x.setSession k (·.record channel o late now)).tally c' k' id := by
    intro c' k' id
    simp [Tally.add, hfinal]
  refine hx.of_sameHomes ⟨fun _ => rfl, fun k s hs => ⟨s, hs⟩,
    fun k s hs => ⟨s, hs, fun _ _ hin => hin⟩⟩ hx.closed ?_ ?_
  · intro c' d s hd hs
    rw [htally]
    exact hx.life hd hs
  · intro c' hc k' id
    rw [htally]
    exact hx.unborn hc k' id

/-- `command_result` on an open session keeps the commands in order. -/
theorem CommandsOk.commandResult {x : TransportSessions} (h : CommandsOk x) {k : Nat}
    {s : PanelSession} (hk : x.sessions[k]? = some s) (hopen : s.closedAt = none)
    (msg : ResultReport) :
    CommandsOk ((x.note (.resultReported k msg)).commandResult k s msg).1 := by
  have hcore := core_of_session hk
  have hcount : ∀ {y : TransportSessions}, CommandsOk y →
      CommandsOk (y.setSession k (·.count "ignored")) :=
    fun hy => hy.of_view (coreView_setSession_of_eq _ _ _ fun _ => rfl)
  unfold TransportSessions.commandResult
  cases hanswered : answeredCommand s msg.commandId with
  | none =>
    have hnone : s.core.pending.get? msg.commandId = none := by
      unfold answeredCommand at hanswered
      cases hp : s.pending.get? msg.commandId with
      | none => exact hp
      | some c => simp [hp] at hanswered
    exact hcount (h.resultReported hcore hopen msg (Or.inr hnone))
  | some pair =>
    obtain ⟨c, late⟩ := pair
    have hplace := answeredCommand_eq_some hanswered
    have hin : s.core.pending.get? msg.commandId = some c ∨
        s.core.late.get? msg.commandId = some c := by
      rcases hplace with ⟨-, hp⟩ | ⟨-, -, hl⟩
      · exact Or.inl hp
      · exact Or.inr hl
    obtain ⟨d, hd, -, -⟩ := h.homes hcore hin
    have hd' : (x.note (.resultReported k msg)).deliveries[c]? = some d := hd
    simp only [hd']
    by_cases hinterim : msg.outcome.outcome = .pendingApproval
    · have hfinal : msg.outcome.outcome.isFinal =
        false := by simp [ReportedOutcome.isFinal, hinterim]
      have hnoted := h.resultReported hcore hopen msg (Or.inl hfinal)
      split
      · exact hcount hnoted
      · simp only [hinterim]
        rw [← hinterim]
        exact (hnoted.recordedInterim k c _ _ _ _ hfinal).interimAnswer c d
    · have hfinal : msg.outcome.outcome.isFinal =
        true := by simp [ReportedOutcome.isFinal, hinterim]
      rw [if_neg (fun hc => hinterim hc.1)]
      simp only [hinterim, if_false]
      rcases hplace with ⟨rfl, hp⟩ | ⟨rfl, -, hl⟩
      · exact h.promptAnswer hcore msg hfinal hp _ _ _
      · exact h.lateAnswer hcore msg hfinal hl _ _ _

end TransportSessions

end PanelAssistant
