import PanelAssistant.Transport.Answers

/-!
# Sessions and waits that end

A closing session resolves the commands it still waits for and settles those it kept
(`CommandsOk.forget`). A call that is woken returns what its command was answered with, or
leaves it for a late answer; its release runs now or stays with the command
(`CommandsOk.endDelivery`).
-/

namespace PanelAssistant

open Library

namespace TransportSessions

/-! ## Ending a session -/

theorem foldl_resolve_core (l : List Nat) (r : Option CommandOutcome) (x : TransportSessions)
    (k : Nat) : (l.foldl (fun x c => x.resolve c r) x).core k = x.core k :=
  foldl_view (v := fun x => x.core k) (fun x c => core_resolve x c r k) l x

theorem foldl_settle_core (l : List Nat) (x : TransportSessions) (k : Nat) :
    (l.foldl settle x).core k = x.core k :=
  foldl_view (v := fun x => x.core k) (fun x c => core_settle x c k) l x

theorem foldl_resolve_other {l : List Nat} {c : Nat} (hc : c ∉ l) (r : Option CommandOutcome)
    (x : TransportSessions) :
    (l.foldl (fun x c => x.resolve c r) x).deliveries[c]? = x.deliveries[c]? ∧
      ∀ k id, (l.foldl (fun x c => x.resolve c r) x).tally c k id = x.tally c k id := by
  induction l generalizing x with
  | nil => exact ⟨rfl, fun _ _ => rfl⟩
  | cons a rest ih =>
    simp only [List.mem_cons, not_or] at hc
    obtain ⟨hd, ht⟩ := ih hc.2 (x.resolve a r)
    obtain ⟨hd', ht'⟩ := resolve_other x hc.1 r
    exact ⟨hd.trans hd', fun k id => (ht k id).trans (ht' k id)⟩

theorem foldl_resolve_self {l : List Nat} (hl : l.Nodup) {c : Nat} (hc : c ∈ l)
    (r : Option CommandOutcome) {x : TransportSessions} {d : Delivery}
    (hd : x.deliveries[c]? = some d) (hf : d.command.future = none) :
    (l.foldl (fun x c => x.resolve c r) x).deliveries[c]? = some (resolved r d) ∧
      ∀ k id, (l.foldl (fun x c => x.resolve c r) x).tally c k id =
        { x.tally c k id with resolutions := (x.tally c k id).resolutions ++ [r] } := by
  induction l generalizing x with
  | nil => cases hc
  | cons a rest ih =>
    rw [List.nodup_cons] at hl
    by_cases hca : c = a
    · subst hca
      obtain ⟨hself, hselfTally⟩ := resolve_self hd hf r
      obtain ⟨hrest, hrestTally⟩ := foldl_resolve_other hl.1 r (x.resolve c r)
      exact ⟨hrest.trans hself, fun k id => (hrestTally k id).trans (hselfTally k id)⟩
    · obtain ⟨hother, hotherTally⟩ := resolve_other x hca r
      have hin := (List.mem_cons.mp hc).resolve_left hca
      obtain ⟨hrest, hrestTally⟩ := ih hl.2 hin (hother.trans hd)
      refine ⟨hrest, ?_⟩
      intro k id
      rw [List.foldl_cons, hrestTally, hotherTally]

theorem foldl_settle_other {l : List Nat} {c : Nat} (hc : c ∉ l) (x : TransportSessions) :
    (l.foldl settle x).deliveries[c]? = x.deliveries[c]? ∧
      ∀ k id, (l.foldl settle x).tally c k id = x.tally c k id := by
  induction l generalizing x with
  | nil => exact ⟨rfl, fun _ _ => rfl⟩
  | cons a rest ih =>
    simp only [List.mem_cons, not_or] at hc
    obtain ⟨hd, ht⟩ := ih hc.2 (x.settle a)
    obtain ⟨hd', ht'⟩ := settle_other x hc.1
    exact ⟨hd.trans hd', fun k id => (ht k id).trans (ht' k id)⟩

theorem foldl_settle_self {l : List Nat} (hl : l.Nodup) {c : Nat} (hc : c ∈ l)
    {x : TransportSessions} {d : Delivery} (hd : x.deliveries[c]? = some d)
    (hs : d.command.onSettled = d.caller.held) :
    (l.foldl settle x).deliveries[c]? = some (settled d) ∧
      ∀ k id, (l.foldl settle x).tally c k id =
        { x.tally c k id with releases := (x.tally c k id).releases + d.caller.releases } := by
  induction l generalizing x with
  | nil => cases hc
  | cons a rest ih =>
    rw [List.nodup_cons] at hl
    by_cases hca : c = a
    · subst hca
      obtain ⟨hself, hselfTally⟩ := settle_self hd hs
      obtain ⟨hrest, hrestTally⟩ := foldl_settle_other hl.1 (x.settle c)
      exact ⟨hrest.trans hself, fun k id => (hrestTally k id).trans (hselfTally k id)⟩
    · obtain ⟨hother, hotherTally⟩ := settle_other x hca
      have hin := (List.mem_cons.mp hc).resolve_left hca
      obtain ⟨hrest, hrestTally⟩ := ih hl.2 hin (hother.trans hd)
      refine ⟨hrest, ?_⟩
      intro k id
      rw [List.foldl_cons, hrestTally, hotherTally]

/-- Each command stands under one id. -/
theorem CommandsOk.values_nodup {x : TransportSessions} (h : CommandsOk x) {k : Nat}
    {s : SessionCore} (hk : x.core k = some s) :
    s.pending.values.Nodup ∧ s.late.values.Nodup := by
  have hid : ∀ {id id' : String} {c : Nat},
      (s.pending.get? id = some c ∨ s.late.get? id = some c) →
      (s.pending.get? id' = some c ∨ s.late.get? id' = some c) → id = id' := by
    intro id id' c hin hin'
    obtain ⟨d, hd, -, rfl⟩ := h.homes hk hin
    obtain ⟨d', hd', -, rfl⟩ := h.homes hk hin'
    rw [hd, Option.some.injEq] at hd'
    rw [hd']
  exact ⟨Dict.values_nodup fun _ _ _ h h' => hid (Or.inl h) (Or.inl h'),
    Dict.values_nodup fun _ _ _ h h' => hid (Or.inr h) (Or.inr h')⟩

theorem CommandsOk.mem_pending {x : TransportSessions} (h : CommandsOk x) {k c : Nat}
    {s : SessionCore} {d : Delivery} (hk : x.core k = some s) (hd : x.deliveries[c]? = some d) :
    c ∈ s.pending.values ↔ d.session = k ∧ s.pending.get? d.commandId = some c := by
  rw [Dict.mem_values]
  constructor
  · rintro ⟨id, hid⟩
    obtain ⟨e, he, rfl, rfl⟩ := h.homes hk (Or.inl hid)
    obtain rfl : e = d := Option.some.inj (he.symm.trans hd)
    exact ⟨rfl, hid⟩
  · rintro ⟨-, hid⟩
    exact ⟨_, hid⟩

theorem CommandsOk.mem_late {x : TransportSessions} (h : CommandsOk x) {k c : Nat}
    {s : SessionCore} {d : Delivery} (hk : x.core k = some s) (hd : x.deliveries[c]? = some d) :
    c ∈ s.late.values ↔ d.session = k ∧ s.late.get? d.commandId = some c := by
  rw [Dict.mem_values]
  constructor
  · rintro ⟨id, hid⟩
    obtain ⟨e, he, rfl, rfl⟩ := h.homes hk (Or.inr hid)
    obtain rfl : e = d := Option.some.inj (he.symm.trans hd)
    exact ⟨rfl, hid⟩
  · rintro ⟨-, hid⟩
    exact ⟨_, hid⟩

@[simp] theorem length_resolve (x : TransportSessions) (c : Nat) (r : Option CommandOutcome) :
    (x.resolve c r).deliveries.length = x.deliveries.length := by
  unfold resolve
  split
  · rfl
  · split
    · rfl
    · simp [setDelivery]

@[simp] theorem length_settle (x : TransportSessions) (c : Nat) :
    (x.settle c).deliveries.length = x.deliveries.length := by
  unfold settle
  split
  · rfl
  · split
    · rfl
    · simp [setDelivery]

/-- The commands of a closing session: those waited for are resolved, those kept are settled. -/
def releaseCommands (s : SessionCore) (x : TransportSessions) : TransportSessions :=
  s.late.values.foldl settle (s.pending.values.foldl (fun x c => x.resolve c none) x)

theorem coreView_letGo (x : TransportSessions) (s : PanelSession) :
    (x.letGo s).coreView = (releaseCommands s.core x).coreView := by
  unfold TransportSessions.letGo
  exact foldl_view (fun x r => coreView_relayBlind.sessionEnded x r) _ _

theorem core_releaseCommands (s : SessionCore) (x : TransportSessions) (k : Nat) :
    (releaseCommands s x).core k = x.core k := by
  rw [releaseCommands, foldl_settle_core, foldl_resolve_core]

theorem length_releaseCommands (s : SessionCore) (x : TransportSessions) :
    (releaseCommands s x).deliveries.length = x.deliveries.length := by
  rw [releaseCommands,
    foldl_view (v := fun x => x.deliveries.length) (fun x c => length_settle x c),
    foldl_view (v := fun x => x.deliveries.length) (fun x c => length_resolve x c none)]

theorem releaseCommands_other {s : SessionCore} {c : Nat} (hp : c ∉ s.pending.values)
    (hl : c ∉ s.late.values) (x : TransportSessions) :
    (releaseCommands s x).deliveries[c]? = x.deliveries[c]? ∧
      ∀ k id, (releaseCommands s x).tally c k id = x.tally c k id := by
  obtain ⟨h1, t1⟩ := foldl_resolve_other hp none x
  obtain ⟨h2, t2⟩ := foldl_settle_other hl (s.pending.values.foldl (fun x c => x.resolve c none) x)
  exact ⟨h2.trans h1, fun k id => (t2 k id).trans (t1 k id)⟩

/-- The life of a closing session's command once its entries are gone. -/
theorem CommandsOk.released {x y : TransportSessions} (h : CommandsOk x) {k : Nat}
    {s : SessionCore} (hk : x.core k = some s) (hdeliveries : y.deliveries = x.deliveries)
    (htally : ∀ c k id, y.tally c k id = x.tally c k id) {c : Nat} {d : Delivery}
    (hd : x.deliveries[c]? = some d) (hdk : d.session = k) {o p l : Prop} (ho : ¬o)
    (hp : ¬p) (hl : ¬l) :
    ∃ d', (releaseCommands s y).deliveries[c]? = some d' ∧ d'.session = d.session ∧
      d'.commandId = d.commandId ∧
      Life d' ((releaseCommands s y).tally c d.session d.commandId) o p l := by
  subst hdk
  have hyd : y.deliveries[c]? = some d := by rw [hdeliveries, hd]
  obtain ⟨hpnodup, hlnodup⟩ := h.values_nodup hk
  have hmemp := h.mem_pending hk hd
  have hmeml := h.mem_late hk hd
  have hgone : ¬s.pending.get? d.commandId = some c → ¬s.late.get? d.commandId = some c →
      (releaseCommands s y).deliveries[c]? = some d ∧
      (releaseCommands s y).tally c d.session d.commandId = x.tally c d.session d.commandId := by
    intro hnp hnl
    obtain ⟨hsame, hsameTally⟩ := releaseCommands_other (fun hin => hnp (hmemp.mp hin).2)
      (fun hin => hnl (hmeml.mp hin).2) y
    exact ⟨hsame.trans hyd, (hsameTally _ _).trans (htally _ _ _)⟩
  cases h.life hd hk with
  | waiting hp' hl' hover hf hs ht =>
    obtain ⟨h1, t1⟩ := foldl_resolve_self hpnodup (hmemp.mpr ⟨rfl, hp'⟩) none hyd hf
    obtain ⟨h2, t2⟩ := foldl_settle_other (fun hin => hl' (hmeml.mp hin).2)
      (s.pending.values.foldl (fun x c => x.resolve c none) y)
    refine ⟨_, h2.trans h1, rfl, rfl, ?_⟩
    have hnew := (t2 d.session d.commandId).trans (t1 d.session d.commandId)
    rw [htally, ht] at hnew
    exact .abandoned ho hp hl hover rfl hnew
  | late e hp' hl' hover hf hs ht =>
    obtain ⟨h1, t1⟩ := foldl_resolve_other (fun hin => hp' (hmemp.mp hin).2) none y
    obtain ⟨h2, t2⟩ := foldl_settle_self hlnodup (hmeml.mpr ⟨rfl, hl'⟩) (h1.trans hyd) hs
    refine ⟨_, h2, rfl, rfl, ?_⟩
    have hnew := t2 d.session d.commandId
    rw [t1, htally, ht] at hnew
    refine .finished (.error e) 0 none hp hl hover (by omega) (Or.inr rfl) ?_
    refine hnew.trans ?_
    simp [settled, hf]
  | answered out hp' hl' hover hf ht =>
    obtain ⟨hsame, hsameTally⟩ := hgone hp' hl'
    exact ⟨d, hsame, rfl, rfl, .answered out hp hl hover hf (hsameTally.trans ht)⟩
  | abandoned hopen hp' hl' hover hf ht =>
    obtain ⟨hsame, hsameTally⟩ := hgone hp' hl'
    exact ⟨d, hsame, rfl, rfl, .abandoned ho hp hl hover hf (hsameTally.trans ht)⟩
  | finished r finals first hp' hl' hover hfinals hr ht =>
    obtain ⟨hsame, hsameTally⟩ := hgone hp' hl'
    exact ⟨d, hsame, rfl, rfl, .finished r finals first hp hl hover hfinals hr
      (hsameTally.trans ht)⟩

/-- A session closes: its entries go, its commands are resolved or settled. -/
theorem CommandsOk.releaseCommands {x y : TransportSessions} (h : CommandsOk x) {k : Nat}
    {s : SessionCore} (hk : x.core k = some s) (closedAt : Nat)
    (hdeliveries : y.deliveries = x.deliveries)
    (htally : ∀ c k id, y.tally c k id = x.tally c k id)
    (hcore : ∀ k', y.core k' = if k' = k then
      some { s with closedAt := some closedAt, pending := ∅, late := ∅ } else x.core k') :
    CommandsOk (TransportSessions.releaseCommands s y) := by
  generalize hz : TransportSessions.releaseCommands s y = z
  have hzcore : ∀ k', z.core k' = if k' = k then
      some { s with closedAt := some closedAt, pending := ∅, late := ∅ } else x.core k' := by
    intro k'
    rw [← hz, core_releaseCommands, hcore]
  have hzother : ∀ {c : Nat} {d : Delivery}, x.deliveries[c]? = some d → d.session ≠ k →
      z.deliveries[c]? = some d ∧ ∀ k id, z.tally c k id = x.tally c k id := by
    intro c d hd hdk
    obtain ⟨hsame, hsameTally⟩ := releaseCommands_other
      (fun hin => hdk ((h.mem_pending hk hd).mp hin).1)
      (fun hin => hdk ((h.mem_late hk hd).mp hin).1) y
    rw [← hz]
    exact ⟨by rw [hsame, hdeliveries, hd], fun k id => by rw [hsameTally, htally]⟩
  have hzlength : z.deliveries.length = x.deliveries.length := by
    rw [← hz, length_releaseCommands, hdeliveries]
  have hhomes : SameHomes x z := by
    refine ⟨?_, ?_, ?_⟩
    · intro c
      cases hd : x.deliveries[c]? with
      | none =>
        rw [List.getElem?_eq_none (by rw [hzlength]; exact List.getElem?_eq_none_iff.mp hd)]
      | some d =>
        by_cases hdk : d.session = k
        · obtain ⟨d', hd', hk', hid', -⟩ := h.released hk hdeliveries htally hd hdk
            (o := False) (p := False) (l := False) id id id
          rw [← hz, hd', Option.map_some, Option.map_some, hk', hid']
        · rw [(hzother hd hdk).1]
    · intro k' s' hs'
      rw [hzcore]
      split
      · exact ⟨_, rfl⟩
      · exact ⟨s', hs'⟩
    · intro k' s' hs'
      rw [hzcore] at hs'
      by_cases hkk : k' = k
      · rw [if_pos hkk, Option.some.injEq] at hs'
        subst hs'
        exact ⟨s, hkk ▸ hk, by simp⟩
      · rw [if_neg hkk] at hs'
        exact ⟨s', hs', fun _ _ hin => hin⟩
  refine h.of_sameHomes hhomes ?_ ?_ ?_
  · intro k' s' hs' hc
    rw [hzcore] at hs'
    by_cases hkk : k' = k
    · rw [if_pos hkk, Option.some.injEq] at hs'
      subst hs'
      exact ⟨rfl, rfl⟩
    · rw [if_neg hkk] at hs'
      exact h.closed hs' hc
  · intro c d' s' hd' hs'
    obtain ⟨d, hd, hdk, hdid⟩ := hhomes.delivery hd'
    rw [hzcore, ← hdk] at hs'
    rw [← hdk, ← hdid]
    by_cases hkk : d.session = k
    · rw [if_pos hkk, Option.some.injEq] at hs'
      subst hs'
      obtain ⟨d'', hd'', -, -, hlife⟩ := h.released hk hdeliveries htally hd hkk
        (o := (some closedAt : Option Nat) = none)
        (p := (∅ : Dict String Nat).get? d.commandId = some c)
        (l := (∅ : Dict String Nat).get? d.commandId = some c) (by simp) (by simp) (by simp)
      rw [hz, hd', Option.some.injEq] at hd''
      subst hd''
      rw [hz] at hlife
      exact hlife
    · rw [if_neg hkk] at hs'
      obtain ⟨hsame, hsameTally⟩ := hzother hd hkk
      rw [hd', Option.some.injEq] at hsame
      subst hsame
      rw [hsameTally]
      exact h.life hd hs'
  · intro c hc k' id
    have hnot : ∀ {d : Dict String Nat},
      (∀ id, d.get? id = some c → ∃ e, x.deliveries[c]? = some e) →
        c ∉ d.values := by
      intro d hin hmem
      obtain ⟨id, hid⟩ := Dict.mem_values.mp hmem
      obtain ⟨e, he⟩ := hin id hid
      have := (List.getElem?_eq_some_iff.mp he).1
      omega
    obtain ⟨-, hsameTally⟩ := releaseCommands_other
      (hnot fun id hid => (h.homes hk (Or.inl hid)).imp fun _ he => he.1)
      (hnot fun id hid => (h.homes hk (Or.inr hid)).imp fun _ he => he.1) y
    rw [← hz, hsameTally, htally]
    exact h.unborn hc k' id

/-- The table without a session that closes. -/
def unlist (x : TransportSessions) (k : Nat) (s : PanelSession) : TransportSessions :=
  { x with
    byEntry := x.byEntry.pop s.entryId
    byToken := x.byToken.pop s.token
    lastByEntry := x.lastByEntry.set s.entryId k }.setSession k fun s =>
      { s with closedAt := some x.now, pending := ∅, late := ∅, uiRelays := ∅ }

theorem core_unlist (x : TransportSessions) (k : Nat) (s : PanelSession) (k' : Nat) :
    (x.unlist k s).core k' = if k' = k then
      (x.core k').map fun s => { s with closedAt := some x.now, pending := ∅, late := ∅ }
      else x.core k' :=
  core_setSession x k
    (fun s => { s with closedAt := some x.now, pending := ∅, late := ∅, uiRelays := ∅ })
    (fun s => { s with closedAt := some x.now, pending := ∅, late := ∅ }) (fun _ => rfl) k'

theorem forget_of_live {x : TransportSessions} {k : Nat} {s : PanelSession}
    (hk : x.sessions[k]? = some s) (hlive : x.byEntry.get? s.entryId = some k) :
    (x.forget k).2 = true ∧
      (x.forget k).1.coreView = (releaseCommands s.core (x.unlist k s)).coreView := by
  unfold TransportSessions.forget
  rw [hk]
  simp only [hlive, ne_eq, not_true_eq_false, if_false]
  refine ⟨trivial, ?_⟩
  rw [← coreView_letGo]
  split <;> rfl

theorem forget_of_stale {x : TransportSessions} {k : Nat}
    (h : ∀ s, x.sessions[k]? = some s → x.byEntry.get? s.entryId ≠ some k) :
    x.forget k = (x, false) := by
  unfold TransportSessions.forget
  cases hk : x.sessions[k]? with
  | none => rfl
  | some s =>
    simp only [ne_eq, h s hk, not_false_eq_true, if_true]

theorem CommandsOk.forget {x : TransportSessions} (h : CommandsOk x) (k : Nat) :
    CommandsOk (x.forget k).1 := by
  by_cases hlive : ∃ s, x.sessions[k]? = some s ∧ x.byEntry.get? s.entryId = some k
  · obtain ⟨s, hk, hs⟩ := hlive
    refine CommandsOk.of_view ?_ (forget_of_live hk hs).2
    refine h.releaseCommands (core_of_session hk) x.now rfl (fun _ _ _ => rfl) ?_
    intro k'
    rw [core_unlist]
    by_cases hkk : k' = k
    · rw [if_pos hkk, if_pos hkk, hkk, core_of_session hk]
      rfl
    · rw [if_neg hkk, if_neg hkk]
  · rw [forget_of_stale fun s hk hs => hlive ⟨s, hk, hs⟩]
    exact h

/-! ## The end of a wait -/

/-- The oldest of the kept commands is forgotten for a newer one. -/
theorem CommandsOk.evict {x : TransportSessions} (h : CommandsOk x) {k c : Nat} {s : SessionCore}
    (hk : x.core k = some s) {id : String} (hl : s.late.get? id = some c) :
    CommandsOk ((x.setSession k fun s => { s with late := s.late.pop id }).settle c) := by
  obtain ⟨d, hd, rfl, rfl⟩ := h.homes hk (Or.inr hl)
  cases h.life hd hk with
  | waiting _ hl' => exact absurd hl hl'
  | answered o _ hl' => exact absurd hl hl'
  | abandoned hopen _ hl' => exact absurd hl hl'
  | finished r finals first _ hl' => exact absurd hl hl'
  | late e hp _ ho hf hs ht =>
    have hyd : (x.setSession d.session fun s => { s with late := s.late.pop d.commandId }
        ).deliveries[c]? = some d := hd
    obtain ⟨hself, hselfTally⟩ := settle_self hyd hs
    refine h.onCommand (a := settled d) (t := { s with late := s.late.pop d.commandId })
      ⟨hd, hself, ⟨rfl, rfl⟩, ?_, hk, ?_, rfl, ?_, ?_, ?_⟩ ?_ ?_ ?_
    · intro c' hc
      exact (settle_other _ hc).1
    · intro k'
      rw [core_settle, core_setSession x d.session _
        (fun s => { s with late := s.late.pop d.commandId }) (fun _ => rfl)]
      by_cases hkk : k' = d.session
      · rw [if_pos hkk, if_pos hkk, hkk, hk]
        rfl
      · rw [if_neg hkk, if_neg hkk]
    · intro id hne
      exact ⟨rfl, Dict.get?_pop _ _ _ |>.trans (if_neg hne)⟩
    · intro c' hin
      simp only [Dict.get?_pop, if_true, reduceCtorEq, or_false] at hin
      obtain ⟨e, he, hek, heid⟩ := h.homes hk (Or.inl hin)
      obtain rfl := h.fresh he hd hek heid
      exact ⟨rfl, Or.inl hin⟩
    · intro c' k' id hc hhome
      exact (settle_other _ hc).2 k' id
    · intro hc
      obtain ⟨hpe, hle⟩ := h.closed hk hc
      rw [hle] at hl
      simp at hl
    · intro c' hc' k' id
      have hne : c' ≠ c := by
        have := (List.getElem?_eq_some_iff.mp hd).1
        omega
      rw [(settle_other _ hne).2]
      exact h.unborn hc' k' id
    · rw [hselfTally, tally_setSession, ht]
      refine .finished (.error e) 0 none hp (by simp) ho (by omega) (Or.inr rfl) ?_
      simp [settled, hf]

theorem CommandsOk.evictLate {x : TransportSessions} (h : CommandsOk x) (k n : Nat) :
    CommandsOk (evictLate k n x) := by
  induction n generalizing x with
  | zero => exact h
  | succ n ih =>
    unfold TransportSessions.evictLate
    cases hk : x.sessions[k]? with
    | none => exact h
    | some s =>
      dsimp only
      split
      · exact h
      · cases he : s.late.entries with
        | nil => exact h
        | cons e rest =>
          obtain ⟨id, c⟩ := e
          refine ih (h.evict (core_of_session hk) ?_)
          exact Dict.get?_eq_some.mpr (he ▸ List.mem_cons_self)

/-- Forgetting the oldest entry leaves the rest in order. -/
theorem entries_pop_head {d : Dict String Nat} {e : String × Nat} {rest : List (String × Nat)}
    (h : d.entries = e :: rest) : (d.pop e.1).entries = rest := by
  have hnodup := d.nodup
  rw [h, List.map_cons, List.nodup_cons] at hnodup
  show d.entries.filter (fun e' => decide (e'.1 ≠ e.1)) = rest
  rw [h, List.filter_cons, if_neg (by simp), List.filter_eq_self]
  intro e' he'
  have hne : e'.1 ≠ e.1 := fun heq => hnodup.1 (List.mem_map.mpr ⟨e', he', heq⟩)
  simpa using hne

theorem core_evict (x : TransportSessions) (k c : Nat) (id : String) (k' : Nat) :
    ((x.setSession k fun s => { s with late := s.late.pop id }).settle c).core k' =
      if k' = k then (x.core k').map fun s => { s with late := s.late.pop id }
      else x.core k' := by
  rw [core_settle]
  exact core_setSession x k (fun s => { s with late := s.late.pop id })
    (fun s => { s with late := s.late.pop id }) (fun _ => rfl) k'

theorem core_evictLate_other (k n : Nat) (x : TransportSessions) {k' : Nat} (hne : k' ≠ k) :
    (evictLate k n x).core k' = x.core k' := by
  induction n generalizing x with
  | zero => rfl
  | succ n ih =>
    unfold evictLate
    split
    · rfl
    · split
      · rfl
      · split
        · rfl
        · rw [ih, core_evict, if_neg hne]

/-- What the loop leaves of the session: the newest entry, and at most the bound. -/
theorem core_evictLate (k n : Nat) {x : TransportSessions} {s : SessionCore} {e : String × Nat}
    (hk : x.core k = some s) (hlast : s.late.entries.getLast? = some e)
    (hsize : s.late.size ≤ maxLateCommands + n) :
    ∃ late, (evictLate k n x).core k = some { s with late } ∧ late.entries.getLast? = some e ∧
      late.size ≤ maxLateCommands := by
  induction n generalizing x s with
  | zero => exact ⟨s.late, hk, hlast, hsize⟩
  | succ n ih =>
    unfold evictLate
    obtain ⟨p, hp, rfl⟩ : ∃ p, x.sessions[k]? = some p ∧ p.core = s := by
      simpa [core, Option.map_eq_some_iff] using hk
    rw [hp]
    dsimp only
    split
    · rename_i hsmall
      exact ⟨p.late, hk, hlast, hsmall⟩
    · rename_i hbig
      cases he : p.late.entries with
      | nil => simp [Dict.size, he] at hbig
      | cons a rest =>
        have hrest : (p.late.pop a.1).entries = rest := entries_pop_head he
        have hlength : p.late.size = rest.length + 1 := by simp [Dict.size, he]
        have hne : rest ≠ [] := by
          rintro rfl
          simp only [List.length_nil] at hlength
          rw [hlength] at hbig
          simp [maxLateCommands] at hbig
        have hcore : ((x.setSession k fun s => { s with late := s.late.pop a.1 }).settle a.2).core
            k = some { p.core with late := p.late.pop a.1 } := by
          rw [core_evict, if_pos rfl, hk]
          rfl
        obtain ⟨late, hlate, hlast', hsmall⟩ := ih hcore (by
            show (p.late.pop a.1).entries.getLast? = some e
            have hl : p.late.entries.getLast? = some e := hlast
            rw [he, List.getLast?_cons_of_ne_nil hne] at hl
            rw [hrest]
            exact hl) (by
            show (p.late.pop a.1).entries.length ≤ maxLateCommands + n
            have hs : p.late.size ≤ maxLateCommands + (n + 1) := hsize
            rw [hrest]
            omega)
        exact ⟨late, hlate, hlast', hsmall⟩

/-! ### From the await to the end of a call -/

theorem awaitFuture_eq_some {d : Delivery} {a : Awaited}
    {r : Except DeliveryError (Option CommandOutcome)} (h : awaitFuture d a = some r) :
    d.scope.isOver = false ∧ (∀ v, r = .ok v → d.command.future = some v) ∧
      ∀ e, r = .error e → e = .cancelled ∨ d.command.future = none := by
  obtain ⟨k, id, ⟨channel, future, approval, interim, settled⟩, scope, caller⟩ := d
  cases a <;> cases scope <;> cases future <;>
    simp [awaitFuture] at h ⊢ <;> subst h <;> simp [Scope.isOver]

/-- A delivery whose wait is over. -/
def waited (r : Except DeliveryError (Option CommandOutcome)) (d : Delivery) : Delivery :=
  { d with
    command := { d.command with onInterim := none }
    scope := .finished (deliveryResult r) }

/-- The release of a finished call, unless its command is kept. -/
def releaseCall (x : TransportSessions) (c : Nat) (d : Delivery) : TransportSessions :=
  match d.caller with
  | .uiManage held _ => x.releaseUnlessLate c d held
  | _ => x

theorem coreView_note_congr {x y : TransportSessions} (h : x.coreView = y.coreView) (n : Note) :
    (x.note n).coreView = (y.note n).coreView := by
  have hsessions := congrArg TransportCore.sessions h
  have hdeliveries := congrArg TransportCore.deliveries h
  have hbyEntry := congrArg TransportCore.byEntry h
  have hbyToken := congrArg TransportCore.byToken h
  have hlog := congrArg TransportCore.log h
  simp only [coreView] at hsessions hdeliveries hbyEntry hbyToken hlog
  simp only [coreView, note, List.filter_cons, hsessions, hdeliveries, hbyEntry, hbyToken, hlog]

theorem releaseUnlessLate_eq {x : TransportSessions} {c : Nat} {d : Delivery} {s : SessionCore}
    (hs : x.core d.session = some s) (held : List String) :
    x.releaseUnlessLate c d held =
      if s.late.contains d.commandId then x else x.note (.released c held) := by
  obtain ⟨p, hp, rfl⟩ : ∃ p, x.sessions[d.session]? = some p ∧ p.core = s := by
    simpa [core, Option.map_eq_some_iff] using hs
  unfold releaseUnlessLate
  rw [hp]
  rfl

/-- The release of a call whose command is kept does nothing. -/
theorem releaseCall_of_late {x : TransportSessions} {c : Nat} {d : Delivery} {s : SessionCore}
    (hs : x.core d.session = some s) (hl : s.late.get? d.commandId = some c) :
    x.releaseCall c d = x := by
  unfold releaseCall
  split
  · rw [releaseUnlessLate_eq hs, if_pos (by simp [Dict.contains, hl])]
  · rfl

/-- The release of a call whose command is not kept runs, if there is one. -/
theorem tally_releaseCall {x : TransportSessions} {c : Nat} {d : Delivery} {s : SessionCore}
    (hs : x.core d.session = some s) (hl : s.late.get? d.commandId = none) (c' k : Nat)
    (id : String) : (x.releaseCall c d).tally c' k id =
      if c' = c then { x.tally c' k id with
        releases := (x.tally c' k id).releases + d.caller.releases } else x.tally c' k id := by
  have hadd : ∀ held, (x.note (.released c held)).tally c' k id =
      if c' = c then { x.tally c' k id with releases := (x.tally c' k id).releases + 1 }
      else x.tally c' k id := by
    intro held
    rw [tally_note, Tally.add]
    by_cases hc : c' = c
    · rw [if_pos hc, if_pos hc.symm]
    · rw [if_neg hc, if_neg (Ne.symm hc)]
  unfold releaseCall
  cases hcaller : d.caller with
  | uiManage held purpose =>
    simp only
    rw [releaseUnlessLate_eq hs, if_neg (by simp [Dict.contains, hl]), hadd]
    rfl
  | _ => simp [Caller.releases, Caller.held]

theorem core_releaseCall (x : TransportSessions) (c : Nat) (d : Delivery) (k : Nat) :
    (x.releaseCall c d).core k = x.core k := by
  unfold releaseCall
  split
  · unfold releaseUnlessLate
    split
    · rfl
    · split <;> rfl
  · rfl

theorem deliveries_releaseCall (x : TransportSessions) (c : Nat) (d : Delivery) :
    (x.releaseCall c d).deliveries = x.deliveries := by
  unfold releaseCall
  split
  · unfold releaseUnlessLate
    split
    · rfl
    · split <;> rfl
  · rfl

/-- A call that was answered, or whose session ended, comes to its end. -/
theorem CommandsOk.endAnswered {x : TransportSessions} (h : CommandsOk x) {c : Nat} {d : Delivery}
    (hd : x.deliveries[c]? = some d) {a : Awaited}
    {r : Except DeliveryError (Option CommandOutcome)} (hr : awaitFuture d a = some r)
    (hf : d.command.future.isSome = true) :
    CommandsOk (((x.setDelivery c (waited r)).note (.waitEnded c)).releaseCall c d) := by
  obtain ⟨s, hs⟩ := h.known hd
  obtain ⟨hover, hok, herror⟩ := awaitFuture_eq_some hr
  have hlife := h.life hd hs
  have hgone : s.pending.get? d.commandId ≠ some c ∧ s.late.get? d.commandId ≠ some c ∧
      ∃ finals first, finals ≤ 1 ∧ ResultOk first (deliveryResult r) ∧
        x.tally c d.session d.commandId =
          ⟨true, d.command.future.toList, finals, 0, false, first⟩ := by
    have hresult : ∀ first, (∀ v, r = .ok v → d.command.future = some v) →
        (d.command.future = some first) → ResultOk first (deliveryResult r) := by
      intro first hok hfuture
      cases r with
      | error e =>
        rcases herror e rfl with he | he
        · exact Or.inl he
        · rw [hfuture] at he
          cases he
      | ok v =>
        have hv := hok v rfl
        rw [hfuture, Option.some.injEq] at hv
        subst hv
        cases first with
        | none => exact Or.inr rfl
        | some o => rfl
    cases hlife with
    | waiting _ _ _ hf' => simp [hf'] at hf
    | late e _ _ ho => simp [ho, Scope.isOver] at hover
    | finished r' finals first _ _ ho => simp [ho, Scope.isOver] at hover
    | answered o hp hl _ hf' ht =>
      exact ⟨hp, hl, 1, some o, Nat.le_refl 1, hresult _ hok hf', by rw [ht, hf']; rfl⟩
    | abandoned hopen hp hl _ hf' ht =>
      exact ⟨hp, hl, 0, none, Nat.zero_le 1, hresult _ hok hf', by rw [ht, hf']; rfl⟩
  obtain ⟨hp, hl, finals, first, hfinals, hresult, ht⟩ := hgone
  have hlnone : s.late.get? d.commandId = none := by
    cases hc : s.late.get? d.commandId with
    | none => rfl
    | some c' =>
      obtain ⟨e, he, hek, heid⟩ := h.homes hs (Or.inr hc)
      obtain rfl := h.fresh he hd hek heid
      exact absurd hc hl
  have hscore : ((x.setDelivery c (waited r)).note (.waitEnded c)).core d.session = some s := hs
  refine h.onCommand (a := waited r d) (s := s) (t := s)
    ⟨hd, ?_, ⟨rfl, rfl⟩, ?_, hs, ?_, rfl, fun _ _ => ⟨rfl, rfl⟩, ?_, ?_⟩ (h.closed hs) ?_ ?_
  · rw [deliveries_releaseCall, deliveries_note, deliveries_setDelivery, if_pos rfl, hd]
    rfl
  · intro c' hc
    rw [deliveries_releaseCall, deliveries_note, deliveries_setDelivery, if_neg hc]
  · intro k
    rw [core_releaseCall]
    by_cases hk : k = d.session
    · rw [if_pos hk, hk, hscore]
    · rw [if_neg hk]
      rfl
  · intro c' hin
    obtain ⟨e, he, hek, heid⟩ := h.homes hs hin
    obtain rfl := h.fresh he hd hek heid
    exact ⟨rfl, hin⟩
  · intro c' k id hc _
    rw [tally_releaseCall hscore hlnone, if_neg hc, tally_note, tally_setDelivery]
    simp [Tally.add, Ne.symm hc]
  · intro c' hc' k id
    have hne : c' ≠ c := by
      have := (List.getElem?_eq_some_iff.mp hd).1
      omega
    rw [tally_releaseCall hscore hlnone, if_neg hne, tally_note, tally_setDelivery,
      h.unborn hc']
    simp [Tally.add, Ne.symm hne]
  · rw [tally_releaseCall hscore hlnone, if_pos rfl, tally_note, tally_setDelivery, ht]
    refine .finished (deliveryResult r) finals first hp hl rfl hfinals hresult ?_
    simp [Tally.add, waited]

/-- The command of a wait that ended moves from `pending` to `late`. -/
def moveLate (x : TransportSessions) (k c : Nat) (id : String) : TransportSessions :=
  (x.setSession k fun s => { s with pending := s.pending.pop id }).setSession k fun s =>
    { s with late := s.late.set id c }

theorem core_moveLate (x : TransportSessions) (k c : Nat) (id : String) (k' : Nat) :
    (x.moveLate k c id).core k' = if k' = k then
      (x.core k').map fun s => { s with pending := s.pending.pop id, late := s.late.set id c }
      else x.core k' := by
  unfold moveLate
  rw [core_setSession _ _ _ (fun s => { s with late := s.late.set id c }) (fun _ => rfl),
    core_setSession _ _ _ (fun s => { s with pending := s.pending.pop id }) (fun _ => rfl)]
  by_cases hk : k' = k
  · simp only [if_pos hk, Option.map_map]
    rfl
  · simp only [if_neg hk]

theorem stopWaiting_of_pending {x : TransportSessions} {k c : Nat} {s : PanelSession} {id : String}
    (hk : x.sessions[k]? = some s) (hopen : s.closedAt = none)
    (hp : s.pending.get? id = some c) :
    x.stopWaiting k id = evictLate k (s.late.size + 1) (x.moveLate k c id) := by
  unfold stopWaiting
  rw [hk]
  simp only [hp, hopen, Option.isSome_none, Bool.false_eq_true, if_false]
  rfl

/-- A new entry stands last. -/
theorem entries_set_new {d : Dict String Nat} {id : String} {c : Nat} (h : d.get? id = none) :
    (d.set id c).entries = d.entries ++ [(id, c)] :=
  Dict.assign_of_not_mem (Dict.get?_eq_none.mp h)

/-- A waiting command whose wait ended, kept for a late answer. -/
theorem CommandsOk.moveLate {x : TransportSessions} (h : CommandsOk x) {c : Nat} {d : Delivery}
    (hd : x.deliveries[c]? = some d) {a : Awaited}
    {r : Except DeliveryError (Option CommandOutcome)} (hr : awaitFuture d a = some r)
    (hf : d.command.future = none) {s : SessionCore} (hs : x.core d.session = some s) :
    s.closedAt = none ∧ s.pending.get? d.commandId = some c ∧ s.late.get? d.commandId = none ∧
      CommandsOk (((x.setDelivery c (waited r)).note (.waitEnded c)).moveLate d.session c
        d.commandId) := by
  obtain ⟨hover, hok, -⟩ := awaitFuture_eq_some hr
  obtain ⟨e, rfl⟩ : ∃ e, r = .error e := by
    cases r with
    | error e => exact ⟨e, rfl⟩
    | ok v =>
      have hv := hok v rfl
      rw [hf] at hv
      cases hv
  cases h.life hd hs with
  | answered o _ _ _ hf' => simp [hf'] at hf
  | abandoned _ _ _ _ hf' => simp [hf'] at hf
  | late e' _ _ ho => simp [ho, Scope.isOver] at hover
  | finished r' finals first _ _ ho => simp [ho, Scope.isOver] at hover
  | waiting hp hl _ _ hsettled ht =>
    have hopen : s.closedAt = none := by
      cases hc : s.closedAt with
      | none => rfl
      | some t =>
        rw [(h.closed hs (by simp [hc])).1] at hp
        simp at hp
    have hlnone : s.late.get? d.commandId = none := by
      cases hc : s.late.get? d.commandId with
      | none => rfl
      | some c' =>
        obtain ⟨e', he, hek, heid⟩ := h.homes hs (Or.inr hc)
        obtain rfl := h.fresh he hd hek heid
        exact absurd hc hl
    refine ⟨hopen, hp, hlnone, ?_⟩
    refine h.onCommand (a := waited (.error e) d) (s := s)
      (t := { s with pending := s.pending.pop d.commandId, late := s.late.set d.commandId c })
      ⟨hd, ?_, ⟨rfl, rfl⟩, ?_, hs, ?_, rfl, ?_, ?_, ?_⟩ ?_ ?_ ?_
    · show ((x.setDelivery c (waited (.error e))).deliveries)[c]? = _
      rw [deliveries_setDelivery, if_pos rfl, hd]
      rfl
    · intro c' hc
      show ((x.setDelivery c (waited (.error e))).deliveries)[c']? = _
      rw [deliveries_setDelivery, if_neg hc]
    · intro k
      rw [core_moveLate, core_note, core_setDelivery]
      by_cases hk : k = d.session
      · rw [if_pos hk, if_pos hk, hk, hs]
        rfl
      · rw [if_neg hk, if_neg hk]
    · intro id hne
      exact ⟨Dict.get?_pop _ _ _ |>.trans (if_neg hne), Dict.get?_set_ne _ _ hne⟩
    · intro c' hin
      simp only [Dict.get?_pop, Dict.get?_set, if_true, reduceCtorEq, false_or,
        Option.some.injEq] at hin
      exact ⟨hin.symm, Or.inl hp⟩
    · intro c' k id hc _
      show ((x.tally c' k id).add c' k id (.waitEnded c)) = _
      simp [Tally.add, Ne.symm hc]
    · intro hc
      simp [hopen] at hc
    · intro c' hc' k id
      have hne : c' ≠ c := by
        have := (List.getElem?_eq_some_iff.mp hd).1
        omega
      show ((x.tally c' k id).add c' k id (.waitEnded c)) = _
      rw [h.unborn hc']
      simp [Tally.add, Ne.symm hne]
    · have htally : (((x.setDelivery c (waited (.error e))).note (.waitEnded c)).moveLate d.session
          c d.commandId).tally c d.session d.commandId =
          (x.tally c d.session d.commandId).add c d.session d.commandId (.waitEnded c) := rfl
      rw [htally, ht]
      refine .late e (by simp) (Dict.get?_set_self _ _ _) rfl hf hsettled ?_
      simp [Tally.add]

/-- A call whose wait ended first: its command is kept, the oldest kept ones give way, and
its release stays with the command. -/
theorem CommandsOk.endUnanswered {x : TransportSessions} (h : CommandsOk x) {c : Nat}
    {d : Delivery} (hd : x.deliveries[c]? = some d) {a : Awaited}
    {r : Except DeliveryError (Option CommandOutcome)} (hr : awaitFuture d a = some r)
    (hf : d.command.future = none)
    (hsmall : LateBounded x) {y : TransportSessions}
    (hy : y = ((x.setDelivery c (waited r)).note (.waitEnded c)).stopWaiting d.session
      d.commandId) :
    CommandsOk y ∧ y.releaseCall c d = y ∧ LateBounded y := by
  obtain ⟨s, hs⟩ := h.known hd
  obtain ⟨p, hp, rfl⟩ : ∃ p, x.sessions[d.session]? = some p ∧ p.core = s := by
    simpa [core, Option.map_eq_some_iff] using hs
  obtain ⟨hopen, hpending, hlnone, hmoved⟩ := h.moveLate hd hr hf hs
  have hp' : ((x.setDelivery c (waited r)).note (.waitEnded c)).sessions[d.session]? = some p := hp
  rw [stopWaiting_of_pending hp' hopen hpending] at hy
  have hcore : (((x.setDelivery c (waited r)).note (.waitEnded c)).moveLate d.session c
      d.commandId).core d.session = some { p.core with
        pending := p.core.pending.pop d.commandId, late := p.core.late.set d.commandId c } := by
    rw [core_moveLate, if_pos rfl, core_note, core_setDelivery, hs]
    rfl
  have hentries := entries_set_new (c := c) hlnone
  have hsize : (p.core.late.set d.commandId c).size = p.late.size + 1 := by
    rw [Dict.size, hentries, List.length_append]
    rfl
  obtain ⟨late, hlate, hlast, hbound⟩ := core_evictLate d.session (p.late.size + 1) hcore
    (e := (d.commandId, c)) (by
      show (p.core.late.set d.commandId c).entries.getLast? = _
      rw [hentries, List.getLast?_concat]) (by
      show (p.core.late.set d.commandId c).size ≤ _
      omega)
  refine ⟨?_, ?_, ?_⟩
  · rw [hy]
    exact hmoved.evictLate _ _
  · rw [hy]
    refine releaseCall_of_late hlate ?_
    exact Dict.get?_eq_some.mpr (List.mem_of_getLast? hlast)
  · intro k s hk
    rw [hy] at hk
    by_cases hkk : k = d.session
    · subst hkk
      rw [hlate, Option.some.injEq] at hk
      subst hk
      exact hbound
    · rw [core_evictLate_other _ _ _ hkk, core_moveLate, if_neg hkk] at hk
      exact hsmall k s hk

theorem releaseCall_congr {x y : TransportSessions} (h : x.coreView = y.coreView) (c : Nat)
    (d : Delivery) : (x.releaseCall c d).coreView = (y.releaseCall c d).coreView := by
  unfold releaseCall
  cases d.caller with
  | uiManage held purpose =>
    simp only
    cases hs : y.core d.session with
    | none =>
      have hx : x.sessions[d.session]? = none := by
        simpa [core] using (core_of_view h d.session).trans hs
      have hy : y.sessions[d.session]? = none := by simpa [core] using hs
      unfold releaseUnlessLate
      rw [hx, hy]
      exact h
    | some s =>
      rw [releaseUnlessLate_eq hs, releaseUnlessLate_eq ((core_of_view h d.session).trans hs)]
      split
      · exact h
      · exact coreView_note_congr h _
  | _ => exact h

theorem LateBounded.of_view {x x' : TransportSessions} (h : LateBounded x)
    (hview : x'.coreView = x.coreView) : LateBounded x' := by
  intro k s hs
  rw [core_of_view hview] at hs
  exact h k s hs

theorem LateBounded.releaseCall {x : TransportSessions} (h : LateBounded x) (c : Nat)
    (d : Delivery) : LateBounded (x.releaseCall c d) := by
  intro k s hs
  rw [core_releaseCall] at hs
  exact h k s hs

/-- From the await of a call to its release, the commands stay in order. -/
theorem CommandsOk.endDelivery {x : TransportSessions} (h : CommandsOk x) (hsmall : LateBounded x)
    {c : Nat} {d : Delivery} (hd : x.deliveries[c]? = some d) {a : Awaited}
    {r : Except DeliveryError (Option CommandOutcome)} (hr : awaitFuture d a = some r) :
    CommandsOk ((x.endDelivery c d r).releaseCall c d) ∧
      LateBounded ((x.endDelivery c d r).releaseCall c d) := by
  obtain ⟨x₁, hx₁, hend⟩ : ∃ x₁ : TransportSessions, x₁.coreView = x.coreView ∧
      (x.endDelivery c d r).coreView = (if d.command.future.isNone then
        ((x₁.setDelivery c (waited r)).note (.waitEnded c)).stopWaiting d.session d.commandId
        else (x₁.setDelivery c (waited r)).note (.waitEnded c)).coreView := by
    have hcount : ∀ (y : TransportSessions) (k : Nat) (name : String),
        (y.setSession k (·.count name)).coreView = y.coreView :=
      fun y k name => coreView_setSession_of_eq y k _ fun _ => rfl
    cases r with
    | error e =>
      cases e with
      | cancelled => exact ⟨x, rfl, rfl⟩
      | panelUnavailable => exact ⟨x.setSession d.session (·.count "timed_out"), hcount _ _ _, rfl⟩
      | approvalPending => exact ⟨x.setSession d.session (·.count "timed_out"), hcount _ _ _, rfl⟩
    | ok outcome =>
      cases outcome with
      | some o => exact ⟨x, rfl, rfl⟩
      | none =>
        refine ⟨x, rfl, ?_⟩
        unfold TransportSessions.endDelivery
        dsimp only
        rw [hcount]
        rfl
  have h₁ := h.of_view hx₁
  have hsmall₁ := hsmall.of_view hx₁
  have hd₁ : x₁.deliveries[c]? = some d := by rw [deliveries_of_view hx₁, hd]
  have hview := releaseCall_congr hend c d
  by_cases hf : d.command.future = none
  · rw [hf, Option.isNone_none, if_pos rfl] at hview
    obtain ⟨hy, hkept, hbound⟩ := h₁.endUnanswered hd₁ hr hf hsmall₁ rfl
    rw [hkept] at hview
    exact ⟨hy.of_view hview, hbound.of_view hview⟩
  · have hnone : d.command.future.isNone = false := by
      cases hc : d.command.future with
      | none => exact absurd hc hf
      | some v => rfl
    rw [hnone, if_neg (by simp)] at hview
    have hsome : d.command.future.isSome = true := by
      cases hc : d.command.future with
      | none => exact absurd hc hf
      | some v => rfl
    refine ⟨(h₁.endAnswered hd₁ hr hsome).of_view hview, ?_⟩
    refine LateBounded.of_view (LateBounded.releaseCall ?_ c d) hview
    exact hsmall₁

end TransportSessions

end PanelAssistant
