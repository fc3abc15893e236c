import PanelAssistant.Transport.Growth

/-!
# The session table over any run

What the invariant says about the sessions themselves, and what becomes of the commands a
session still waits for when it closes: each is resolved with `none`, once and for all.
-/

namespace PanelAssistant

open Library

/-- What a note resolves the future of a command with. -/
def Note.resolution (c : Nat) : Note → Option (Option CommandOutcome)
  | .resolved c' result => if c' = c then some result else none
  | _ => none

/-- What a command's future was resolved with, in order. -/
def resolutionsOf (c : Nat) (log : List Note) : List (Option CommandOutcome) :=
  log.reverse.filterMap (Note.resolution c)

theorem Tally.resolutions_add (c k : Nat) (id : String) (t : Tally) (n : Note) :
    (t.add c k id n).resolutions = t.resolutions ++ (n.resolution c).toList := by
  cases n with
  | resolved c' result =>
    by_cases hc : c' = c
    · simp [Tally.add, Note.resolution, hc]
    · simp [Tally.add, Note.resolution, hc]
  | resultReported k' msg =>
    simp only [Tally.add, Note.resolution, Tally.hear, Option.toList_none, List.append_nil]
    split
    · split <;> rfl
    · rfl
  | sent k' c' id' request deadlineMs =>
    simp only [Tally.add, Note.resolution, Option.toList_none, List.append_nil]
    split <;> rfl
  | recorded c' o late =>
    simp only [Tally.add, Note.resolution, Option.toList_none, List.append_nil]
    split <;> rfl
  | released c' held =>
    simp only [Tally.add, Note.resolution, Option.toList_none, List.append_nil]
    split <;> rfl
  | waitEnded c' =>
    simp only [Tally.add, Note.resolution, Option.toList_none, List.append_nil]
    split <;> rfl
  | _ => exact (List.append_nil t.resolutions).symm

theorem tallyOf_resolutions (c k : Nat) (id : String) (log : List Note) :
    (tallyOf c k id log).resolutions = resolutionsOf c log := by
  induction log with
  | nil => rfl
  | cons n rest ih =>
    have hadd := Tally.resolutions_add c k id (tallyOf c k id rest) n
    rw [ih] at hadd
    rw [resolutionsOf, List.reverse_cons, TransportSessions.filterMap_concat]
    exact hadd

namespace TransportSessions

/-! ## Sessions that close -/

/-- An open session stays as it was, or closes with every future it waited for resolved with
`none`; a closed one stays as it was. -/
structure Keeps (x x' : TransportSessions) : Prop where
  grows : Grows x x'
  shut : ∀ {k : Nat} {s : SessionCore}, x.core k = some s → s.closedAt.isSome → x'.core k = some s
  opened : ∀ {k : Nat} {s : SessionCore}, x.core k = some s → s.closedAt = none →
    x'.core k = some s ∨
      (∃ s', x'.core k = some s' ∧ s'.closedAt.isSome) ∧
        ∀ id c, s.pending.get? id = some c →
          ∃ d, x'.deliveries[c]? = some d ∧ d.command.future = some none

theorem Keeps.refl (x : TransportSessions) : Keeps x x :=
  ⟨.refl x, fun hs _ => hs, fun hs _ => Or.inl hs⟩

theorem Keeps.of_core {x x' : TransportSessions} (hgrows : Grows x x')
    (hcore : ∀ k s, x.core k = some s → x'.core k = some s) : Keeps x x' :=
  ⟨hgrows, fun hs _ => hcore _ _ hs, fun hs _ => Or.inl (hcore _ _ hs)⟩

theorem Keeps.trans {x y z : TransportSessions} (h : Keeps x y) (h' : Keeps y z) : Keeps x z := by
  refine ⟨h.grows.trans h'.grows, ?_, ?_⟩
  · intro k s hs hshut
    exact h'.shut (h.shut hs hshut) hshut
  · intro k s hs hopen
    rcases h.opened hs hopen with hy | ⟨⟨s', hs', hshut⟩, hresolved⟩
    · exact h'.opened hy hopen
    · refine Or.inr ⟨⟨s', h'.shut hs' hshut, hshut⟩, ?_⟩
      intro id c hid
      obtain ⟨d, hd, hf⟩ := hresolved id c hid
      obtain ⟨d', hd', he⟩ := h'.grows.delivery hd
      exact ⟨d', hd', he.future none hf⟩

theorem core_forget_of_live {x : TransportSessions} {k : Nat} {s : PanelSession}
    (hk : x.sessions[k]? = some s) (hlive : x.byEntry.get? s.entryId = some k) (k' : Nat) :
    (x.forget k).1.core k' = if k' = k then
      (x.core k').map fun s => { s with closedAt := some x.now, pending := ∅, late := ∅ }
      else x.core k' := by
  rw [core_of_view (forget_of_live hk hlive).2, core_releaseCommands, core_unlist]

theorem Traced.keeps_forget {x : TransportSessions} {tokens ids : List String}
    (h : Traced tokens ids x) (k : Nat) : Keeps x (x.forget k).1 := by
  by_cases hlive : ∃ s, x.sessions[k]? = some s ∧ x.byEntry.get? s.entryId = some k
  · obtain ⟨s, hk, hs⟩ := hlive
    have hcore := core_forget_of_live hk hs
    refine ⟨grows_forget x k, ?_, ?_⟩
    · intro k' r hr hshut
      rw [hcore, if_neg]
      · exact hr
      · rintro rfl
        -- A live session is open.
        obtain ⟨seat, hseat, -, hopen⟩ := h.ok.table.entry hs
        rw [seat_of_session hk, Option.some.injEq] at hseat
        rw [core_of_session hk, Option.some.injEq] at hr
        subst hseat hr
        have hnone : s.core.closedAt = none := hopen
        rw [hnone] at hshut
        cases hshut
    · intro k' r hr _
      by_cases hkk : k' = k
      · subst hkk
        refine Or.inr ⟨⟨{ r with closedAt := some x.now, pending := ∅, late := ∅ }, ?_, rfl⟩, ?_⟩
        · rw [hcore, if_pos rfl, hr]
          rfl
        · intro id c hid
          rw [core_of_session hk, Option.some.injEq] at hr
          subst hr
          have hcommands := h.ok.commands
          have hks := core_of_session hk
          obtain ⟨d, hd, rfl, rfl⟩ := hcommands.homes hks (Or.inl hid)
          have hmem := (hcommands.mem_pending hks hd).mpr ⟨rfl, hid⟩
          have hfuture : d.command.future = none := by
            cases hcommands.life hd hks with
            | waiting _ _ _ hf => exact hf
            | answered _ hp => exact absurd hid hp
            | abandoned _ hp => exact absurd hid hp
            | late _ hp => exact absurd hid hp
            | finished _ _ _ hp => exact absurd hid hp
          obtain ⟨hself, -⟩ := foldl_resolve_self (x := x.unlist d.session s)
            (hcommands.values_nodup hks).1 hmem none hd hfuture
          obtain ⟨d', hd', he⟩ := (grows_foldl grows_settle s.core.late.values _).delivery hself
          refine ⟨d', ?_, he.future none rfl⟩
          rw [deliveries_of_view (forget_of_live hk hs).2]
          exact hd'
      · exact Or.inl (by rw [hcore, if_neg hkk, hr])
  · rw [forget_of_stale fun s hk hs => hlive ⟨s, hk, hs⟩]
    exact .refl x

theorem keeps_quiet {x x' : TransportSessions} (hgrows : Grows x x')
    (hsessions : x'.sessions = x.sessions) : Keeps x x' := by
  refine .of_core hgrows ?_
  intro k s hs
  rw [core, hsessions]
  exact hs

section Keeps

variable {x : TransportSessions} {tokens ids : List String}

theorem Traced.keeps_close (h : Traced tokens ids x) (k : Nat) (reason : String)
    (announce : Bool) : Keeps x (x.close k reason announce) := by
  rcases close_eq x k reason announce with ⟨s, -, -, heq⟩ | ⟨-, heq⟩
  · rw [heq]
    refine (h.keeps_forget k).trans (keeps_quiet (grows_sayClosed _ _ _ _ _) ?_)
    unfold sayClosed
    dsimp only
    split <;> rfl
  · rw [heq]
    exact .refl x

theorem Traced.keeps_teardown (h : Traced tokens ids x) (k : Nat) : Keeps x (x.teardown k) := by
  rcases teardown_eq x k with ⟨s, -, -, heq⟩ | ⟨-, heq⟩
  · rw [heq]
    exact (h.keeps_forget k).trans (keeps_quiet (grows_changed _ _) rfl)
  · rw [heq]
    exact .refl x

theorem Traced.keeps_closeUser (h : Traced tokens ids x) (userId reason : String) :
    Keeps x (x.closeUser userId reason) := by
  unfold TransportSessions.closeUser
  dsimp only
  generalize x.byEntry.values.filter _ = own
  induction own generalizing x with
  | nil => exact .refl x
  | cons k rest ih => exact (h.keeps_close k reason true).trans (ih (h.close k reason true))

theorem sessions_clearRestartNotice (x : TransportSessions) (entryId : String) :
    (x.clearRestartNotice entryId).sessions = x.sessions := by
  unfold clearRestartNotice
  split <;> rfl

theorem Traced.keeps_openSession (h : Traced tokens ids x) (s : PanelSession) :
    Keeps x (x.openSession s) := by
  have hsuperseded : Keeps x (x.supersede s.entryId) := by
    unfold supersede
    split
    · exact keeps_quiet (grows_clearRestartNotice _ _) (sessions_clearRestartNotice _ _)
    · exact (h.keeps_close _ _ _).trans
        (keeps_quiet (grows_clearRestartNotice _ _) (sessions_clearRestartNotice _ _))
  have henlisted : Keeps (x.supersede s.entryId) ((x.supersede s.entryId).enlist s) := by
    refine .of_core (.of_eq rfl rfl) ?_
    intro k r hr
    rw [core_enlist, if_neg (Nat.ne_of_lt (core_lt hr)), hr]
  rw [openSession_eq]
  exact (hsuperseded.trans henlisted).trans (keeps_quiet (grows_changed _ _) rfl)

theorem tableView_blind : Blind tableView :=
  ⟨tableView_commandBlind, tableView_relayBlind, fun _ _ => rfl, fun _ _ => rfl, fun _ _ => rfl,
    fun _ _ => rfl, fun _ _ _ => rfl⟩

theorem seat_of_core {k : Nat} {s : SessionCore} (h : x.core k = some s) :
    x.seat k = some ⟨s.entryId, s.token, s.closedAt⟩ := by
  obtain ⟨p, hp, rfl⟩ := Option.map_eq_some_iff.mp h
  exact seat_of_session hp

theorem tableView_report (F : WireFormats) (x : TransportSessions) (k : Nat) (s : PanelSession)
    (msg : Report) : (x.report F k s msg).tableView = x.tableView := by
  obtain ⟨l, hl, -, heq⟩ := report_eq F x k s msg
  rw [heq]
  simp only [tableView, setSession, filter_append_of_none (fun n hn => (hl n hn).2)]
  rw [map_modify_of_eq]
  exact fun _ => rfl

/-- A session that a step closes had every future it waited for resolved with `none`. -/
theorem Traced.abandons_step (F : WireFormats) (h : Traced tokens ids x) (m : TransportMove)
    {k : Nat} {s s' : SessionCore} (hs : x.core k = some s) (hopen : s.closedAt = none)
    (hs' : (step F x m).core k = some s') (hshut : s'.closedAt ≠ none) {id : String} {c : Nat}
    (hid : s.pending.get? id = some c) :
    ∃ d, (step F x m).deliveries[c]? = some d ∧ d.command.future = some none := by
  have hkeeps : Keeps x (step F x m) →
      ∃ d, (step F x m).deliveries[c]? = some d ∧ d.command.future = some none := by
    intro hk
    rcases hk.opened hs hopen with hsame | ⟨-, hresolved⟩
    · rw [hsame, Option.some.injEq] at hs'
      subst hs'
      exact absurd hopen hshut
    · exact hresolved id c hid
  have hquiet : (step F x m).tableView = x.tableView →
      ∃ d, (step F x m).deliveries[c]? = some d ∧ d.command.future = some none := by
    intro hview
    have hseat := seat_of_view hview k
    rw [seat_of_core hs, seat_of_core hs', Option.some.injEq, Seat.mk.injEq] at hseat
    exact absurd (hseat.2.2.trans hopen) hshut
  by_cases hm : m.isQuiet = true
  · exact hquiet (tableView_blind.step F x hm)
  · cases m with
    | hello hello => exact hkeeps (h.keeps_openSession _)
    | close k' reason => exact hkeeps (h.keeps_close k' reason true)
    | closeEntry entryId reason =>
      refine hkeeps ?_
      show Keeps x (x.closeEntry entryId reason)
      unfold closeEntry
      split
      · exact .refl x
      · exact h.keeps_close _ _ _
    | closeUser userId reason => exact hkeeps (h.keeps_closeUser userId reason)
    | teardown k' => exact hkeeps (h.keeps_teardown k')
    | report token connection msg =>
      exact hquiet (view_onSession fun k s => tableView_report F x k s msg)
    | _ => exact absurd rfl hm

end Keeps

/-! ## The table -/

/-- What holds of the session table. -/
structure SessionTable (x : TransportSessions) : Prop where
  live : ∀ {k : Nat} {s : PanelSession}, x.sessions[k]? = some s →
    (x.isLive k = true ↔ s.closedAt = none)
  one : ∀ {k k' : Nat} {s s' : PanelSession}, x.sessions[k]? = some s →
    x.sessions[k']? = some s' → x.isLive k = true → x.isLive k' = true → s.entryId = s'.entryId →
      k = k'
  entries : ∀ {entryId : String} {k : Nat}, x.byEntry.get? entryId = some k ↔
    ∃ s, x.sessions[k]? = some s ∧ s.entryId = entryId ∧ x.isLive k = true
  tokens : ∀ {token : String} {k : Nat}, x.byToken.get? token = some k ↔
    ∃ s, x.sessions[k]? = some s ∧ s.token = token ∧ x.byEntry.get? s.entryId = some k
  closed : ∀ {k : Nat} {s : PanelSession}, x.sessions[k]? = some s → s.closedAt ≠ none →
    s.pending = ∅ ∧ s.late = ∅ ∧ s.uiRelays = ∅
  told : ∀ k, closings k x.log ≤ 1
  stale : ∀ k, x.isLive k = false → x.teardown k = x

theorem isLive_iff {x : TransportSessions} {k : Nat} {s : PanelSession}
    (hk : x.sessions[k]? = some s) : x.isLive k = true ↔ x.byEntry.get? s.entryId = some k := by
  simp only [isLive, hk, decide_eq_true_eq]

theorem TransportOk.sessionTable {x : TransportSessions} (h : TransportOk x) :
    SessionTable x where
  live := by
    intro k s hk
    rw [isLive_iff hk]
    constructor
    · intro hlive
      obtain ⟨seat, hseat, -, hopen⟩ := h.table.entry hlive
      rw [seat_of_session hk, Option.some.injEq] at hseat
      subst hseat
      exact hopen
    · intro hopen
      exact (h.table.live (seat_of_session hk) hopen).1
  one := by
    intro k k' s s' hk hk' hlive hlive' hentry
    rw [isLive_iff hk, hentry] at hlive
    rw [isLive_iff hk', hlive, Option.some.injEq] at hlive'
    exact hlive'
  entries := by
    intro entryId k
    constructor
    · intro hentry
      obtain ⟨seat, hseat, he, -⟩ := h.table.entry hentry
      obtain ⟨s, hs, rfl⟩ := Option.map_eq_some_iff.mp hseat
      have hid : s.entryId = entryId := he
      exact ⟨s, hs, hid, (isLive_iff hs).mpr (hid ▸ hentry)⟩
    · rintro ⟨s, hs, rfl, hlive⟩
      exact (isLive_iff hs).mp hlive
  tokens := by
    intro token k
    constructor
    · intro htoken
      obtain ⟨seat, hseat, ht, hopen⟩ := h.table.token htoken
      have hlive := (h.table.live hseat hopen).1
      obtain ⟨s, hs, rfl⟩ := Option.map_eq_some_iff.mp hseat
      exact ⟨s, hs, ht, hlive⟩
    · rintro ⟨s, hs, rfl, hentry⟩
      obtain ⟨seat, hseat, -, hopen⟩ := h.table.entry hentry
      rw [seat_of_session hs, Option.some.injEq] at hseat
      subst hseat
      exact (h.table.live (seat_of_session hs) hopen).2
  closed := by
    intro k s hk hshut
    obtain ⟨t, ht⟩ := Option.ne_none_iff_exists'.mp hshut
    have hcommands := h.commands.closed (core_of_session hk) (by
      show s.closedAt.isSome
      rw [ht]
      rfl)
    have hcarrier := carrier_of_session hk
    rw [ht] at hcarrier
    exact ⟨hcommands.1, hcommands.2, h.carriers k t s.uiRelays hcarrier⟩
  told := h.table.told
  stale := by
    intro k hstale
    rcases teardown_eq x k with ⟨s, hk, hlive, -⟩ | ⟨-, heq⟩
    · rw [(isLive_iff hk).mpr hlive] at hstale
      cases hstale
    · exact heq

/-- A command whose future was resolved with `none` was resolved once. -/
theorem CommandsOk.resolutions_of_abandoned {x : TransportSessions} (h : CommandsOk x) {c : Nat}
    {d : Delivery} (hd : x.deliveries[c]? = some d) (hf : d.command.future = some none) :
    resolutionsOf c x.log = [none] := by
  obtain ⟨s, hs⟩ := h.known hd
  rw [← tallyOf_resolutions c d.session d.commandId]
  show (x.tally c d.session d.commandId).resolutions = [none]
  cases h.life hd hs with
  | waiting _ _ _ hn => rw [hn] at hf; cases hf
  | answered o _ _ _ ho => rw [ho] at hf; cases hf
  | abandoned _ _ _ _ _ ht => rw [ht]
  | late _ _ _ _ hn => rw [hn] at hf; cases hf
  | finished _ _ _ _ _ _ _ _ ht => rw [ht, hf]; rfl

/-- The session table after any run with distinct tokens and command ids, and the futures a
session waited for when a move of the run closed it. -/
theorem session_table_invariant (F : WireFormats) {moves : List TransportMove}
    (h : DistinctDraws moves) : SessionTable (run F moves) ∧
      ∀ before m after, moves = before ++ m :: after → ∀ (k : Nat) (s s' : PanelSession),
        (run F before).sessions[k]? = some s → s.closedAt = none →
        (run F (before ++ [m])).sessions[k]? = some s' → s'.closedAt ≠ none →
        ∀ id c, s.pending.get? id = some c →
          (∃ d, (run F moves).deliveries[c]? = some d ∧ d.command.future = some none) ∧
            resolutionsOf c (run F moves).log = [none] := by
  refine ⟨(transportOk_run F h).sessionTable, ?_⟩
  rintro before m after rfl k s s' hs hopen hs' hshut id c hid
  have hbefore : DistinctDraws before := by
    obtain ⟨htokens, hids⟩ := h
    rw [List.filterMap_append] at htokens hids
    exact ⟨htokens.of_append_left, hids.of_append_left⟩
  have hstep : run F (before ++ [m]) = step F (run F before) m := Runs.run_concat _ _ _ _
  rw [hstep] at hs'
  obtain ⟨d, hd, hf⟩ := (traced_run F hbefore).abandons_step F m (core_of_session hs) hopen
    (core_of_session hs') hshut hid
  have hgrows := grows_run F (before ++ [m]) after
  rw [List.append_assoc, List.singleton_append, hstep] at hgrows
  obtain ⟨d', hd', he⟩ := hgrows.delivery hd
  have hf' := he.future none hf
  exact ⟨⟨d', hd', hf'⟩, (transportOk_run F h).commands.resolutions_of_abandoned hd' hf'⟩

/-- A panel that says hello for the entry `kitchen`. -/
def kitchenHello (token : String) (connection : Nat) : Hello where
  entryId := "kitchen"
  token
  connection
  subscriptionId := 1
  userId := "panel"
  capabilities := [capabilityManagement]
  channels := []
  prereleasePanelBuilds := none
  voiceStreamClientId := none
  accepted := rfl

theorem session_table_invariant_superseded :
    resolutionsOf 0 (run ⟨fun _ => none, fun _ => .malformed⟩
      [.hello (kitchenHello "t0" 1), .manage 0 "restart" [] ⟨false, false⟩ ⟨"c0", "s0"⟩,
        .hello (kitchenHello "t1" 2), .teardown 0]).log = [none] :=
  ((session_table_invariant ⟨fun _ => none, fun _ => .malformed⟩ ⟨by decide, by decide⟩).2
    [.hello (kitchenHello "t0" 1), .manage 0 "restart" [] ⟨false, false⟩ ⟨"c0", "s0"⟩]
    (.hello (kitchenHello "t1" 2)) [.teardown 0] rfl 0 _ _ rfl rfl rfl (by simp) "c0" 0 rfl).2

end TransportSessions

end PanelAssistant
