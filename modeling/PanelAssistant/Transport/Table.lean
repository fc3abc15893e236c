import PanelAssistant.Transport.Endings

/-!
# The session table

`TableOk`: the live sessions are exactly those without a closing time, each is found under its
entry and its token, and a session is told of its end at most once. No operation on commands
or relays sees any of this; opening and closing a session keep it, as long as a new session
has a token of its own.
-/

namespace PanelAssistant

open Library

/-- The fields of a session by which the table finds it. -/
structure Seat where
  entryId : String
  token : String
  closedAt : Option Nat

def PanelSession.seat (s : PanelSession) : Seat := ⟨s.entryId, s.token, s.closedAt⟩

/-- How often a session was told of its end. -/
def closings (k : Nat) (log : List Note) : Nat :=
  log.countP fun n =>
    match n with
    | .sessionClosed k' _ => k' == k
    | _ => false

namespace TransportSessions

/-- The table without its commands and relays. -/
def tableView (x : TransportSessions) :
    List Seat × Dict String Nat × Dict String Nat × List Note :=
  (x.sessions.map (·.seat), x.byEntry, x.byToken, x.log.filter Note.isClosing)

theorem tableView_commandBlind : CommandBlind tableView where
  deliveries _ _ := rfl
  session x k f hf := by
    have h : ∀ s, (f s).seat = s.seat := by
      intro s
      rw [hf s]
      rfl
    simp only [tableView, setSession, map_modify_of_eq (·.seat) f h]
  note x n hn := by
    cases n <;> first | rfl | cases hn

theorem tableView_relayBlind : RelayBlind tableView where
  relays _ _ := rfl
  subscriptions _ _ := rfl
  session x k f hf := by
    have h : ∀ s, (f s).seat = s.seat := by
      intro s
      rw [hf s]
      rfl
    simp only [tableView, setSession, map_modify_of_eq (·.seat) f h]
  note _ _ _ := rfl

def seat (x : TransportSessions) (k : Nat) : Option Seat := (x.sessions[k]?).map (·.seat)

structure TableOk (x : TransportSessions) : Prop where
  entry : ∀ {e : String} {k : Nat}, x.byEntry.get? e = some k →
    ∃ s, x.seat k = some s ∧ s.entryId = e ∧ s.closedAt = none
  token : ∀ {t : String} {k : Nat}, x.byToken.get? t = some k →
    ∃ s, x.seat k = some s ∧ s.token = t ∧ s.closedAt = none
  live : ∀ {k : Nat} {s : Seat}, x.seat k = some s → s.closedAt = none →
    x.byEntry.get? s.entryId = some k ∧ x.byToken.get? s.token = some k
  told : ∀ k, closings k x.log ≤ 1
  untold : ∀ k, (∀ s, x.seat k = some s → s.closedAt = none) → closings k x.log = 0

theorem seat_of_view {x x' : TransportSessions} (h : x'.tableView = x.tableView) (k : Nat) :
    x'.seat k = x.seat k := by
  have hs : x'.sessions.map (·.seat) = x.sessions.map (·.seat) := congrArg Prod.fst h
  have hk := congrArg (·[k]?) hs
  simpa [seat] using hk

theorem closings_filter (k : Nat) (log : List Note) :
    closings k (log.filter Note.isClosing) = closings k log := by
  unfold closings
  rw [List.countP_filter]
  refine List.countP_congr ?_
  intro n _
  cases n <;> simp [Note.isClosing]

theorem TableOk.of_view {x x' : TransportSessions} (h : TableOk x)
    (hview : x'.tableView = x.tableView) : TableOk x' := by
  have hentry : x'.byEntry = x.byEntry := congrArg (·.2.1) hview
  have htoken : x'.byToken = x.byToken := congrArg (·.2.2.1) hview
  have hlog : x'.log.filter Note.isClosing = x.log.filter Note.isClosing :=
    congrArg (·.2.2.2) hview
  have hclosings : ∀ k, closings k x'.log = closings k x.log := by
    intro k
    rw [← closings_filter, hlog, closings_filter]
  refine ⟨?_, ?_, ?_, ?_, ?_⟩
  · intro e k hk
    rw [hentry] at hk
    rw [seat_of_view hview]
    exact h.entry hk
  · intro t k hk
    rw [htoken] at hk
    rw [seat_of_view hview]
    exact h.token hk
  · intro k s hs hc
    rw [seat_of_view hview] at hs
    rw [hentry, htoken]
    exact h.live hs hc
  · intro k
    rw [hclosings]
    exact h.told k
  · intro k hs
    rw [hclosings]
    refine h.untold k ?_
    intro s hk
    exact hs s ((seat_of_view hview k).trans hk)

theorem seat_setSession (x : TransportSessions) (k : Nat) (f : PanelSession → PanelSession)
    (g : Seat → Seat) (hfg : ∀ s, (f s).seat = g s.seat) (k' : Nat) :
    (x.setSession k f).seat k' = if k' = k then (x.seat k').map g else x.seat k' := by
  simp only [seat, setSession, List.getElem?_modify]
  by_cases h : k' = k
  · subst h
    cases x.sessions[k']? with
    | none => simp
    | some s => simp [hfg]
  · cases x.sessions[k']? with
    | none => simp [h]
    | some s => simp [h, Ne.symm h]

theorem seat_of_session {x : TransportSessions} {k : Nat} {s : PanelSession}
    (h : x.sessions[k]? = some s) : x.seat k = some s.seat := by
  rw [seat, h]
  rfl

theorem tableView_letGo (x : TransportSessions) (s : PanelSession) :
    (x.letGo s).tableView = x.tableView := by
  unfold letGo
  rw [foldl_view (fun x r => tableView_relayBlind.sessionEnded x r),
    foldl_view (fun x c => tableView_commandBlind.settle x c),
    foldl_view (fun x c => tableView_commandBlind.resolve x c none)]

theorem tableView_forget {x : TransportSessions} {k : Nat} {s : PanelSession}
    (hk : x.sessions[k]? = some s) (hlive : x.byEntry.get? s.entryId = some k) :
    (x.forget k).1.tableView = (x.unlist k s).tableView := by
  unfold TransportSessions.forget
  rw [hk]
  simp only [hlive, ne_eq, not_true_eq_false, if_false]
  rw [← tableView_letGo (x.unlist k s) s]
  split <;> rfl

/-! ## Closing -/

/-- A live session leaves the table; the table is in order again, and the session may be told
once. -/
theorem TableOk.unlist {x : TransportSessions} (h : TableOk x) {k : Nat} {s : PanelSession}
    (hk : x.sessions[k]? = some s) (hlive : x.byEntry.get? s.entryId = some k) :
    TableOk (x.unlist k s) ∧ closings k (x.unlist k s).log = 0 := by
  have hseat : ∀ k', (x.unlist k s).seat k' =
      if k' = k then (x.seat k').map fun s => { s with closedAt := some x.now } else x.seat k' :=
    seat_setSession _ k _ (fun s => { s with closedAt := some x.now }) fun _ => rfl
  have hentry : ∀ e, (x.unlist k s).byEntry.get? e =
      if e = s.entryId then none else x.byEntry.get? e := fun e => Dict.get?_pop _ _ _
  have htoken : ∀ t, (x.unlist k s).byToken.get? t =
      if t = s.token then none else x.byToken.get? t := fun t => Dict.get?_pop _ _ _
  have hks := seat_of_session hk
  have hopen : s.closedAt = none := by
    obtain ⟨s', hs', -, hc⟩ := h.entry hlive
    rw [hks, Option.some.injEq] at hs'
    subst hs'
    exact hc
  have hbyToken := (h.live hks hopen).2
  have hzero : closings k x.log = 0 := by
    refine h.untold k ?_
    intro s' hs'
    rw [hks, Option.some.injEq] at hs'
    subst hs'
    exact hopen
  refine ⟨⟨?_, ?_, ?_, h.told, ?_⟩, hzero⟩
  · intro e k' hk'
    rw [hentry] at hk'
    by_cases he : e = s.entryId
    · rw [if_pos he] at hk'
      cases hk'
    · rw [if_neg he] at hk'
      obtain ⟨s', hs', rfl, hc⟩ := h.entry hk'
      have hne : k' ≠ k := by
        rintro rfl
        rw [hks, Option.some.injEq] at hs'
        subst hs'
        exact he rfl
      exact ⟨s', by rw [hseat, if_neg hne, hs'], rfl, hc⟩
  · intro t k' hk'
    rw [htoken] at hk'
    by_cases ht : t = s.token
    · rw [if_pos ht] at hk'
      cases hk'
    · rw [if_neg ht] at hk'
      obtain ⟨s', hs', rfl, hc⟩ := h.token hk'
      have hne : k' ≠ k := by
        rintro rfl
        rw [hks, Option.some.injEq] at hs'
        subst hs'
        exact ht rfl
      exact ⟨s', by rw [hseat, if_neg hne, hs'], rfl, hc⟩
  · intro k' s' hs' hc
    rw [hseat] at hs'
    by_cases hkk : k' = k
    · rw [if_pos hkk, hkk, hks, Option.map_some, Option.some.injEq] at hs'
      subst hs'
      cases hc
    · rw [if_neg hkk] at hs'
      obtain ⟨he, ht⟩ := h.live hs' hc
      have hene : s'.entryId ≠ s.entryId := by
        intro heq
        rw [heq, hlive, Option.some.injEq] at he
        exact hkk he.symm
      have htne : s'.token ≠ s.token := by
        intro heq
        have hsame : x.byToken.get? s.token = some k := hbyToken
        rw [heq, hsame, Option.some.injEq] at ht
        exact hkk ht.symm
      rw [hentry, htoken, if_neg hene, if_neg htne]
      exact ⟨he, ht⟩
  · intro k' hs'
    by_cases hkk : k' = k
    · rw [hkk]
      exact hzero
    · refine h.untold k' ?_
      intro s' hk'
      exact hs' s' (by rw [hseat, if_neg hkk, hk'])

theorem TableOk.forget {x : TransportSessions} (h : TableOk x) (k : Nat) :
    TableOk (x.forget k).1 := by
  by_cases hlive : ∃ s, x.sessions[k]? = some s ∧ x.byEntry.get? s.entryId = some k
  · obtain ⟨s, hk, hs⟩ := hlive
    exact (h.unlist hk hs).1.of_view (tableView_forget hk hs)
  · rw [forget_of_stale fun s hk hs => hlive ⟨s, hk, hs⟩]
    exact h

/-- The session is told of its end, for the first time. -/
theorem TableOk.tell {x : TransportSessions} (h : TableOk x) {k : Nat} {s : Seat}
    (hk : x.seat k = some s) (hclosed : s.closedAt ≠ none) (hzero : closings k x.log = 0)
    (reason : String) : TableOk (x.note (.sessionClosed k reason)) := by
  have hcount : ∀ k', closings k' (x.note (.sessionClosed k reason)).log =
      closings k' x.log + if k = k' then 1 else 0 := by
    intro k'
    simp [closings, TransportSessions.note, List.countP_cons]
  refine ⟨h.entry, h.token, h.live, ?_, ?_⟩
  · intro k'
    rw [hcount]
    by_cases hkk : k = k'
    · subst hkk
      rw [hzero, if_pos rfl]
    · rw [if_neg hkk]
      exact h.told k'
  · intro k' hs'
    rw [hcount]
    by_cases hkk : k = k'
    · subst hkk
      exact absurd (hs' s hk) hclosed
    · rw [if_neg hkk]
      exact h.untold k' hs'

/-- What `close` says once the session is forgotten. -/
def sayClosed (x : TransportSessions) (k : Nat) (s : PanelSession) (reason : String)
    (announce : Bool) : TransportSessions :=
  let x := { x with subscriptions := x.subscriptions.pop (s.connection, s.subscriptionId) }
  let x := x.note (.sessionClosed k reason)
  if announce then x.changed s.entryId else x

/-- `close` on a live session, and on any other. -/
theorem close_eq (x : TransportSessions) (k : Nat) (reason : String) (announce : Bool) :
    (∃ s, x.sessions[k]? = some s ∧ x.byEntry.get? s.entryId = some k ∧
      x.close k reason announce = (x.forget k).1.sayClosed k s reason announce) ∨
    ((∀ s, x.sessions[k]? = some s → x.byEntry.get? s.entryId ≠ some k) ∧
      x.close k reason announce = x) := by
  by_cases hlive : ∃ s, x.sessions[k]? = some s ∧ x.byEntry.get? s.entryId = some k
  · obtain ⟨s, hk, hs⟩ := hlive
    refine Or.inl ⟨s, hk, hs, ?_⟩
    have htrue := (forget_of_live hk hs).1
    unfold close
    rw [hk]
    generalize x.forget k = p at htrue
    obtain ⟨y, b⟩ := p
    simp only at htrue
    subst htrue
    rfl
  · have hstale : ∀ s, x.sessions[k]? = some s → x.byEntry.get? s.entryId ≠ some k :=
      fun s hk hs => hlive ⟨s, hk, hs⟩
    refine Or.inr ⟨hstale, ?_⟩
    unfold close
    rw [forget_of_stale hstale]
    split
    · rename_i heq
      cases heq
    · rfl

theorem coreView_sayClosed (x : TransportSessions) (k : Nat) (s : PanelSession) (reason : String)
    (announce : Bool) :
    (x.sayClosed k s reason announce).coreView = (x.note (.sessionClosed k reason)).coreView := by
  unfold sayClosed
  dsimp only
  split <;> rfl

theorem tableView_sayClosed (x : TransportSessions) (k : Nat) (s : PanelSession) (reason : String)
    (announce : Bool) :
    (x.sayClosed k s reason announce).tableView =
      (x.note (.sessionClosed k reason)).tableView := by
  unfold sayClosed
  dsimp only
  split <;> rfl

theorem tableView_note_congr {x y : TransportSessions} (h : x.tableView = y.tableView) (n : Note) :
    (x.note n).tableView = (y.note n).tableView := by
  have hsessions := congrArg Prod.fst h
  have hentry := congrArg (·.2.1) h
  have htoken := congrArg (·.2.2.1) h
  have hlog := congrArg (·.2.2.2) h
  simp only [tableView] at hsessions hentry htoken hlog
  simp only [tableView, note, List.filter_cons, hsessions, hentry, htoken, hlog]

theorem TableOk.close {x : TransportSessions} (h : TableOk x) (k : Nat) (reason : String)
    (announce : Bool) : TableOk (x.close k reason announce) := by
  rcases close_eq x k reason announce with ⟨s, hk, hs, heq⟩ | ⟨-, heq⟩
  · obtain ⟨hok, hzero⟩ := h.unlist hk hs
    have hseat : (x.unlist k s).seat k = some { s.seat with closedAt := some x.now } := by
      rw [TransportSessions.unlist, seat_setSession _ k _
        (fun s => { s with closedAt := some x.now }) fun _ => rfl, if_pos rfl]
      exact congrArg (Option.map fun s : Seat => { s with closedAt := some x.now })
        (seat_of_session hk)
    rw [heq]
    refine (hok.tell hseat (by simp) hzero reason).of_view ?_
    rw [tableView_sayClosed]
    exact tableView_note_congr (tableView_forget hk hs) _
  · rw [heq]
    exact h

theorem tableView_changed (x : TransportSessions) (entryId : String) :
    (x.changed entryId).tableView = x.tableView := rfl

theorem tableView_clearRestartNotice (x : TransportSessions) (entryId : String) :
    (x.clearRestartNotice entryId).tableView = x.tableView := by
  unfold clearRestartNotice
  split <;> rfl

/-- A closed session's entry is free. -/
theorem byEntry_close {x : TransportSessions} (h : TableOk x) {e : String} {k : Nat}
    (hlive : x.byEntry.get? e = some k) (reason : String) (announce : Bool) :
    (x.close k reason announce).byEntry.get? e = none := by
  obtain ⟨s', hs', rfl, -⟩ := h.entry hlive
  obtain ⟨s, hk, rfl⟩ : ∃ s, x.sessions[k]? = some s ∧ s.seat = s' := by
    simpa [seat, Option.map_eq_some_iff] using hs'
  rcases close_eq x k reason announce with ⟨s₁, hk₁, hs₁, heq⟩ | ⟨hstale, -⟩
  · rw [hk, Option.some.injEq] at hk₁
    subst hk₁
    have hview := (tableView_sayClosed (x.forget k).1 k s reason announce)
    have hentry : ((x.forget k).1.sayClosed k s reason announce).byEntry =
        (x.forget k).1.byEntry := congrArg (·.2.1) hview
    have hforget : (x.forget k).1.byEntry = x.byEntry.pop s.entryId :=
      congrArg (·.2.1) (tableView_forget hk hlive)
    rw [heq, hentry, hforget]
    exact Dict.get?_pop _ _ _ |>.trans (if_pos rfl)
  · exact absurd hlive (hstale s hk)

/-- Closing changes no token. -/
theorem token_close (x : TransportSessions) (k : Nat) (reason : String) (announce : Bool)
    {k' : Nat} {s : Seat} (hs : (x.close k reason announce).seat k' = some s) :
    ∃ s', x.seat k' = some s' ∧ s'.token = s.token := by
  rcases close_eq x k reason announce with ⟨p, hk, hp, heq⟩ | ⟨-, heq⟩
  · rw [heq, seat_of_view (tableView_sayClosed _ _ _ _ _)] at hs
    have hs' : (x.forget k).1.seat k' = some s := hs
    rw [seat_of_view (tableView_forget hk hp), unlist, seat_setSession _ k _
      (fun s => { s with closedAt := some x.now }) fun _ => rfl] at hs'
    by_cases hkk : k' = k
    · rw [if_pos hkk] at hs'
      obtain ⟨s', hs'', rfl⟩ := Option.map_eq_some_iff.mp hs'
      exact ⟨s', hs'', rfl⟩
    · rw [if_neg hkk] at hs'
      exact ⟨s, hs', rfl⟩
  · rw [heq] at hs
    exact ⟨s, hs, rfl⟩

/-! ## Opening -/

/-- A session joins a table that has no live session of its entry. -/
def enlist (x : TransportSessions) (s : PanelSession) : TransportSessions :=
  { x with
    sessions := x.sessions ++ [s]
    byEntry := x.byEntry.set s.entryId x.sessions.length
    byToken := x.byToken.set s.token x.sessions.length
    lastByEntry := x.lastByEntry.pop s.entryId
    subscriptions := x.subscriptions.set (s.connection, s.subscriptionId)
      (.teardown x.sessions.length) }

/-- The table a new session finds: the earlier session of its entry is superseded. -/
def supersede (x : TransportSessions) (entryId : String) : TransportSessions :=
  (match x.byEntry.get? entryId with
    | none => x
    | some previous => x.close previous "superseded" false).clearRestartNotice entryId

theorem openSession_eq (x : TransportSessions) (s : PanelSession) :
    x.openSession s = ((x.supersede s.entryId).enlist s).changed s.entryId := rfl

theorem seat_enlist (x : TransportSessions) (s : PanelSession) (k : Nat) :
    (x.enlist s).seat k = if k = x.sessions.length then some s.seat else x.seat k := by
  show ((x.sessions ++ [s])[k]?).map (·.seat) = _
  by_cases hk : k = x.sessions.length
  · rw [if_pos hk, hk, List.getElem?_concat_length]
    rfl
  · rw [if_neg hk]
    rcases Nat.lt_or_ge k x.sessions.length with hlt | hge
    · rw [List.getElem?_append_left hlt]
      rfl
    · have hgt : x.sessions.length < k := Nat.lt_of_le_of_ne hge (Ne.symm hk)
      rw [List.getElem?_eq_none (by simp; omega), seat, List.getElem?_eq_none hge]

theorem seat_lt {x : TransportSessions} {k : Nat} {s : Seat} (h : x.seat k = some s) :
    k < x.sessions.length := by
  simp only [seat, Option.map_eq_some_iff] at h
  obtain ⟨p, hp, -⟩ := h
  exact (List.getElem?_eq_some_iff.mp hp).1

theorem TableOk.enlist {x : TransportSessions} (h : TableOk x) {s : PanelSession}
    (hopen : s.closedAt = none) (hentry : x.byEntry.get? s.entryId = none)
    (htoken : ∀ (k : Nat) s', x.seat k = some s' → s'.token ≠ s.token) :
    TableOk (x.enlist s) := by
  have hbyEntry : ∀ e, (x.enlist s).byEntry.get? e =
      if e = s.entryId then some x.sessions.length else x.byEntry.get? e :=
    fun e => Dict.get?_set _ _ _ _
  have hbyToken : ∀ t, (x.enlist s).byToken.get? t =
      if t = s.token then some x.sessions.length else x.byToken.get? t :=
    fun t => Dict.get?_set _ _ _ _
  have hkeep : ∀ {k : Nat} {s' : Seat}, x.seat k = some s' → (x.enlist s).seat k = some s' := by
    intro k s' hs'
    rw [seat_enlist, if_neg (Nat.ne_of_lt (seat_lt hs')), hs']
  have hnew : (x.enlist s).seat x.sessions.length = some s.seat := by
    rw [seat_enlist, if_pos rfl]
  refine ⟨?_, ?_, ?_, h.told, ?_⟩
  · intro e k hk
    rw [hbyEntry] at hk
    by_cases he : e = s.entryId
    · rw [if_pos he, Option.some.injEq] at hk
      subst hk
      exact ⟨s.seat, hnew, he.symm, hopen⟩
    · rw [if_neg he] at hk
      obtain ⟨s', hs', hrest⟩ := h.entry hk
      exact ⟨s', hkeep hs', hrest⟩
  · intro t k hk
    rw [hbyToken] at hk
    by_cases ht : t = s.token
    · rw [if_pos ht, Option.some.injEq] at hk
      subst hk
      exact ⟨s.seat, hnew, ht.symm, hopen⟩
    · rw [if_neg ht] at hk
      obtain ⟨s', hs', hrest⟩ := h.token hk
      exact ⟨s', hkeep hs', hrest⟩
  · intro k s' hs' hc
    rw [seat_enlist] at hs'
    by_cases hk : k = x.sessions.length
    · rw [if_pos hk, Option.some.injEq] at hs'
      subst hs'
      rw [hbyEntry, hbyToken]
      exact ⟨(if_pos rfl).trans (congrArg some hk.symm), (if_pos rfl).trans (congrArg some hk.symm)⟩
    · rw [if_neg hk] at hs'
      obtain ⟨he, ht⟩ := h.live hs' hc
      have hene : s'.entryId ≠ s.entryId := by
        intro heq
        rw [heq, hentry] at he
        cases he
      rw [hbyEntry, hbyToken, if_neg hene, if_neg (htoken k s' hs')]
      exact ⟨he, ht⟩
  · intro k hs'
    refine h.untold k ?_
    intro s' hk
    exact hs' s' (hkeep hk)

theorem TableOk.supersede {x : TransportSessions} (h : TableOk x) (entryId : String) :
    TableOk (x.supersede entryId) ∧ (x.supersede entryId).byEntry.get? entryId = none ∧
      ∀ (k : Nat) s, (x.supersede entryId).seat k = some s →
        ∃ s', x.seat k = some s' ∧ s'.token = s.token := by
  unfold TransportSessions.supersede
  have hview := fun y : TransportSessions => tableView_clearRestartNotice y entryId
  have hbyEntry : ∀ y : TransportSessions, (y.clearRestartNotice entryId).byEntry = y.byEntry :=
    fun y => congrArg (·.2.1) (hview y)
  cases hprevious : x.byEntry.get? entryId with
  | none =>
    refine ⟨h.of_view (hview x), by rw [hbyEntry]; exact hprevious, ?_⟩
    intro k s hs
    exact ⟨s, (seat_of_view (hview x) k).symm.trans hs, rfl⟩
  | some previous =>
    refine ⟨(h.close previous _ _).of_view (hview _), ?_, ?_⟩
    · rw [hbyEntry]
      exact byEntry_close h hprevious _ _
    · intro k s hs
      exact token_close x previous "superseded" false ((seat_of_view (hview _) k).symm.trans hs)

theorem TableOk.openSession {x : TransportSessions} (h : TableOk x) {s : PanelSession}
    (hopen : s.closedAt = none)
    (htoken : ∀ (k : Nat) s', x.seat k = some s' → s'.token ≠ s.token) :
    TableOk (x.openSession s) := by
  obtain ⟨hok, hfree, htokens⟩ := h.supersede s.entryId
  rw [openSession_eq]
  refine (hok.enlist hopen hfree ?_).of_view (tableView_changed _ _)
  intro k s' hs' heq
  obtain ⟨s'', hs'', ht⟩ := htokens k s' hs'
  exact htoken k s'' hs'' (ht.trans heq)

end TransportSessions

end PanelAssistant
