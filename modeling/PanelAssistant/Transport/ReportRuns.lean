import PanelAssistant.Transport.Batches
import PanelAssistant.Transport.TableRuns

/-!
# Reports over any run

What a session holds of its reports can be read off what was reported on it: the decisions
about its observations, the events that were fired, and whether a full sync was ended that
had begun. No operation but a report sees any of this.
-/

namespace PanelAssistant

open Library TransportSessions

/-! ## Reading a log -/

/-- The session a report, or an event it fired, is of. -/
def Note.reportOf : Note → Option Nat
  | .reported k _ _ _ => some k
  | .eventFired k _ _ _ => some k
  | _ => none

/-- A state report that begins a full sync of the session and is answered with a result. -/
def Note.beginsSync (k : Nat) : Note → Bool
  | .reported k' _ (.state m) (.rejected _) => k' = k && m.sync = .fullBegin
  | _ => false

def Note.endsSync (k : Nat) : Note → Bool
  | .reported k' _ (.state m) (.rejected _) => k' = k && m.sync = .fullEnd
  | _ => false

def Note.firedId (k : Nat) : Note → Option Nat
  | .eventFired k' id _ _ => if k' = k then some id else none
  | _ => none

/-- The decisions of one report of the session; one that is refused decides nothing. -/
def Note.decided (F : WireFormats) (descriptors : Dict String Descriptor) (k : Nat) :
    Note → List (String × Verdict)
  | .reported _ _ (.state _) (.error _ _) => []
  | .reported k' t (.state m) _ => if k' = k then decisions F descriptors t m.observations else []
  | _ => []

/-- Whether a full sync was ended that had begun; the last note stands first. -/
def completedIn (k : Nat) : List Note → Bool
  | [] => false
  | n :: older => completedIn k older || (n.endsSync k && older.any (Note.beginsSync k))

/-- The ids of the events that were fired, the last first. -/
def firedIn (k : Nat) (log : List Note) : List Nat := log.filterMap (Note.firedId k)

/-- What was decided about the observations of a session, in order. -/
def decidedIn (F : WireFormats) (descriptors : Dict String Descriptor) (k : Nat) :
    List Note → List (String × Verdict)
  | [] => []
  | n :: older => decidedIn F descriptors k older ++ n.decided F descriptors k

/-- What a note of a session says, against the notes before it. -/
def Note.Faithful (F : WireFormats) (descriptors : Dict String Descriptor) (k : Nat)
    (older : List Note) : Note → Prop
  | .eventFired k' _ _ _ => k' = k → completedIn k older = true
  | .reported k' t (.state m) (.rejected l) => k' = k →
    l = unstored (decisions F descriptors t m.observations) ∧
      (decisions F descriptors t m.observations).length = m.observations.length
  | .reported k' _ (.event e) .result => k' = k →
    (∃ before, older = .eventFired k e.eventId e.channel e.eventType :: before ∧
      ∀ id ∈ firedIn k before, id < e.eventId) ∨ ∃ id ∈ firedIn k older, e.eventId ≤ id
  | _ => True

/-! ## What a session holds -/

/-- The session holds what the log says was reported on it. -/
structure Reported (F : WireFormats) (k : Nat) (s : SessionReports) (log : List Note) : Prop where
  described : ∃ channels, channelsAccepted channels = true ∧ s.descriptors = describe channels
  kept : Kept F s (decidedIn F s.descriptors k log)
  complete : s.fullSyncComplete = completedIn k log
  begun : s.fullSyncComplete = false → s.fullSyncBegun = log.any (Note.beginsSync k)
  counted : s.eventsReceived = (firedIn k log).length
  mark : s.lastEventId = ((firedIn k log).head?.map Int.ofNat).getD (-1)
  ordered : (firedIn k log).Pairwise (· > ·)
  faithful : ∀ newer n older, log = newer ++ n :: older → n.Faithful F s.descriptors k older

theorem Reported.faithful_cons {F : WireFormats} {k : Nat} {s : SessionReports} {log : List Note}
    (h : Reported F k s log) {n : Note} (hn : n.Faithful F s.descriptors k log) (newer : List Note)
    (n' : Note) (older : List Note) (heq : n :: log = newer ++ n' :: older) :
    n'.Faithful F s.descriptors k older := by
  cases newer with
  | nil =>
    rw [List.nil_append, List.cons.injEq] at heq
    obtain ⟨rfl, rfl⟩ := heq
    exact hn
  | cons m newer =>
    rw [List.cons_append, List.cons.injEq] at heq
    exact h.faithful newer n' older heq.2

/-- A note that says nothing about the session. -/
theorem Reported.ignore {F : WireFormats} {k : Nat} {s : SessionReports} {log : List Note}
    (h : Reported F k s log) {n : Note} (hn : n.reportOf ≠ some k) : Reported F k s (n :: log) := by
  have hbegins : n.beginsSync k = false := by
    unfold Note.beginsSync
    split
    · rename_i k' t m l
      have hne : k' ≠ k := fun he => hn (congrArg some he)
      simp [hne]
    · rfl
  have hends : n.endsSync k = false := by
    unfold Note.endsSync
    split
    · rename_i k' t m l
      have hne : k' ≠ k := fun he => hn (congrArg some he)
      simp [hne]
    · rfl
  have hfired : n.firedId k = none := by
    unfold Note.firedId
    split
    · rename_i k' id channel eventType
      exact if_neg fun he => hn (congrArg some he)
    · rfl
  have hdecided : n.decided F s.descriptors k = [] := by
    unfold Note.decided
    split
    · rfl
    · rename_i k' t m answer _
      exact if_neg fun he => hn (congrArg some he)
    · rfl
  have hfaithful : n.Faithful F s.descriptors k log := by
    unfold Note.Faithful
    split
    · exact fun he => absurd (congrArg some he) hn
    · exact fun he => absurd (congrArg some he) hn
    · exact fun he => absurd (congrArg some he) hn
    · trivial
  have hids : firedIn k (n :: log) = firedIn k log := by
    rw [firedIn, List.filterMap_cons_none hfired, firedIn]
  refine ⟨h.described, ?_, ?_, ?_, ?_, ?_, ?_, h.faithful_cons hfaithful⟩
  · rw [decidedIn, hdecided, List.append_nil]
    exact h.kept
  · rw [completedIn, hends, Bool.false_and, Bool.or_false]
    exact h.complete
  · rw [List.any_cons, hbegins, Bool.false_or]
    exact h.begun
  · rw [hids]
    exact h.counted
  · rw [hids]
    exact h.mark
  · rw [hids]
    exact h.ordered

theorem Reported.ignoreAll {F : WireFormats} {k : Nat} {s : SessionReports} {log : List Note}
    (h : Reported F k s log) {l : List Note} (hl : ∀ n ∈ l, n.reportOf ≠ some k) :
    Reported F k s (l ++ log) := by
  induction l with
  | nil => exact h
  | cons n rest ih =>
    exact (ih fun n hn => hl n (List.mem_cons_of_mem _ hn)).ignore (hl n List.mem_cons_self)

/-- A message on the session that is refused, or acknowledged without effect. -/
theorem Reported.answered {F : WireFormats} {k : Nat} {s : SessionReports} {log : List Note}
    (h : Reported F k s log) {t : Nat} {msg : Report} {answer : Answer}
    (hdecided : (Note.reported k t msg answer).decided F s.descriptors k = [])
    (hnot : ∀ l, answer ≠ .rejected l)
    (hfaithful : (Note.reported k t msg answer).Faithful F s.descriptors k log) :
    Reported F k s (.reported k t msg answer :: log) := by
  have hbegins : (Note.reported k t msg answer).beginsSync k = false := by
    unfold Note.beginsSync
    split
    · rename_i l heq
      cases heq
      exact absurd rfl (hnot l)
    · rfl
  have hends : (Note.reported k t msg answer).endsSync k = false := by
    unfold Note.endsSync
    split
    · rename_i l heq
      cases heq
      exact absurd rfl (hnot l)
    · rfl
  have hids : firedIn k (Note.reported k t msg answer :: log) = firedIn k log := rfl
  refine ⟨h.described, ?_, ?_, ?_, h.counted, h.mark, h.ordered, h.faithful_cons hfaithful⟩
  · rw [decidedIn, hdecided, List.append_nil]
    exact h.kept
  · rw [completedIn, hends, Bool.false_and, Bool.or_false]
    exact h.complete
  · rw [List.any_cons, hbegins, Bool.false_or]
    exact h.begun

/-! ## Events -/

theorem firedIn_head_le {k : Nat} {log : List Note}
    (h : (firedIn k log).Pairwise (· > ·)) {id : Nat}
    (hid : id ∈ firedIn k log) :
    (id : Int) ≤ ((firedIn k log).head?.map Int.ofNat).getD (-1) := by
  cases hl : firedIn k log with
  | nil => simp [hl] at hid
  | cons first rest =>
    rw [hl] at hid h
    rw [List.head?_cons, Option.map_some, Option.getD_some]
    rcases List.mem_cons.mp hid with rfl | hin
    · exact Int.le_refl _
    · have hgt := (List.pairwise_cons.mp h).1 id hin
      show (id : Int) ≤ (first : Int)
      omega

theorem Reported.event {F : WireFormats} {k : Nat} {s : SessionReports} {log : List Note}
    (h : Reported F k s log) (t : Nat) (e : EventReport) :
    Reported F k (reportEvent s e).reports
      (.reported k t (.event e) (reportEvent s e).answer ::
        (firedNotes k (.event e) (reportEvent s e) ++ log)) := by
  have hrefused : ∀ code message, Reported F k s
      (.reported k t (.event e) (.error code message) :: ([] ++ log)) :=
    fun code message => h.answered rfl (fun l he => nomatch he) trivial
  unfold reportEvent
  split
  · exact hrefused _ _
  · split
    · exact hrefused _ _
    · split
      · exact hrefused _ _
      · rename_i hcomplete
        have hsynced : s.fullSyncComplete = true := by simpa using hcomplete
        split
        · exact hrefused _ _
        · split
          · rename_i habove
            rw [h.mark] at habove
            have hlast : ∀ id ∈ firedIn k log, id < e.eventId := by
              intro id hid
              have hle := firedIn_head_le h.ordered hid
              omega
            have hfired : Reported F k
                { s with lastEventId := e.eventId, eventsReceived := s.eventsReceived + 1 }
                (.eventFired k e.eventId e.channel e.eventType :: log) := by
              have hids : firedIn k (.eventFired k e.eventId e.channel e.eventType :: log) =
                  e.eventId :: firedIn k log := by
                have hid : Note.firedId k (.eventFired k e.eventId e.channel e.eventType) =
                    some e.eventId := if_pos rfl
                rw [firedIn, List.filterMap_cons_some hid, firedIn]
              have hends : (Note.eventFired k e.eventId e.channel e.eventType).endsSync k = false :=
                rfl
              have hbegins : (Note.eventFired k e.eventId e.channel e.eventType).beginsSync k =
                  false := rfl
              have hdecided : (Note.eventFired k e.eventId e.channel e.eventType).decided F
                  s.descriptors k = [] := rfl
              refine ⟨h.described, ?_, ?_, ?_, ?_, ?_, ?_, h.faithful_cons ?_⟩
              · have hkept := h.kept
                rw [decidedIn, hdecided, List.append_nil]
                exact ⟨hkept.judged, hkept.observations, hkept.rejections⟩
              · rw [completedIn, hends, Bool.false_and, Bool.or_false]
                exact h.complete
              · rw [List.any_cons, hbegins, Bool.false_or]
                exact h.begun
              · rw [hids, List.length_cons, ← h.counted]
              · rw [hids]
                rfl
              · rw [hids]
                exact List.pairwise_cons.mpr ⟨hlast, h.ordered⟩
              · intro _
                rw [← h.complete, hsynced]
            have hdone : Reported F k
                { s with lastEventId := e.eventId, eventsReceived := s.eventsReceived + 1 }
                (.reported k t (.event e) .result ::
                  .eventFired k e.eventId e.channel e.eventType :: log) :=
              hfired.answered rfl (fun l he => nomatch he) fun _ => Or.inl ⟨log, rfl, hlast⟩
            exact hdone
          · rename_i hbelow
            rw [h.mark] at hbelow
            suffices hin : ∃ id ∈ firedIn k log, e.eventId ≤ id by
              have hdone : Reported F k s (.reported k t (.event e) .result :: log) :=
                h.answered rfl (fun l he => nomatch he) fun _ => Or.inr hin
              exact hdone
            cases hl : firedIn k log with
            | nil =>
              rw [hl] at hbelow
              simp only [List.head?_nil, Option.map_none, Option.getD_none] at hbelow
              omega
            | cons first rest =>
              rw [hl, List.head?_cons, Option.map_some, Option.getD_some] at hbelow
              refine ⟨first, List.mem_cons_self, ?_⟩
              have : (e.eventId : Int) ≤ (first : Int) := by
                simpa using hbelow
              omega

/-! ## States -/

theorem Kept.of_same {F : WireFormats} {s s' : SessionReports} {ds : List (String × Verdict)}
    (h : Kept F s ds) (hdescriptors : s'.descriptors = s.descriptors)
    (hobservations : s'.observations = s.observations)
    (hrejections : s'.rejections = s.rejections) :
    Kept F s' ds := by
  refine ⟨?_, ?_, ?_⟩
  · intro c v hin
    rw [hdescriptors]
    exact h.judged hin
  · intro c
    rw [hobservations]
    exact h.observations c
  · intro c
    rw [hrejections]
    exact h.rejections c

/-- A state report whose observations were decided, all or up to one that raised. -/
theorem Reported.processed {F : WireFormats} {k : Nat} {s s' : SessionReports} {log : List Note}
    (h : Reported F k s log) {t : Nat} {msg : StateReport} {answer : Answer}
    (hanswer : ∀ code message, answer ≠ .error code message)
    (hkept : Kept F s' (decidedIn F s.descriptors k log ++
      decisions F s.descriptors t msg.observations))
    (hdescriptors : s'.descriptors = s.descriptors)
    (hcomplete : s'.fullSyncComplete =
      completedIn k (.reported k t (.state msg) answer :: log))
    (hbegun : s'.fullSyncComplete = false → s'.fullSyncBegun =
      (Note.reported k t (.state msg) answer :: log).any (Note.beginsSync k))
    (hevents : s'.eventsReceived = s.eventsReceived ∧ s'.lastEventId = s.lastEventId)
    (hfaithful : (Note.reported k t (.state msg) answer).Faithful F s.descriptors k log) :
    Reported F k s' (.reported k t (.state msg) answer :: log) := by
  have hids : firedIn k (Note.reported k t (.state msg) answer :: log) = firedIn k log := rfl
  have hdecided : (Note.reported k t (.state msg) answer).decided F s.descriptors k =
      decisions F s.descriptors t msg.observations := by
    cases answer with
    | error code message => exact absurd rfl (hanswer code message)
    | _ => exact if_pos rfl
  refine ⟨?_, ?_, hcomplete, hbegun, ?_, ?_, ?_, ?_⟩
  · rw [hdescriptors]
    exact h.described
  · rw [hdescriptors, decidedIn, hdecided]
    exact hkept
  · rw [hids, hevents.1]
    exact h.counted
  · rw [hids, hevents.2]
    exact h.mark
  · rw [hids]
    exact h.ordered
  · rw [hdescriptors]
    exact h.faithful_cons hfaithful

theorem Reported.state {F : WireFormats} {k : Nat} {s : SessionReports} {log : List Note}
    (h : Reported F k s log) (t : Nat) (msg : StateReport) :
    Reported F k (reportState F s t msg).reports
      (.reported k t (.state msg) (reportState F s t msg).answer :: log) := by
  unfold reportState
  split
  · exact h.answered rfl (fun l he => nomatch he) trivial
  · rename_i hallowed
    have htaken : Taken F t msg.observations (decidedIn F s.descriptors k log) ⟨s, [], []⟩
        (takeObservations F t msg.observations ⟨s, [], []⟩).1
        (takeObservations F t msg.observations ⟨s, [], []⟩).2 :=
      taken_takeObservations msg.observations h.kept
    generalize takeObservations F t msg.observations ⟨s, [], []⟩ = taken at htaken
    obtain ⟨b, raised⟩ := taken
    obtain ⟨hkept, hsame, hrejected, hdecided⟩ := htaken
    dsimp only at hkept hsame hrejected hdecided
    cases raised with
    | true =>
      have hends : (Note.reported k t (.state msg) .raised).endsSync k = false := rfl
      have hbegins : (Note.reported k t (.state msg) .raised).beginsSync k = false := rfl
      dsimp only
      refine h.processed (fun _ _ he => nomatch he) hkept hsame.descriptors ?_ ?_
        ⟨hsame.eventsReceived, hsame.lastEventId⟩ trivial
      · rw [completedIn, hends, Bool.false_and, Bool.or_false, ← h.complete]
        exact hsame.fullSyncComplete
      · rw [List.any_cons, hbegins, Bool.false_or]
        intro hcomplete
        rw [show b.reports.fullSyncComplete = s.fullSyncComplete from hsame.fullSyncComplete]
          at hcomplete
        exact hsame.fullSyncBegun.trans (h.begun hcomplete)
    | false =>
      have hlength := hdecided rfl
      have hfaithful : (Note.reported k t (.state msg) (.rejected b.rejected)).Faithful F
          s.descriptors k log := by
        intro _
        exact ⟨by simpa using hrejected, hlength⟩
      dsimp only
      unfold finishReport
      cases hsync : msg.sync with
      | fullBegin =>
        refine h.processed (fun _ _ he => nomatch he) (hkept.of_same rfl rfl rfl) hsame.descriptors
          ?_ ?_ ⟨hsame.eventsReceived, hsame.lastEventId⟩ hfaithful
        · rw [completedIn, ← h.complete]
          simp only [Note.endsSync, hsync, reduceCtorEq, decide_false, Bool.and_false,
            Bool.false_and, Bool.or_false]
          exact hsame.fullSyncComplete
        · intro _
          simp [Note.beginsSync, hsync]
      | delta =>
        refine h.processed (fun _ _ he => nomatch he) (hkept.of_same rfl rfl rfl) hsame.descriptors
          ?_ ?_ ⟨hsame.eventsReceived, hsame.lastEventId⟩ hfaithful
        · rw [completedIn, ← h.complete]
          simp only [Note.endsSync, hsync, reduceCtorEq, decide_false, Bool.and_false,
            Bool.false_and, Bool.or_false]
          exact hsame.fullSyncComplete
        · intro hcomplete
          rw [show b.reports.fullSyncComplete = s.fullSyncComplete from hsame.fullSyncComplete]
            at hcomplete
          rw [List.any_cons]
          simp only [Note.beginsSync, hsync, reduceCtorEq, decide_false, Bool.and_false,
            Bool.false_or]
          exact hsame.fullSyncBegun.trans (h.begun hcomplete)
      | fullEnd =>
        refine h.processed (fun _ _ he => nomatch he) (hkept.of_same rfl rfl rfl) hsame.descriptors
          ?_ (fun hcomplete => by cases hcomplete) ⟨hsame.eventsReceived, hsame.lastEventId⟩
          hfaithful
        rw [completedIn, ← h.complete]
        simp only [Note.endsSync, hsync, decide_true, Bool.and_true, Bool.true_and]
        -- Either the sync had completed before, or it had begun.
        cases hcomplete : s.fullSyncComplete with
        | true => rfl
        | false =>
          rw [← h.begun hcomplete, Bool.false_or]
          cases hbegun : s.fullSyncBegun with
          | true => rfl
          | false => exact absurd ⟨hsync, hbegun, hcomplete⟩ hallowed

/-- A report handled on its session. -/
theorem Reported.handle {F : WireFormats} {k : Nat} {s : SessionReports} {log : List Note}
    (h : Reported F k s log) (t : Nat) (msg : Report) :
    Reported F k (s.handle F t msg).reports
      (.reported k t msg (s.handle F t msg).answer :: (firedNotes k msg (s.handle F t msg) ++
        log)) := by
  cases msg with
  | state msg => exact h.state t msg
  | event e => exact h.event t e

theorem reported_fresh (F : WireFormats) (k : Nat) {channels : List Descriptor}
    (hchannels : channelsAccepted channels = true) {log : List Note}
    (hlog : ∀ n ∈ log, n.reportOf ≠ some k) :
    Reported F k (SessionReports.fresh (describe channels)) log := by
  have hempty : Reported F k (SessionReports.fresh (describe channels)) [] := by
    refine ⟨⟨channels, hchannels, rfl⟩, ⟨?_, ?_, ?_⟩, rfl, fun _ => rfl, rfl,
      rfl, List.Pairwise.nil, ?_⟩
    · intro c v hin
      cases hin
    · exact fun _ => rfl
    · exact fun _ => rfl
    · intro newer n older heq
      simp at heq
  have hall := hempty.ignoreAll hlog
  rwa [List.append_nil] at hall

/-! ## What a session stores -/

theorem completedIn_append {k : Nat} {log : List Note} (h : completedIn k log = true)
    (newer : List Note) : completedIn k (newer ++ log) = true := by
  induction newer with
  | nil => exact h
  | cons n rest ih =>
    rw [List.cons_append, completedIn, ih, Bool.true_or]

/-- What a session stores, against what was decided about its observations. -/
structure StoresAdmitted (F : WireFormats) (k : Nat) (s : SessionReports) (log : List Note) :
    Prop where
  hello : ∃ channels, channelsAccepted channels = true ∧ s.descriptors = describe channels
  admitted : ∀ {c : String} {o : Observation}, s.observations.get? c = some o → Admitted F s c o
  refused : ∀ {c code : String}, s.rejections.get? c = some code →
    ∃ d, s.descriptors.get? c = some d
  /-- For a described channel whose platform reports values. -/
  rejections : ∀ {c : String} {d : Descriptor} {validate : Validator},
    s.descriptors.get? c = some d → valueValidator F d.platform = some validate →
      ((∃ code, s.rejections.get? c = some code) ↔
        ∃ code, lastVerdict c (decidedIn F s.descriptors k log) = some (.refused code))
  lastAccepted : ∀ c, s.observations.get? c = lastStored c (decidedIn F s.descriptors k log)
  sync : s.fullSyncComplete = completedIn k log
  answers : ∀ newer t m rejected older,
    log = newer ++ .reported k t (.state m) (.rejected rejected) :: older →
      rejected = unstored (decisions F s.descriptors t m.observations) ∧
        (decisions F s.descriptors t m.observations).length = m.observations.length

theorem Reported.storesAdmitted {F : WireFormats} {k : Nat} {s : SessionReports}
    {log : List Note} (h : Reported F k s log) : StoresAdmitted F k s log where
  hello := h.described
  admitted := h.kept.admitted
  refused := h.kept.rejected
  rejections := by
    intro c d validate _ _
    rw [h.kept.rejections]
    constructor
    · rintro ⟨code, hcode⟩
      obtain ⟨v, hv, hvcode⟩ := Option.bind_eq_some_iff.mp hcode
      cases v with
      | refused code' => exact ⟨code', hv⟩
      | _ => cases hvcode
    · rintro ⟨code, hcode⟩
      rw [hcode]
      exact ⟨code, rfl⟩
  lastAccepted := h.kept.observations
  sync := h.complete
  answers := by
    intro newer t m rejected older heq
    exact h.faithful newer _ older heq rfl

namespace TransportSessions

/-! ## Steps -/

/-- Reports and the events they fired, the last first. -/
def reportLog (x : TransportSessions) : List Note := x.log.filter Note.isReport

/-- Every session holds what was reported on it, and nothing was reported on others. -/
structure ReportsOk (F : WireFormats) (view : List SessionReports × List Note) : Prop where
  held : ∀ {k : Nat} {s : SessionReports}, view.1[k]? = some s → Reported F k s view.2
  known : ∀ n ∈ view.2, ∀ k, n.reportOf = some k → k < view.1.length

theorem reportView_letGo (x : TransportSessions) (s : PanelSession) :
    (x.letGo s).reportView = x.reportView := by
  unfold letGo
  rw [foldl_view (fun x r => reportView_relayBlind.sessionEnded x r),
    foldl_view (fun x c => reportView_commandBlind.settle x c),
    foldl_view (fun x c => reportView_commandBlind.resolve x c none)]

theorem reportView_unlist (x : TransportSessions) (k : Nat) (s : PanelSession) :
    (x.unlist k s).reportView = x.reportView := by
  simp only [reportView, unlist, setSession]
  rw [map_modify_of_eq]
  exact fun _ => rfl

theorem reportView_forget (x : TransportSessions) (k : Nat) :
    (x.forget k).1.reportView = x.reportView := by
  unfold forget
  split
  · rfl
  · rename_i s _
    split
    · rfl
    · have hgo : ((x.unlist k s).letGo s).reportView = x.reportView := by
        rw [reportView_letGo, reportView_unlist]
      dsimp only
      split
      · exact hgo
      · exact hgo

theorem reportView_close (x : TransportSessions) (k : Nat) (reason : String) (announce : Bool) :
    (x.close k reason announce).reportView = x.reportView := by
  rcases close_eq x k reason announce with ⟨s, -, -, heq⟩ | ⟨-, heq⟩
  · rw [heq, ← reportView_forget x k]
    unfold sayClosed
    dsimp only
    split <;> rfl
  · rw [heq]

theorem reportView_teardown (x : TransportSessions) (k : Nat) :
    (x.teardown k).reportView = x.reportView := by
  rcases teardown_eq x k with ⟨s, -, -, heq⟩ | ⟨-, heq⟩
  · rw [heq, ← reportView_forget x k]
    rfl
  · rw [heq]

theorem reportView_openSession (x : TransportSessions) (s : PanelSession) :
    (x.openSession s).reportView = (x.reportView.1 ++ [s.toSessionReports], x.reportView.2) := by
  have hsuperseded : (x.supersede s.entryId).reportView = x.reportView := by
    unfold supersede
    rw [reportView_blind.clearRestartNotice]
    split
    · rfl
    · exact reportView_close _ _ _ _
  rw [openSession_eq, ← hsuperseded]
  simp only [reportView, enlist, changed, note, List.map_append, List.map_cons, List.map_nil]
  rfl

theorem ReportsOk.hello {F : WireFormats} {view : List SessionReports × List Note}
    (h : ReportsOk F view) {channels : List Descriptor}
    (hchannels : channelsAccepted channels = true) :
    ReportsOk F (view.1 ++ [SessionReports.fresh (describe channels)], view.2) := by
  refine ⟨?_, ?_⟩
  · intro k s hs
    rcases Nat.lt_trichotomy k view.1.length with hlt | heq | hgt
    · rw [List.getElem?_append_left hlt] at hs
      exact h.held hs
    · subst heq
      rw [List.getElem?_concat_length, Option.some.injEq] at hs
      subst hs
      refine reported_fresh F _ hchannels ?_
      intro n hn hk
      exact Nat.lt_irrefl _ (h.known n hn _ hk)
    · rw [List.getElem?_eq_none (by simp; omega)] at hs
      cases hs
  · intro n hn k hk
    rw [List.length_append]
    exact Nat.lt_of_lt_of_le (h.known n hn k hk) (Nat.le_add_right _ _)

theorem reportOf_firedNotes {k : Nat} {msg : Report} {handled : Handled} {n : Note}
    (hn : n ∈ firedNotes k msg handled) : n.reportOf = some k := by
  cases msg with
  | state msg => cases hn
  | event e =>
    simp only [firedNotes] at hn
    split at hn
    · rw [List.mem_singleton.mp hn]
      rfl
    · cases hn

theorem ReportsOk.report {F : WireFormats} {x : TransportSessions} (h : ReportsOk F x.reportView)
    {k : Nat} {s : PanelSession} (hk : x.sessions[k]? = some s) (msg : Report) :
    ReportsOk F (x.report F k s msg).reportView := by
  obtain ⟨l, -, hl, heq⟩ := report_eq F x k s msg
  have hlog : (x.report F k s msg).reportView.2 =
      .reported k x.now msg (s.toSessionReports.handle F x.now msg).answer ::
        (firedNotes k msg (s.toSessionReports.handle F x.now msg) ++ x.reportView.2) := by
    rw [heq]
    show (l ++ x.log).filter Note.isReport = _
    rw [List.filter_append, hl]
    rfl
  have hsessions : (x.report F k s msg).reportView.1 = (x.sessions.modify k fun s' => { s' with
      toSessionReports := (s.toSessionReports.handle F x.now msg).reports }).map
        (·.toSessionReports) := by
    rw [heq]
    rfl
  have hget : ∀ k' : Nat, (x.report F k s msg).reportView.1[k']? = if k' = k then
      some (s.toSessionReports.handle F x.now msg).reports else x.reportView.1[k']? := by
    intro k'
    rw [hsessions, List.getElem?_map, List.getElem?_modify]
    by_cases hkk : k' = k
    · subst hkk
      rw [if_pos rfl, hk]
      simp
    · rw [if_neg hkk]
      simp only [if_neg (Ne.symm hkk), reportView, List.getElem?_map]
      cases x.sessions[k']? <;> rfl
  have hlength : (x.report F k s msg).reportView.1.length = x.reportView.1.length := by
    rw [hsessions, List.length_map, List.length_modify, reportView, List.length_map]
  have hks : x.reportView.1[k]? = some s.toSessionReports := by
    rw [reportView, List.getElem?_map, hk]
    rfl
  refine ⟨?_, ?_⟩
  · intro k' s' hs'
    rw [hget] at hs'
    rw [hlog]
    by_cases hkk : k' = k
    · subst hkk
      rw [if_pos rfl, Option.some.injEq] at hs'
      subst hs'
      exact (h.held hks).handle x.now msg
    · rw [if_neg hkk] at hs'
      have hother := h.held hs'
      refine (hother.ignoreAll (l := firedNotes k msg _) ?_).ignore ?_
      · intro n hn he
        rw [reportOf_firedNotes hn, Option.some.injEq] at he
        exact hkk he.symm
      · intro he
        exact hkk (Option.some.inj he).symm
  · intro n hn k' hk'
    rw [hlength]
    rw [hlog] at hn
    have hlt : k < x.reportView.1.length := (List.getElem?_eq_some_iff.mp hks).1
    rcases List.mem_cons.mp hn with rfl | hn
    · cases hk'
      exact hlt
    · rcases List.mem_append.mp hn with hn | hn
      · rw [reportOf_firedNotes hn, Option.some.injEq] at hk'
        exact hk' ▸ hlt
      · exact h.known n hn k' hk'

theorem reportView_closeUser (x : TransportSessions) (userId reason : String) :
    (x.closeUser userId reason).reportView = x.reportView :=
  foldl_view (fun x k => reportView_close x k reason true) _ x

theorem reportsOk_step (F : WireFormats) {x : TransportSessions} (h : ReportsOk F x.reportView)
    (m : TransportMove) : ReportsOk F (step F x m).reportView := by
  have hsame : (step F x m).reportView = x.reportView → ReportsOk F (step F x m).reportView :=
    fun hview => hview ▸ h
  by_cases hm : m.isQuiet = true
  · exact hsame (reportView_blind.step F x hm)
  · cases m with
    | hello hello =>
      show ReportsOk F (x.openSession hello.session).reportView
      rw [reportView_openSession]
      exact h.hello hello.accepted
    | close k reason => exact hsame (reportView_close x k reason true)
    | closeEntry entryId reason =>
      refine hsame ?_
      show (x.closeEntry entryId reason).reportView = _
      unfold closeEntry
      split
      · rfl
      · exact reportView_close _ _ _ _
    | closeUser userId reason => exact hsame (reportView_closeUser x userId reason)
    | teardown k => exact hsame (reportView_teardown x k)
    | report token connection msg =>
      show ReportsOk F (x.onSession token connection fun k s => x.report F k s msg).reportView
      unfold onSession
      split
      · exact h
      · split
        · exact h
        · rename_i hs
          exact h.report hs msg
    | _ => exact absurd rfl hm

/-- The run lemma. -/
theorem reportsOk_run (F : WireFormats) (moves : List TransportMove) :
    ReportsOk F (run F moves).reportView := by
  refine Runs.run_inv (fun x : TransportSessions => ReportsOk F x.reportView)
    (fun x m h => reportsOk_step F h m) ?_ moves
  refine ⟨?_, ?_⟩
  · intro k s hs
    simp [reportView, initial] at hs
  · intro n hn
    cases hn

theorem reported_run (F : WireFormats) (moves : List TransportMove) {k : Nat} {s : PanelSession}
    (hs : (run F moves).sessions[k]? = some s) :
    Reported F k s.toSessionReports (run F moves).reportLog := by
  refine (reportsOk_run F moves).held ?_
  rw [reportView, List.getElem?_map, hs]
  rfl

/-! ## Events -/

/-- How the events of a session relate to what was acknowledged. -/
structure EventsFireOnce (k : Nat) (s : PanelSession) (log : List Note) : Prop where
  /-- The ids that fired grow, so each fired once. -/
  ordered : (firedIn k log).Pairwise (· > ·)
  counted : s.eventsReceived = (firedIn k log).length
  mark : s.lastEventId = ((firedIn k log).head?.map Int.ofNat).getD (-1)
  synced : ∀ newer id channel eventType older,
    log = newer ++ .eventFired k id channel eventType :: older → completedIn k older = true
  /-- An acknowledged id was fired by its message if it was above all that had fired, and
  otherwise stands at or below one that had. -/
  acknowledged : ∀ newer t e older, log = newer ++ .reported k t (.event e) .result :: older →
    (∃ before, older = .eventFired k e.eventId e.channel e.eventType :: before ∧
      ∀ id ∈ firedIn k before, id < e.eventId) ∨ ∃ id ∈ firedIn k older, e.eventId ≤ id

theorem panel_events_fire_once (F : WireFormats) (moves : List TransportMove) (k : Nat)
    (s : PanelSession) (hs : (run F moves).sessions[k]? = some s) :
    EventsFireOnce k s (run F moves).reportLog := by
  have h := reported_run F moves hs
  refine ⟨h.ordered, h.counted, h.mark, ?_, ?_⟩
  · intro newer id channel eventType older heq
    exact h.faithful newer _ older heq rfl
  · intro newer t e older heq
    exact h.faithful newer _ older heq rfl

/-- A panel with one button, whose first event comes before the full sync and again after a
later one. -/
def retriedEventMoves : List TransportMove :=
  [.hello { kitchenHello "t0" 1 with
      channels := [⟨"button", .event, none, none, none, some ["press"], none, none, none⟩]
      accepted := by decide },
    .report "t0" 1 (.event ⟨"button", 1, "press"⟩),
    .report "t0" 1 (.state ⟨.fullBegin, []⟩),
    .report "t0" 1 (.state ⟨.fullEnd, []⟩),
    .report "t0" 1 (.event ⟨"button", 2, "press"⟩),
    .report "t0" 1 (.event ⟨"button", 1, "press"⟩)]

theorem panel_events_fire_once_retried :
    EventsFireOnce 0 ((run ⟨fun _ => none, fun _ => .malformed⟩ retriedEventMoves).sessions[0])
      (run ⟨fun _ => none, fun _ => .malformed⟩ retriedEventMoves).reportLog :=
  panel_events_fire_once _ _ 0 _ rfl

/-- Event 1 is acknowledged at last and never fired. -/
theorem acknowledged_event_never_fired :
    ¬∀ t e, .reported 0 t (.event e) .result ∈
        (run ⟨fun _ => none, fun _ => .malformed⟩ retriedEventMoves).reportLog →
      e.eventId ∈ firedIn 0
        (run ⟨fun _ => none, fun _ => .malformed⟩ retriedEventMoves).reportLog := by
  intro h
  have hfired : firedIn 0 (run ⟨fun _ => none, fun _ => .malformed⟩ retriedEventMoves).reportLog =
      [2] := rfl
  have hin := h 0 ⟨"button", 1, "press"⟩ List.mem_cons_self
  rw [hfired] at hin
  simp at hin

/-! ## States -/

theorem reportLog_suffix {x x' : TransportSessions} (h : Grows x x') :
    x.reportLog <:+ x'.reportLog := h.log.filter _

theorem session_stores_what_it_admits (F : WireFormats) (moves : List TransportMove) (k : Nat)
    (s : PanelSession) (hs : (run F moves).sessions[k]? = some s) :
    StoresAdmitted F k s.toSessionReports (run F moves).reportLog ∧
      ∀ more s', (run F (moves ++ more)).sessions[k]? = some s' → s.fullSyncComplete = true →
        s'.fullSyncComplete = true := by
  have h := reported_run F moves hs
  refine ⟨h.storesAdmitted, ?_⟩
  intro more s' hs' hcomplete
  obtain ⟨newer, hnewer⟩ := reportLog_suffix (grows_run F moves more)
  have hlater : s'.fullSyncComplete = _ := (reported_run F (moves ++ more) hs').complete
  have hearlier : s.fullSyncComplete = _ := h.complete
  rw [hlater, ← hnewer]
  exact completedIn_append (hearlier.symm.trans hcomplete) newer

/-- A panel that describes a dimmer and a picture, and reports a level and the picture. -/
def pictureMoves : List TransportMove :=
  [.hello { kitchenHello "t0" 1 with
      channels := [⟨"level", .number, none, none, none, none, some 0, some 100, none⟩,
        ⟨"picture", .image, none, none, none, none, none, none, none⟩]
      accepted := by decide },
    .report "t0" 1 (.state ⟨.fullBegin,
      [⟨"level", .known, some (.int 40), none, false, none, fun _ => rfl, by simp⟩,
        ⟨"picture", .unavailable, none, none, false, none, by simp, by simp⟩]⟩)]

theorem session_stores_what_it_admits_level :
    StoresAdmitted ⟨fun _ => none, fun _ => .malformed⟩ 0
      ((run ⟨fun _ => none, fun _ => .malformed⟩ pictureMoves).sessions[0]).toSessionReports
      (run ⟨fun _ => none, fun _ => .malformed⟩ pictureMoves).reportLog :=
  (session_stores_what_it_admits _ _ 0 _ rfl).1

/-- The picture was rejected at last, and is not in `rejections`. -/
theorem rejected_channel_not_remembered :
    ¬∀ c, ((run ⟨fun _ => none, fun _ => .malformed⟩ pictureMoves).sessions[0]).descriptors.contains
        c = true →
      ((((run ⟨fun _ => none, fun _ => .malformed⟩ pictureMoves).sessions[0]).rejections.get?
        c).isSome ↔
      ((lastVerdict c (decidedIn ⟨fun _ => none, fun _ => .malformed⟩
        ((run ⟨fun _ => none, fun _ => .malformed⟩ pictureMoves).sessions[0]).descriptors 0
        (run ⟨fun _ => none, fun _ => .malformed⟩ pictureMoves).reportLog)).bind
          Verdict.rejection).isSome) := by
  intro h
  have hnone : ((run ⟨fun _ => none, fun _ => .malformed⟩ pictureMoves).sessions[0]).rejections.get?
      "picture" = none := rfl
  have hunknown : (lastVerdict "picture" (decidedIn ⟨fun _ => none, fun _ => .malformed⟩
      ((run ⟨fun _ => none, fun _ => .malformed⟩ pictureMoves).sessions[0]).descriptors 0
      (run ⟨fun _ => none, fun _ => .malformed⟩ pictureMoves).reportLog)).bind Verdict.rejection =
        some errUnknownChannel := rfl
  have hpicture := h "picture" rfl
  rw [hnone, hunknown] at hpicture
  simp at hpicture

end TransportSessions

end PanelAssistant
