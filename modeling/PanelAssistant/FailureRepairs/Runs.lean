import PanelAssistant.FailureRepairs.Basic

/-!
# Every history of a Repair

A record is the newest sixteen events of what was recorded since its issue was cleared (`Kept`), so
the latest update event is still in it exactly if fewer than sixteen retry holds followed it. Where
it is, it decides (`reached_events`); where it is not, nothing but a verified success withdraws the
Repair. A Repair stands over a report (`Backed`), under the words of its latest event (`Worded`).
-/

namespace PanelAssistant.FailureRepairs

open Library Library.Runs Library.BoundedLog

variable {s : FailureStore} {issueId : String}

/-! ## Records and histories -/

/-- Every record is the newest sixteen events of its history. -/
def Kept (s : FailureStore) : Prop := ∀ issueId, s.events issueId = (s.history issueId).rtake 16

namespace FailureStore

variable (s : FailureStore) (issueId : String)

@[simp] theorem history_issue (kind : IssueKind) (reason : String) :
    (s.issue issueId kind reason).history = s.history := rfl

@[simp] theorem events_issue (id : String) (kind : IssueKind) (reason : String) :
    (s.issue issueId kind reason).events id = s.events id := rfl

theorem events_append (id : String) (event : FailureEvent) :
    (s.append issueId event).events id =
      if id = issueId then keep 15 (s.events issueId) event else s.events id := by
  simp only [events, append, Dict.get?_set]
  split <;> rfl

theorem events_clearRecord (id : String) :
    (s.clearRecord issueId).events id = if id = issueId then [] else s.events id := by
  simp only [events, clearRecord, Dict.get?_pop]
  split <;> rfl

theorem events_clear (id : String) :
    (s.clear issueId).events id = if id = issueId then [] else s.events id :=
  s.events_clearRecord issueId id

/-- A bundle is recorded without a Repair, or its target is older than the one that is saved. -/
theorem recordBundle_cases (target : String) (webviewPending : Bool) :
    s.asyncRecordUpdateBundle issueId target webviewPending = s ∨
      ∃ event, s.asyncRecordUpdateBundle issueId target webviewPending =
        s.asyncRecordUpdateFailure issueId event false := by
  unfold asyncRecordUpdateBundle
  split
  · exact .inl rfl
  · exact .inr ⟨_, rfl⟩

theorem clearIfInstalled_cases (o : Observation) :
    s.asyncClearUpdateFailureIfInstalled issueId o = s ∨
      s.asyncClearUpdateFailureIfInstalled issueId o = s.clear issueId := by
  unfold asyncClearUpdateFailureIfInstalled
  split
  · exact .inr rfl
  · exact .inl rfl

/-- Only a Repair that stands is worded anew. -/
theorem reword_cases (choose : String → Option (IssueKind × String)) :
    s.reword issueId choose = s ∨ ∃ old kind reason, s.issues.get? issueId = some old ∧
      choose old = some (kind, reason) ∧ s.reword issueId choose = s.issue issueId kind reason := by
  unfold reword
  split
  · exact .inl rfl
  · rename_i kind reason hchosen
    obtain ⟨old, hold, hchoose⟩ := Option.bind_eq_some_iff.mp hchosen
    exact .inr ⟨old, kind, reason, hold, hchoose, rfl⟩

end FailureStore

/-- The wording of the Repair that an event raises. -/
def FailureEvent.wording : FailureEvent → String
  | .update event => FailureRepairs.wording .update event.cause
  | .retryHold reason _ => FailureRepairs.wording .retryHold reason
  | .install reason => FailureRepairs.wording .install reason

namespace FailureStore

variable (s : FailureStore) (issueId : String)

/-- A lost Repair is restored from the latest event of a report that names its entry, under the
words of that event unless an install left it. -/
theorem restore_cases :
    (s.asyncRestoreUpdateFailure issueId = s ∧
        ((s.issues.get? issueId).isSome ∨ ∀ event ∈ s.events issueId, event.namesEntry = false)) ∨
      ∃ event kind reason, (s.events issueId).getLast? = some event ∧
        (event.namesEntry = true → wording kind reason = event.wording) ∧
        s.asyncRestoreUpdateFailure issueId = s.issue issueId kind reason := by
  unfold asyncRestoreUpdateFailure
  split
  · rename_i hstands
    exact .inl ⟨rfl, .inl hstands⟩
  · split
    · rename_i hnone
      refine .inl ⟨rfl, .inr fun event hevent => ?_⟩
      rw [List.any_eq_true] at hnone
      exact Bool.eq_false_iff.mpr fun hnames => hnone ⟨event, hevent, hnames⟩
    · split
      · rename_i hlast
        rw [List.getLast?_eq_none_iff] at hlast
        exact .inl ⟨rfl, .inr fun event hevent => by simp [hlast] at hevent⟩
      · rename_i event hlast
        exact .inr ⟨_, _, _, hlast, fun _ => rfl, rfl⟩
      · rename_i reason ofEntry hlast
        exact .inr ⟨_, _, _, hlast, fun _ => rfl, rfl⟩
      · rename_i reason hlast
        exact .inr ⟨_, _, _, hlast, fun hnames => absurd hnames Bool.false_ne_true, rfl⟩

end FailureStore

theorem kept_initial : Kept .initial := fun _ => rfl

theorem Kept.issue (h : Kept s) (kind : IssueKind) (reason : String) :
    Kept (s.issue issueId kind reason) := h

theorem Kept.append (h : Kept s) (event : FailureEvent) : Kept (s.append issueId event) := by
  intro id
  rw [FailureStore.events_append, h issueId, keep_rtake]
  by_cases hid : id = issueId
  · subst hid
    simp [FailureStore.append]
  · simp [FailureStore.append, hid, h id]

theorem Kept.clearRecord (h : Kept s) : Kept (s.clearRecord issueId) := by
  intro id
  rw [FailureStore.events_clearRecord]
  by_cases hid : id = issueId
  · subst hid
    simp [FailureStore.clearRecord]
  · simp [FailureStore.clearRecord, hid, h id]

theorem Kept.clear (h : Kept s) : Kept (s.clear issueId) := h.clearRecord

theorem Kept.recordUpdateFailure (h : Kept s) (event : UpdateEvent) (raiseIssue : Bool) :
    Kept (s.asyncRecordUpdateFailure issueId event raiseIssue) := by
  unfold FailureStore.asyncRecordUpdateFailure
  simp only
  split
  · exact (h.append _).issue _ _
  · exact h.append _

theorem Kept.runTask (h : Kept s) : Kept s.runTask := by
  unfold FailureStore.runTask
  split
  · exact h
  · rename_i issueId event tasks htasks
    exact h.append event
  · rename_i issueId tasks htasks
    exact h.clear

theorem Kept.reword (h : Kept s) (choose : String → Option (IssueKind × String)) :
    Kept (s.reword issueId choose) := by
  rcases s.reword_cases issueId choose with heq | ⟨old, kind, reason, -, -, heq⟩
  · rw [heq]
    exact h
  · rw [heq]
    exact h.issue kind reason

theorem Kept.step (h : Kept s) (call : Call) : Kept (step s call) := by
  cases call with
  | recordUpdateFailure issueId event raiseIssue => exact h.recordUpdateFailure event raiseIssue
  | recordUpdateBundle issueId target webviewPending =>
    show Kept (s.asyncRecordUpdateBundle issueId target webviewPending)
    rcases s.recordBundle_cases issueId target webviewPending with heq | ⟨event, heq⟩
    · rw [heq]
      exact h
    · rw [heq]
      exact h.recordUpdateFailure event false
  | recordRetryHold issueId reason ofEntry => exact (h.append _).issue _ _
  | recordInstallFailure issueId reason => exact h
  | clearInstallFailure issueId => exact h
  | runTask => exact h.runTask
  | clearUpdateFailureIfInstalled issueId o =>
    show Kept (s.asyncClearUpdateFailureIfInstalled issueId o)
    rcases s.clearIfInstalled_cases issueId o with heq | heq
    · rw [heq]
      exact h
    · rw [heq]
      exact h.clear
  | clearFailure issueId => exact h.clearRecord
  | endFlow issueId =>
    simp only [FailureRepairs.step, FailureStore.endFlow]
    split
    · exact h
    · exact h
  | deleteIssueAndReport issueId => exact h.clear
  | lostIssue issueId => exact h
  | restoreUpdateFailure issueId =>
    show Kept (s.asyncRestoreUpdateFailure issueId)
    rcases s.restore_cases issueId with ⟨heq, -⟩ | ⟨event, kind, reason, -, -, heq⟩
    · rw [heq]
      exact h
    · rw [heq]
      exact h.issue kind reason
  | requestAdbAuthorization issueId => exact h.reword _
  | clearAdbAuthorization issueId => exact h.reword _
  | refreshUpdateFailureName issueId => exact h.reword _

theorem kept_run (calls : List Call) : Kept (run step .initial calls) :=
  run_inv Kept (fun _ call h => h.step call) kept_initial calls

/-! ## The decision -/

/-- A pending WebView withholds the Repair. -/
theorem reachedBy_pending {event : UpdateEvent} {o : Observation}
    (hpending : event.webviewPending = true)
    (hcompleted : o.webviewCompleted = false) : reachedBy (some event) o = false := by
  simp [reachedBy, hpending, hcompleted]

/-- Nothing withholds the decision about a target. -/
theorem reachedBy_target {event : UpdateEvent} {o : Observation} {target : String}
    (htarget : event.targetVersion = some target)
    (hready : event.webviewPending = true → o.webviewCompleted = true)
    (hcurrent : o.isCurrent = true) :
    reachedBy (some event) o = runsTarget target o := by
  cases hpending : event.webviewPending with
  | false => simp [reachedBy, hcurrent, hpending, htarget]
  | true => simp [reachedBy, hcurrent, hpending, htarget, hready hpending]

theorem runsTarget_build {target : String} {code : ℕ} (hcode : parseBuildRequest target = some code)
    (o : Observation) : runsTarget target o = true ↔ ∃ installed, o.installedCode = some installed ∧
    (code : ℤ) ≤ installed := by
  simp [runsTarget, hcode, Option.any_eq_true]

theorem runsTarget_version {target : String} {required : VersionKey}
    (hnone : parseBuildRequest target = none)
    (hkey : versionKey target = some required) (o : Observation) :
    runsTarget target o = true ↔ ∃ current, versionKey o.installedVersion = some current ∧
      required ≤ current := by
  cases hversion : versionKey o.installedVersion with
  | none => simp [runsTarget, hnone, isVersionAtLeast, hkey, hversion]
  | some current => simp [runsTarget, hnone, isVersionAtLeast, hkey, hversion]

/-! ## Later observations -/

/-- The version was raised, by the order of version names. -/
def RaisedVersion (version version' : String) : Prop :=
  version' = version ∨ ∃ key key', versionKey version = some key ∧
    versionKey version' = some key' ∧ key < key'

/-- An observation of more: a later version, a higher code, a completed WebView, a verified
success. -/
structure Raised (o o' : Observation) : Prop where
  version : RaisedVersion o.installedVersion o'.installedVersion
  code : ∀ code, o.installedCode = some code → ∃ code', o'.installedCode = some code' ∧ code ≤ code'
  verifiedSuccess : o.verifiedSuccess = true → o'.verifiedSuccess = true
  webviewCompleted : o.webviewCompleted = true → o'.webviewCompleted = true
  verifiedCurrentCode : o'.verifiedCurrentCode = o.verifiedCurrentCode
  isCurrent : o'.isCurrent = o.isCurrent

variable {o o' : Observation}

theorem Raised.runsTarget (h : Raised o o') {target : String} (ho : runsTarget target o = true) :
    runsTarget target o' = true := by
  cases hcode : parseBuildRequest target with
  | some code =>
    obtain ⟨installed, hinstalled, hle⟩ := (runsTarget_build hcode o).mp ho
    obtain ⟨installed', hinstalled', hle'⟩ := h.code installed hinstalled
    exact (runsTarget_build hcode o').mpr ⟨installed', hinstalled', hle.trans hle'⟩
  | none =>
    cases hkey : versionKey target with
    | none => cases hversion : versionKey o.installedVersion <;>
      simp [FailureRepairs.runsTarget, hcode, isVersionAtLeast, hkey, hversion] at ho
    | some required =>
      obtain ⟨current, hcurrent, hle⟩ := (runsTarget_version hcode hkey o).mp ho
      rw [runsTarget_version hcode hkey]
      rcases h.version with hsame | ⟨key, key', hversion, hversion', hlt⟩
      · exact ⟨current, hsame ▸ hcurrent, hle⟩
      · rw [hversion, Option.some.injEq] at hcurrent
        exact ⟨key', hversion', hle.trans (hcurrent ▸ hlt.le)⟩

/-- What a panel was seen to move on to is no earlier than what it moved on from. -/
theorem le_of_movedOn {before : String × Option ℤ} (h : movedOn before o = true) {key : VersionKey}
    (hkey : versionKey o.installedVersion = some key) :
    ∃ old, versionKey before.1 = some old ∧ old ≤ key := by
  rcases (Bool.or_eq_true _ _).mp h with hnewer | hsame
  · unfold isNewerStableVersion at hnewer
    rw [hkey] at hnewer
    split at hnewer
    · rename_i candidate installed hcandidate hinstalled
      cases hcandidate
      rw [Bool.and_eq_true, decide_eq_true_eq] at hnewer
      exact ⟨installed, hinstalled, hnewer.2.le⟩
    · cases hnewer
  · rw [Bool.and_eq_true, beq_iff_eq] at hsame
    exact ⟨key, hsame.1 ▸ hkey, le_rfl⟩

/-- A later panel has moved on too, unless it now runs a pre-release of another name. -/
theorem Raised.movedOn_iff (h : Raised o o') {before : String × Option ℤ}
    (ho : movedOn before o = true) :
    movedOn before o' = true ↔ o'.installedVersion = o.installedVersion ∨
      (versionKey o'.installedVersion).any VersionKey.stable = true := by
  rcases h.version with hsame | ⟨key, key', hversion, hversion', hlt⟩
  · refine iff_of_true ?_ (.inl hsame)
    rcases (Bool.or_eq_true _ _).mp ho with hnewer | hequal
    · exact (Bool.or_eq_true _ _).mpr (.inl (hsame ▸ hnewer))
    · refine (Bool.or_eq_true _ _).mpr (.inr ?_)
      rw [Bool.and_eq_true] at hequal ⊢
      refine ⟨hsame ▸ hequal.1, ?_⟩
      have hcode := hequal.2
      split at hcode
      · rename_i oldCode installed hold hinstalled
        obtain ⟨installed', hinstalled', hle⟩ := h.code installed hinstalled
        rw [hold, hinstalled']
        exact decide_eq_true ((of_decide_eq_true hcode).trans_le hle)
      · cases hcode
  · obtain ⟨old, hold, hle⟩ := le_of_movedOn ho hversion
    have hdiffer : o'.installedVersion ≠ o.installedVersion := by
      intro heq
      rw [heq, hversion, Option.some.injEq] at hversion'
      exact hlt.ne hversion'
    have hbefore : o'.installedVersion ≠ before.1 := by
      intro heq
      rw [heq, hold, Option.some.injEq] at hversion'
      exact (hle.trans_lt hlt).ne hversion'
    simp [movedOn, isNewerStableVersion, hversion', hold, hdiffer, hbefore, hle.trans_lt hlt]

/-- Where only an earlier version is saved, the later panel runs a release, or the same version. -/
def Follows (previous : Option UpdateEvent) (o o' : Observation) : Prop :=
  ∀ event before, previous = some event → event.targetVersion = none →
    event.observedBefore = some before →
    o'.verifiedSuccess = true ∨ o'.installedVersion = o.installedVersion ∨
      (versionKey o'.installedVersion).any VersionKey.stable = true

/-- **More seen never takes a withdrawal back**, but for a panel that runs a pre-release of another
name where only its version before the failure is saved. -/
theorem Raised.reachedBy_iff (h : Raised o o') {previous : Option UpdateEvent}
    (ho : reachedBy previous o = true) :
    reachedBy previous o' = true ↔ Follows previous o o' := by
  unfold reachedBy at ho ⊢
  rw [Bool.and_eq_true] at ho
  obtain ⟨hcurrent, ho⟩ := ho
  rw [h.isCurrent, hcurrent, Bool.true_and]
  cases previous with
  | none => exact iff_of_true (h.verifiedSuccess ho) fun event before hnone => by cases hnone
  | some event =>
    simp only at ho ⊢
    split at ho
    · cases ho
    · rename_i hready
      have hready' : ¬ (event.webviewPending && !o'.webviewCompleted) = true := by
        intro hpending
        rw [Bool.and_eq_true, Bool.not_eq_true'] at hpending
        refine hready ?_
        rw [Bool.and_eq_true, Bool.not_eq_true']
        refine ⟨hpending.1, Bool.eq_false_iff.mpr fun hcompleted => ?_⟩
        rw [h.webviewCompleted hcompleted] at hpending
        cases hpending.2
      rw [if_neg hready']
      cases htarget : event.targetVersion with
      | some target =>
        rw [htarget] at ho
        refine iff_of_true (h.runsTarget ho) fun other before hother hnone => ?_
        cases hother
        rw [htarget] at hnone
        cases hnone
      | none =>
        rw [htarget] at ho
        cases hbefore : event.observedBefore with
        | none =>
          rw [hbefore] at ho
          refine iff_of_true ?_ fun other before hother _ hsome => ?_
          · simp only at ho ⊢
            rw [h.verifiedCurrentCode]
            rcases (Bool.or_eq_true _ _).mp ho with hverified | hcode
            · rw [h.verifiedSuccess hverified, Bool.true_or]
            · split at hcode
              · rename_i current installed hcurrent hinstalled
                obtain ⟨installed', hinstalled', hle⟩ := h.code installed hinstalled
                rw [hcurrent, hinstalled', Bool.or_eq_true]
                exact .inr (decide_eq_true ((of_decide_eq_true hcode).trans hle))
              · cases hcode
          · cases hother
            rw [hbefore] at hsome
            cases hsome
        | some before =>
          rw [hbefore] at ho
          have hfollows : Follows (some event) o o' ↔ o'.verifiedSuccess = true ∨
              o'.installedVersion = o.installedVersion ∨
                (versionKey o'.installedVersion).any VersionKey.stable = true := by
            constructor
            · exact fun hall => hall event before rfl htarget hbefore
            · exact fun hone _ _ _ _ _ => hone
          rw [hfollows]
          simp only [Bool.or_eq_true] at ho ⊢
          cases hverified : o'.verifiedSuccess with
          | true => simp
          | false =>
            have hmoved : movedOn before o = true := by
              rcases ho with hmoved | hverified'
              · exact hmoved
              · rw [h.verifiedSuccess hverified'] at hverified
                cases hverified
            simp [h.movedOn_iff hmoved]

/-! ## Every history -/

/-- A target that is lower than a saved one of its kind. -/
def Lower (target saved : String) : Prop :=
  (∃ old new, parseBuildRequest saved = some old ∧
    parseBuildRequest target = some new ∧ new < old) ∨
    (parseBuildRequest saved = none ∧ parseBuildRequest target = none ∧
      isNewerStableVersion saved target = true)

theorem keepsTarget_of_lower {target saved : String} (h : Lower target saved) :
    keepsTarget saved target = true := by
  rcases h with ⟨old, new, hold, hnew, hlt⟩ | ⟨hold, -, hnewer⟩
  · simp [keepsTarget, hold, hnew, hlt]
  · simp [keepsTarget, hold, hnewer]

/-- The latest update event of a history is still saved. -/
def Retained (history : List FailureEvent) : Prop :=
  latestUpdate history = none ∨ holdsAfter history < 16

theorem latestUpdate_events (h : Kept s) (issueId : String) :
    latestUpdate (s.events issueId) = latestUpdate (s.history issueId) ↔
      Retained (s.history issueId) := by
  rw [h issueId]
  exact latest_rtake_eq _ _

/-- A history whose latest update event is lost leaves none. -/
theorem latestUpdate_lost (h : Kept s) (hlost : ¬ Retained (s.history issueId)) :
    latestUpdate (s.events issueId) = none := by
  rw [h issueId, latestUpdate, latest_rtake, if_neg]
  exact fun hfew => hlost (.inr hfew)

/-- When an observation withdraws the Repair of a history. -/
def Withdraws (history : List FailureEvent) (o : Observation) : Prop :=
  Retained history ∧ reachedBy (latestUpdate history) o = true ∨
    ¬ Retained history ∧ o.isCurrent = true ∧ o.verifiedSuccess = true

theorem reached_events (h : Kept s) (issueId : String) (o : Observation) :
    reached (s.events issueId) o = true ↔ Withdraws (s.history issueId) o := by
  unfold Withdraws
  by_cases hretained : Retained (s.history issueId)
  · rw [reached, (latestUpdate_events h issueId).mpr hretained]
    simp [hretained]
  · rw [reached, latestUpdate_lost h hretained]
    simp [hretained, reachedBy]

/-- **A failed-update Repair is withdrawn exactly when its build is reached**, as long as fewer than
sixteen retry holds followed the latest update event. -/
theorem failure_repairs (calls : List Call) (issueId : String) :
    let s := run step .initial calls
    let latest := latestUpdate (s.history issueId)
    -- the event that decides is the latest one
    (latestUpdate (s.events issueId) = latest ↔ Retained (s.history issueId)) ∧
    -- the Repair and its record go, or everything stays
    (∀ o, let s' := step s (.clearUpdateFailureIfInstalled issueId o)
      (Withdraws (s.history issueId) o → s'.records.get? issueId = none ∧
        s'.issues.get? issueId = none) ∧
        (¬ Withdraws (s.history issueId) o → s' = s)) ∧
    (∀ event o, latest = some event →
      (event.webviewPending = true → o.webviewCompleted = false → reachedBy latest o = false) ∧
      ∀ target, event.targetVersion = some target →
        (event.webviewPending = true → o.webviewCompleted = true) → o.isCurrent = true →
          (∀ code, parseBuildRequest target = some code →
            (reachedBy latest o = true ↔ ∃ installed, o.installedCode = some installed ∧
              (code : ℤ) ≤ installed)) ∧
          ∀ required, parseBuildRequest target = none → versionKey target = some required →
            (reachedBy latest o = true ↔
              ∃ current, versionKey o.installedVersion = some current ∧ required ≤ current)) ∧
    (∀ o o', Raised o o' → reachedBy latest o = true →
      (reachedBy latest o' = true ↔ Follows latest o o')) ∧
    ∀ event saved target webviewPending, Retained (s.history issueId) → latest = some event →
      event.targetVersion = some saved → Lower target saved →
        step s (.recordUpdateBundle issueId target webviewPending) = s := by
  intro s latest
  have hkept : Kept s := kept_run calls
  refine ⟨latestUpdate_events hkept issueId, fun o => ?_,
    fun event o hlatest => ⟨fun hpending hcompleted => ?_,
    fun target htarget hready hcurrent => ?_⟩, fun o o' h ho => h.reachedBy_iff ho, ?_⟩
  · have hreached := reached_events hkept issueId o
    constructor
    · intro hwithdraws
      simp only [step, FailureStore.asyncClearUpdateFailureIfInstalled,
        if_pos (hreached.mpr hwithdraws)]
      simp [FailureStore.clear, FailureStore.clearRecord, FailureStore.deleteIssue]
    · intro hstays
      simp only [step, FailureStore.asyncClearUpdateFailureIfInstalled,
        if_neg (mt hreached.mp hstays)]
  · rw [hlatest]
    exact reachedBy_pending hpending hcompleted
  · rw [hlatest, reachedBy_target htarget hready hcurrent]
    exact ⟨fun code hcode => runsTarget_build hcode o,
      fun required hnone hkey => runsTarget_version hnone hkey o⟩
  · intro event saved target webviewPending hretained hlatest hsaved hlower
    have hevents : latestUpdate (s.events issueId) = some event :=
      ((latestUpdate_events hkept issueId).mpr hretained).trans hlatest
    simp [step, FailureStore.asyncRecordUpdateBundle, hevents, hsaved, keepsTarget_of_lower hlower]

/-! ## Repairs and their reports -/

namespace FailureStore

variable (s : FailureStore) (issueId : String)

theorem issues_issue (id : String) (kind : IssueKind) (reason : String) :
    (s.issue issueId kind reason).issues.get? id =
      if id = issueId then some (wording kind reason) else s.issues.get? id :=
  Dict.get?_set ..

theorem issues_deleteIssue (id : String) :
    (s.deleteIssue issueId).issues.get? id = if id = issueId then none else s.issues.get? id :=
  Dict.get?_pop ..

theorem events_append_ne (event : FailureEvent) : (s.append issueId event).events issueId ≠ [] := by
  rw [events_append, if_pos rfl]
  exact List.concat_ne_nil _ _

theorem getLast?_append (event : FailureEvent) :
    ((s.append issueId event).events issueId).getLast? = some event := by
  rw [events_append, if_pos rfl]
  exact List.getLast?_concat

end FailureStore

/-- An issue has a saved report, one that a task is still to save, or one that its owner cleared. -/
def Reported (s : FailureStore) (issueId : String) : Prop :=
  s.events issueId ≠ [] ∨ (∃ event, .append issueId event ∈ s.tasks) ∨ issueId ∈ s.ending

/-- Every Repair has a report. -/
def Backed (s : FailureStore) : Prop :=
  ∀ issueId wording, s.issues.get? issueId = some wording → Reported s issueId

theorem Backed.append (h : Backed s) (event : FailureEvent) : Backed (s.append issueId event) := by
  intro id wording hissue
  by_cases hid : id = issueId
  · rw [hid]
    exact .inl (s.events_append_ne issueId event)
  · unfold Reported
    rw [FailureStore.events_append, if_neg hid]
    exact h id wording hissue

/-- A Repair is raised over a report. -/
theorem Backed.issue (h : Backed s) (kind : IssueKind) (reason : String)
    (hreported : Reported s issueId) : Backed (s.issue issueId kind reason) := by
  intro id wording hissue
  rw [FailureStore.issues_issue] at hissue
  split at hissue
  · rename_i hid
    rw [hid]
    exact hreported
  · exact h id wording hissue

theorem Backed.deleteIssue (h : Backed s) : Backed (s.deleteIssue issueId) := by
  intro id wording hissue
  rw [FailureStore.issues_deleteIssue] at hissue
  split at hissue
  · cases hissue
  · exact h id wording hissue

theorem Backed.clear (h : Backed s) : Backed (s.clear issueId) := by
  intro id wording hissue
  rw [FailureStore.clear, FailureStore.issues_deleteIssue] at hissue
  split at hissue
  · cases hissue
  · rename_i hid
    unfold Reported
    rw [FailureStore.events_clear, if_neg hid]
    exact h id wording hissue

theorem Backed.recordUpdateFailure (h : Backed s) (event : UpdateEvent) (raiseIssue : Bool) :
    Backed (s.asyncRecordUpdateFailure issueId event raiseIssue) := by
  have happend : Backed (s.append issueId (.update event)) := h.append (.update event)
  unfold FailureStore.asyncRecordUpdateFailure
  split
  · exact happend.issue _ _ (.inl (s.events_append_ne issueId _))
  · exact happend

/-- The Repair of an install waits for the task that saves its report. -/
theorem Backed.recordInstallFailure (h : Backed s) (reason : String) :
    Backed (s.recordInstallFailure issueId reason) := by
  intro id wording hissue
  have hissue : (s.issue issueId .install reason).issues.get? id = some wording := hissue
  rw [FailureStore.issues_issue] at hissue
  split at hissue
  · rename_i hid
    rw [hid]
    exact .inr (.inl ⟨_, List.mem_append_right _ (List.mem_singleton_self _)⟩)
  · rcases h id wording hissue with hsaved | ⟨event, htask⟩ | hending
    · exact .inl hsaved
    · exact .inr (.inl ⟨event, List.mem_append_left _ htask⟩)
    · exact .inr (.inr hending)

/-- A task that runs saves the report that it was to save, or deletes the Repair with its report. -/
theorem Backed.runTask (h : Backed s) : Backed s.runTask := by
  unfold FailureStore.runTask
  split
  · exact h
  · rename_i issueId event tasks htasks
    intro id wording hissue
    rcases h.append event id wording hissue with hsaved | ⟨event', htask⟩ | hending
    · exact .inl hsaved
    · have htask : .append id event' ∈ s.tasks := htask
      rw [htasks, List.mem_cons] at htask
      rcases htask with heq | htask
      · cases heq
        exact .inl (s.events_append_ne issueId event)
      · exact .inr (.inl ⟨event', htask⟩)
    · exact .inr (.inr hending)
  · rename_i issueId tasks htasks
    intro id wording hissue
    rcases h.clear id wording hissue with hsaved | ⟨event, htask⟩ | hending
    · exact .inl hsaved
    · have htask : .append id event ∈ s.tasks := htask
      rw [htasks, List.mem_cons] at htask
      rcases htask with heq | htask
      · cases heq
      · exact .inr (.inl ⟨event, htask⟩)
    · exact .inr (.inr hending)

theorem Backed.clearFailure (h : Backed s) : Backed (s.asyncClearFailure issueId) := by
  intro id wording hissue
  by_cases hid : id = issueId
  · rw [hid]
    exact .inr (.inr (List.mem_append_right _ (List.mem_singleton_self _)))
  · rcases h id wording hissue with hsaved | htask | hending
    · refine .inl ?_
      show (s.clearRecord issueId).events id ≠ []
      rw [FailureStore.events_clearRecord, if_neg hid]
      exact hsaved
    · exact .inr (.inl htask)
    · exact .inr (.inr (List.mem_append_left _ hending))

theorem Backed.endFlow (h : Backed s) : Backed (s.endFlow issueId) := by
  unfold FailureStore.endFlow
  split
  · intro id wording hissue
    have hissue : (s.deleteIssue issueId).issues.get? id = some wording := hissue
    rw [FailureStore.issues_deleteIssue] at hissue
    split at hissue
    · cases hissue
    · rename_i hid
      rcases h id wording hissue with hsaved | htask | hending
      · exact .inl hsaved
      · exact .inr (.inl htask)
      · exact .inr (.inr ((List.mem_erase_of_ne hid).mpr hending))
  · exact h

theorem Backed.restored (h : Backed s) : Backed (s.asyncRestoreUpdateFailure issueId) := by
  rcases s.restore_cases issueId with ⟨heq, -⟩ | ⟨event, kind, reason, hlast, -, heq⟩
  · rw [heq]
    exact h
  · rw [heq]
    exact h.issue kind reason (.inl (List.ne_nil_of_mem (List.mem_of_getLast? hlast)))

theorem Backed.reword (h : Backed s) (choose : String → Option (IssueKind × String)) :
    Backed (s.reword issueId choose) := by
  rcases s.reword_cases issueId choose with heq | ⟨old, kind, reason, hold, -, heq⟩
  · rw [heq]
    exact h
  · rw [heq]
    exact h.issue kind reason (h issueId old hold)

theorem Backed.step (h : Backed s) (call : Call) : Backed (step s call) := by
  cases call with
  | recordUpdateFailure issueId event raiseIssue => exact h.recordUpdateFailure event raiseIssue
  | recordUpdateBundle issueId target webviewPending =>
    show Backed (s.asyncRecordUpdateBundle issueId target webviewPending)
    rcases s.recordBundle_cases issueId target webviewPending with heq | ⟨event, heq⟩
    · rw [heq]
      exact h
    · rw [heq]
      exact h.recordUpdateFailure event false
  | recordRetryHold issueId reason ofEntry =>
    exact (h.append _).issue _ _ (.inl (s.events_append_ne issueId _))
  | recordInstallFailure issueId reason => exact h.recordInstallFailure reason
  | clearInstallFailure issueId =>
    intro id wording hissue
    rcases h id wording hissue with hsaved | ⟨event, htask⟩ | hending
    · exact .inl hsaved
    · exact .inr (.inl ⟨event, List.mem_append_left _ htask⟩)
    · exact .inr (.inr hending)
  | runTask => exact h.runTask
  | clearUpdateFailureIfInstalled issueId o =>
    show Backed (s.asyncClearUpdateFailureIfInstalled issueId o)
    rcases s.clearIfInstalled_cases issueId o with heq | heq
    · rw [heq]
      exact h
    · rw [heq]
      exact h.clear
  | clearFailure issueId => exact h.clearFailure
  | endFlow issueId => exact h.endFlow
  | deleteIssueAndReport issueId => exact h.clear
  | lostIssue issueId => exact h.deleteIssue
  | restoreUpdateFailure issueId => exact h.restored
  | requestAdbAuthorization issueId => exact h.reword _
  | clearAdbAuthorization issueId => exact h.reword _
  | refreshUpdateFailureName issueId => exact h.reword _

/-! ## The issue of an entry -/

/-- A call that leaves on an issue what the issue of an entry can hold: no install is recorded on
it, and what its Retry holds back is an update of the entry. -/
def Call.OfEntry (issueId : String) : Call → Prop
  | .recordRetryHold id _ ofEntry => id = issueId → ofEntry = true
  | .recordInstallFailure id _ => id ≠ issueId
  | _ => True

/-- Every event of the issue names its entry, and no task adds another one. -/
structure OfEntry (issueId : String) (s : FailureStore) : Prop where
  named : ∀ event ∈ s.events issueId, event.namesEntry = true
  unscheduled : ∀ event, .append issueId event ∉ s.tasks

theorem OfEntry.append (h : OfEntry issueId s) (id : String) (event : FailureEvent)
    (hnames : id = issueId → event.namesEntry = true) : OfEntry issueId (s.append id event) where
  named other hother := by
    rw [FailureStore.events_append] at hother
    split at hother
    · rename_i hid
      rcases List.mem_append.mp hother with hkept | hnew
      · exact h.named other (hid ▸ List.mem_of_mem_drop hkept)
      · rw [List.mem_singleton.mp hnew]
        exact hnames hid.symm
    · exact h.named other hother
  unscheduled := h.unscheduled

theorem OfEntry.issue (h : OfEntry issueId s) (id : String) (kind : IssueKind) (reason : String) :
    OfEntry issueId (s.issue id kind reason) := ⟨h.named, h.unscheduled⟩

theorem OfEntry.clearRecord (h : OfEntry issueId s) (id : String) :
    OfEntry issueId (s.clearRecord id) where
  named event hevent := by
    rw [FailureStore.events_clearRecord] at hevent
    split at hevent
    · cases hevent
    · exact h.named event hevent
  unscheduled := h.unscheduled

theorem OfEntry.clear (h : OfEntry issueId s) (id : String) : OfEntry issueId (s.clear id) :=
  ⟨(h.clearRecord id).named, h.unscheduled⟩

theorem OfEntry.recordUpdateFailure (h : OfEntry issueId s) (id : String) (event : UpdateEvent)
    (raiseIssue : Bool) : OfEntry issueId (s.asyncRecordUpdateFailure id event raiseIssue) := by
  have happend : OfEntry issueId (s.append id (.update event)) := h.append id _ fun _ => rfl
  unfold FailureStore.asyncRecordUpdateFailure
  split
  · exact happend.issue id _ _
  · exact happend

theorem OfEntry.runTask (h : OfEntry issueId s) : OfEntry issueId s.runTask := by
  unfold FailureStore.runTask
  split
  · exact h
  · rename_i id event tasks htasks
    have hid : id ≠ issueId := by
      rintro rfl
      exact h.unscheduled event (htasks ▸ List.mem_cons_self)
    exact ⟨(h.append id event fun heq => absurd heq hid).named,
      fun event htask => h.unscheduled event (htasks ▸ List.mem_cons_of_mem _ htask)⟩
  · rename_i id tasks htasks
    exact ⟨(h.clear id).named,
      fun event htask => h.unscheduled event (htasks ▸ List.mem_cons_of_mem _ htask)⟩

theorem OfEntry.reword (h : OfEntry issueId s) (id : String)
    (choose : String → Option (IssueKind × String)) : OfEntry issueId (s.reword id choose) := by
  rcases s.reword_cases id choose with heq | ⟨old, kind, reason, -, -, heq⟩
  · rw [heq]
    exact h
  · rw [heq]
    exact h.issue id kind reason

theorem OfEntry.step (h : OfEntry issueId s) {call : Call} (hcall : call.OfEntry issueId) :
    OfEntry issueId (step s call) := by
  cases call with
  | recordUpdateFailure id event raiseIssue => exact h.recordUpdateFailure id event raiseIssue
  | recordUpdateBundle id target webviewPending =>
    show OfEntry issueId (s.asyncRecordUpdateBundle id target webviewPending)
    rcases s.recordBundle_cases id target webviewPending with heq | ⟨event, heq⟩
    · rw [heq]
      exact h
    · rw [heq]
      exact h.recordUpdateFailure id event false
  | recordRetryHold id reason ofEntry =>
    exact (h.append id (.retryHold reason ofEntry) hcall).issue id _ _
  | recordInstallFailure id reason =>
    refine ⟨h.named, fun event htask => ?_⟩
    rcases List.mem_append.mp htask with htask | hnew
    · exact h.unscheduled event htask
    · rw [List.mem_singleton, StoreTask.append.injEq] at hnew
      exact hcall hnew.1.symm
  | clearInstallFailure id =>
    refine ⟨h.named, fun event htask => ?_⟩
    rcases List.mem_append.mp htask with htask | hnew
    · exact h.unscheduled event htask
    · cases List.mem_singleton.mp hnew
  | runTask => exact h.runTask
  | clearUpdateFailureIfInstalled id o =>
    show OfEntry issueId (s.asyncClearUpdateFailureIfInstalled id o)
    rcases s.clearIfInstalled_cases id o with heq | heq
    · rw [heq]
      exact h
    · rw [heq]
      exact h.clear id
  | clearFailure id => exact ⟨(h.clearRecord id).named, h.unscheduled⟩
  | endFlow id =>
    simp only [FailureRepairs.step, FailureStore.endFlow]
    split
    · exact ⟨h.named, h.unscheduled⟩
    · exact h
  | deleteIssueAndReport id => exact h.clear id
  | lostIssue id => exact ⟨h.named, h.unscheduled⟩
  | restoreUpdateFailure id =>
    show OfEntry issueId (s.asyncRestoreUpdateFailure id)
    rcases s.restore_cases id with ⟨heq, -⟩ | ⟨event, kind, reason, -, -, heq⟩
    · rw [heq]
      exact h
    · rw [heq]
      exact h.issue id kind reason
  | requestAdbAuthorization id => exact h.reword id _
  | clearAdbAuthorization id => exact h.reword id _
  | refreshUpdateFailureName id => exact h.reword id _

/-- Every report of an entry brings a lost Repair back. -/
theorem OfEntry.restored (h : OfEntry issueId s) :
    (s.events issueId ≠ [] → ((s.asyncRestoreUpdateFailure issueId).issues.get? issueId).isSome) ∧
      (s.events issueId = [] → s.asyncRestoreUpdateFailure issueId = s) := by
  rcases s.restore_cases issueId with ⟨heq, hwhy⟩ | ⟨event, kind, reason, hlast, -, heq⟩
  · rw [heq]
    refine ⟨fun hsaved => ?_, fun _ => rfl⟩
    rcases hwhy with hstands | hnone
    · exact hstands
    · obtain ⟨event, hevent⟩ := List.exists_mem_of_ne_nil _ hsaved
      exact absurd (h.named event hevent) (Bool.eq_false_iff.mp (hnone event hevent))
  · rw [heq, FailureStore.issues_issue, if_pos rfl]
    refine ⟨fun _ => rfl, fun hnil => ?_⟩
    rw [hnil] at hlast
    cases hlast

/-! ## Words -/

/-- A call that saves no event of an issue without its Repair. -/
def Call.Raises (issueId : String) : Call → Prop
  | .recordUpdateFailure id _ raiseIssue => id = issueId → raiseIssue = true
  | .recordUpdateBundle id _ _ => id ≠ issueId
  | _ => True

/-- A call that finds no other words for the Repair that stands for an issue. -/
def Call.Keeps (issueId : String) (s : FailureStore) : Call → Prop
  | .requestAdbAuthorization id => id = issueId →
      ∀ wording, s.issues.get? issueId = some wording →
        wording = "installer_failure_adb_authorization"
  | .clearAdbAuthorization id =>
      id = issueId → s.issues.get? issueId ≠ some "installer_failure_adb_authorization"
  | .refreshUpdateFailureName id =>
      id = issueId → s.issues.get? issueId ≠ some "installer_failure_update_webview"
  | _ => True

/-- The words of a request for ADB approval, and those of any failed update. -/
def Anew (wording : String) : Prop :=
  wording = "installer_failure_adb_authorization" ∨ wording = "installer_failure_update"

/-- The Repair of an issue is worded for its latest saved event, or in other words that are
allowed. -/
def Worded (allowed : String → Prop) (issueId : String) (s : FailureStore) : Prop :=
  ∀ event wording, (s.events issueId).getLast? = some event →
    s.issues.get? issueId = some wording → wording = event.wording ∨ allowed wording

variable {allowed : String → Prop}

theorem Worded.deleteIssue (h : Worded allowed issueId s) (id : String) :
    Worded allowed issueId (s.deleteIssue id) := by
  intro event wording hlast hissue
  rw [FailureStore.issues_deleteIssue] at hissue
  split at hissue
  · cases hissue
  · exact h event wording hlast hissue

/-- An issue whose report goes has no words to keep. -/
theorem Worded.clearRecord (h : Worded allowed issueId s) (id : String) :
    Worded allowed issueId (s.clearRecord id) := by
  intro event wording hlast hissue
  rw [FailureStore.events_clearRecord] at hlast
  split at hlast
  · cases hlast
  · exact h event wording hlast hissue

theorem Worded.clear (h : Worded allowed issueId s) (id : String) :
    Worded allowed issueId (s.clear id) := (h.clearRecord id).deleteIssue id

/-- A Repair is raised in the words of the latest event. -/
theorem Worded.issue (h : Worded allowed issueId s) (id : String)
    {kind : IssueKind} {reason : String}
    (hwording : id = issueId → ∀ event, (s.events issueId).getLast? = some event →
      wording kind reason = event.wording ∨ allowed (wording kind reason)) :
    Worded allowed issueId (s.issue id kind reason) := by
  intro event wording hlast hissue
  rw [FailureStore.issues_issue] at hissue
  split at hissue
  · rename_i hid
    rw [← Option.some.inj hissue]
    exact hwording hid.symm event hlast
  · exact h event wording hlast hissue

/-- An event and the Repair that it raises. -/
theorem Worded.raised (h : Worded allowed issueId s) (id : String) (event : FailureEvent)
    {kind : IssueKind} {reason : String} (hwording : wording kind reason = event.wording) :
    Worded allowed issueId ((s.append id event).issue id kind reason) := by
  intro other wording hlast hissue
  rw [FailureStore.issues_issue] at hissue
  rw [FailureStore.events_issue] at hlast
  by_cases hid : issueId = id
  · rw [if_pos hid, Option.some.injEq] at hissue
    rw [hid, s.getLast?_append id event, Option.some.injEq] at hlast
    exact .inl (hissue.symm.trans (hlast ▸ hwording))
  · rw [if_neg hid] at hissue
    rw [FailureStore.events_append, if_neg hid] at hlast
    exact h other wording hlast hissue

theorem Worded.append_ne (h : Worded allowed issueId s) {id : String} (hid : issueId ≠ id)
    (event : FailureEvent) : Worded allowed issueId (s.append id event) := by
  intro other wording hlast hissue
  rw [FailureStore.events_append, if_neg hid] at hlast
  exact h other wording hlast hissue

theorem Worded.recordUpdateFailure (h : Worded allowed issueId s) {id : String}
    (event : UpdateEvent)
    {raiseIssue : Bool} (hraises : id = issueId → raiseIssue = true) :
    Worded allowed issueId (s.asyncRecordUpdateFailure id event raiseIssue) := by
  unfold FailureStore.asyncRecordUpdateFailure
  split
  · exact h.raised id (.update event) rfl
  · rename_i hquiet
    exact h.append_ne (fun hid => hquiet (hraises hid.symm)) _

theorem Worded.runTask (h : Worded allowed issueId s) (hentry : OfEntry issueId s) :
    Worded allowed issueId s.runTask := by
  unfold FailureStore.runTask
  split
  · exact h
  · rename_i id event tasks htasks
    refine h.append_ne (fun hid => ?_) event
    rw [← hid] at htasks
    exact hentry.unscheduled event (htasks ▸ List.mem_cons_self)
  · rename_i id tasks htasks
    exact h.clear id

theorem Worded.restored (h : Worded allowed issueId s) (hentry : OfEntry issueId s) (id : String) :
    Worded allowed issueId (s.asyncRestoreUpdateFailure id) := by
  rcases s.restore_cases id with ⟨heq, -⟩ | ⟨event, kind, reason, hlast, hwording, heq⟩
  · rw [heq]
    exact h
  · rw [heq]
    refine h.issue id fun hid other hother => .inl ?_
    rw [hid, hother, Option.some.injEq] at hlast
    rw [hlast]
    exact hwording (hlast ▸ hentry.named other (List.mem_of_getLast? hother))

theorem Worded.reword (h : Worded allowed issueId s) (id : String)
    {choose : String → Option (IssueKind × String)}
    (hchoose : id = issueId → ∀ event old kind reason, (s.events issueId).getLast? = some event →
      s.issues.get? issueId = some old → choose old = some (kind, reason) →
        wording kind reason = old ∨ allowed (wording kind reason)) :
    Worded allowed issueId (s.reword id choose) := by
  rcases s.reword_cases id choose with heq | ⟨old, kind, reason, hold, hchosen, heq⟩
  · rw [heq]
    exact h
  · rw [heq]
    refine h.issue id fun hid event hlast => ?_
    rw [hid] at hold
    rcases hchoose hid event old kind reason hlast hold hchosen with hsame | hallowed
    · rw [hsame]
      exact h event old hlast hold
    · exact .inr hallowed

/-- The words that an event of an entry can have. -/
theorem FailureEvent.wording_cases {event : FailureEvent} (h : event.namesEntry = true) :
    event.wording = "installer_failure_adb_authorization" ∨
      event.wording = "installer_failure_update_webview" ∨
      event.wording = "installer_failure_update" ∨
        event.wording = "installer_failure_retry_hold" := by
  cases event with
  | update event =>
    simp only [FailureEvent.wording, FailureRepairs.wording]
    split
    · exact .inl rfl
    · split
      · exact .inr (.inl rfl)
      · exact .inr (.inr (.inl rfl))
  | retryHold reason ofEntry => exact .inr (.inr (.inr rfl))
  | install reason => cases h

/-- A refreshed name leaves all words but those about a WebView. -/
theorem Worded.refreshed (h : Worded allowed issueId s) (hentry : OfEntry issueId s) (id : String)
    (hfinds : (∀ wording, Anew wording → allowed wording) ∨ (∀ wording, ¬ allowed wording) ∧
      (Call.refreshUpdateFailureName id).Keeps issueId s) :
    Worded allowed issueId (s.asyncRefreshUpdateFailureName id) := by
  refine h.reword id fun hid event old kind reason hlast hold hchosen => ?_
  cases hchosen
  by_cases hretry : old = "installer_failure_retry_hold"
  · exact .inl (by rw [if_pos hretry, hretry]; rfl)
  · rw [if_neg hretry]
    by_cases hadb : old = "installer_failure_adb_authorization"
    · exact .inl (by rw [if_pos hadb, hadb]; rfl)
    · rw [if_neg hadb]
      rcases hfinds with hanew | ⟨hnone, hkeeps⟩
      · exact .inr (hanew _ (.inr rfl))
      · have hworded : old = event.wording := (h event old hlast hold).resolve_right (hnone old)
        have hnames : event.namesEntry = true := hentry.named event (List.mem_of_getLast? hlast)
        rcases FailureEvent.wording_cases hnames with hcase | hcase | hcase | hcase
        · exact absurd (hworded.trans hcase) hadb
        · exact absurd (hold.trans (congrArg some (hworded.trans hcase))) (hkeeps hid)
        · exact .inl (hworded.trans hcase).symm
        · exact absurd (hworded.trans hcase) hretry

theorem Worded.step (h : Worded allowed issueId s) (hentry : OfEntry issueId s) {call : Call}
    (hcall : call.OfEntry issueId) (hraises : call.Raises issueId)
    (hfinds : (∀ wording, Anew wording → allowed wording) ∨
      (∀ wording, ¬ allowed wording) ∧ call.Keeps issueId s) :
    Worded allowed issueId (step s call) := by
  cases call with
  | recordUpdateFailure id event raiseIssue => exact h.recordUpdateFailure event hraises
  | recordUpdateBundle id target webviewPending =>
    show Worded allowed issueId (s.asyncRecordUpdateBundle id target webviewPending)
    rcases s.recordBundle_cases id target webviewPending with heq | ⟨event, heq⟩
    · rw [heq]
      exact h
    · rw [heq]
      exact h.recordUpdateFailure event fun hid => absurd hid hraises
  | recordRetryHold id reason ofEntry => exact h.raised id (.retryHold reason ofEntry) rfl
  | recordInstallFailure id reason => exact h.issue id fun hid => absurd hid hcall
  | clearInstallFailure id => exact h
  | runTask => exact h.runTask hentry
  | clearUpdateFailureIfInstalled id o =>
    show Worded allowed issueId (s.asyncClearUpdateFailureIfInstalled id o)
    rcases s.clearIfInstalled_cases id o with heq | heq
    · rw [heq]
      exact h
    · rw [heq]
      exact h.clear id
  | clearFailure id => exact h.clearRecord id
  | endFlow id =>
    simp only [FailureRepairs.step, FailureStore.endFlow]
    split
    · exact h.deleteIssue id
    · exact h
  | deleteIssueAndReport id => exact h.clear id
  | lostIssue id => exact h.deleteIssue id
  | restoreUpdateFailure id => exact h.restored hentry id
  | requestAdbAuthorization id =>
    refine h.reword id fun hid event old kind reason hlast hold hchosen => ?_
    cases hchosen
    rcases hfinds with hanew | ⟨-, hkeeps⟩
    · exact .inr (hanew _ (.inl rfl))
    · exact .inl (hkeeps hid old hold).symm
  | clearAdbAuthorization id =>
    refine h.reword id fun hid event old kind reason hlast hold hchosen => ?_
    split at hchosen
    · rename_i hadb
      cases hchosen
      rcases hfinds with hanew | ⟨-, hkeeps⟩
      · exact .inr (hanew _ (.inr rfl))
      · exact absurd (hadb ▸ hold) (hkeeps hid)
    · cases hchosen
  | refreshUpdateFailureName id => exact h.refreshed hentry id hfinds

def build772 : UpdateEvent := ⟨some "772", none, false, "", none⟩

/-- The update to build 772 failed, and sixteen of its retries were held. -/
def heldSixteen : FailureStore :=
  run step .initial
    (.recordUpdateFailure "issue" build772 true :: List.replicate 16
      (.recordRetryHold "issue" "retry_failed" true))

/-- The panel runs build 772, and the Repair of build 772 stays; and a panel that was seen on a
later release moves on to a still later pre-release, which takes the withdrawal back. -/
theorem held_not_withdrawn :
    (latestUpdate (heldSixteen.history "issue") = some build772 ∧
      (step heldSixteen
        (.clearUpdateFailureIfInstalled "issue"
          ⟨"1.0.0", some 772, false, none, false, true⟩)).issues.get? "issue" =
        some "installer_failure_retry_hold") ∧
    (versionKey "1.1.0").get! < (versionKey "1.2.0-rc1").get! ∧
    reachedBy (some ⟨none, some ("1.0.0", none), false, "", none⟩)
      ⟨"1.1.0", none, false, none, false, true⟩ = true ∧
    reachedBy (some ⟨none, some ("1.0.0", none), false, "", none⟩)
      ⟨"1.2.0-rc1", none, false, none, false, true⟩ = false := by
  refine ⟨⟨by decide, by decide⟩,
    by decide, by decide, by decide⟩

end PanelAssistant.FailureRepairs
