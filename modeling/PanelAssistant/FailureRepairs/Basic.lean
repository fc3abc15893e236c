import PanelAssistant.Library.BoundedLog
import PanelAssistant.Library.Dict
import PanelAssistant.Library.Runs
import PanelAssistant.Updates.Entity

/-!
# Failed updates and their Repairs

`repairs_failure.py`: the private history of each failure and the Repair that stands for it. A
record keeps the newest sixteen of its events, and the latest update event among them decides when
the Repair of an update is withdrawn.

Versions are compared by `versionKey`, which `_version_key` computes for every text of at most 4300
characters (`versionKeyOrError_of_length`).
-/

namespace PanelAssistant.FailureRepairs

open Library

/-! ## Events -/

/-- A saved update failure. -/
structure UpdateEvent where
  targetVersion : Option String
  observedBefore : Option (String × Option ℤ)
  webviewPending : Bool
  reason : String
  translationKey : Option String
  deriving DecidableEq

inductive FailureEvent where
  | update (event : UpdateEvent)
  /-- A refused Retry, with the entry of the failure that it retried where that has one. -/
  | retryHold (reason : String) (ofEntry : Bool)
  | install (reason : String)
  deriving DecidableEq

namespace FailureEvent

def update? : FailureEvent → Option UpdateEvent
  | .update event => some event
  | .retryHold .. | .install _ => none

/-- Whether `update_failure_entry_id` reads the entry of the issue from the event. -/
def namesEntry : FailureEvent → Bool
  | .update _ => true
  | .retryHold _ ofEntry => ofEntry
  | .install _ => false

end FailureEvent

/-- The latest update event of a history. -/
def latestUpdate (events : List FailureEvent) : Option UpdateEvent :=
  BoundedLog.latest FailureEvent.update? events

/-- How many events followed the latest update event: on the issue of an entry, the retry holds. -/
def holdsAfter (events : List FailureEvent) : ℕ := BoundedLog.behind FailureEvent.update? events

/-! ## Withdrawal -/

/-- What the panel was seen to run. -/
structure Observation where
  installedVersion : String
  installedCode : Option ℤ
  verifiedSuccess : Bool
  verifiedCurrentCode : Option ℤ
  webviewCompleted : Bool
  isCurrent : Bool
  deriving DecidableEq

/-- Whether the panel moved on from what ran before the failure. -/
def movedOn (before : String × Option ℤ) (o : Observation) : Bool :=
  isNewerStableVersion o.installedVersion before.1 ||
    (o.installedVersion == before.1 &&
      match before.2, o.installedCode with
      | some oldCode, some installedCode => decide (oldCode < installedCode)
      | _, _ => false)

/-- Whether the panel runs the build that a saved target names. -/
def runsTarget (target : String) (o : Observation) : Bool :=
  match parseBuildRequest target with
  | some code => o.installedCode.any fun installedCode => decide ((code : ℤ) ≤ installedCode)
  | none => isVersionAtLeast o.installedVersion target == some true

/-- `reached`, from the latest update event on. -/
def reachedBy (previous : Option UpdateEvent) (o : Observation) : Bool :=
  o.isCurrent &&
    match previous with
    | none => o.verifiedSuccess
    | some event =>
      if event.webviewPending && !o.webviewCompleted then false
      else
        match event.targetVersion with
        | some target => runsTarget target o
        | none =>
          match event.observedBefore with
          | some before => movedOn before o || o.verifiedSuccess
          | none =>
            o.verifiedSuccess ||
              match o.verifiedCurrentCode, o.installedCode with
              | some current, some installedCode => decide (current ≤ installedCode)
              | _, _ => false

def reached (events : List FailureEvent) (o : Observation) : Bool :=
  reachedBy (latestUpdate events) o

/-- Whether a saved target is later than a new one: what `async_record_update_bundle` keeps. -/
def keepsTarget (saved target : String) : Bool :=
  match parseBuildRequest saved, parseBuildRequest target with
  | some oldCode, some newCode => decide (newCode < oldCode)
  | none, _ => isNewerStableVersion saved target
  | some _, none => false

/-! ## The store -/

inductive IssueKind where
  | install
  | update
  | retryHold
  deriving DecidableEq

/-- `_INSTALL_CAUSES` -/
def installCauses : List String :=
  ["authorization_failed", "preflight_rejected", "artifact_rejected", "transport_failed",
    "install_failed", "launch_failed", "health_check_failed", "ambiguous_mutation",
    "verification_required"]

/-- The wording that `_issue` chooses. -/
def wording (kind : IssueKind) (reason : String) : String :=
  match kind with
  | .install =>
    if reason ∈ installCauses then "installer_failure_" ++ reason else "installer_failure"
  | .update =>
    if reason = "adb_authorization_required" then "installer_failure_adb_authorization"
    else if reason = "update_webview_unfinished" then "installer_failure_update_webview"
    else "installer_failure_update"
  | .retryHold => "installer_failure_retry_hold"

/-- `getattr(error, "translation_key", None) or reason` -/
def UpdateEvent.cause (event : UpdateEvent) : String :=
  match event.translationKey with
  | some key => if key.isEmpty then event.reason else key
  | none => event.reason

/-- A call of the store that `async_create_task` runs later. -/
inductive StoreTask where
  | append (issueId : String) (event : FailureEvent)
  | clear (issueId : String)
  deriving DecidableEq

structure FailureStore where
  records : Dict String (List FailureEvent)
  /-- The Repairs, by issue id, each with its wording. -/
  issues : Dict String String
  /-- The tasks that have not run yet, in the order of their creation. -/
  tasks : List StoreTask
  /-- The issues whose report a fix flow cleared, until Home Assistant deletes the Repair with the
  flow. -/
  ending : List String
  /-- All that was recorded since an issue was last cleared. -/
  history : String → List FailureEvent

namespace FailureStore

variable (s : FailureStore) (issueId : String)

def initial : FailureStore := ⟨∅, ∅, [], [], fun _ => []⟩

/-- The saved events of an issue. -/
def events : List FailureEvent := (s.records.get? issueId).getD []

def issue (kind : IssueKind) (reason : String) : FailureStore :=
  { s with issues := s.issues.set issueId (wording kind reason) }

/-- `_FailureStore.append` -/
def append (event : FailureEvent) : FailureStore :=
  { s with
    records := s.records.set issueId (BoundedLog.keep 15 (s.events issueId) event)
    history := Function.update s.history issueId (s.history issueId ++ [event]) }

/-- `_FailureStore.clear` -/
def clearRecord : FailureStore :=
  { s with
    records := s.records.pop issueId
    history := Function.update s.history issueId [] }

def deleteIssue : FailureStore := { s with issues := s.issues.pop issueId }

/-- `_FailureStore.clear`, with the deletion of the issue. -/
def clear : FailureStore := (s.clearRecord issueId).deleteIssue issueId

/-- `async_record_update_failure`, for an entry that is still the current one. -/
def asyncRecordUpdateFailure (event : UpdateEvent) (raiseIssue : Bool) : FailureStore :=
  let recorded := s.append issueId (.update event)
  if raiseIssue then recorded.issue issueId .update event.cause else recorded

/-- `async_record_update_bundle` -/
def asyncRecordUpdateBundle (target : String) (webviewPending : Bool) : FailureStore :=
  if ((latestUpdate (s.events issueId)).bind (·.targetVersion)).any (keepsTarget · target) then s
  else
    s.asyncRecordUpdateFailure issueId
      ⟨some target, none, webviewPending,
        "The combined app and WebView update is unfinished", none⟩ false

/-- `async_record_retry_hold` -/
def asyncRecordRetryHold (reason : String) (ofEntry : Bool) : FailureStore :=
  (s.append issueId (.retryHold reason ofEntry)).issue issueId .retryHold reason

/-- `record_install_failure`: the Repair first, and a task for its report. -/
def recordInstallFailure (reason : String) : FailureStore :=
  let raised := s.issue issueId .install reason
  { raised with tasks := s.tasks ++ [.append issueId (.install reason)] }

/-- `clear_install_failure` -/
def clearInstallFailure : FailureStore := { s with tasks := s.tasks ++ [.clear issueId] }

/-- The first task that was created runs. -/
def runTask : FailureStore :=
  match s.tasks with
  | [] => s
  | .append issueId event :: tasks => { s.append issueId event with tasks }
  | .clear issueId :: tasks => { s.clear issueId with tasks }

/-- `async_clear_failure`: the fix flow clears the report, and ends with it. -/
def asyncClearFailure : FailureStore :=
  { s.clearRecord issueId with ending := s.ending ++ [issueId] }

/-- Home Assistant deletes the Repair of a fix flow that ended. -/
def endFlow : FailureStore :=
  if issueId ∈ s.ending then { s.deleteIssue issueId with ending := s.ending.erase issueId } else s

/-- `async_clear_update_failure_if_installed` -/
def asyncClearUpdateFailureIfInstalled (o : Observation) : FailureStore :=
  if reached (s.events issueId) o then s.clear issueId else s

/-- `async_restore_update_failure`: a saved report of an entry whose Repair was lost. -/
def asyncRestoreUpdateFailure : FailureStore :=
  if (s.issues.get? issueId).isSome then s
  else if ¬ (s.events issueId).any FailureEvent.namesEntry then s
  else
    match (s.events issueId).getLast? with
    | none => s
    | some (.update event) => s.issue issueId .update event.cause
    | some (.retryHold reason _) => s.issue issueId .retryHold reason
    | some (.install reason) => s.issue issueId .update reason

/-- A Repair that stands is raised again under the words that `choose` finds for its old ones. -/
def reword (choose : String → Option (IssueKind × String)) : FailureStore :=
  match (s.issues.get? issueId).bind choose with
  | none => s
  | some (kind, reason) => s.issue issueId kind reason

/-- `async_request_adb_authorization`. Without a failed update it raises a Repair of its own, which
is not one of these. -/
def asyncRequestAdbAuthorization : FailureStore :=
  s.reword issueId fun _ => some (.update, "adb_authorization_required")

/-- `async_clear_adb_authorization` -/
def asyncClearAdbAuthorization : FailureStore :=
  s.reword issueId fun translationKey =>
    if translationKey = "installer_failure_adb_authorization" then some (.update, "") else none

/-- `async_refresh_update_failure_name`: a Repair about a WebView loses its words. -/
def asyncRefreshUpdateFailureName : FailureStore :=
  s.reword issueId fun translationKey =>
    some (if translationKey = "installer_failure_retry_hold" then .retryHold else .update,
      if translationKey = "installer_failure_adb_authorization" then
        "adb_authorization_required" else "")

end FailureStore

/-- What happens while Home Assistant runs. The calls about an update are about an entry that is
still the current one. -/
inductive Call where
  | recordUpdateFailure (issueId : String) (event : UpdateEvent) (raiseIssue : Bool)
  | recordUpdateBundle (issueId target : String) (webviewPending : Bool)
  | recordRetryHold (issueId reason : String) (ofEntry : Bool)
  | recordInstallFailure (issueId reason : String)
  | clearInstallFailure (issueId : String)
  | runTask
  | clearUpdateFailureIfInstalled (issueId : String) (o : Observation)
  | clearFailure (issueId : String)
  | endFlow (issueId : String)
  /-- `async_delete_issue_and_report` -/
  | deleteIssueAndReport (issueId : String)
  /-- The Repair went without its report: a crash before the registry saved it, or the first half of
  `async_delete_entry_issues`. -/
  | lostIssue (issueId : String)
  | restoreUpdateFailure (issueId : String)
  | requestAdbAuthorization (issueId : String)
  | clearAdbAuthorization (issueId : String)
  | refreshUpdateFailureName (issueId : String)

def step (s : FailureStore) : Call → FailureStore
  | .recordUpdateFailure issueId event raiseIssue =>
    s.asyncRecordUpdateFailure issueId event raiseIssue
  | .recordUpdateBundle issueId target webviewPending =>
    s.asyncRecordUpdateBundle issueId target webviewPending
  | .recordRetryHold issueId reason ofEntry => s.asyncRecordRetryHold issueId reason ofEntry
  | .recordInstallFailure issueId reason => s.recordInstallFailure issueId reason
  | .clearInstallFailure issueId => s.clearInstallFailure issueId
  | .runTask => s.runTask
  | .clearUpdateFailureIfInstalled issueId o => s.asyncClearUpdateFailureIfInstalled issueId o
  | .clearFailure issueId => s.asyncClearFailure issueId
  | .endFlow issueId => s.endFlow issueId
  | .deleteIssueAndReport issueId => s.clear issueId
  | .lostIssue issueId => s.deleteIssue issueId
  | .restoreUpdateFailure issueId => s.asyncRestoreUpdateFailure issueId
  | .requestAdbAuthorization issueId => s.asyncRequestAdbAuthorization issueId
  | .clearAdbAuthorization issueId => s.asyncClearAdbAuthorization issueId
  | .refreshUpdateFailureName issueId => s.asyncRefreshUpdateFailureName issueId

end PanelAssistant.FailureRepairs
