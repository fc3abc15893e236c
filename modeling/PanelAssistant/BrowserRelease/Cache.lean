import PanelAssistant.Library.Dict
import PanelAssistant.Library.Tasks
import PanelAssistant.Updates.Sources

/-!
# Custody of browser releases

`BrowserReleaseCache` of `browser_release_cache.py` and the admission of `BrowserDelivery`. A
request runs from one await to the next against the cache. A cleanup is drained by
`_finish_cleanup`, so a request that is cancelled meanwhile goes on to its end and raises then.
`files` are the bundles with a file in custody. -/

namespace PanelAssistant.BrowserRelease

open Library

/-! ## The cache -/

/-- `_Entry` -/
structure Entry where
  artifact : ReleaseArtifact
  userId : String
  rcTag : Option String
  expires : ℚ
  leases : ℕ
  served : Bool
  retiring : Bool

structure Cache where
  entries : Dict String Entry
  initialized : Bool
  busy : Bool
  closed : Bool
  failed : Bool
  /-- `BrowserDelivery._closed` -/
  stopped : Bool
  /-- How many requests are admitted. -/
  requests : ℕ
  files : List String
  now : ℚ
  /-- `prereleases_allowed()` -/
  prereleases : Bool

/-- `_CAPACITY` -/
def capacity : ℕ := 2

/-- `_TTL_SECONDS` -/
def ttlSeconds : ℚ := 900

def maxRequests : ℕ := 2

/-- What a request is for. -/
inductive Purpose where
  /-- A listing of the choices, which leaves the cache alone. -/
  | list
  | prepare (userId : String) (rcTag : Option String)
  | lease
  /-- `async_stop`, which is no request. -/
  | stop
  deriving DecidableEq

inductive Stage where
  | listing
  /-- The selection is read. -/
  | reading
  /-- The body of a lease. -/
  | body (id : String)
  /-- `async_stop` waits for the requests. -/
  | drain
  | reconcile
  /-- `_reap` is scheduled. -/
  | reap
  | cleanup (id : String) (rest : List String)
  /-- `_evict` is scheduled. -/
  | evict
  | evicting (id : String)
  | resolve (reservation : String)
  | download (reservation : String) (artifact : ReleaseArtifact)
  /-- The cleanup of a reservation that was not used. -/
  | withdraw (reservation : String)
  | done (ok : Bool)
  deriving DecidableEq

structure Task where
  purpose : Purpose
  stage : Stage
  cancelled : Bool

inductive Call where
  | list
  | prepare (userId : String) (rcTag : Option String)
  | lease (userId id : String)
  | stop
  /-- Time passes. -/
  | tick (seconds : ℚ)
  | policy (prereleases : Bool)

/-- What a task is told, with the first of the tokens that `token_hex` draws next and no entry
has. -/
inductive Event where
  | cancelled
  | turn (token : String)
  | reconciled (ok : Bool) (left : List String)
  | cleaned (ok removed : Bool) (token : String)
  | resolved (artifact : Option ReleaseArtifact)
  /-- The download began to write its file. -/
  | written
  | downloaded (ok : Bool)

namespace Cache

variable (c : Cache)

def initial : Cache where
  entries := ∅
  initialized := false
  busy := false
  closed := false
  failed := false
  stopped := false
  requests := 0
  files := []
  now := 0
  prereleases := false

/-- `_check_available` -/
def available : Bool := !c.failed && !c.closed

def allows (entry : Entry) : Bool :=
  artifactAllowed entry.artifact (c.prereleases || entry.rcTag.isSome)

/-- An entry can be had by a user. -/
def offers (userId : String) (entry : Entry) : Bool :=
  entry.userId = userId && !entry.retiring && decide (c.now < entry.expires) && c.allows entry

/-- `async_admit` -/
def admits : Bool := !c.stopped && decide (c.requests < maxRequests)

/-- The end of a request. -/
def dismiss (purpose : Purpose) : Cache :=
  match purpose with
  | .stop => c
  | .list | .prepare _ _ | .lease => { c with requests := c.requests - 1 }

/-- A cleanup that is over, with the end of its request. -/
def leave (task : Task) (ok : Bool) : Cache × Task :=
  ({ c with busy := false }.dismiss task.purpose, { task with stage := .done ok })

def update (id : String) (f : Entry → Entry) : Cache :=
  match c.entries.get? id with
  | none => c
  | some entry => { c with entries := c.entries.set id (f entry) }

/-- The start of `_cleanup`. -/
def retire (id : String) : Cache := c.update id fun entry => { entry with retiring := true }

/-- The end of `_cleanup`. -/
def cleaned (id : String) (ok removed : Bool) : Cache :=
  if ok then { c with files := c.files.filter (· ≠ id), entries := c.entries.pop id }
  else { c with files := if removed then c.files.filter (· ≠ id) else c.files, failed := true }

/-- What `_reap` cleans. -/
def due (id : String) : Bool :=
  (c.entries.get? id).any fun entry => entry.leases = 0 &&
    (c.closed || decide (entry.expires ≤ c.now))

/-- The next one to clean. Only the holder of `_busy` removes entries, so none of them is gone. -/
def next : List String → Option (String × List String)
  | [] => none
  | id :: rest => if c.due id then some (id, rest) else next rest

/-- The order in which `_evict` chooses. -/
def rank (e : String × Entry) : Bool ×ₗ ℚ ×ₗ String := toLex (!e.2.served, toLex (e.2.expires, e.1))

/-- The entry that `_evict` removes. -/
def evictee : Option String :=
  ((c.entries.entries.filter fun e => decide (e.2.leases = 0) && !e.2.retiring).map rank).min?.map
    fun r => (ofLex (ofLex r).2).2

/-! ## Steps -/

/-- A reservation is drawn. -/
def reserve (task : Task) (token : String) : Option (Cache × Task) :=
  if c.entries.contains token then none else some (c, { task with stage := .resolve token })

/-- After `_evict`. -/
def evicted (task : Task) (token : String) : Option (Cache × Task) :=
  if task.cancelled || decide (capacity ≤ c.entries.size) then some (c.leave task false)
  else c.reserve task token

/-- After `_reap`. -/
def reaped (task : Task) (token : String) : Option (Cache × Task) :=
  if task.cancelled then some (c.leave task false)
  else
    match task.purpose with
    | .prepare _ _ =>
      if capacity ≤ c.entries.size then some (c, { task with stage := .evict })
      else c.reserve task token
    | .list | .lease | .stop => some (c.leave task true)

/-- `_reap`, up to its next await. -/
def reapFrom (task : Task) (ids : List String) (token : String) : Option (Cache × Task) :=
  match c.next ids with
  | some (id, rest) => some (c.retire id, { task with stage := .cleanup id rest })
  | none => c.reaped task token

/-- `async_prepare`, up to its first await. -/
def asyncPrepare (task : Task) (userId : String) (rcTag : Option String) : Cache × Task :=
  if !c.available then (c.dismiss task.purpose, { task with stage := .done false })
  else if c.entries.entries.any fun e => e.2.rcTag = rcTag && c.offers userId e.2 then
    (c.dismiss task.purpose, { task with stage := .done true })
  else if c.busy then (c.dismiss task.purpose, { task with stage := .done false })
  else ({ c with busy := true }, { task with stage := if c.initialized then .reap else .reconcile })

/-- A request, up to its first await in `async_admit`. -/
def asyncAdmit (purpose : Purpose) (stage : Stage) : Cache × Task :=
  if c.admits then ({ c with requests := c.requests + 1 }, ⟨purpose, stage, false⟩)
  else (c, ⟨purpose, .done false, false⟩)

/-- `async_lease`, up to its body. -/
def asyncLease (userId id : String) : Cache × Task :=
  if c.admits && c.available && (c.entries.get? id).any (c.offers userId) then
    ({ c with requests := c.requests + 1 }.update id fun entry =>
      { entry with leases := entry.leases + 1, served := true }, ⟨.lease, .body id, false⟩)
  else (c, ⟨.lease, .done false, false⟩)

/-- The end of a lease's body. -/
def endLease (task : Task) (id : String) : Cache × Task :=
  let released := c.update id fun entry => { entry with leases := entry.leases - 1 }
  if c.busy then (released.dismiss task.purpose, { task with stage := .done (!task.cancelled) })
  else ({ released with busy := true }, { task with stage := .reap })

/-- `async_close` -/
def asyncClose (task : Task) : Cache × Task :=
  if c.busy then (c, { task with stage := .done false })
  else ({ c with closed := true, busy := true }, { task with stage := .reap })

/-- A call, up to its first await. -/
def start : Call → Cache × Task
  | .list => c.asyncAdmit .list .listing
  | .prepare userId rcTag => c.asyncAdmit (.prepare userId rcTag) .reading
  | .lease userId id => c.asyncLease userId id
  | .stop => ({ c with stopped := true }, ⟨.stop, .drain, false⟩)
  | .tick seconds => ({ c with now := c.now + |seconds| }, ⟨.list, .done true, false⟩)
  | .policy prereleases => ({ c with prereleases }, ⟨.list, .done true, false⟩)

/-- Whether a download of the bundle is begun. -/
def fits (artifact : ReleaseArtifact) : Bool :=
  artifact.descriptor.any fun d => decide (0 < d.apkSize ∧ (d.apkSize : ℤ) ≤ maxApkBytes)

/-- A task from one await to the next. -/
def wake (task : Task) (event : Event) : Option (Cache × Task) :=
  match task.stage, event with
  | .listing, .cancelled => some (c.dismiss task.purpose, { task with stage := .done false })
  | .listing, .turn _ => some (c.dismiss task.purpose, { task with stage := .done true })
  | .reading, .cancelled => some (c.dismiss task.purpose, { task with stage := .done false })
  | .reading, .turn _ =>
    match task.purpose with
    | .prepare userId rcTag => some (c.asyncPrepare task userId rcTag)
    | .list | .lease | .stop => none
  | .body id, .cancelled => some (c.endLease { task with cancelled := true } id)
  | .body id, .turn _ => some (c.endLease task id)
  | .drain, .cancelled => some (c, { task with stage := .done false })
  | .drain, .turn _ => if c.requests = 0 then some (c.asyncClose task) else none
  | .reconcile, .reconciled ok left =>
    if ok then
      let c := { c with files := [] }
      if task.cancelled then some (c.leave task false)
      else some ({ c with initialized := true }, { task with stage := .reap })
    else some ({ c with files := c.files.filter left.contains, failed := true }.leave task false)
  | .reap, .turn token => c.reapFrom task c.entries.keys token
  | .cleanup id rest, .cleaned ok removed token =>
    if ok then (c.cleaned id true removed).reapFrom task rest token
    else some ((c.cleaned id false removed).leave task false)
  | .evict, .turn token =>
    match c.evictee with
    | some id => some (c.retire id, { task with stage := .evicting id })
    | none => c.evicted task token
  | .evicting id, .cleaned ok removed token =>
    if ok then (c.cleaned id true removed).evicted task token
    else some ((c.cleaned id false removed).leave task false)
  | .resolve reservation, .cancelled => some (c, { task with stage := .withdraw reservation })
  | .resolve reservation, .resolved artifact =>
    match artifact.filter fits with
    | some artifact => some (c, { task with stage := .download reservation artifact })
    | none => some (c, { task with stage := .withdraw reservation })
  | .download reservation _, .written => some ({ c with files := reservation :: c.files }, task)
  | .download reservation _, .cancelled => some (c, { task with stage := .withdraw reservation })
  | .download reservation artifact, .downloaded ok =>
    if ok then
      match task.purpose with
      | .prepare userId rcTag =>
        let entry : Entry := ⟨artifact, userId, rcTag, c.now + ttlSeconds, 0, false, false⟩
        some ({ c with
          files := reservation :: c.files
          entries := c.entries.set reservation entry }.leave task true)
      | .list | .lease | .stop => none
    else some (c, { task with stage := .withdraw reservation })
  | .withdraw reservation, .cleaned ok removed _ =>
    some ((c.cleaned reservation ok removed).leave task false)
  -- in a cleanup, which is drained
  | .reconcile, .cancelled | .reap, .cancelled | .cleanup _ _, .cancelled | .evict, .cancelled
  | .evicting _, .cancelled | .withdraw _, .cancelled => some (c, { task with cancelled := true })
  | _, _ => none

/-- Every interleaving of the requests. -/
def program : Tasks.Program Cache Task Call Event := ⟨start, wake⟩

/-- The cache and the requests after a run. -/
def after (moves : List (Tasks.Move Call Event)) : Tasks.Pool Cache Task :=
  program.run ⟨initial, []⟩ moves

end Cache

end PanelAssistant.BrowserRelease
