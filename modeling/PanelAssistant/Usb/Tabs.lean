import PanelAssistant.Library.Tasks
import PanelAssistant.Usb.Programs

/-!
# Browser tabs on one panel

Any number of tabs share the record of one panel and its device lock. A tab runs one operation at a
time, from one await to the next; between two awaits of a tab every other tab may move. At every
await the call may throw, and a page may crash, which frees the lock it holds and loses its preview.

Each tab keeps a log of what it did, newest first, with the record as it was saved at that moment.
-/

namespace PanelAssistant.Usb

open Library

variable {Target Artifact : Type}

/-! ## Tabs -/

/-- What a tab can be asked to do. -/
inductive Operation (Target : Type)
  | transaction
  | recovery (expectedJobId : JobId) (confirmed : Bool)
  | preview (target : Target)
  | install (confirmed : Bool)
  | completeSetup
  | invalidate

/-- An operation that has begun, with the preview it works from. -/
inductive Begun (Target Artifact : Type)
  | transaction
  | recovery (expectedJobId : JobId) (confirmed : Bool)
  | preview (target : Target)
  | install (selected : Preview Target Artifact)
  | completeSetup (selected : Preview Target Artifact) (expectedJobId : Option JobId)

inductive Outcome (Target Artifact : Type)
  | advanced (receipt : Receipt Target Artifact)
  | previewed (preview : Preview Target Artifact)
  | installed (receipt : Receipt Target Artifact) (adopted : Bool)
  | setUp

inductive Entry (Target Artifact : Type)
  | begun (operation : Begun Target Artifact)
  | performed (c : Call Target Artifact) (reply : Reply c)
    (saved : Option (Receipt Target Artifact))
  | settled (outcome : Except Failure (Outcome Target Artifact))
  | crashed (awaited : Option (Call Target Artifact))

abbrev Log (Target Artifact : Type) : Type := List (Entry Target Artifact)

/-- What one hold of the device lock has read, seen and done. -/
structure Hold (Target Artifact : Type) where
  site : Option Site
  /-- The record it found first. -/
  found : Option (Receipt Target Artifact)
  /-- The record as it last read or wrote it. -/
  known : Option (Receipt Target Artifact)
  /-- The latest inspection since the panel was changed: of a recovery or not, of what, and what it
  showed. -/
  seen : Option (Bool × Subject Target Artifact × Observation Target)
  /-- The pending phase it wrote last. -/
  intent : Option (Receipt Target Artifact)
  /-- It called an actuator. -/
  acted : Bool

def Hold.free : Hold Target Artifact := ⟨none, none, none, none, none, false⟩

def Hold.begin (site : Site) : Hold Target Artifact := ⟨some site, none, none, none, none, false⟩

def Hold.after (h : Hold Target Artifact) : Entry Target Artifact → Hold Target Artifact
  | .performed (.acquire site) (.ok true) _ => .begin site
  | .performed .release _ _ => Hold.free
  | .crashed _ => Hold.free
  | .performed .load (.ok r) _ =>
    if h.site.isSome then { h with found := h.found.or r, known := r } else h
  | .performed (.put _ _ _) (.ok r) _ =>
    { h with known := some r, intent := if r.phase.pending then some r else h.intent }
  | .performed (.remove _ _) (.ok _) _ => { h with known := none }
  | .performed (.inspect recovery subject _) (.ok state) _ =>
    { h with seen := some (recovery, subject, state) }
  | .performed (.actuate _ _ _) _ _ => { h with seen := none, acted := true }
  | _ => h

/-- The current hold of a log, or the last inspection outside of one. -/
def hold (log : Log Target Artifact) : Hold Target Artifact :=
  log.foldr (fun e h => h.after e) Hold.free

structure Tab (Target Artifact : Type) where
  preview : Option (Preview Target Artifact)
  expectedJobId : Option JobId
  installed : Bool
  running : Option (Prog Target Artifact (Outcome Target Artifact))
  log : Log Target Artifact

def Tab.blank : Tab Target Artifact := ⟨none, none, false, none, []⟩

/-- The call that the tab has made and that is not answered yet. -/
def Tab.awaited (t : Tab Target Artifact) : Option (Call Target Artifact) :=
  match t.running with
  | some (.perform c _) => some c
  | _ => none

/-- What all tabs share: the saved record, the device lock, and the ids that were ever drawn. -/
structure Shared (Target Artifact : Type) where
  saved : Option (Receipt Target Artifact)
  locked : Bool
  used : List JobId

/-! ## Answers -/

/-- What the surroundings answer to the call that a tab awaits. -/
structure World (Target Artifact : Type) where
  failure : Option Failure
  release : Release Artifact
  observation : Observation Target
  nonce : JobId
  outcome : String
  granted : Bool

variable [DecidableEq Target] [DecidableEq Artifact]

/-- A change of the record by a transaction that may be refused. -/
def Shared.change (s : Shared Target Artifact) {α : Type} (outcome : Except Failure α)
    (saved : α → Option (Receipt Target Artifact)) : Except Failure α × Shared Target Artifact :=
  match outcome with
  | .ok a => (.ok a, { s with saved := saved a })
  | .error e => (.error e, s)

/-- What a call answers and does, when it does not throw. -/
def answer (s : Shared Target Artifact) (w : World Target Artifact) :
    (c : Call Target Artifact) → Reply c × Shared Target Artifact
  | .ensureCurrent => (.ok (), s)
  | .authenticate => (.ok w.release, s)
  | .acquire _ => (.ok !s.locked, { s with locked := true })
  | .release => (.ok (), { s with locked := false })
  | .load => (.ok s.saved, s)
  | .put snapshot expectedRevision next =>
    s.change (put s.saved snapshot expectedRevision next) some
  | .add target artifact phase =>
    let (reply, s') := s.change (add s.saved w.nonce target artifact phase) some
    (reply, { s' with used := w.nonce :: s'.used })
  | .remove removal expectedRevision =>
    s.change (remove s.saved removal expectedRevision) fun _ => none
  | .inspect .. => (.ok w.observation, s)
  | .actuate .. => (.ok (), s)
  | .removeSetAside .. => (.ok w.outcome, s)
  | .commissionPermissions .. => (.ok w.granted, s)
  | .completeSetup .. => (.ok (), s)
  | .own _ => (.ok (), s)
  | .onReceipt _ => (.ok (), s)
  | .onSetAside .. => (.ok (), s)
  | .onStagedCopy .. => (.ok (), s)

/-- The lock is released, and a field is assigned, without fail. -/
def Call.mayThrow : Call Target Artifact → Bool
  | .release => false
  | .own _ => false
  | _ => true

def serve (s : Shared Target Artifact) (w : World Target Artifact) (c : Call Target Artifact) :
    Reply c × Shared Target Artifact :=
  match w.failure with
  | some e => if c.mayThrow then (.error e, s) else answer s w c
  | none => answer s w c

/-! ## Steps -/

/-- The end of an operation, in the state of the controller. -/
def Tab.settle (t : Tab Target Artifact) : Tab Target Artifact :=
  match t.running with
  | some (.ret o) =>
    let t := { t with running := none, log := .settled (.ok o) :: t.log }
    match o with
    | .previewed p => { t with preview := some p, expectedJobId := p.receipt.map (·.id) }
    | .installed _ _ => { t with installed := true }
    | _ => t
  | some (.raise e) => { t with running := none, log := .settled (.error e) :: t.log }
  | _ => t

def program : Begun Target Artifact → Prog Target Artifact (Outcome Target Artifact)
  | .transaction => advanceTransaction >>= fun r => pure (.advanced r)
  | .recovery expectedJobId confirmed =>
    recoverTransaction expectedJobId confirmed >>= fun r => pure (.advanced r)
  | .preview target => preview target >>= fun p => pure (.previewed p)
  | .install selected => install selected >>= fun r => pure (.installed r.1 r.2)
  | .completeSetup selected expectedJobId =>
    completeSetup selected expectedJobId >>= fun _ => pure .setUp

def Tab.begin (t : Tab Target Artifact) (operation : Begun Target Artifact) : Tab Target Artifact :=
  { t with running := some (program operation), log := .begun operation :: t.log }

/-- A press of a button. A busy tab, and a press without its confirmation or preview, do nothing. -/
def Tab.press (t : Tab Target Artifact) (operation : Operation Target) :
    Option (Tab Target Artifact) :=
  match t.running with
  | some _ => none
  | none =>
    match operation with
    | .transaction => some (t.begin .transaction)
    | .recovery expectedJobId confirmed => some (t.begin (.recovery expectedJobId confirmed))
    | .preview target =>
      some (Tab.begin { t with preview := none, installed := false } (.preview target))
    | .install confirmed =>
      match t.preview with
      | some selected => if confirmed then some (t.begin (.install selected)) else none
      | none => none
    | .completeSetup =>
      match t.preview with
      | some selected =>
        if t.installed then some (t.begin (.completeSetup selected t.expectedJobId)) else none
      | none => none
    | .invalidate => some { t with preview := none }

inductive Event (Target Artifact : Type)
  | press (operation : Operation Target)
  | answer (w : World Target Artifact)
  | crash

/-- Job ids are random: none is drawn twice. -/
def draws (c : Call Target Artifact) : Bool :=
  match c with
  | .add .. => true
  | _ => false

/-- A tab moves to its next await. -/
def wake (s : Shared Target Artifact) (t : Tab Target Artifact) :
    Event Target Artifact → Option (Shared Target Artifact × Tab Target Artifact)
  | .press operation => (t.press operation).map fun t' => (s, t'.settle)
  | .answer w =>
    match t.running with
    | some (.perform c k) =>
      if draws c ∧ w.nonce ∈ s.used then none
      else
        let (reply, s') := serve s w c
        let expectedJobId := match c with
          | .own id => some id
          | _ => t.expectedJobId
        some (s', Tab.settle
          { t with
            expectedJobId, running := some (k reply), log := .performed c reply s.saved :: t.log })
    | _ => none
  | .crash =>
    some (if (hold t.log).site.isSome then { s with locked := false } else s,
      { Tab.blank with log := .crashed t.awaited :: t.log })

/-- Any number of tabs; a new one is opened without a preview. -/
def tabs (Target Artifact : Type) [DecidableEq Target] [DecidableEq Artifact] :
    Tasks.Program (Shared Target Artifact) (Tab Target Artifact) Unit (Event Target Artifact) where
  start s _ := (s, .blank)
  wake := wake

end PanelAssistant.Usb
