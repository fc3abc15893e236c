import Mathlib.Algebra.Group.Nat.Defs
import PanelAssistant.Library.Dict
import PanelAssistant.Library.Runs

/-!
# One-use byte transfers

`blob.py`: a transfer is minted under a fresh token, claimed by one of the two views, and
forgotten when its caller takes or discards it or when its sweep fires. The transfer
objects stand in a list in the order in which they were minted, and a reference to one is a
place in it: the dictionary of the registry holds such references, and so does a view that
is receiving an upload. Times are nanoseconds of the clock that `_now` reads.
-/

namespace PanelAssistant

open Library

/-! ## Transfers -/

/-- `BLOB_LIFETIME_SECONDS` -/
def blobLifetime : Nat := 600 * 10 ^ 9

def blobPath : String := "/api/panel_assistant/blob/"

/-- The future that the minter of an upload awaits. -/
inductive UploadFuture where
  | pending
  | cancelled
  | failed (reason : String)
  | result (data : List UInt8)
  deriving DecidableEq

namespace UploadFuture

def done (f : UploadFuture) : Bool := f ≠ .pending

/-- `cancel`: nothing where the future is done. -/
def cancel : UploadFuture → UploadFuture
  | pending => cancelled
  | f => f

end UploadFuture

/-- `_Transfer`, with the token that its sweep closes over. -/
structure BlobTransfer where
  token : String
  entryId : String
  expires : Nat
  data : Option (List UInt8)
  received : Option UploadFuture
  contentType : String
  maxBytes : Nat
  used : Bool
  userId : Option String
  /-- Whether the sweep is still to fire. -/
  sweep : Bool
  deriving DecidableEq

/-- What `download` hands to the party that fetches. -/
structure BlobReference where
  url : String
  size : Nat
  sha256 : String
  type : String
  deriving DecidableEq

/-- How a view answers. -/
inductive BlobResponse where
  | notFound
  | body (data : List UInt8) (contentType : String)
  | stored (size : Nat) (sha256 : String)
  | tooLarge
  | badRequest
  /-- Setting a done future raised `InvalidStateError`. -/
  | serverError
  deriving DecidableEq

/-- One run of `receive`: the transfer it holds, what arrived, and its answer once it ended.
A run that is cancelled ends without one. -/
structure Reception where
  transfer : Nat
  body : List UInt8
  running : Bool
  response : Option BlobResponse
  deriving DecidableEq

/-- A successful `claim`: its arguments, the time, and the bound users of the entries. -/
structure BlobClaim where
  token : String
  userId : String
  upload : Bool
  entryId : Option String
  time : Nat
  entries : Dict String (Option String)

inductive BlobNote where
  | claimed (claim : BlobClaim)
  | taken (token entryId userId : String) (data : List UInt8)
  /-- `discard` ran when so many transfers had been minted. -/
  | discarded (token : String) (minted : Nat)
  | swept (transfer : Nat)
  | responded (response : BlobResponse)
  /-- A result or an exception was set on a future that was done. -/
  | invalidState (transfer : Nat)

/-- The registry, with what it reads: the entries' bound users (`CONF_TRANSPORT_USER_ID`)
and the clock. -/
structure BlobRegistry where
  transfers : Dict String Nat
  minted : List BlobTransfer
  receptions : List Reception
  entries : Dict String (Option String)
  now : Nat
  log : List BlobNote

namespace BlobRegistry

def note (x : BlobRegistry) (n : BlobNote) : BlobRegistry := { x with log := n :: x.log }

def setTransfer (x : BlobRegistry) (i : Nat) (f : BlobTransfer → BlobTransfer) : BlobRegistry :=
  { x with minted := x.minted.modify i f }

def setReception (x : BlobRegistry) (r : Nat) (f : Reception → Reception) : BlobRegistry :=
  { x with receptions := x.receptions.modify r f }

/-- `self._transfers.get(token)` -/
def find? (x : BlobRegistry) (token : String) : Option (Nat × BlobTransfer) :=
  match x.transfers.get? token with
  | none => none
  | some i => x.minted[i]?.map fun t => (i, t)

/-! ## The registry's calls -/

/-- `_mint` -/
def mint (x : BlobRegistry) (t : BlobTransfer) : BlobRegistry :=
  { x with
    transfers := x.transfers.set t.token x.minted.length
    minted := x.minted ++ [{ t with sweep := true }] }

/-- `download`, with the token that `_mint` draws. -/
def download (sha256 : List UInt8 → String) (x : BlobRegistry) (token entryId : String)
    (data : List UInt8) (contentType : String) (userId : Option String) :
    BlobReference × BlobRegistry :=
  (⟨blobPath ++ token, data.length, sha256 data, contentType⟩,
    x.mint
      { token, entryId, expires := x.now + blobLifetime, data := some data, received := none
        contentType, maxBytes := 0, used := false, userId, sweep := false })

/-- `upload`, with the token that `_mint` draws. -/
def upload (x : BlobRegistry) (token entryId : String) (maxBytes : Nat)
    (userId : Option String) : BlobRegistry :=
  x.mint
    { token, entryId, expires := x.now + blobLifetime, data := none, received := some .pending
      contentType := "application/octet-stream", maxBytes, used := false, userId
      sweep := false }

/-- Take a transfer out of the dictionary and cancel its sweep. -/
def forget (x : BlobRegistry) (token : String) (i : Nat) : BlobRegistry :=
  { x with transfers := x.transfers.pop token }.setTransfer i fun t => { t with sweep := false }

/-- `discard` -/
def discard (x : BlobRegistry) (token : String) : BlobRegistry :=
  let x := x.note (.discarded token x.minted.length)
  match x.transfers.get? token with
  | none => x
  | some i =>
    (x.forget token i).setTransfer i fun t => { t with received := t.received.map (·.cancel) }

/-- `take` -/
def take (x : BlobRegistry) (token entryId userId : String) :
    Option (List UInt8) × BlobRegistry :=
  match x.find? token with
  | none => (none, x)
  | some (i, t) =>
    match t.received with
    | some (.result data) =>
      if t.entryId ≠ entryId ∨ t.userId ≠ some userId then (none, x)
      else (some data, x.forget token i)
    | _ => (none, x)

/-- Whether the caller of `claim` is the party of the transfer: the user its own entry is
bound to, or the administrator whose browser it was minted for. -/
def admits (entries : Dict String (Option String)) (t : BlobTransfer) (userId : String) :
    Option String → Bool
  | none =>
    t.userId.isNone &&
      (match entries.get? t.entryId with
        | none => false
        | some bound => bound == some userId)
  | some entryId => t.userId == some userId && t.entryId == entryId

/-- `claim` -/
def claim (x : BlobRegistry) (token userId : String) (upload : Bool) (entryId : Option String) :
    Option (Nat × BlobTransfer) × BlobRegistry :=
  match x.find? token with
  | none => (none, x)
  | some (i, t) =>
    if t.used || decide (t.expires ≤ x.now) || t.received.isSome != upload then (none, x)
    else if !admits x.entries t userId entryId then (none, x)
    else
      let x := x.setTransfer i fun t => { t with used := true }
      (some (i, t), if upload then x else x.discard token)

/-! ## The views -/

/-- `send` -/
def send (t : BlobTransfer) : BlobResponse :=
  match t.data with
  | none => .notFound
  | some data => .body data t.contentType

/-- The `get` of the panel's view, and of the browser's with its entry. -/
def get (x : BlobRegistry) (token userId : String) (entryId : Option String) : BlobRegistry :=
  match x.claim token userId false entryId with
  | (none, x) => x.note (.responded .notFound)
  | (some (_, t), y) =>
    (y.note (.claimed ⟨token, userId, false, entryId, x.now, x.entries⟩)).note
      (.responded (send t))

/-- The `put` of either view: `receive` runs from here to its first await. -/
def put (x : BlobRegistry) (token userId : String) (entryId : Option String) : BlobRegistry :=
  match x.claim token userId true entryId with
  | (none, x) => x.note (.responded .notFound)
  | (some (i, t), y) =>
    let y := y.note (.claimed ⟨token, userId, true, entryId, x.now, x.entries⟩)
    match t.received with
    | none => y.note (.responded .notFound)
    | some _ => { y with receptions := y.receptions ++ [⟨i, [], true, none⟩] }

def respond (x : BlobRegistry) (r : Nat) (response : BlobResponse) : BlobRegistry :=
  (x.setReception r fun c => { c with running := false, response := some response }).note
    (.responded response)

/-- `set_result` and `set_exception`; `none` where they raise `InvalidStateError`. -/
def setFuture (x : BlobRegistry) (i : Nat) (f : UploadFuture) : Option BlobRegistry :=
  match x.minted[i]?.bind (·.received) with
  | some .pending => some (x.setTransfer i fun t => { t with received := some f })
  | _ => none

/-- Set the future of a reception's transfer and answer. -/
def settle (x : BlobRegistry) (r i : Nat) (f : UploadFuture) (response : BlobResponse) :
    BlobRegistry :=
  match x.setFuture i f with
  | some x => x.respond r response
  | none => (x.note (.invalidState i)).respond r .serverError

/-- The future of a transfer. -/
def future? (x : BlobRegistry) (i : Nat) : Option UploadFuture :=
  x.minted[i]?.bind (·.received)

/-- The two `except` branches of `receive`. -/
def failReception (x : BlobRegistry) (r i : Nat) (reason : String) (response : BlobResponse) :
    BlobRegistry :=
  if (x.future? i).any (·.done) then x.respond r response
  else x.settle r i (.failed reason) response

/-- A chunk arrives at a running `receive`. -/
def chunk (x : BlobRegistry) (r : Nat) (bytes : List UInt8) : BlobRegistry :=
  match x.receptions[r]? with
  | some ⟨i, body, true, _⟩ =>
    let body := body ++ bytes
    let x := x.setReception r fun c => { c with body }
    if x.minted[i]?.any (fun t => decide (t.maxBytes < body.length)) then
      x.failReception r i "too large" .tooLarge
    else x
  | _ => x

/-- The connection fails under a running `receive`. -/
def interrupt (x : BlobRegistry) (r : Nat) : BlobRegistry :=
  match x.receptions[r]? with
  | some ⟨i, _, true, _⟩ => x.failReception r i "upload interrupted" .badRequest
  | _ => x

/-- The body of a running `receive` is whole. -/
def finish (sha256 : List UInt8 → String) (x : BlobRegistry) (r : Nat) : BlobRegistry :=
  match x.receptions[r]? with
  | some ⟨i, body, true, _⟩ =>
    if x.future? i = some .cancelled then x.respond r .notFound
    else x.settle r i (.result body) (.stored body.length (sha256 body))
  | _ => x

/-- The task that runs `receive` is cancelled; no handler of it sees that. -/
def abandon (x : BlobRegistry) (r : Nat) : BlobRegistry :=
  x.setReception r fun c => { c with running := false }

/-- A caller that awaits the future gives up and cancels it. -/
def giveUp (x : BlobRegistry) (i : Nat) : BlobRegistry :=
  x.setTransfer i fun t => { t with received := t.received.map (·.cancel) }

/-- `_expired`, if the sweep of the transfer is still to fire. -/
def expire (x : BlobRegistry) (i : Nat) : BlobRegistry :=
  match x.minted[i]? with
  | none => x
  | some t =>
    if !t.sweep then x
    else
      let x := (x.setTransfer i fun t => { t with sweep := false }).note (.swept i)
      if x.transfers.get? t.token = some i then x.discard t.token else x

end BlobRegistry

/-! ## The registry as a system -/

inductive BlobMove where
  | download (token entryId : String) (data : List UInt8) (contentType : String)
      (userId : Option String)
  | upload (token entryId : String) (maxBytes : Nat) (userId : Option String)
  | get (token userId : String) (entryId : Option String)
  | put (token userId : String) (entryId : Option String)
  | take (token entryId userId : String)
  | discard (token : String)
  | chunk (reception : Nat) (bytes : List UInt8)
  | finish (reception : Nat)
  | interrupt (reception : Nat)
  | abandon (reception : Nat)
  | giveUp (transfer : Nat)
  /-- The sweep of a transfer fires, at whatever time the loop's own clock says. -/
  | expire (transfer : Nat)
  | bindUser (entryId : String) (userId : Option String)
  | removeEntry (entryId : String)
  | tick (n : Nat)

/-- The token a move draws. -/
def BlobMove.token? : BlobMove → Option String
  | download token .. => some token
  | upload token .. => some token
  | _ => none

namespace BlobRegistry

def step (sha256 : List UInt8 → String) (x : BlobRegistry) : BlobMove → BlobRegistry
  | .download token entryId data contentType userId =>
    (x.download sha256 token entryId data contentType userId).2
  | .upload token entryId maxBytes userId => x.upload token entryId maxBytes userId
  | .get token userId entryId => x.get token userId entryId
  | .put token userId entryId => x.put token userId entryId
  | .take token entryId userId =>
    match x.take token entryId userId with
    | (none, x) => x
    | (some data, x) => x.note (.taken token entryId userId data)
  | .discard token => x.discard token
  | .chunk r bytes => x.chunk r bytes
  | .finish r => x.finish sha256 r
  | .interrupt r => x.interrupt r
  | .abandon r => x.abandon r
  | .giveUp i => x.giveUp i
  | .expire i => x.expire i
  | .bindUser entryId userId => { x with entries := x.entries.set entryId userId }
  | .removeEntry entryId => { x with entries := x.entries.pop entryId }
  | .tick n => { x with now := x.now + n }

def initial : BlobRegistry := ⟨∅, [], [], ∅, 0, []⟩

def run (sha256 : List UInt8 → String) (moves : List BlobMove) : BlobRegistry :=
  Runs.run (step sha256) initial moves

end BlobRegistry

end PanelAssistant
