import PanelAssistant.InstallReceipt.Basic
import PanelAssistant.Library.Runs

/-!
# Uploads

`uploadApk` of `usb-upload.mjs` as a state machine over one socket. A step is what happens between
two awaits: the opened socket, an accepted or failed write, the bytes of a slice, a chunk of the
reply, the timer, the closed socket. The sender and the receiver go on by themselves, whatever
became of the other one, of the operation or of the race; what keeps them from writing is `guard`.

The outcome of `ensureCurrent` at each guard, and whether `quarantine` throws, come with the step.
The progress callback, whose exceptions are caught, and the stream locks are left out.
-/

namespace PanelAssistant.Usb.Upload

open Library

/-! ## Frames -/

/-- `encoder.encode` -/
def encode (text : String) : List UInt8 := text.toUTF8.data.toList

/-- `setUint32`, little endian -/
def setUint32 (value : ℤ) : List UInt8 :=
  let n := (value % 4294967296).toNat
  [UInt8.ofNat n, UInt8.ofNat (n / 256), UInt8.ofNat (n / 65536), UInt8.ofNat (n / 16777216)]

/-- `getUint32`, little endian -/
def getUint32 : List UInt8 → ℕ
  | [a, b, c, d] => a.toNat + 256 * b.toNat + 65536 * c.toNat + 16777216 * d.toNat
  | _ => 0

/-- The second argument of `frame`. -/
inductive FrameValue where
  | body (bytes : List UInt8)
  | number (value : ℤ)

def frame (id : String) : FrameValue → List UInt8
  | .body bytes => encode id ++ setUint32 bytes.length ++ bytes
  | .number value => encode id ++ setUint32 value

/-- `String.fromCharCode` of bytes -/
def fromCharCode (bytes : List UInt8) : String :=
  String.ofList (bytes.map fun b => Char.ofNat b.toNat)

/-! ## Calls -/

/-- An exception: a `StagingError` or another one. -/
inductive Thrown where
  | staging (code : String)
  | other
  deriving DecidableEq

/-- `release`; a size is there where it is an integer, and `apk` where it is a `Blob`. -/
structure Release where
  kind : String
  apk : Option (List UInt8)
  apkSize : Option ℤ

/-- The arguments of a call. `quarantine` says whether that option is a function, and a time is
there where it is a safe integer. -/
structure Call where
  jobId : Option String
  release : Option Release
  quarantine : Bool
  timeoutMs : Option ℤ := some 180000
  closeMs : Option ℤ := some 2000

/-- What a call that is admitted uploads. -/
structure Job where
  path : String
  blob : List UInt8

/-- `stagingPath` -/
def stagingPath : Option String → Except Thrown String
  | some id =>
    if isHex32 id then .ok ("/data/local/tmp/ha-paneld-install-" ++ id ++ ".apk")
    else .error (.staging "invalid_request")
  | none => .error (.staging "invalid_request")

def isTime (maximum : ℤ) : Option ℤ → Bool
  | some ms => decide (1 ≤ ms) && decide (ms ≤ maximum)
  | none => false

/-- The blob of a release. -/
def releaseBlob : Option Release → Except Thrown (List UInt8)
  | some ⟨kind, some apk, some apkSize⟩ =>
    if kind ≠ "authenticated-apk-bytes" ∨ (apk.length : ℤ) ≠ apkSize ∨ apk.length < 1 ∨
        67108864 < apk.length then
      .error (.staging "invalid_request")
    else .ok apk
  | _ => .error (.staging "invalid_request")

/-- The checks before the socket is requested. -/
def admitCall (call : Call) : Except Thrown Job := do
  let path ← stagingPath call.jobId
  if !call.quarantine || !isTime 180000 call.timeoutMs || !isTime 2000 call.closeMs then
    throw (.staging "invalid_request")
  let blob ← releaseBlob call.release
  return ⟨path, blob⟩

/-! ## States -/

/-- Where `send` is: it awaits a write, after which its loop goes on at the offset, or the bytes
of the slice at the offset, or the write of the last frame. -/
inductive Sender where
  | idle
  | writing (offset : ℕ)
  | slicing (offset : ℕ)
  | finishing
  | done
  | failed
  deriving DecidableEq

/-- Where `receive` is; `header` is the part of the header that is used. -/
inductive Receiver where
  | idle
  | reading (header : List UInt8)
  | done
  | failed
  deriving DecidableEq

/-- Where `operation` is: it awaits the socket, or both `send` and `receive`. -/
inductive Operation where
  | opening
  | transferring
  | fulfilled
  | rejected (error : Thrown)
  deriving DecidableEq

/-- `Promise.all` rejects with the first of the two that fails. -/
def Operation.partFailed (o : Operation) (error : Thrown) : Operation :=
  if o = .transferring then .rejected error else o

/-- Where `uploadApk` itself is: it awaits the race, or the closed socket, or it has settled. -/
inductive Outer where
  | racing
  | closing (outcome : Option Thrown)
  | settled (outcome : Option Thrown)
  deriving DecidableEq

structure State where
  operation : Operation := .opening
  sender : Sender := .idle
  receiver : Receiver := .idle
  outer : Outer := .racing
  stopped : Bool := false
  /-- `socket` is there. -/
  socket : Bool := false
  /-- `createSocket` was called. -/
  requested : Bool := false
  /-- `quarantine` was called. -/
  quarantined : Bool := false
  /-- What was handed to the writer, the first one first, and how many of these it accepted. -/
  written : List (List UInt8) := []
  accepted : ℕ := 0
  /-- The bytes that were read. -/
  reply : List UInt8 := []

/-- What `reader.read()` gives: the end of the stream, something else than bytes, or bytes. -/
inductive Read where
  | done
  | other
  | bytes (value : List UInt8)

def Read.content : Read → List UInt8
  | .bytes value => value
  | _ => []

namespace State

/-- `guard`, where `current` is what `ensureCurrent` throws -/
def guard (s : State) (current : Option Thrown) : Except Thrown Unit :=
  if s.stopped then .error (.staging "upload_stopped")
  else match current with
    | some e => .error e
    | none => .ok ()

def senderFails (s : State) (error : Thrown) : State :=
  { s with sender := .failed, operation := s.operation.partFailed error }

def receiverFails (s : State) (error : Thrown) : State :=
  { s with receiver := .failed, operation := s.operation.partFailed error }

/-! ## The sender -/

/-- `writer.write`, and where the sender goes on -/
def write (s : State) (bytes : List UInt8) (sender : Sender) : State :=
  { s with written := s.written ++ [bytes], sender }

/-- `send` up to its first await. -/
def send (job : Job) (s : State) (current : Option Thrown) : State :=
  match s.guard current with
  | .error e => s.senderFails e
  | .ok () => s.write (frame "SEND" (.body (encode (job.path ++ ",33188")))) (.writing 0)

/-- The head of the loop, and what follows the loop; `now` is `Date.now()`. -/
def sendLoop (job : Job) (s : State) (offset : ℕ) (current : Option Thrown) (now : ℤ) : State :=
  match s.guard current with
  | .error e => s.senderFails e
  | .ok () =>
    if offset < job.blob.length then { s with sender := .slicing offset }
    else s.write (frame "DONE" (.number (now / 1000))) .finishing

/-- `Blob.prototype.slice` -/
def slice (blob : List UInt8) (first last : ℕ) : List UInt8 := (blob.take last).drop first

/-- The rest of the loop's body. -/
def sendChunk (job : Job) (s : State) (offset : ℕ) (current : Option Thrown) : State :=
  match s.guard current with
  | .error e => s.senderFails e
  | .ok () =>
    s.write (frame "DATA" (.body (slice job.blob offset (min job.blob.length (offset + 65536)))))
      (.writing (offset + 65536))

/-- The writer accepted the pending write. -/
def accept (job : Job) (s : State) (current : Option Thrown) (now : ℤ) : State :=
  match s.sender with
  | .writing offset => sendLoop job { s with accepted := s.accepted + 1 } offset current now
  | .finishing => { s with accepted := s.accepted + 1, sender := .done }
  | _ => s

/-- The pending write failed. -/
def failWrite (s : State) (error : Thrown) : State :=
  match s.sender with
  | .writing _ | .finishing => s.senderFails error
  | _ => s

def sliced (job : Job) (s : State) (current : Option Thrown) : State :=
  match s.sender with
  | .slicing offset => sendChunk job s offset current
  | _ => s

def failSlice (s : State) (error : Thrown) : State :=
  match s.sender with
  | .slicing _ => s.senderFails error
  | _ => s

/-! ## The receiver -/

/-- The head of the loop. -/
def receiveLoop (s : State) (header : List UInt8) (current : Option Thrown) : State :=
  match s.guard current with
  | .error e => s.receiverFails e
  | .ok () => { s with receiver := .reading header }

/-- What a chunk adds to the header. -/
def takeChunk (header : List UInt8) : Read → Except Thrown (List UInt8)
  | .bytes value =>
    if value = [] ∨ 1048576 < value.length then .error (.staging "upload_response_invalid")
    else
      let taken := min (8 - header.length) value.length
      let header := header ++ value.take taken
      if header.length = 8 then
        if fromCharCode (header.take 4) = "FAIL" then .error (.staging "upload_refused")
        else if value.length ≠ taken then .error (.staging "upload_response_invalid")
        else .ok header
      else .ok header
  | _ => .error (.staging "upload_response_invalid")

/-- The check after the loop. -/
def checkHeader (header : List UInt8) : Except Thrown Unit :=
  if fromCharCode (header.take 4) ≠ "OKAY" ∨ getUint32 (header.drop 4) ≠ 0 then
    .error (.staging "upload_response_invalid")
  else .ok ()

/-- The receiver's loop after a chunk was read, up to the next read. -/
def received (s : State) (header : List UInt8) (read : Read) (current next : Option Thrown) :
    State :=
  match s.guard current with
  | .error e => s.receiverFails e
  | .ok () =>
    match takeChunk header read with
    | .error e => s.receiverFails e
    | .ok header =>
      if header.length < 8 then s.receiveLoop header next
      else match checkHeader header with
        | .error e => s.receiverFails e
        | .ok () => { s with receiver := .done }

def receive (s : State) (read : Read) (current next : Option Thrown) : State :=
  match s.receiver with
  | .reading header =>
    received { s with reply := s.reply ++ read.content } header read current next
  | _ => s

def failRead (s : State) (error : Thrown) : State :=
  match s.receiver with
  | .reading _ => s.receiverFails error
  | _ => s

/-! ## The operation -/

/-- The operation up to where it requests the socket. -/
def start (current : Option Thrown) : State :=
  match guard {} current with
  | .error e => { operation := .rejected e }
  | .ok () => { requested := true }

/-- The operation with its socket, up to where both parts await something. `streams` is what
`getWriter` or `getReader` throws. A socket that comes too late is closed, and nobody awaits
that. -/
def opened (job : Job) (s : State) (current streams sending receiving : Option Thrown) : State :=
  if s.stopped then { s with operation := .rejected (.staging "upload_stopped") }
  else
    match s.guard current, streams with
    | .error e, _ => { s with operation := .rejected e }
    | .ok (), some e => { s with operation := .rejected e }
    | .ok (), none =>
      (send job { s with operation := .transferring } sending).receiveLoop [] receiving

/-- Both are done, and the last guard. -/
def joined (s : State) (current : Option Thrown) : State :=
  match s.sender, s.receiver with
  | .done, .done =>
    match s.guard current with
    | .error e => { s with operation := .rejected e }
    | .ok () => { s with operation := .fulfilled }
  | _, _ => s

/-! ## The race -/

/-- `finally`: the socket is closed where there is one. -/
def leave (s : State) (outcome : Option Thrown) : State :=
  { s with stopped := true, outer := if s.socket then .closing outcome else .settled outcome }

/-- `catch`; `quarantine` is what that callback throws. -/
def fail (s : State) (error : Thrown) (quarantine : Option Thrown) : State :=
  leave { s with quarantined := true }
    (some (quarantine.getD (if error = .other then .staging "upload_failed" else error)))

/-- The operation won the race. -/
def settle (s : State) (quarantine : Option Thrown) : State :=
  match s.operation with
  | .fulfilled => s.leave none
  | .rejected e => s.fail e quarantine
  | _ => s

/-- `socket.close()` failed or took too long. -/
def failClose (s : State) (quarantine : Option Thrown) : State :=
  { s with
    quarantined := true
    outer := .settled (some (quarantine.getD (.staging "upload_cleanup_failed"))) }

end State

/-! ## Runs -/

inductive Event where
  | opened (current streams sending receiving : Option Thrown)
  | openFailed (error : Thrown)
  | accepted (current : Option Thrown) (now : ℤ)
  | writeFailed (error : Thrown)
  | sliced (current : Option Thrown)
  | sliceFailed (error : Thrown)
  | read (read : Read) (current next : Option Thrown)
  | readFailed (error : Thrown)
  | joined (current : Option Thrown)
  | settled (quarantine : Option Thrown)
  | timeout (quarantine : Option Thrown)
  | closed
  | closeFailed (quarantine : Option Thrown)

/-- One step; an event that cannot happen in a state leaves it alone. -/
def step (job : Job) (s : State) : Event → State
  | .opened current streams sending receiving =>
    if s.operation = .opening ∧ s.requested then
      State.opened job { s with socket := true } current streams sending receiving
    else s
  | .openFailed e =>
    if s.operation = .opening ∧ s.requested then { s with operation := .rejected e } else s
  | .accepted current now => s.accept job current now
  | .writeFailed e => s.failWrite e
  | .sliced current => s.sliced job current
  | .sliceFailed e => s.failSlice e
  | .read read current next => s.receive read current next
  | .readFailed e => s.failRead e
  | .joined current => if s.operation = .transferring then s.joined current else s
  | .settled quarantine => if s.outer = .racing then s.settle quarantine else s
  | .timeout quarantine =>
    if s.outer = .racing then s.fail (.staging "upload_timeout") quarantine else s
  | .closed =>
    match s.outer with
    | .closing outcome => { s with outer := .settled outcome }
    | _ => s
  | .closeFailed quarantine =>
    match s.outer with
    | .closing _ => s.failClose quarantine
    | _ => s

/-- `uploadApk` after the events; `current` is what the first guard's `ensureCurrent` throws. A
call that is not admitted is rejected at once. -/
def uploadApk (call : Call) (current : Option Thrown) (events : List Event) : State :=
  match admitCall call with
  | .error e => { outer := .settled (some e), stopped := true }
  | .ok job => Library.Runs.run (step job) (.start current) events

variable {job : Job} {s : State}

/-! ## Nothing is written once it is stopped -/

namespace State

theorem guard_of_stopped (h : s.stopped = true) (current : Option Thrown) :
    s.guard current = .error (.staging "upload_stopped") := by
  unfold guard
  rw [if_pos h]

/-- What the steps after the stop leave alone. -/
def Frozen (s s' : State) : Prop :=
  s'.written = s.written ∧ s'.stopped = true ∧ (s.quarantined = true → s'.quarantined = true)

end State

open State

theorem frozen_step (h : s.stopped = true) (e : Event) : Frozen s (step job s e) := by
  have hsame : Frozen s s := ⟨rfl, h, id⟩
  have hg : ∀ current, s.guard current = .error (.staging "upload_stopped") := guard_of_stopped h
  cases e with
  | opened current streams sending receiving =>
    simp only [step, State.opened, if_pos h]
    split
    · exact ⟨rfl, h, id⟩
    · exact hsame
  | openFailed e =>
    simp only [step]
    split
    · exact ⟨rfl, h, id⟩
    · exact hsame
  | accepted current now =>
    simp only [step, State.accept, sendLoop]
    split
    · rw [guard_of_stopped (s := { s with accepted := s.accepted + 1 }) h]
      exact ⟨rfl, h, id⟩
    · exact ⟨rfl, h, id⟩
    · exact hsame
  | writeFailed e =>
    simp only [step, State.failWrite]
    split
    · exact ⟨rfl, h, id⟩
    · exact ⟨rfl, h, id⟩
    · exact hsame
  | sliced current =>
    simp only [step, State.sliced, sendChunk, hg]
    split
    · exact ⟨rfl, h, id⟩
    · exact hsame
  | sliceFailed e =>
    simp only [step, State.failSlice]
    split
    · exact ⟨rfl, h, id⟩
    · exact hsame
  | read read current next =>
    simp only [step, State.receive, State.received]
    split
    · rw [guard_of_stopped (s := { s with reply := s.reply ++ read.content }) h]
      exact ⟨rfl, h, id⟩
    · exact hsame
  | readFailed e =>
    simp only [step, State.failRead]
    split
    · exact ⟨rfl, h, id⟩
    · exact hsame
  | joined current =>
    simp only [step, State.joined, hg]
    split
    · split
      · exact ⟨rfl, h, id⟩
      · exact hsame
    · exact hsame
  | settled quarantine =>
    simp only [step, State.settle]
    split
    · split
      · exact ⟨rfl, rfl, id⟩
      · exact ⟨rfl, rfl, fun _ => rfl⟩
      · exact hsame
    · exact hsame
  | timeout quarantine =>
    simp only [step]
    split
    · exact ⟨rfl, rfl, fun _ => rfl⟩
    · exact hsame
  | closed =>
    simp only [step]
    split
    · exact ⟨rfl, h, id⟩
    · exact hsame
  | closeFailed quarantine =>
    simp only [step, State.failClose]
    split
    · exact ⟨rfl, h, fun _ => rfl⟩
    · exact hsame

theorem frozen_run (h : s.stopped = true) (events : List Event) :
    Frozen s (Library.Runs.run (step job) s events) := by
  refine Library.Runs.run_inv (Frozen s) ?_ ⟨rfl, h, id⟩ events
  rintro s' e ⟨hwritten, hstopped, hquarantined⟩
  have hstep : Frozen s' (step job s' e) := frozen_step hstopped e
  exact ⟨hstep.1.trans hwritten, hstep.2.1, fun hq => hstep.2.2 (hquarantined hq)⟩

end PanelAssistant.Usb.Upload
