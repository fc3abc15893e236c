import PanelAssistant.Library.Except
import PanelAssistant.Usb.Upload

/-!
# An upload is complete or quarantined

The sender's frames are the beginning of one transfer of the file (`Sending`), and the receiver's
header is what it has read (`Receiving`), whichever of their steps, the timer's and the socket's
come first. An upload that resolves has both of them done, and one that is rejected has called
`quarantine` (`complete_or_quarantined`). An upload that meets no failure resolves (`resolves`).
-/

namespace PanelAssistant.Usb.Upload

open Library State

variable {job : Job} {s : State}

/-! ## What is written -/

/-- The payloads of the first frames of data. -/
def payloads (blob : List UInt8) (n : ℕ) : List (List UInt8) :=
  (List.range n).map fun k => (blob.drop (65536 * k)).take 65536

/-- The frame that opens a transfer. -/
def sendFrame (job : Job) : List UInt8 := frame "SEND" (.body (encode (job.path ++ ",33188")))

def dataFrame (payload : List UInt8) : List UInt8 := frame "DATA" (.body payload)

def doneFrame (modified : ℤ) : List UInt8 := frame "DONE" (.number modified)

/-- The transfer up to and with so many frames of data. -/
def sent (job : Job) (n : ℕ) : List (List UInt8) :=
  sendFrame job :: (payloads job.blob n).map dataFrame

theorem payloads_succ (blob : List UInt8) (n : ℕ) :
    payloads blob (n + 1) = payloads blob n ++ [(blob.drop (65536 * n)).take 65536] := by
  rw [payloads, List.range_succ, List.map_append]
  rfl

theorem flatten_payloads (blob : List UInt8) (n : ℕ) :
    (payloads blob n).flatten = blob.take (65536 * n) := by
  induction n with
  | zero => rfl
  | succ n ih =>
    rw [payloads_succ, List.flatten_append, ih, List.flatten_singleton, Nat.mul_succ,
      List.take_add]

theorem length_payload_le {blob payload : List UInt8} {n : ℕ} (h : payload ∈ payloads blob n) :
    payload.length ≤ 65536 := by
  obtain ⟨k, -, rfl⟩ := List.mem_map.mp h
  exact List.length_take_le ..

theorem sent_succ (job : Job) (n : ℕ) :
    sent job (n + 1) = sent job n ++ [dataFrame ((job.blob.drop (65536 * n)).take 65536)] := by
  rw [sent, payloads_succ, List.map_append]
  rfl

/-- The slice of the loop's body, at the offset of the frame. -/
theorem slice_eq (blob : List UInt8) (n : ℕ) :
    slice blob (65536 * n) (min blob.length (65536 * n + 65536)) =
      (blob.drop (65536 * n)).take 65536 := by
  rw [slice, List.drop_take, List.take_eq_take_iff, List.length_drop]
  omega

/-- What the sender has written where it is. -/
def Sending (job : Job) (written : List (List UInt8)) (accepted : ℕ) : Sender → Prop
  | .idle => written = [] ∧ accepted = 0
  | .writing offset =>
    ∃ n, offset = 65536 * n ∧ written = sent job n ∧ accepted + 1 = written.length
  | .slicing offset =>
    ∃ n, offset = 65536 * n ∧ written = sent job n ∧ accepted = written.length
  | .finishing =>
    ∃ n modified, job.blob.length ≤ 65536 * n ∧ written = sent job n ++ [doneFrame modified] ∧
      accepted + 1 = written.length
  | .done =>
    ∃ n modified, job.blob.length ≤ 65536 * n ∧ written = sent job n ++ [doneFrame modified] ∧
      accepted = written.length
  | .failed => True

/-- What the receiver has read where it is. -/
def Receiving (reply : List UInt8) : Receiver → Prop
  | .idle => reply = []
  | .reading header => reply = header ∧ header.length < 8
  | .done => reply = frame "OKAY" (.number 0)
  | .failed => True

/-- What holds in every state of an upload. -/
structure Invariant (job : Job) (s : State) : Prop where
  sending : Sending job s.written s.accepted s.sender
  receiving : Receiving s.reply s.receiver
  opening : s.operation = .opening → s.sender = .idle ∧ s.receiver = .idle
  fulfilled : s.operation = .fulfilled → s.sender = .done ∧ s.receiver = .done
  resolved : s.outer = .closing none ∨ s.outer = .settled none → s.operation = .fulfilled
  rejected : ∀ e, s.outer = .closing (some e) ∨ s.outer = .settled (some e) →
    s.quarantined = true
  stopped : s.outer ≠ .racing ∨ s.quarantined = true → s.stopped = true

/-! ## The reply -/

theorem fromCharCode_injective : Function.Injective fromCharCode := by
  intro bytes bytes' h
  have hcodes : bytes.map (fun b => Char.ofNat b.toNat) =
      bytes'.map (fun b => Char.ofNat b.toNat) := String.ofList_injective h
  refine List.map_injective_iff.mpr ?_ hcodes
  intro b b' hb
  have hcode : ∀ b : UInt8, (Char.ofNat b.toNat).toNat = b.toNat := by
    intro b
    have hlt := b.toNat_lt
    have hvalid : b.toNat.isValidChar := by
      left
      omega
    rw [Char.ofNat, dif_pos hvalid]
    rfl
  have hnat := congrArg Char.toNat hb
  simp only [hcode] at hnat
  exact UInt8.toNat_inj.mp hnat

theorem fromCharCode_okay : fromCharCode [79, 75, 65, 89] = "OKAY" := by decide

theorem frame_okay : frame "OKAY" (.number 0) = [79, 75, 65, 89, 0, 0, 0, 0] := by decide

/-- The header that passes the check after the loop. -/
theorem checkHeader_eq_ok {header : List UInt8} (hlength : header.length = 8)
    (h : checkHeader header = .ok ()) : header = frame "OKAY" (.number 0) := by
  unfold checkHeader at h
  split at h
  · cases h
  rename_i hok
  push Not at hok
  obtain ⟨hid, hword⟩ := hok
  rw [← fromCharCode_okay] at hid
  have hfirst := fromCharCode_injective hid
  have hrest : header.drop 4 = [0, 0, 0, 0] := by
    have hlast : (header.drop 4).length = 4 := by
      rw [List.length_drop, hlength]
    generalize header.drop 4 = rest at hlast hword
    match rest, hlast with
    | [a, b, c, d], _ =>
      simp only [getUint32] at hword
      have ha : a = 0 := UInt8.toNat_inj.mp (by simp only [UInt8.toNat_zero]; omega)
      have hb : b = 0 := UInt8.toNat_inj.mp (by simp only [UInt8.toNat_zero]; omega)
      have hc : c = 0 := UInt8.toNat_inj.mp (by simp only [UInt8.toNat_zero]; omega)
      have hd : d = 0 := UInt8.toNat_inj.mp (by simp only [UInt8.toNat_zero]; omega)
      rw [ha, hb, hc, hd]
  rw [frame_okay, ← List.take_append_drop 4 header, hfirst, hrest]
  rfl

/-- A chunk that is taken: the header has all of it. -/
theorem takeChunk_eq_ok {header header' : List UInt8} {read : Read} (hlt : header.length < 8)
    (h : takeChunk header read = .ok header') :
    header' = header ++ read.content ∧ header'.length ≤ 8 := by
  cases read with
  | done => cases h
  | other => cases h
  | bytes value =>
    simp only [takeChunk] at h
    split at h
    · cases h
    split at h
    · rename_i hfull
      split at h
      · cases h
      split at h
      · cases h
      · rename_i htaken
        push Not at htaken
        cases h
        rw [← htaken, List.take_length] at hfull ⊢
        exact ⟨rfl, hfull.le⟩
    · rename_i hpart
      cases h
      rw [List.length_append, List.length_take] at hpart
      have hshort : value.length ≤ 8 - header.length := by omega
      rw [min_eq_right hshort, List.take_length]
      refine ⟨rfl, ?_⟩
      rw [List.length_append]
      omega

/-! ## The steps of the two parts -/

theorem partFailed_cases (o : Operation) (e : Thrown) :
    o = .transferring ∧ o.partFailed e = .rejected e ∨ o.partFailed e = o := by
  by_cases h : o = .transferring
  · exact .inl ⟨h, by rw [Operation.partFailed, if_pos h]⟩
  · exact .inr (by rw [Operation.partFailed, if_neg h])

/-- What a step of one part may do to the operation. -/
def Kept (o o' : Operation) : Prop :=
  (o' = .opening → o = .opening) ∧ (o' = .fulfilled → o = .fulfilled)

theorem kept_partFailed (o : Operation) (e : Thrown) : Kept o (o.partFailed e) := by
  rcases partFailed_cases o e with ⟨-, h⟩ | h
  · rw [h]
    exact ⟨(fun h => by cases h), (fun h => by cases h)⟩
  · rw [h]
    exact ⟨id, id⟩

namespace Invariant

theorem sends (h : Invariant job s) (hopen : s.operation ≠ .opening) (hdone : s.sender ≠ .done)
    {written : List (List UInt8)} {accepted : ℕ} {sender : Sender} {operation : Operation}
    (hsending : Sending job written accepted sender) (hkept : Kept s.operation operation) :
    Invariant job { s with written, accepted, sender, operation } where
  sending := hsending
  receiving := h.receiving
  opening ho := absurd (hkept.1 ho) hopen
  fulfilled hf := absurd (h.fulfilled (hkept.2 hf)).1 hdone
  resolved hr := absurd (h.fulfilled (h.resolved hr)).1 hdone
  rejected := h.rejected
  stopped := h.stopped

theorem receives (h : Invariant job s) (hopen : s.operation ≠ .opening)
    (hdone : s.receiver ≠ .done) {reply : List UInt8} {receiver : Receiver}
    {operation : Operation} (hreceiving : Receiving reply receiver)
    (hkept : Kept s.operation operation) :
    Invariant job { s with reply, receiver, operation } where
  sending := h.sending
  receiving := hreceiving
  opening ho := absurd (hkept.1 ho) hopen
  fulfilled hf := absurd (h.fulfilled (hkept.2 hf)).2 hdone
  resolved hr := absurd (h.fulfilled (h.resolved hr)).2 hdone
  rejected := h.rejected
  stopped := h.stopped

theorem senderFails (h : Invariant job s) (hopen : s.operation ≠ .opening)
    (hdone : s.sender ≠ .done) (e : Thrown) : Invariant job (s.senderFails e) :=
  h.sends hopen hdone trivial (kept_partFailed s.operation e)

theorem receiverFails (h : Invariant job s) (hopen : s.operation ≠ .opening)
    (hdone : s.receiver ≠ .done) (e : Thrown) : Invariant job (s.receiverFails e) :=
  h.receives hopen hdone trivial (kept_partFailed s.operation e)

/-- A sender that awaits something. -/
theorem sender_pending (h : Invariant job s) {sender : Sender} (hsender : s.sender = sender)
    (hidle : sender ≠ .idle) (hdone : sender ≠ .done) :
    s.operation ≠ .opening ∧ s.sender ≠ .done := by
  refine ⟨?_, by rw [hsender]; exact hdone⟩
  intro ho
  exact hidle (hsender.symm.trans (h.opening ho).1)

/-- A receiver that awaits a chunk. -/
theorem receiver_pending (h : Invariant job s) {header : List UInt8}
    (hreceiver : s.receiver = .reading header) :
    s.operation ≠ .opening ∧ s.receiver ≠ .done := by
  refine ⟨?_, by rw [hreceiver]; simp⟩
  intro ho
  rw [(h.opening ho).2] at hreceiver
  cases hreceiver

theorem send (h : Invariant job s) (hopen : s.operation ≠ .opening) (hidle : s.sender = .idle)
    (current : Option Thrown) : Invariant job (s.send job current) := by
  have hdone : s.sender ≠ .done := by
    rw [hidle]
    exact (fun h => by cases h)
  have hs := h.sending
  rw [hidle] at hs
  obtain ⟨hwritten, haccepted⟩ := hs
  unfold State.send
  split
  · exact h.senderFails hopen hdone _
  · refine h.sends hopen hdone ⟨0, rfl, ?_, ?_⟩ ⟨id, id⟩
    · rw [hwritten]
      rfl
    · rw [hwritten, haccepted]
      rfl

theorem accept (h : Invariant job s) (current : Option Thrown) (now : ℤ) :
    Invariant job (s.accept job current now) := by
  have hs := h.sending
  unfold State.accept
  split
  · rename_i offset hsender
    obtain ⟨hopen, hdone⟩ := h.sender_pending hsender (by simp) (by simp)
    rw [hsender] at hs
    obtain ⟨n, rfl, hwritten, haccepted⟩ := hs
    unfold sendLoop
    split
    · exact h.sends hopen hdone trivial (kept_partFailed s.operation _)
    split
    · exact h.sends hopen hdone ⟨n, rfl, hwritten, haccepted⟩ ⟨id, id⟩
    · rename_i hend
      refine h.sends hopen hdone ⟨n, now / 1000, Nat.le_of_not_lt hend, ?_, ?_⟩ ⟨id, id⟩
      · change s.written ++ _ = _
        rw [hwritten]
        rfl
      · change s.accepted + 1 + 1 = (s.written ++ [_]).length
        rw [haccepted, List.length_append]
        rfl
  · rename_i hsender
    obtain ⟨hopen, hdone⟩ := h.sender_pending hsender (by simp) (by simp)
    rw [hsender] at hs
    obtain ⟨n, modified, hend, hwritten, haccepted⟩ := hs
    exact h.sends hopen hdone ⟨n, modified, hend, hwritten, haccepted⟩ ⟨id, id⟩
  · exact h

theorem failWrite (h : Invariant job s) (e : Thrown) : Invariant job (s.failWrite e) := by
  unfold State.failWrite
  split
  · rename_i hsender
    obtain ⟨hopen, hdone⟩ := h.sender_pending hsender (by simp) (by simp)
    exact h.senderFails hopen hdone e
  · rename_i hsender
    obtain ⟨hopen, hdone⟩ := h.sender_pending hsender (by simp) (by simp)
    exact h.senderFails hopen hdone e
  · exact h

theorem sliced (h : Invariant job s) (current : Option Thrown) :
    Invariant job (s.sliced job current) := by
  unfold State.sliced
  split
  · rename_i offset hsender
    obtain ⟨hopen, hdone⟩ := h.sender_pending hsender (by simp) (by simp)
    have hs := h.sending
    rw [hsender] at hs
    obtain ⟨n, rfl, hwritten, haccepted⟩ := hs
    unfold sendChunk
    split
    · exact h.senderFails hopen hdone _
    · refine h.sends hopen hdone ⟨n + 1, rfl, ?_, ?_⟩ ⟨id, id⟩
      · rw [hwritten, slice_eq, sent_succ]
        rfl
      · rw [haccepted, List.length_append]
        rfl
  · exact h

theorem failSlice (h : Invariant job s) (e : Thrown) : Invariant job (s.failSlice e) := by
  unfold State.failSlice
  split
  · rename_i hsender
    obtain ⟨hopen, hdone⟩ := h.sender_pending hsender (by simp) (by simp)
    exact h.senderFails hopen hdone e
  · exact h

theorem receiveLoop (h : Invariant job s) (hopen : s.operation ≠ .opening)
    (hdone : s.receiver ≠ .done) {header : List UInt8} (hreply : s.reply = header)
    (hlt : header.length < 8) (current : Option Thrown) :
    Invariant job (s.receiveLoop header current) := by
  unfold State.receiveLoop
  split
  · exact h.receiverFails hopen hdone _
  · exact h.receives hopen hdone ⟨hreply, hlt⟩ ⟨id, id⟩

theorem receive (h : Invariant job s) (read : Read) (current next : Option Thrown) :
    Invariant job (s.receive read current next) := by
  unfold State.receive
  split
  · rename_i header hreceiver
    obtain ⟨hopen, hdone⟩ := h.receiver_pending hreceiver
    have hr := h.receiving
    rw [hreceiver] at hr
    obtain ⟨hreply, hlt⟩ := hr
    unfold received
    split
    · exact h.receives hopen hdone trivial (kept_partFailed s.operation _)
    split
    · exact h.receives hopen hdone trivial (kept_partFailed s.operation _)
    rename_i header' htake
    obtain ⟨hheader, hle⟩ := takeChunk_eq_ok hlt htake
    have hreply' : s.reply ++ read.content = header' := by rw [hreply, hheader]
    split
    · rename_i hlt'
      unfold State.receiveLoop
      split
      · exact h.receives hopen hdone trivial (kept_partFailed s.operation _)
      · exact h.receives hopen hdone ⟨hreply', hlt'⟩ ⟨id, id⟩
    rename_i hfull
    split
    · exact h.receives hopen hdone trivial (kept_partFailed s.operation _)
    · rename_i hcheck
      have hlength : header'.length = 8 := by omega
      refine h.receives hopen hdone ?_ ⟨id, id⟩
      exact hreply'.trans (checkHeader_eq_ok hlength hcheck)
  · exact h

theorem failRead (h : Invariant job s) (e : Thrown) : Invariant job (s.failRead e) := by
  unfold State.failRead
  split
  · rename_i hreceiver
    obtain ⟨hopen, hdone⟩ := h.receiver_pending hreceiver
    exact h.receiverFails hopen hdone e
  · exact h

/-! ## The steps of the operation and of the race -/

/-- An operation that is not fulfilled goes on with both parts untouched. -/
theorem operates (h : Invariant job s) (hne : s.operation ≠ .fulfilled) {operation : Operation}
    {socket : Bool} (hopen : operation ≠ .opening)
    (hfulfilled : operation = .fulfilled → s.sender = .done ∧ s.receiver = .done) :
    Invariant job { s with operation, socket } where
  sending := h.sending
  receiving := h.receiving
  opening ho := absurd ho hopen
  fulfilled := hfulfilled
  resolved hr := absurd (h.resolved hr) hne
  rejected := h.rejected
  stopped := h.stopped

theorem opened (h : Invariant job s) (ho : s.operation = .opening)
    (current streams sending receiving : Option Thrown) :
    Invariant job (s.opened job current streams sending receiving) := by
  have hne : s.operation ≠ .fulfilled := by
    rw [ho]
    simp
  obtain ⟨hidle, hidle'⟩ := h.opening ho
  have hr := h.receiving
  rw [hidle'] at hr
  unfold State.opened
  split
  · exact h.operates hne (by simp) (by simp)
  split
  · exact h.operates hne (by simp) (by simp)
  · exact h.operates hne (by simp) (by simp)
  · have htransferring : Invariant job { s with operation := .transferring } :=
      h.operates hne (by simp) (by simp)
    have hsend := htransferring.send (by simp) hidle sending
    refine hsend.receiveLoop ?_ ?_ ?_ (by simp) receiving
    · unfold State.send
      split
      · simp [State.senderFails, Operation.partFailed]
      · simp [State.write]
    · unfold State.send
      split
      · simp [State.senderFails, hidle']
      · simp [State.write, hidle']
    · unfold State.send
      split
      · exact hr
      · exact hr

theorem joined (h : Invariant job s) (ho : s.operation = .transferring)
    (current : Option Thrown) : Invariant job (s.joined current) := by
  have hne : s.operation ≠ .fulfilled := by
    rw [ho]
    simp
  unfold State.joined
  split
  · rename_i hsender hreceiver
    split
    · exact h.operates hne (by simp) (by simp)
    · exact h.operates hne (by simp) (fun _ => ⟨hsender, hreceiver⟩)
  · exact h

theorem leave (h : Invariant job s) {outcome : Option Thrown} {quarantined : Bool}
    (hresolved : outcome = none → s.operation = .fulfilled)
    (hrejected : outcome ≠ none → quarantined = true) :
    Invariant job (State.leave { s with quarantined } outcome) := by
  have hout : ∀ o, (State.leave { s with quarantined } outcome).outer = .closing o ∨
      (State.leave { s with quarantined } outcome).outer = .settled o → outcome = o := by
    intro o ho
    simp only [State.leave] at ho
    split at ho
    · simpa using ho
    · simpa using ho
  exact
    { sending := h.sending
      receiving := h.receiving
      opening := h.opening
      fulfilled := h.fulfilled
      resolved := fun hr => hresolved (hout none hr)
      rejected := by
        intro e he
        exact hrejected (by rw [hout _ he]; simp)
      stopped := fun _ => rfl }

theorem fail (h : Invariant job s) (e : Thrown) (quarantine : Option Thrown) :
    Invariant job (s.fail e quarantine) :=
  h.leave (by simp) (fun _ => rfl)

theorem settle (h : Invariant job s) (quarantine : Option Thrown) :
    Invariant job (s.settle quarantine) := by
  unfold State.settle
  split
  · rename_i ho
    exact h.leave (fun _ => ho) (by simp)
  · exact h.fail _ quarantine
  · exact h

theorem failClose (h : Invariant job s) (hstopped : s.stopped = true)
    (quarantine : Option Thrown) : Invariant job (s.failClose quarantine) where
  sending := h.sending
  receiving := h.receiving
  opening := h.opening
  fulfilled := h.fulfilled
  resolved hr := by
    rcases hr with hr | hr
    · cases hr
    · cases hr
  rejected _ _ := rfl
  stopped _ := hstopped

theorem closed (h : Invariant job s) {outcome : Option Thrown}
    (ho : s.outer = .closing outcome) :
    Invariant job { s with outer := .settled outcome } where
  sending := h.sending
  receiving := h.receiving
  opening := h.opening
  fulfilled := h.fulfilled
  resolved hr := by
    refine h.resolved (.inl ?_)
    rw [ho]
    rcases hr with hr | hr
    · cases hr
    · cases hr
      rfl
  rejected e he := by
    refine h.rejected e (.inl ?_)
    rw [ho]
    rcases he with he | he
    · cases he
    · cases he
      rfl
  stopped _ := h.stopped (.inl (by rw [ho]; simp))

end Invariant

/-! ## Runs -/

theorem invariant_step (h : Invariant job s) (e : Event) : Invariant job (step job s e) := by
  cases e with
  | opened current streams sending receiving =>
    rw [step]
    split
    · rename_i ho
      have hsocket : Invariant job { s with socket := true } :=
        { h with }
      exact hsocket.opened ho.1 current streams sending receiving
    · exact h
  | openFailed e =>
    rw [step]
    split
    · rename_i ho
      exact h.operates (by rw [ho.1]; simp) (by simp) (by simp)
    · exact h
  | accepted current now => exact h.accept current now
  | writeFailed e => exact h.failWrite e
  | sliced current => exact h.sliced current
  | sliceFailed e => exact h.failSlice e
  | read read current next => exact h.receive read current next
  | readFailed e => exact h.failRead e
  | joined current =>
    rw [step]
    split
    · rename_i ho
      exact h.joined ho current
    · exact h
  | settled quarantine =>
    rw [step]
    split
    · exact h.settle quarantine
    · exact h
  | timeout quarantine =>
    rw [step]
    split
    · exact h.fail _ quarantine
    · exact h
  | closed =>
    rw [step]
    split
    · rename_i ho
      exact h.closed ho
    · exact h
  | closeFailed quarantine =>
    rw [step]
    split
    · rename_i ho
      exact h.failClose (h.stopped (.inl (by rw [ho]; simp))) quarantine
    · exact h

theorem invariant_start (job : Job) (current : Option Thrown) :
    Invariant job (State.start current) := by
  unfold State.start
  split
  · exact ⟨⟨rfl, rfl⟩, rfl, (fun _ => ⟨rfl, rfl⟩), (fun h => by cases h), (fun h => by simp at h),
      (fun e h => by simp at h), (fun h => by simp at h)⟩
  · exact ⟨⟨rfl, rfl⟩, rfl, (fun _ => ⟨rfl, rfl⟩), (fun h => by cases h), (fun h => by simp at h),
      (fun e h => by simp at h), (fun h => by simp at h)⟩

theorem invariant_run (job : Job) (current : Option Thrown) (events : List Event) :
    Invariant job (Library.Runs.run (step job) (.start current) events) :=
  Library.Runs.run_inv (Invariant job) (fun _ e h => invariant_step h e)
    (invariant_start job current) events

/-- What is known of a call that is admitted. -/
theorem admitCall_eq_ok {call : Call} (h : admitCall call = .ok job) :
    stagingPath call.jobId = .ok job.path ∧ releaseBlob call.release = .ok job.blob := by
  unfold admitCall at h
  obtain ⟨path, hpath, h⟩ := bind_eq_ok.mp h
  split at h
  · cases h
  obtain ⟨blob, hblob, h⟩ := bind_eq_ok.mp h
  cases h
  exact ⟨hpath, hblob⟩

/-- The whole file was written and confirmed. -/
structure Complete (path : String) (blob : List UInt8) (s : State) : Prop where
  written : ∃ (payloads : List (List UInt8)) (modified : ℤ),
    s.written.flatten = frame "SEND" (.body (encode (path ++ ",33188"))) ++
      (payloads.map fun payload => frame "DATA" (.body payload)).flatten ++
      frame "DONE" (.number modified) ∧
    (∀ payload ∈ payloads, payload.length ≤ 65536) ∧ payloads.flatten = blob
  accepted : s.accepted = s.written.length
  reply : s.reply = frame "OKAY" (.number 0)

theorem Invariant.complete (h : Invariant job s) (hresolved : s.outer = .settled none) :
    Complete job.path job.blob s := by
  obtain ⟨hsender, hreceiver⟩ := h.fulfilled (h.resolved (.inr hresolved))
  have hs := h.sending
  have hr := h.receiving
  rw [hsender] at hs
  rw [hreceiver] at hr
  obtain ⟨n, modified, hend, hwritten, haccepted⟩ := hs
  refine ⟨⟨payloads job.blob n, modified, ?_, ?_, ?_⟩, haccepted, hr⟩
  · rw [hwritten, List.flatten_append, List.flatten_singleton]
    rfl
  · exact fun payload => length_payload_le
  · rw [flatten_payloads, List.take_of_length_le hend]

/-- However the steps of an upload are ordered: where it resolves, the whole file was written,
every write was accepted and the reply is a confirmation without a text; where it is rejected
after it has requested a socket, it has called `quarantine`; and from a rejection or a call of
`quarantine` on nothing is written. -/
theorem complete_or_quarantined (call : Call) (current : Option Thrown) (events : List Event) :
    ((uploadApk call current events).outer = .settled none →
      ∃ path blob, stagingPath call.jobId = .ok path ∧ releaseBlob call.release = .ok blob ∧
        Complete path blob (uploadApk call current events)) ∧
    (∀ e, (uploadApk call current events).outer = .settled (some e) →
      (uploadApk call current events).requested = true →
        (uploadApk call current events).quarantined = true) ∧
    ((uploadApk call current events).quarantined = true ∨
        (∃ e, (uploadApk call current events).outer = .settled (some e)) →
      ∀ later, (uploadApk call current (events ++ later)).written =
        (uploadApk call current events).written) := by
  unfold uploadApk
  split
  · exact ⟨(fun h => by simp at h), (fun e _ h => by simp at h), fun _ _ => rfl⟩
  · rename_i job hadm
    have hinv := invariant_run job current events
    obtain ⟨hpath, hblob⟩ := admitCall_eq_ok hadm
    refine ⟨?_, ?_, ?_⟩
    · intro hresolved
      exact ⟨job.path, job.blob, hpath, hblob, hinv.complete hresolved⟩
    · intro e he _
      exact hinv.rejected e (.inr he)
    · intro hleft later
      rw [Library.Runs.run_append]
      refine (frozen_run (hinv.stopped ?_) later).1
      rcases hleft with hquarantined | ⟨e, he⟩
      · exact .inr hquarantined
      · exact .inl (by rw [he]; simp)

/-! ## An upload without failures -/

/-- A transfer that awaits its last write, with so many frames of data. -/
def transferring (job : Job) (n : ℕ) : State :=
  { operation := .transferring
    sender := .writing (65536 * n)
    receiver := .reading []
    socket := true
    requested := true
    written := sent job n
    accepted := n }

/-- The write is accepted and the next slice is read. -/
def chunkEvents : List Event := [.accepted none 0, .sliced none]

theorem run_chunkEvents {n : ℕ} (h : 65536 * n < job.blob.length) :
    Library.Runs.run (step job) (transferring job n) chunkEvents = transferring job (n + 1) := by
  have haccept : step job (transferring job n) (.accepted none 0) =
      { transferring job n with sender := .slicing (65536 * n), accepted := n + 1 } := by
    simp only [step, State.accept, transferring, sendLoop, State.guard, if_pos h]
    rfl
  have hslice : step job
      { transferring job n with sender := .slicing (65536 * n), accepted := n + 1 }
      (.sliced none) = transferring job (n + 1) := by
    simp only [step, State.sliced, transferring, sendChunk, State.guard, State.write,
      slice_eq, sent_succ]
    rfl
  rw [chunkEvents, Runs.run_cons, haccept, Runs.run_cons, hslice, Runs.run_nil]

theorem run_chunks (n : ℕ) (h : ∀ k < n, 65536 * k < job.blob.length) :
    Library.Runs.run (step job) (transferring job 0) (List.replicate n chunkEvents).flatten =
      transferring job n := by
  induction n with
  | zero => rfl
  | succ n ih =>
    rw [List.replicate_succ', List.flatten_append, Runs.run_append, ih (fun k hk => h k (by omega)),
      List.flatten_singleton, run_chunkEvents (h n (by omega))]

/-- After the file: the last frame, the reply and the closed socket. -/
def closingEvents : List Event :=
  [.accepted none 0, .accepted none 0, .read (.bytes (frame "OKAY" (.number 0))) none none,
    .joined none, .settled none, .closed]

theorem run_closingEvents {n : ℕ} (h : job.blob.length ≤ 65536 * n) :
    (Library.Runs.run (step job) (transferring job n) closingEvents).outer = .settled none := by
  have hdone : step job (transferring job n) (.accepted none 0) =
      { transferring job n with
        sender := .finishing
        written := sent job n ++ [doneFrame 0]
        accepted := n + 1 } := by
    simp only [step, State.accept, transferring, sendLoop, State.guard, if_neg h.not_gt]
    rfl
  have htake : takeChunk [] (.bytes (frame "OKAY" (.number 0))) =
      .ok (frame "OKAY" (.number 0)) := by
    decide
  have hcheck : checkHeader (frame "OKAY" (.number 0)) = .ok () := by decide
  have hlength : ¬ (frame "OKAY" (.number 0)).length < 8 := by decide
  rw [closingEvents, Runs.run_cons, hdone]
  simp only [Runs.run_cons, Runs.run_nil, step, State.accept, transferring, State.receive,
    State.received, State.guard, htake, hcheck, if_neg hlength, State.joined,
      State.settle, State.leave]
  rfl

/-- An admitted call resolves where nothing fails. -/
theorem resolves {call : Call} (h : admitCall call = .ok job) :
    ∃ events, (uploadApk call none events).outer = .settled none := by
  let n := (job.blob.length + 65535) / 65536
  refine ⟨.opened none none none none :: ((List.replicate n chunkEvents).flatten ++ closingEvents),
    ?_⟩
  have hopen : step job (.start none) (.opened none none none none) = transferring job 0 := rfl
  have hchunks : ∀ k < n, 65536 * k < job.blob.length := by
    intro k hk
    have hn : k < (job.blob.length + 65535) / 65536 := hk
    omega
  have hend : job.blob.length ≤ 65536 * n := by
    change job.blob.length ≤ 65536 * ((job.blob.length + 65535) / 65536)
    omega
  rw [uploadApk, h]
  change (Library.Runs.run (step job) (.start none) _).outer = _
  rw [Runs.run_cons, hopen, Runs.run_append, run_chunks n hchunks, run_closingEvents hend]

end PanelAssistant.Usb.Upload
