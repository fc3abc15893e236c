import PanelAssistant.Blobs.Registry
import PanelAssistant.Library.Slots

/-!
# What holds of the transfers in every state

Four invariants, each over the parts of the registry it reads. A token is in the dictionary
exactly while the sweep of its transfer is to fire, and a transfer that left it has no future
that anyone still waits for (`HeldOk`). A claim that succeeded used its transfer up, in time
and for its own party (`ClaimsOk`). At most one `receive` runs on a transfer, and only it
ends the transfer's future (`UploadsOk`). What was discarded or swept is gone (`GoneOk`).
-/

namespace PanelAssistant

open Library Slots

/-! ## Later versions of a transfer -/

/-- What may become of a transfer: it is used up, it is forgotten, its future is done. -/
structure BlobTransfer.Advances (t t' : BlobTransfer) : Prop where
  token : t'.token = t.token
  entryId : t'.entryId = t.entryId
  expires : t'.expires = t.expires
  userId : t'.userId = t.userId
  maxBytes : t'.maxBytes = t.maxBytes
  upload : t'.received.isSome = t.received.isSome
  used : t.used = true → t'.used = true
  sweep : t.sweep = false → t'.sweep = false
  done : ∀ f, t.received = some f → f.done = true → t'.received = some f

theorem BlobTransfer.Advances.refl (t : BlobTransfer) : t.Advances t :=
  ⟨rfl, rfl, rfl, rfl, rfl, rfl, fun h => h, fun h => h, fun _ h _ => h⟩

/-- Whether the future, if there is one, is as it was or was cancelled. -/
def BlobTransfer.Quiet (t t' : BlobTransfer) : Prop :=
  t'.received = t.received ∨ t'.received = t.received.map (·.cancel)

theorem UploadFuture.cancel_of_done {f : UploadFuture} (h : f.done = true) : f.cancel = f := by
  cases f with
  | pending => cases h
  | _ => rfl

theorem UploadFuture.done_cancel (f : UploadFuture) : f.cancel.done = true := by
  cases f <;> rfl

theorem BlobTransfer.received_map_cancel {t : BlobTransfer} {f : UploadFuture}
    (hf : t.received = some f) (hdone : f.done = true) :
    t.received.map (·.cancel) = some f := by
  rw [hf, Option.map_some, UploadFuture.cancel_of_done hdone]

namespace BlobRegistry

variable {minted : List BlobTransfer} {transfers : Dict String Nat}
  {receptions : List Reception} {log : List BlobNote}

/-! ## The dictionary and the sweeps -/

structure HeldOk (minted : List BlobTransfer) (transfers : Dict String Nat) : Prop where
  tokens : (minted.map (·.token)).Nodup
  held : ∀ token i, transfers.get? token = some i ↔
    ∃ t, minted[i]? = some t ∧ t.token = token ∧ t.sweep = true
  settled : ∀ {i : Nat} {t : BlobTransfer}, minted[i]? = some t → t.sweep = false →
    ∀ f, t.received = some f → f.done = true

theorem HeldOk.eq_of_mem (h : HeldOk minted transfers) {t t' : BlobTransfer}
    (ht : t ∈ minted) (ht' : t' ∈ minted) (htoken : t.token = t'.token) : t = t' := by
  obtain ⟨i, hi⟩ := List.mem_iff_getElem?.mp ht
  obtain ⟨j, hj⟩ := List.mem_iff_getElem?.mp ht'
  obtain rfl := eq_of_key h.tokens hi hj htoken
  exact Option.some.inj (hi.symm.trans hj)

/-- A change that leaves the sweep alone. -/
theorem HeldOk.touch (h : HeldOk minted transfers) {i : Nat} {f : BlobTransfer → BlobTransfer}
    (hf : ∀ t, minted[i]? = some t → t.Advances (f t) ∧ (f t).sweep = t.sweep) :
    HeldOk (minted.modify i f) transfers := by
  refine ⟨?_, ?_, ?_⟩
  · rw [map_modify fun t ht => (hf t ht).1.token]
    exact h.tokens
  · intro token j
    rw [h.held]
    constructor
    · rintro ⟨t, ht, htoken, hsweep⟩
      by_cases hj : j = i
      · subst hj
        obtain ⟨hadv, hs⟩ := hf t ht
        exact ⟨f t, modify_self ht, hadv.token.trans htoken, hs.trans hsweep⟩
      · exact ⟨t, by rw [modify_ne hj, ht], htoken, hsweep⟩
    · rintro ⟨t', ht', htoken, hsweep⟩
      rcases modify_cases ht' with ⟨rfl, t, ht, rfl⟩ | ⟨-, ht⟩
      · obtain ⟨hadv, hs⟩ := hf t ht
        exact ⟨t, ht, hadv.token.symm.trans htoken, hs.symm.trans hsweep⟩
      · exact ⟨t', ht, htoken, hsweep⟩
  · intro j t' ht' hsweep f' hf'
    rcases modify_cases ht' with ⟨rfl, t, ht, rfl⟩ | ⟨-, ht⟩
    · obtain ⟨hadv, hs⟩ := hf t ht
      have hsome : t.received.isSome = true := by rw [← hadv.upload, hf']; rfl
      obtain ⟨g, hg⟩ := Option.isSome_iff_exists.mp hsome
      have hdone := h.settled ht (hs.symm.trans hsweep) g hg
      rw [hadv.done g hg hdone, Option.some.injEq] at hf'
      exact hf' ▸ hdone
    · exact h.settled ht hsweep f' hf'

/-- A transfer leaves the dictionary together with its sweep, and its future is done. -/
theorem HeldOk.drop (h : HeldOk minted transfers) {token : String} {i : Nat}
    (hi : transfers.get? token = some i) {f : BlobTransfer → BlobTransfer}
    (hf : ∀ t, minted[i]? = some t → t.Advances (f t) ∧ (f t).sweep = false ∧
      ∀ g, (f t).received = some g → g.done = true) :
    HeldOk (minted.modify i f) (transfers.pop token) := by
  refine ⟨?_, ?_, ?_⟩
  · rw [map_modify fun t ht => (hf t ht).1.token]
    exact h.tokens
  · intro token' j
    rw [Dict.get?_pop]
    constructor
    · intro hget
      split at hget
      · cases hget
      rename_i hne
      obtain ⟨t, ht, htoken, hsweep⟩ := (h.held token' j).mp hget
      have hj : j ≠ i := by
        rintro rfl
        obtain ⟨t', ht', htoken', -⟩ := (h.held token j).mp hi
        rw [ht, Option.some.injEq] at ht'
        subst ht'
        exact hne (htoken.symm.trans htoken')
      exact ⟨t, by rw [modify_ne hj, ht], htoken, hsweep⟩
    · rintro ⟨t', ht', htoken, hsweep⟩
      rcases modify_cases ht' with ⟨rfl, t, ht, rfl⟩ | ⟨hj, ht⟩
      · rw [(hf t ht).2.1] at hsweep
        cases hsweep
      · have hget := (h.held token' j).mpr ⟨t', ht, htoken, hsweep⟩
        rw [if_neg, hget]
        rintro rfl
        rw [hi, Option.some.injEq] at hget
        exact hj hget.symm
  · intro j t' ht' hsweep f' hf'
    rcases modify_cases ht' with ⟨rfl, t, ht, rfl⟩ | ⟨-, ht⟩
    · exact (hf t ht).2.2 f' hf'
    · exact h.settled ht hsweep f' hf'

theorem HeldOk.mint (h : HeldOk minted transfers) {t : BlobTransfer}
    (hfresh : t.token ∉ minted.map (·.token)) (hsweep : t.sweep = true) :
    HeldOk (minted ++ [t]) (transfers.set t.token minted.length) := by
  refine ⟨?_, ?_, ?_⟩
  · rw [List.map_append, List.map_singleton]
    refine List.nodup_append.mpr ⟨h.tokens, List.nodup_singleton _, ?_⟩
    rintro _ hmem _ hsingle rfl
    rw [List.mem_singleton] at hsingle
    exact hfresh (hsingle ▸ hmem)
  · intro token i
    rw [Dict.get?_set]
    constructor
    · intro hget
      split at hget
      · rename_i heq
        obtain rfl := Option.some.inj hget
        exact ⟨t, List.getElem?_concat_length, heq.symm, hsweep⟩
      · obtain ⟨t', ht', hrest⟩ := (h.held token i).mp hget
        exact ⟨t', concat_of_some ht', hrest⟩
    · rintro ⟨t', ht', rfl, hsweep'⟩
      rcases concat_cases ht' with ⟨rfl, rfl⟩ | ⟨-, ht⟩
      · rw [if_pos rfl]
      · rw [if_neg, (h.held _ i).mpr ⟨t', ht, rfl, hsweep'⟩]
        intro heq
        exact hfresh (heq ▸ List.mem_map_of_mem (List.mem_of_getElem? ht))
  · intro i t' ht' hs f hf
    rcases concat_cases ht' with ⟨-, rfl⟩ | ⟨-, ht⟩
    · rw [hsweep] at hs
      cases hs
    · exact h.settled ht hs f hf

/-! ## Claims -/

/-- The claim used this transfer, before it expired, for its own party and direction. -/
structure Claimed (t : BlobTransfer) (c : BlobClaim) : Prop where
  token : t.token = c.token
  used : t.used = true
  inTime : c.time < t.expires
  direction : t.received.isSome = c.upload
  panel : c.entryId = none → t.userId = none ∧ c.entries.get? t.entryId = some (some c.userId)
  browser : ∀ entryId, c.entryId = some entryId → t.entryId = entryId ∧ t.userId = some c.userId

theorem Claimed.advance {t t' : BlobTransfer} {c : BlobClaim} (h : Claimed t c)
    (ha : t.Advances t') : Claimed t' c := by
  refine ⟨ha.token.trans h.token, ha.used h.used, ?_, ha.upload.trans h.direction, ?_, ?_⟩
  · rw [ha.expires]
    exact h.inTime
  · rw [ha.userId, ha.entryId]
    exact h.panel
  · rw [ha.userId, ha.entryId]
    exact h.browser

end BlobRegistry

/-- Whether the note is of a successful claim of the token. -/
def BlobNote.claims (token : String) : BlobNote → Bool
  | .claimed c => c.token == token
  | _ => false

/-- Whether the note is of a successful `take` of the token. -/
def BlobNote.takes (token : String) : BlobNote → Bool
  | .taken token' .. => token' == token
  | _ => false

/-- The notes that do not say that something is gone. -/
def BlobNote.mild : BlobNote → Bool
  | .discarded .. => false
  | .swept _ => false
  | .claimed c => c.upload
  | _ => true

namespace BlobRegistry

variable {minted minted' : List BlobTransfer} {transfers : Dict String Nat}
  {receptions : List Reception} {log : List BlobNote}

structure ClaimsOk (minted : List BlobTransfer) (log : List BlobNote) : Prop where
  claimed : ∀ {c : BlobClaim}, .claimed c ∈ log → ∃ t ∈ minted, Claimed t c
  once : ∀ token, log.countP (·.claims token) ≤ 1

theorem ClaimsOk.advance (h : ClaimsOk minted log)
    (hf : Follows BlobTransfer.Advances minted minted') :
    ClaimsOk minted' log := by
  refine ⟨?_, h.once⟩
  intro c hc
  obtain ⟨t, ht, hclaimed⟩ := h.claimed hc
  obtain ⟨t', ht', ha⟩ := hf.mem ht
  exact ⟨t', ht', hclaimed.advance ha⟩

theorem ClaimsOk.note (h : ClaimsOk minted log) {n : BlobNote}
    (hn : ∀ token, n.claims token = false) : ClaimsOk minted (n :: log) := by
  refine ⟨?_, ?_⟩
  · intro c hc
    rcases List.mem_cons.mp hc with rfl | hc
    · have := hn c.token
      simp [BlobNote.claims] at this
    · exact h.claimed hc
  · intro token
    rw [List.countP_cons_of_neg (by simp [hn token])]
    exact h.once token

/-- A transfer that was not used was not claimed. -/
theorem ClaimsOk.countP_eq_zero (h : ClaimsOk minted log) (hheld : HeldOk minted transfers)
    {t : BlobTransfer} (ht : t ∈ minted) (hunused : t.used = false) :
    log.countP (·.claims t.token) = 0 := by
  rw [List.countP_eq_zero]
  intro n hn hclaims
  cases n with
  | claimed c =>
    obtain ⟨t', ht', hclaimed⟩ := h.claimed hn
    have htoken : t'.token = t.token := by
      rw [hclaimed.token]
      simpa [BlobNote.claims] using hclaims
    obtain rfl := hheld.eq_of_mem ht' ht htoken
    rw [hclaimed.used] at hunused
    cases hunused
  | _ => cases hclaims

/-- The note of a claim of a transfer that has no claim yet. -/
theorem ClaimsOk.claim (h : ClaimsOk minted log) {t : BlobTransfer} {c : BlobClaim}
    (ht : t ∈ minted) (hclaimed : Claimed t c) (hnone : log.countP (·.claims t.token) = 0) :
    ClaimsOk minted (.claimed c :: log) := by
  refine ⟨?_, ?_⟩
  · intro c' hc'
    rcases List.mem_cons.mp hc' with heq | hc'
    · cases heq
      exact ⟨t, ht, hclaimed⟩
    · exact h.claimed hc'
  · intro token
    rw [List.countP_cons]
    by_cases htoken : t.token = token
    · subst htoken
      rw [hnone]
      split <;> omega
    · have hno : (BlobNote.claimed c).claims token = false := by
        rw [BlobNote.claims, ← hclaimed.token]
        simpa using htoken
      rw [hno]
      exact h.once token

/-! ## Uploads -/

/-- `receive` holds a used transfer; while it runs, the future is open or was cancelled. -/
structure Receives (minted : List BlobTransfer) (c : Reception) (t : BlobTransfer)
    (f : UploadFuture) : Prop where
  transfer : minted[c.transfer]? = some t
  used : t.used = true
  received : t.received = some f
  waits : c.running = true → f = .pending ∨ f = .cancelled
  bounded : c.running = true → c.body.length ≤ t.maxBytes

/-- A `receive` that filled the transfer at `i` with these bytes, within its bound. -/
structure Filled (receptions : List Reception) (i : Nat) (t : BlobTransfer)
    (data : List UInt8) (c : Reception) : Prop where
  mem : c ∈ receptions
  transfer : c.transfer = i
  ended : c.running = false
  body : c.body = data
  bounded : data.length ≤ t.maxBytes

/-- What `take` handed out: the bytes in the future, to the transfer's own browser. -/
structure Taken (t : BlobTransfer) (token entryId userId : String) (data : List UInt8) :
    Prop where
  token : t.token = token
  entryId : t.entryId = entryId
  userId : t.userId = some userId
  result : t.received = some (.result data)
  gone : t.sweep = false

structure UploadsOk (minted : List BlobTransfer) (receptions : List Reception)
    (log : List BlobNote) : Prop where
  reception : ∀ {r : Nat} {c : Reception}, receptions[r]? = some c →
    ∃ t f, Receives minted c t f
  single : ∀ {r r' : Nat} {c c' : Reception}, receptions[r]? = some c →
    receptions[r']? = some c' → c.transfer = c'.transfer → r = r'
  filled : ∀ {i : Nat} {t : BlobTransfer} {data : List UInt8}, minted[i]? = some t →
    t.received = some (.result data) → ∃ c, Filled receptions i t data c
  unused : ∀ {i : Nat} {t : BlobTransfer} {f : UploadFuture}, minted[i]? = some t →
    t.used = false → t.received = some f → f = .pending ∨ f = .cancelled
  taken : ∀ {token entryId userId : String} {data : List UInt8},
    .taken token entryId userId data ∈ log → ∃ t ∈ minted, Taken t token entryId userId data
  once : ∀ token, log.countP (·.takes token) ≤ 1
  valid : ∀ i, .invalidState i ∉ log

theorem Taken.advance {t t' : BlobTransfer} {token entryId userId : String}
    {data : List UInt8} (h : Taken t token entryId userId data) (ha : t.Advances t') :
    Taken t' token entryId userId data :=
  ⟨ha.token.trans h.token, ha.entryId.trans h.entryId, ha.userId.trans h.userId,
    ha.done _ h.result rfl, ha.sweep h.gone⟩

/-- A change that leaves the future alone or cancels it. -/
theorem UploadsOk.touch (h : UploadsOk minted receptions log) {i : Nat}
    {f : BlobTransfer → BlobTransfer}
    (hf : ∀ t, minted[i]? = some t → t.Advances (f t) ∧ t.Quiet (f t)) :
    UploadsOk (minted.modify i f) receptions log := by
  refine ⟨?_, h.single, ?_, ?_, ?_, h.once, h.valid⟩
  · intro r c hc
    obtain ⟨t, g, hr⟩ := h.reception hc
    by_cases hi : c.transfer = i
    · subst hi
      obtain ⟨hadv, hquiet⟩ := hf t hr.transfer
      have hbounded : c.running = true → c.body.length ≤ (f t).maxBytes := by
        rw [hadv.maxBytes]
        exact hr.bounded
      rcases hquiet with heq | hcancel
      · exact ⟨f t, g, modify_self hr.transfer, hadv.used hr.used, heq.trans hr.received,
          hr.waits, hbounded⟩
      · refine ⟨f t, g.cancel, modify_self hr.transfer, hadv.used hr.used, ?_, ?_, hbounded⟩
        · rw [hcancel, hr.received]
          rfl
        · intro hrun
          rcases hr.waits hrun with rfl | rfl <;> exact Or.inr rfl
    · exact ⟨t, g, (modify_ne hi).trans hr.transfer, hr.used, hr.received, hr.waits, hr.bounded⟩
  · intro j t' data ht' hdata
    rcases modify_cases ht' with ⟨rfl, t, ht, rfl⟩ | ⟨-, ht⟩
    · obtain ⟨hadv, hquiet⟩ := hf t ht
      have hold : t.received = some (.result data) := by
        rcases hquiet with heq | hcancel
        · exact heq.symm.trans hdata
        · rw [hcancel] at hdata
          obtain ⟨g, hg, hgd⟩ := Option.map_eq_some_iff.mp hdata
          cases g with
          | result data' => rw [hg, ← hgd]; rfl
          | _ => cases hgd
      obtain ⟨c, hc⟩ := h.filled ht hold
      exact ⟨c, hc.mem, hc.transfer, hc.ended, hc.body, hadv.maxBytes ▸ hc.bounded⟩
    · exact h.filled ht hdata
  · intro j t' f' ht' hunused hf'
    rcases modify_cases ht' with ⟨rfl, t, ht, rfl⟩ | ⟨-, ht⟩
    · obtain ⟨hadv, hquiet⟩ := hf t ht
      have hold : t.used = false := by
        cases hused : t.used with
        | false => rfl
        | true => rw [hadv.used hused] at hunused; cases hunused
      rcases hquiet with heq | hcancel
      · exact h.unused ht hold (heq.symm.trans hf')
      · rw [hcancel] at hf'
        obtain ⟨g, hg, rfl⟩ := Option.map_eq_some_iff.mp hf'
        rcases h.unused ht hold hg with rfl | rfl <;> exact Or.inr rfl
    · exact h.unused ht hunused hf'
  · intro token entryId userId data hmem
    obtain ⟨t, ht, htaken⟩ := h.taken hmem
    obtain ⟨t', ht', ha⟩ := (Follows.modify .refl fun t ht => (hf t ht).1).mem ht
    exact ⟨t', ht', htaken.advance ha⟩

theorem UploadsOk.mint (h : UploadsOk minted receptions log) {t : BlobTransfer}
    (ht : ∀ f, t.received = some f → f = .pending) :
    UploadsOk (minted ++ [t]) receptions log := by
  refine ⟨?_, h.single, ?_, ?_, ?_, h.once, h.valid⟩
  · intro r c hc
    obtain ⟨t', f, hr⟩ := h.reception hc
    exact ⟨t', f, concat_of_some hr.transfer, hr.used, hr.received, hr.waits, hr.bounded⟩
  · intro i t' data ht' hdata
    rcases concat_cases ht' with ⟨-, rfl⟩ | ⟨-, ht'⟩
    · cases ht _ hdata
    · exact h.filled ht' hdata
  · intro i t' f ht' hunused hf
    rcases concat_cases ht' with ⟨-, rfl⟩ | ⟨-, ht'⟩
    · exact Or.inl (ht f hf)
    · exact h.unused ht' hunused hf
  · intro token entryId userId data hmem
    obtain ⟨t', ht', htaken⟩ := h.taken hmem
    exact ⟨t', List.mem_append_left _ ht', htaken⟩

theorem UploadsOk.note (h : UploadsOk minted receptions log) {n : BlobNote}
    (htaken : ∀ token, n.takes token = false) (hvalid : ∀ i, n ≠ .invalidState i) :
    UploadsOk minted receptions (n :: log) := by
  refine ⟨h.reception, h.single, h.filled, h.unused, ?_, ?_, ?_⟩
  · intro token entryId userId data hmem
    rcases List.mem_cons.mp hmem with rfl | hmem
    · have := htaken token
      simp [BlobNote.takes] at this
    · exact h.taken hmem
  · intro token
    rw [List.countP_cons_of_neg (by simp [htaken token])]
    exact h.once token
  · intro i hmem
    rcases List.mem_cons.mp hmem with heq | hmem
    · exact hvalid i heq.symm
    · exact h.valid i hmem

/-- A claimed slot starts to receive. -/
theorem UploadsOk.receive (h : UploadsOk minted receptions log) {i : Nat} {t : BlobTransfer}
    {f : UploadFuture} (ht : minted[i]? = some t) (hused : t.used = true)
    (hf : t.received = some f) (hwaits : f = .pending ∨ f = .cancelled)
    (hnone : ∀ c ∈ receptions, c.transfer ≠ i) :
    UploadsOk minted (receptions ++ [⟨i, [], true, none⟩]) log := by
  refine ⟨?_, ?_, ?_, h.unused, h.taken, h.once, h.valid⟩
  · intro r c hc
    rcases concat_cases hc with ⟨-, rfl⟩ | ⟨-, hc⟩
    · exact ⟨t, f, ht, hused, hf, fun _ => hwaits, fun _ => Nat.zero_le _⟩
    · exact h.reception hc
  · intro r r' c c' hc hc' heq
    rcases concat_cases hc with ⟨hr, rfl⟩ | ⟨hr, hc⟩ <;>
      rcases concat_cases hc' with ⟨hr', rfl⟩ | ⟨hr', hc'⟩
    · rw [hr, hr']
    · exact absurd heq.symm (hnone c' (List.mem_of_getElem? hc'))
    · exact absurd heq (hnone c (List.mem_of_getElem? hc))
    · exact h.single hc hc' heq
  · intro j t' data ht' hdata
    obtain ⟨c, hc⟩ := h.filled ht' hdata
    exact ⟨c, List.mem_append_left _ hc.mem, hc.transfer, hc.ended, hc.body, hc.bounded⟩

/-- A change of a reception under which it keeps its transfer, does not run again, stays
within the bound while it runs, and keeps its body once it ended. -/
structure Reception.Proceeds (maxBytes : Nat) (c c' : Reception) : Prop where
  transfer : c'.transfer = c.transfer
  running : c'.running = true → c.running = true
  bounded : c'.running = true → c'.body.length ≤ maxBytes
  body : c.running = false → c'.body = c.body

theorem UploadsOk.proceed (h : UploadsOk minted receptions log) {r : Nat}
    {g : Reception → Reception}
    (hg : ∀ c t, receptions[r]? = some c → minted[c.transfer]? = some t →
      Reception.Proceeds t.maxBytes c (g c)) :
    UploadsOk minted (receptions.modify r g) log := by
  have hof : ∀ {r' : Nat} {c' : Reception}, (receptions.modify r g)[r']? = some c' →
      ∃ c t, receptions[r']? = some c ∧ minted[c.transfer]? = some t ∧
        c'.transfer = c.transfer ∧ (c'.running = true → c.running = true) ∧
        (c'.running = true → c'.body.length ≤ t.maxBytes) := by
    intro r' c' hc'
    rcases modify_cases hc' with ⟨rfl, c, hc, rfl⟩ | ⟨-, hc⟩
    · obtain ⟨t, f, hr⟩ := h.reception hc
      have hp := hg c t hc hr.transfer
      exact ⟨c, t, hc, hr.transfer, hp.transfer, hp.running, hp.bounded⟩
    · obtain ⟨t, f, hr⟩ := h.reception hc
      exact ⟨c', t, hc, hr.transfer, rfl, fun h => h, hr.bounded⟩
  refine ⟨?_, ?_, ?_, h.unused, h.taken, h.once, h.valid⟩
  · intro r' c' hc'
    obtain ⟨c, t, hc, ht, htransfer, hrunning, hbounded⟩ := hof hc'
    obtain ⟨t', f, hr⟩ := h.reception hc
    obtain rfl : t' = t := Option.some.inj (hr.transfer.symm.trans ht)
    exact ⟨t', f, htransfer ▸ hr.transfer, hr.used, hr.received,
      fun hrun => hr.waits (hrunning hrun), hbounded⟩
  · intro r₁ r₂ c₁ c₂ h₁ h₂ heq
    obtain ⟨c, _, hc, -, htransfer, -⟩ := hof h₁
    obtain ⟨c', _, hc', -, htransfer', -⟩ := hof h₂
    exact h.single hc hc' (htransfer.symm.trans (heq.trans htransfer'))
  · intro i t data ht hdata
    obtain ⟨c, hc⟩ := h.filled ht hdata
    obtain ⟨r', hr'⟩ := List.mem_iff_getElem?.mp hc.mem
    by_cases hr : r' = r
    · subst hr
      have hp := hg c t hr' (hc.transfer ▸ ht)
      have hended : (g c).running = false := by
        cases hrun : (g c).running with
        | false => rfl
        | true =>
          have := hp.running hrun
          rw [hc.ended] at this
          cases this
      exact ⟨g c, List.mem_of_getElem? (modify_self hr'), hp.transfer.trans hc.transfer, hended,
        (hp.body hc.ended).trans hc.body, hc.bounded⟩
    · exact ⟨c, List.mem_of_getElem? ((modify_ne hr).trans hr'), hc.transfer, hc.ended, hc.body,
        hc.bounded⟩

/-- A running `receive` ends and sets the open future of its transfer. -/
theorem UploadsOk.settle (h : UploadsOk minted receptions log) {r : Nat} {c : Reception}
    {t : BlobTransfer} (hc : receptions[r]? = some c) (hrun : c.running = true)
    (ht : minted[c.transfer]? = some t) (hopen : t.received = some .pending)
    {f : UploadFuture} {g : Reception → Reception} (htransfer : (g c).transfer = c.transfer)
    (hended : (g c).running = false)
    (hresult : ∀ data, f = .result data → data = c.body ∧ (g c).body = c.body) :
    UploadsOk (minted.modify c.transfer fun t => { t with received := some f })
      (receptions.modify r g) log := by
  have hbounded : c.body.length ≤ t.maxBytes := by
    obtain ⟨t', f', hr⟩ := h.reception hc
    obtain rfl : t' = t := Option.some.inj (hr.transfer.symm.trans ht)
    exact hr.bounded hrun
  have hadv : ∀ t', minted[c.transfer]? = some t' →
      t'.Advances { t' with received := some f } := by
    intro t' ht'
    obtain rfl : t' = t := Option.some.inj (ht'.symm.trans ht)
    refine ⟨rfl, rfl, rfl, rfl, rfl, ?_, fun h => h, fun h => h, ?_⟩
    · rw [hopen]
      rfl
    · intro f' hf' hdone
      rw [hopen, Option.some.injEq] at hf'
      rw [← hf'] at hdone
      cases hdone
  refine ⟨?_, ?_, ?_, ?_, ?_, h.once, h.valid⟩
  · intro r' c' hc'
    rcases modify_cases hc' with ⟨rfl, c'', hc'', rfl⟩ | ⟨hr', hc'⟩
    · obtain rfl : c'' = c := Option.some.inj (hc''.symm.trans hc)
      obtain ⟨t', f', hr⟩ := h.reception hc
      refine ⟨_, f, (congrArg _ htransfer).trans (modify_self hr.transfer), hr.used, rfl, ?_, ?_⟩
      · intro hrun'
        rw [hended] at hrun'
        cases hrun'
      · intro hrun'
        rw [hended] at hrun'
        cases hrun'
    · obtain ⟨t', f', hr⟩ := h.reception hc'
      have hne : c'.transfer ≠ c.transfer := fun heq => hr' (h.single hc' hc heq)
      exact ⟨t', f', (modify_ne hne).trans hr.transfer, hr.used, hr.received, hr.waits,
        hr.bounded⟩
  · intro r₁ r₂ c₁ c₂ h₁ h₂ heq
    have hof : ∀ {r' : Nat} {c' : Reception}, (receptions.modify r g)[r']? = some c' →
        ∃ c'', receptions[r']? = some c'' ∧ c'.transfer = c''.transfer := by
      intro r' c' hc'
      rcases modify_cases hc' with ⟨rfl, c'', hc'', rfl⟩ | ⟨-, hc'⟩
      · obtain rfl : c'' = c := Option.some.inj (hc''.symm.trans hc)
        exact ⟨c'', hc'', htransfer⟩
      · exact ⟨c', hc', rfl⟩
    obtain ⟨c', hc', ht₁⟩ := hof h₁
    obtain ⟨c'', hc'', ht₂⟩ := hof h₂
    exact h.single hc' hc'' (ht₁.symm.trans (heq.trans ht₂))
  · intro i t' data ht' hdata
    rcases modify_cases ht' with ⟨rfl, t'', ht'', rfl⟩ | ⟨hi, ht'⟩
    · obtain rfl : t'' = t := Option.some.inj (ht''.symm.trans ht)
      obtain ⟨hbody, hkept⟩ := hresult data (Option.some.inj hdata)
      exact ⟨g c, List.mem_of_getElem? (modify_self hc), htransfer, hended,
        hkept.trans hbody.symm, hbody ▸ hbounded⟩
    · obtain ⟨c', hc'⟩ := h.filled ht' hdata
      obtain ⟨r', hr'⟩ := List.mem_iff_getElem?.mp hc'.mem
      have hr : r' ≠ r := by
        rintro rfl
        obtain rfl : c' = c := Option.some.inj (hr'.symm.trans hc)
        exact hi hc'.transfer.symm
      exact ⟨c', List.mem_of_getElem? ((modify_ne hr).trans hr'), hc'.transfer, hc'.ended,
        hc'.body, hc'.bounded⟩
  · intro i t' f' ht' hunused hf'
    rcases modify_cases ht' with ⟨rfl, t'', ht'', rfl⟩ | ⟨-, ht'⟩
    · obtain ⟨t₀, f₀, hr⟩ := h.reception hc
      obtain rfl : t'' = t₀ := Option.some.inj (ht''.symm.trans hr.transfer)
      have hused : t''.used = false := hunused
      rw [hr.used] at hused
      cases hused
    · exact h.unused ht' hunused hf'
  · intro token entryId userId data hmem
    obtain ⟨t', ht', htaken⟩ := h.taken hmem
    obtain ⟨t'', ht'', ha⟩ := (Follows.modify .refl hadv).mem ht'
    exact ⟨t'', ht'', htaken.advance ha⟩

/-- A transfer whose sweep is to fire was not taken. -/
theorem UploadsOk.countP_eq_zero (h : UploadsOk minted receptions log)
    (hheld : HeldOk minted transfers) {t : BlobTransfer} (ht : t ∈ minted)
    (hsweep : t.sweep = true) : log.countP (·.takes t.token) = 0 := by
  rw [List.countP_eq_zero]
  intro n hn htakes
  cases n with
  | taken token entryId userId data =>
    obtain ⟨t', ht', htaken⟩ := h.taken hn
    have htoken : t'.token = t.token := by
      rw [htaken.token]
      simpa [BlobNote.takes] using htakes
    obtain rfl := hheld.eq_of_mem ht' ht htoken
    rw [htaken.gone] at hsweep
    cases hsweep
  | _ => cases htakes

theorem UploadsOk.take (h : UploadsOk minted receptions log) {t : BlobTransfer}
    {token entryId userId : String} {data : List UInt8} (ht : t ∈ minted)
    (htaken : Taken t token entryId userId data) (hnone : log.countP (·.takes token) = 0) :
    UploadsOk minted receptions (.taken token entryId userId data :: log) := by
  refine ⟨h.reception, h.single, h.filled, h.unused, ?_, ?_, ?_⟩
  · intro token' entryId' userId' data' hmem
    rcases List.mem_cons.mp hmem with heq | hmem
    · cases heq
      exact ⟨t, ht, htaken⟩
    · exact h.taken hmem
  · intro token'
    rw [List.countP_cons]
    by_cases htoken : token' = token
    · subst htoken
      rw [hnone]
      split <;> omega
    · have hno : (BlobNote.taken token entryId userId data).takes token' = false := by
        simpa [BlobNote.takes] using Ne.symm htoken
      rw [hno]
      exact h.once token'
  · intro i hmem
    rcases List.mem_cons.mp hmem with heq | hmem
    · cases heq
    · exact h.valid i hmem

/-! ## What is gone -/

structure GoneOk (minted : List BlobTransfer) (log : List BlobNote) : Prop where
  discarded : ∀ {token : String} {n : Nat}, .discarded token n ∈ log → n ≤ minted.length ∧
    ∀ {i : Nat} {t : BlobTransfer}, i < n → minted[i]? = some t → t.token = token →
      t.sweep = false
  swept : ∀ {i : Nat}, .swept i ∈ log → ∃ t, minted[i]? = some t ∧ t.sweep = false
  fetched : ∀ {c : BlobClaim}, .claimed c ∈ log → c.upload = false →
    ∃ t ∈ minted, t.token = c.token ∧ t.sweep = false

theorem GoneOk.advance (h : GoneOk minted log)
    (hf : Follows BlobTransfer.Advances minted minted') : GoneOk minted' log := by
  refine ⟨?_, ?_, ?_⟩
  · intro token n hmem
    obtain ⟨hn, hgone⟩ := h.discarded hmem
    refine ⟨hn.trans hf.length_le, ?_⟩
    intro i t' hi ht' htoken
    have ht := List.getElem?_eq_getElem (l := minted) (i := i) (by omega)
    obtain ⟨t'', ht'', ha⟩ := hf _ _ ht
    obtain rfl : t'' = t' := Option.some.inj (ht''.symm.trans ht')
    exact ha.sweep (hgone hi ht (ha.token.symm.trans htoken))
  · intro i hmem
    obtain ⟨t, ht, hs⟩ := h.swept hmem
    obtain ⟨t', ht', ha⟩ := hf _ _ ht
    exact ⟨t', ht', ha.sweep hs⟩
  · intro c hmem hc
    obtain ⟨t, ht, htoken, hs⟩ := h.fetched hmem hc
    obtain ⟨t', ht', ha⟩ := hf.mem ht
    exact ⟨t', ht', ha.token.trans htoken, ha.sweep hs⟩

theorem GoneOk.note (h : GoneOk minted log) {n : BlobNote} (hn : n.mild = true) :
    GoneOk minted (n :: log) := by
  refine ⟨?_, ?_, ?_⟩
  · intro token k hmem
    rcases List.mem_cons.mp hmem with rfl | hmem
    · cases hn
    · exact h.discarded hmem
  · intro i hmem
    rcases List.mem_cons.mp hmem with rfl | hmem
    · cases hn
    · exact h.swept hmem
  · intro c hmem hc
    rcases List.mem_cons.mp hmem with rfl | hmem
    · rw [BlobNote.mild, hc] at hn
      cases hn
    · exact h.fetched hmem hc

theorem GoneOk.discard (h : GoneOk minted log) {token : String}
    (hgone : ∀ {t : BlobTransfer}, t ∈ minted → t.token = token → t.sweep = false) :
    GoneOk minted (.discarded token minted.length :: log) := by
  refine ⟨?_, ?_, ?_⟩
  · intro token' n hmem
    rcases List.mem_cons.mp hmem with heq | hmem
    · cases heq
      exact ⟨Nat.le_refl _, fun _ ht => hgone (List.mem_of_getElem? ht)⟩
    · exact h.discarded hmem
  · intro i hmem
    exact h.swept ((List.mem_cons.mp hmem).resolve_left (by simp))
  · intro c hmem
    exact h.fetched ((List.mem_cons.mp hmem).resolve_left (by simp))

theorem GoneOk.sweep (h : GoneOk minted log) {i : Nat} {t : BlobTransfer}
    (ht : minted[i]? = some t) (hs : t.sweep = false) : GoneOk minted (.swept i :: log) := by
  refine ⟨?_, ?_, ?_⟩
  · intro token n hmem
    exact h.discarded ((List.mem_cons.mp hmem).resolve_left (by simp))
  · intro j hmem
    rcases List.mem_cons.mp hmem with heq | hmem
    · cases heq
      exact ⟨t, ht, hs⟩
    · exact h.swept hmem
  · intro c hmem
    exact h.fetched ((List.mem_cons.mp hmem).resolve_left (by simp))

theorem GoneOk.fetch (h : GoneOk minted log) {c : BlobClaim} {t : BlobTransfer}
    (ht : t ∈ minted) (htoken : t.token = c.token) (hs : t.sweep = false) :
    GoneOk minted (.claimed c :: log) := by
  refine ⟨?_, ?_, ?_⟩
  · intro token n hmem
    exact h.discarded ((List.mem_cons.mp hmem).resolve_left (by simp))
  · intro i hmem
    exact h.swept ((List.mem_cons.mp hmem).resolve_left (by simp))
  · intro c' hmem hc'
    rcases List.mem_cons.mp hmem with heq | hmem
    · cases heq
      exact ⟨t, ht, htoken, hs⟩
    · exact h.fetched hmem hc'

end BlobRegistry

end PanelAssistant
