import PanelAssistant.Blobs.Invariant

/-!
# Transfers over any run

Each call keeps the invariants of the transfers, and a run whose drawn tokens are distinct
keeps them from the empty registry on (`blobsOk_run`). What they say of a whole run is that
tokens work once, for their own party, within their lifetime (`TokensWorkOnce`).
-/

namespace PanelAssistant

open Library Slots

namespace BlobRegistry

structure BlobsOk (x : BlobRegistry) : Prop where
  held : HeldOk x.minted x.transfers
  claims : ClaimsOk x.minted x.log
  uploads : UploadsOk x.minted x.receptions x.log
  gone : GoneOk x.minted x.log

variable {x : BlobRegistry}

/-! ## What the calls are made of -/

theorem BlobsOk.responded (h : BlobsOk x) (response : BlobResponse) :
    BlobsOk (x.note (.responded response)) :=
  ⟨h.held, h.claims.note fun _ => rfl, h.uploads.note (fun _ => rfl) (fun _ => nofun),
    h.gone.note rfl⟩

theorem BlobsOk.touch (h : BlobsOk x) {i : Nat} {f : BlobTransfer → BlobTransfer}
    (hf : ∀ t, x.minted[i]? = some t →
      t.Advances (f t) ∧ t.Quiet (f t) ∧ (f t).sweep = t.sweep) :
    BlobsOk (x.setTransfer i f) := by
  have hfollows : Follows BlobTransfer.Advances x.minted (x.minted.modify i f) :=
    .modify .refl fun t ht => (hf t ht).1
  exact ⟨h.held.touch fun t ht => ⟨(hf t ht).1, (hf t ht).2.2⟩, h.claims.advance hfollows,
    h.uploads.touch fun t ht => ⟨(hf t ht).1, (hf t ht).2.1⟩, h.gone.advance hfollows⟩

/-- A transfer leaves the dictionary and the sweep is cancelled. -/
theorem BlobsOk.drop (h : BlobsOk x) {token : String} {i : Nat}
    (hi : x.transfers.get? token = some i) {f : BlobTransfer → BlobTransfer}
    (hf : ∀ t, x.minted[i]? = some t → t.Advances (f t) ∧ t.Quiet (f t) ∧
      (f t).sweep = false ∧ ∀ g, (f t).received = some g → g.done = true) :
    BlobsOk { x with transfers := x.transfers.pop token, minted := x.minted.modify i f } := by
  have hfollows : Follows BlobTransfer.Advances x.minted (x.minted.modify i f) :=
    .modify .refl fun t ht => (hf t ht).1
  exact ⟨h.held.drop hi fun t ht => ⟨(hf t ht).1, (hf t ht).2.2⟩, h.claims.advance hfollows,
    h.uploads.touch fun t ht => ⟨(hf t ht).1, (hf t ht).2.1⟩, h.gone.advance hfollows⟩

theorem find?_eq_some {token : String} {i : Nat} {t : BlobTransfer} :
    x.find? token = some (i, t) ↔ x.transfers.get? token = some i ∧ x.minted[i]? = some t := by
  simp only [find?]
  cases x.transfers.get? token with
  | none => simp
  | some j =>
    simp only [Option.map_eq_some_iff, Prod.mk.injEq, Option.some.injEq]
    constructor
    · rintro ⟨t', ht', rfl, rfl⟩
      exact ⟨rfl, ht'⟩
    · rintro ⟨rfl, ht⟩
      exact ⟨t, ht, rfl, rfl⟩

theorem HeldOk.found {minted : List BlobTransfer} {transfers : Dict String Nat}
    (h : HeldOk minted transfers) {token : String} {i : Nat} {t : BlobTransfer}
    (hi : transfers.get? token = some i) (ht : minted[i]? = some t) :
    t.token = token ∧ t.sweep = true := by
  obtain ⟨t', ht', htoken, hsweep⟩ := (h.held token i).mp hi
  obtain rfl : t' = t := Option.some.inj (ht'.symm.trans ht)
  exact ⟨htoken, hsweep⟩

theorem HeldOk.swept_of_absent {minted : List BlobTransfer} {transfers : Dict String Nat}
    (h : HeldOk minted transfers) {token : String} (habsent : transfers.get? token = none)
    {t : BlobTransfer} (ht : t ∈ minted) (htoken : t.token = token) : t.sweep = false := by
  obtain ⟨i, hi⟩ := List.mem_iff_getElem?.mp ht
  cases hsweep : t.sweep with
  | false => rfl
  | true =>
    have := (h.held token i).mpr ⟨t, hi, htoken, hsweep⟩
    rw [habsent] at this
    cases this

/-! ## Minting -/

theorem BlobsOk.mint (h : BlobsOk x) {t : BlobTransfer}
    (hfresh : t.token ∉ x.minted.map (·.token))
    (hopen : ∀ f, t.received = some f → f = .pending) : BlobsOk (x.mint t) := by
  have hfollows : Follows BlobTransfer.Advances x.minted (x.minted ++ [{ t with sweep := true }]) :=
    .concat .refl _
  exact ⟨h.held.mint (t := { t with sweep := true }) hfresh rfl, h.claims.advance hfollows,
    h.uploads.mint hopen, h.gone.advance hfollows⟩

/-! ## Discarding -/

theorem advances_dropped (t : BlobTransfer) :
    t.Advances { t with sweep := false, received := t.received.map (·.cancel) } := by
  refine ⟨rfl, rfl, rfl, rfl, rfl, Option.isSome_map, fun h => h, fun _ => rfl, ?_⟩
  intro f hf hdone
  exact BlobTransfer.received_map_cancel hf hdone

theorem discard_of_absent {token : String} (h : x.transfers.get? token = none) :
    x.discard token = x.note (.discarded token x.minted.length) := by
  simp only [discard, note, h]

theorem discard_of_held {token : String} {i : Nat} (h : x.transfers.get? token = some i) :
    x.discard token =
      { x with
        transfers := x.transfers.pop token
        minted := x.minted.modify i fun t =>
          { t with sweep := false, received := t.received.map (·.cancel) }
        log := .discarded token x.minted.length :: x.log } := by
  simp only [discard, note, h, forget, setTransfer, List.modify_modify_eq]
  rfl

theorem log_discard (x : BlobRegistry) (token : String) :
    (x.discard token).log = .discarded token x.minted.length :: x.log := by
  cases h : x.transfers.get? token with
  | none => rw [discard_of_absent h]; rfl
  | some i => rw [discard_of_held h]

theorem follows_discard (x : BlobRegistry) (token : String) :
    Follows BlobTransfer.Advances x.minted (x.discard token).minted := by
  cases h : x.transfers.get? token with
  | none => rw [discard_of_absent h]; exact fun _ t ht => ⟨t, ht, .refl t⟩
  | some i => rw [discard_of_held h]; exact .modify .refl fun t _ => advances_dropped t

theorem get?_discard (x : BlobRegistry) (token : String) :
    (x.discard token).transfers.get? token = none := by
  cases h : x.transfers.get? token with
  | none => rw [discard_of_absent h]; exact h
  | some i => rw [discard_of_held h]; simp

theorem BlobsOk.dropped (h : BlobsOk x) {token : String} {i : Nat}
    (hi : x.transfers.get? token = some i) :
    BlobsOk { x with
      transfers := x.transfers.pop token
      minted := x.minted.modify i fun t =>
        { t with sweep := false, received := t.received.map (·.cancel) } } := by
  refine h.drop hi fun t _ => ⟨advances_dropped t, Or.inr rfl, rfl, ?_⟩
  intro g hg
  obtain ⟨f, -, rfl⟩ := Option.map_eq_some_iff.mp hg
  exact f.done_cancel

theorem BlobsOk.discarded (h : BlobsOk x) {token : String}
    (habsent : x.transfers.get? token = none) :
    BlobsOk (x.note (.discarded token x.minted.length)) :=
  ⟨h.held, h.claims.note fun _ => rfl, h.uploads.note (fun _ => rfl) (fun _ => nofun),
    h.gone.discard fun ht => h.held.swept_of_absent habsent ht⟩

theorem BlobsOk.swept (h : BlobsOk x) {i : Nat} {t : BlobTransfer} (ht : x.minted[i]? = some t)
    (hsweep : t.sweep = false) : BlobsOk (x.note (.swept i)) :=
  ⟨h.held, h.claims.note fun _ => rfl, h.uploads.note (fun _ => rfl) (fun _ => nofun),
    h.gone.sweep ht hsweep⟩

theorem BlobsOk.discard (h : BlobsOk x) (token : String) : BlobsOk (x.discard token) := by
  cases hget : x.transfers.get? token with
  | none =>
    rw [discard_of_absent hget]
    exact h.discarded hget
  | some i =>
    have h' := @BlobsOk.discarded _ (h.dropped hget) token (by simp)
    simp only [List.length_modify] at h'
    rw [discard_of_held hget]
    exact h'

/-! ## Claims -/

/-- A claim fails and changes nothing, or uses up a transfer that was free for it. -/
theorem claim_cases (x : BlobRegistry) (token userId : String) (upload : Bool)
    (entryId : Option String) :
    x.claim token userId upload entryId = (none, x) ∨
    ∃ i t, x.transfers.get? token = some i ∧ x.minted[i]? = some t ∧ t.used = false ∧
      x.now < t.expires ∧ t.received.isSome = upload ∧
      admits x.entries t userId entryId = true ∧
      x.claim token userId upload entryId = (some (i, t),
        if upload then x.setTransfer i fun t => { t with used := true }
        else (x.setTransfer i fun t => { t with used := true }).discard token) := by
  simp only [claim]
  cases hfind : x.find? token with
  | none => exact Or.inl rfl
  | some found =>
    obtain ⟨i, t⟩ := found
    obtain ⟨hi, ht⟩ := find?_eq_some.mp hfind
    by_cases hfree : (t.used || decide (t.expires ≤ x.now) || t.received.isSome != upload) = true
    · exact Or.inl (if_pos hfree)
    by_cases hparty : admits x.entries t userId entryId = true
    · refine Or.inr ⟨i, t, hi, ht, ?_⟩
      simp only [Bool.or_eq_true, decide_eq_true_eq, bne_iff_ne, ne_eq, not_or, not_not,
        Bool.not_eq_true, Nat.not_le] at hfree
      obtain ⟨⟨hused, htime⟩, hdir⟩ := hfree
      refine ⟨hused, htime, hdir, hparty, ?_⟩
      simp [hused, htime, hdir, hparty]
    · refine Or.inl ?_
      simp [hparty]

theorem admits_iff {entries : Dict String (Option String)} {t : BlobTransfer} {userId : String}
    {entryId : Option String} (h : admits entries t userId entryId = true) :
    (entryId = none → t.userId = none ∧ entries.get? t.entryId = some (some userId)) ∧
      ∀ e, entryId = some e → t.entryId = e ∧ t.userId = some userId := by
  cases entryId with
  | none =>
    simp only [admits, Bool.and_eq_true, Option.isNone_iff_eq_none] at h
    refine ⟨fun _ => ⟨h.1, ?_⟩, fun _ he => by cases he⟩
    have hbound := h.2
    cases hget : entries.get? t.entryId with
    | none => simp [hget] at hbound
    | some bound =>
      simp only [hget, beq_iff_eq] at hbound
      rw [hbound]
  | some e =>
    simp only [admits, Bool.and_eq_true, beq_iff_eq] at h
    refine ⟨(fun he => by cases he), ?_⟩
    rintro _ ⟨⟩
    exact ⟨h.2, h.1⟩

theorem BlobsOk.use (h : BlobsOk x) (i : Nat) :
    BlobsOk (x.setTransfer i fun t => { t with used := true }) :=
  h.touch fun _ _ => ⟨⟨rfl, rfl, rfl, rfl, rfl, rfl, fun _ => rfl, fun h => h, fun _ h _ => h⟩,
    Or.inl rfl, rfl⟩

theorem BlobsOk.get (h : BlobsOk x) (token userId : String) (entryId : Option String) :
    BlobsOk (x.get token userId entryId) := by
  rcases x.claim_cases token userId false entryId with
    heq | ⟨i, t, hi, ht, hunused, htime, hdir, hparty, heq⟩
  · simp only [BlobRegistry.get, heq]
    exact h.responded _
  · simp only [BlobRegistry.get, heq, Bool.false_eq_true, if_false]
    obtain ⟨htoken, -⟩ := h.held.found hi ht
    have hnone := h.claims.countP_eq_zero h.held (List.mem_of_getElem? ht) hunused
    let c : BlobClaim := ⟨token, userId, false, entryId, x.now, x.entries⟩
    let z := x.setTransfer i fun t => { t with used := true }
    have hz : BlobsOk (z.discard token) := (h.use i).discard token
    obtain ⟨t', ht', ha⟩ := z.follows_discard token i _ (modify_self ht)
    have hmem : t' ∈ (z.discard token).minted := List.mem_of_getElem? ht'
    have htoken' : t'.token = token := ha.token.trans htoken
    have hused : Claimed { t with used := true } c :=
      ⟨htoken, rfl, htime, hdir, (admits_iff hparty).1, (admits_iff hparty).2⟩
    have hcount : (z.discard token).log.countP (·.claims t'.token) = 0 := by
      rw [z.log_discard, List.countP_cons_of_neg (by simp [BlobNote.claims]), htoken', ← htoken]
      exact hnone
    refine BlobsOk.responded (x := (z.discard token).note (.claimed c)) ?_ _
    exact ⟨hz.held, hz.claims.claim hmem (hused.advance ha) hcount,
      hz.uploads.note (fun _ => rfl) (fun _ h => by cases h),
      hz.gone.fetch hmem htoken' (hz.held.swept_of_absent (z.get?_discard token) hmem htoken')⟩

theorem BlobsOk.put (h : BlobsOk x) (token userId : String) (entryId : Option String) :
    BlobsOk (x.put token userId entryId) := by
  rcases x.claim_cases token userId true entryId with
    heq | ⟨i, t, hi, ht, hunused, htime, hdir, hparty, heq⟩
  · simp only [BlobRegistry.put, heq]
    exact h.responded _
  · obtain ⟨f, hf⟩ := Option.isSome_iff_exists.mp hdir
    simp only [BlobRegistry.put, heq, if_true, hf]
    obtain ⟨htoken, -⟩ := h.held.found hi ht
    have hnone := h.claims.countP_eq_zero h.held (List.mem_of_getElem? ht) hunused
    -- A reception holds a used transfer, so none holds this one.
    have hfree : ∀ c ∈ x.receptions, c.transfer ≠ i := by
      rintro c hc rfl
      obtain ⟨r, hr⟩ := List.mem_iff_getElem?.mp hc
      obtain ⟨t', _, hreceives⟩ := h.uploads.reception hr
      obtain rfl : t' = t := Option.some.inj (hreceives.transfer.symm.trans ht)
      rw [hreceives.used] at hunused
      cases hunused
    have hz := h.use i
    have ht' := modify_self (f := fun t => { t with used := true }) ht
    have hclaimed : Claimed { t with used := true }
        ⟨token, userId, true, entryId, x.now, x.entries⟩ :=
      ⟨htoken, rfl, htime, hdir, (admits_iff hparty).1, (admits_iff hparty).2⟩
    exact ⟨hz.held, hz.claims.claim (List.mem_of_getElem? ht') hclaimed hnone,
      (hz.uploads.receive ht' rfl hf (h.uploads.unused ht hunused hf) hfree).note (fun _ => rfl)
        (fun _ => nofun), hz.gone.note rfl⟩

/-- A `take` hands out nothing, or the bytes of a received upload to its own browser. -/
theorem take_cases (x : BlobRegistry) (token entryId userId : String) :
    x.take token entryId userId = (none, x) ∨
    ∃ i t data, x.transfers.get? token = some i ∧ x.minted[i]? = some t ∧
      t.received = some (.result data) ∧ t.entryId = entryId ∧ t.userId = some userId ∧
      x.take token entryId userId = (some data, x.forget token i) := by
  simp only [take]
  cases hfind : x.find? token with
  | none => exact Or.inl rfl
  | some found =>
    obtain ⟨i, t⟩ := found
    obtain ⟨hi, ht⟩ := find?_eq_some.mp hfind
    simp only
    split
    · rename_i data hdata
      by_cases hother : t.entryId ≠ entryId ∨ t.userId ≠ some userId
      · exact Or.inl (if_pos hother)
      rw [if_neg hother]
      simp only [ne_eq, not_or, not_not] at hother
      exact Or.inr ⟨i, t, data, hi, ht, hdata, hother.1, hother.2, rfl⟩
    · exact Or.inl rfl

theorem BlobsOk.take (h : BlobsOk x) {token entryId userId : String} {i : Nat}
    {t : BlobTransfer} {data : List UInt8} (hi : x.transfers.get? token = some i)
    (ht : x.minted[i]? = some t) (hdata : t.received = some (.result data))
    (hentry : t.entryId = entryId) (huser : t.userId = some userId) :
    BlobsOk ((x.forget token i).note (.taken token entryId userId data)) := by
  obtain ⟨htoken, hsweep⟩ := h.held.found hi ht
  have hnone := h.uploads.countP_eq_zero h.held (List.mem_of_getElem? ht) hsweep
  have hz := h.drop (f := fun t => { t with sweep := false }) hi fun t' ht' => by
    obtain rfl : t' = t := Option.some.inj (ht'.symm.trans ht)
    refine ⟨⟨rfl, rfl, rfl, rfl, rfl, rfl, fun h => h, fun _ => rfl, fun _ h _ => h⟩,
      Or.inl rfl, rfl, ?_⟩
    intro g hg
    obtain rfl : g = .result data := Option.some.inj (hg.symm.trans hdata)
    rfl
  exact ⟨hz.held, hz.claims.note fun _ => rfl,
    hz.uploads.take (List.mem_of_getElem? (modify_self ht))
      ⟨htoken, hentry, huser, hdata, rfl⟩ (htoken ▸ hnone), hz.gone.note rfl⟩

/-! ## Receiving -/

theorem BlobsOk.proceed (h : BlobsOk x) {r : Nat} {g : Reception → Reception}
    (hg : ∀ c t, x.receptions[r]? = some c → x.minted[c.transfer]? = some t →
      Reception.Proceeds t.maxBytes c (g c)) : BlobsOk (x.setReception r g) :=
  ⟨h.held, h.claims, h.uploads.proceed hg, h.gone⟩

theorem BlobsOk.respond (h : BlobsOk x) (r : Nat) (response : BlobResponse) :
    BlobsOk (x.respond r response) := by
  refine BlobsOk.responded (x := BlobRegistry.setReception _ r _) (h.proceed ?_) response
  exact fun _ _ _ _ => ⟨rfl, nofun, nofun, fun _ => rfl⟩

/-- A reception that runs, with the transfer it holds. -/
structure Runs (x : BlobRegistry) (r : Nat) (c : Reception) (t : BlobTransfer)
    (f : UploadFuture) : Prop where
  reception : x.receptions[r]? = some c
  running : c.running = true
  transfer : x.minted[c.transfer]? = some t
  received : t.received = some f
  waits : f = .pending ∨ f = .cancelled

theorem BlobsOk.runs (h : BlobsOk x) {r : Nat} {c : Reception}
    (hc : x.receptions[r]? = some c) (hrun : c.running = true) : ∃ t f, Runs x r c t f := by
  obtain ⟨t, f, hr⟩ := h.uploads.reception hc
  exact ⟨t, f, hc, hrun, hr.transfer, hr.received, hr.waits hrun⟩

theorem Runs.future {r : Nat} {c : Reception} {t : BlobTransfer} {f : UploadFuture}
    (h : Runs x r c t f) : x.future? c.transfer = some f := by
  rw [future?, h.transfer]
  exact h.received

/-- A running reception ends and sets the open future of its transfer; `g` is what happened
to the reception just before. -/
theorem BlobsOk.settle (h : BlobsOk x) {r : Nat} {c : Reception} {t : BlobTransfer}
    (hr : Runs x r c t .pending) {f : UploadFuture} (g : Reception → Reception)
    (hg : (g c).transfer = c.transfer)
    (hresult : ∀ data, f = .result data → data = c.body ∧ (g c).body = c.body)
    (response : BlobResponse) :
    BlobsOk ((x.setReception r g).settle r c.transfer f response) := by
  have hset : (x.setReception r g).setFuture c.transfer f =
      some ((x.setReception r g).setTransfer c.transfer
        fun t => { t with received := some f }) := by
    have hfuture : (x.setReception r g).minted[c.transfer]?.bind (·.received) = some .pending :=
      hr.future
    simp only [setFuture, hfuture]
  simp only [BlobRegistry.settle, hset]
  have hadv : ∀ t', x.minted[c.transfer]? = some t' →
      t'.Advances { t' with received := some f } := by
    intro t' ht'
    obtain rfl : t' = t := Option.some.inj (ht'.symm.trans hr.transfer)
    refine ⟨rfl, rfl, rfl, rfl, rfl, by rw [hr.received]; rfl, fun h => h, fun h => h, ?_⟩
    intro f' hf' hdone
    rw [hr.received, Option.some.injEq] at hf'
    subst hf'
    cases hdone
  have hfollows : Follows BlobTransfer.Advances x.minted _ := .modify .refl hadv
  refine BlobsOk.responded (x := BlobRegistry.setReception _ r _) ?_ response
  refine ⟨h.held.touch fun t' ht' => ⟨hadv t' ht', rfl⟩, h.claims.advance hfollows, ?_,
    h.gone.advance hfollows⟩
  let e : Reception → Reception :=
    (fun c => { c with running := false, response := some response }) ∘ g
  have := h.uploads.settle (f := f) (g := e) hr.reception hr.running hr.transfer hr.received hg
    rfl hresult
  simpa [e, setReception, setTransfer, List.modify_modify_eq] using this

/-- The `except` branches: the future is set to the error, unless its caller gave up. -/
theorem BlobsOk.failReception (h : BlobsOk x) {r : Nat} {c : Reception} {t : BlobTransfer}
    {f : UploadFuture} (hr : Runs x r c t f) (g : Reception → Reception)
    (hg : (g c).transfer = c.transfer) (hbody : c.running = false → (g c).body = c.body)
    (reason : String) (response : BlobResponse) :
    BlobsOk ((x.setReception r g).failReception r c.transfer reason response) := by
  have hfuture : (x.setReception r g).future? c.transfer = some f := hr.future
  rcases hr.waits with rfl | rfl
  · simp only [BlobRegistry.failReception, hfuture, Option.any_some, UploadFuture.done, ne_eq,
      not_true_eq_false, decide_false, Bool.false_eq_true, if_false]
    exact h.settle hr g hg (fun _ hfailed => by cases hfailed) response
  · simp only [BlobRegistry.failReception, hfuture, Option.any_some, UploadFuture.done, ne_eq,
      reduceCtorEq, not_false_eq_true, decide_true, if_true]
    refine BlobsOk.responded (x := BlobRegistry.setReception _ r _) ?_ response
    let e : Reception → Reception :=
      (fun c => { c with running := false, response := some response }) ∘ g
    have : BlobsOk (x.setReception r e) := by
      refine h.proceed ?_
      intro c' t' hc' ht'
      obtain rfl : c' = c := Option.some.inj (hc'.symm.trans hr.reception)
      exact ⟨hg, (fun h => by cases h), (fun h => by cases h), hbody⟩
    simpa [e, setReception, List.modify_modify_eq] using this

theorem BlobsOk.chunk (h : BlobsOk x) (r : Nat) (bytes : List UInt8) :
    BlobsOk (x.chunk r bytes) := by
  simp only [BlobRegistry.chunk]
  split
  · rename_i i body response hc
    obtain ⟨t, f, hr⟩ := h.runs hc rfl
    split
    · exact h.failReception hr (fun c => { c with body := body ++ bytes }) rfl nofun _ _
    · rename_i hfits
      refine h.proceed ?_
      intro c' t' hc' ht'
      obtain rfl := Option.some.inj (hc'.symm.trans hc)
      have hfits' : ¬ t'.maxBytes < (body ++ bytes).length := by
        rw [show (x.setReception r fun c => { c with body := body ++ bytes }).minted[i]? = some t'
          from ht'] at hfits
        simpa using hfits
      exact ⟨rfl, fun _ => rfl, fun _ => Nat.not_lt.mp hfits', nofun⟩
  · exact h

theorem setReception_id (x : BlobRegistry) (r : Nat) : x.setReception r id = x := by
  simp [setReception]

theorem BlobsOk.interrupt (h : BlobsOk x) (r : Nat) : BlobsOk (x.interrupt r) := by
  simp only [BlobRegistry.interrupt]
  split
  · rename_i i body response hc
    obtain ⟨t, f, hr⟩ := h.runs hc rfl
    have := h.failReception hr id rfl nofun "upload interrupted" .badRequest
    rwa [setReception_id] at this
  · exact h

theorem BlobsOk.finish (h : BlobsOk x) (sha256 : List UInt8 → String) (r : Nat) :
    BlobsOk (x.finish sha256 r) := by
  simp only [BlobRegistry.finish]
  split
  · rename_i i body response hc
    obtain ⟨t, f, hr⟩ := h.runs hc rfl
    rw [show x.future? i = some f from hr.future]
    rcases hr.waits with rfl | rfl
    · have := h.settle hr (f := .result body) id rfl
        (fun data hdata => ⟨(UploadFuture.result.inj hdata).symm, rfl⟩)
        (.stored body.length (sha256 body))
      rw [setReception_id] at this
      simpa using this
    · rw [if_pos rfl]
      exact h.respond r _
  · exact h

/-! ## Giving up and expiring -/

theorem BlobsOk.giveUp (h : BlobsOk x) (i : Nat) : BlobsOk (x.giveUp i) := by
  refine h.touch fun t _ => ⟨⟨rfl, rfl, rfl, rfl, rfl, Option.isSome_map, fun h => h, fun h => h,
    ?_⟩, Or.inr rfl, rfl⟩
  intro f hf hdone
  exact BlobTransfer.received_map_cancel hf hdone

theorem BlobsOk.expire (h : BlobsOk x) (i : Nat) : BlobsOk (x.expire i) := by
  simp only [BlobRegistry.expire]
  cases ht : x.minted[i]? with
  | none => exact h
  | some t =>
    cases hsweep : t.sweep with
    | false => simpa [hsweep] using h
    | true =>
      have hget : x.transfers.get? t.token = some i := (h.held.held _ _).mpr ⟨t, ht, rfl, hsweep⟩
      let y := (x.setTransfer i fun t => { t with sweep := false }).note (.swept i)
      have hgety : y.transfers.get? t.token = some i := hget
      have hdrop := h.dropped hget
      have hgone := @BlobsOk.discarded _ (hdrop.swept (modify_self ht) rfl) t.token (by simp [note])
      have hy : y.discard t.token =
          { x with
            transfers := x.transfers.pop t.token
            minted := x.minted.modify i fun t =>
              { t with sweep := false, received := t.received.map (·.cancel) }
            log := .discarded t.token x.minted.length :: .swept i :: x.log } := by
        rw [discard_of_held hgety]
        simp only [y, note, setTransfer, List.modify_modify_eq, List.length_modify]
        rfl
      simp only [hsweep, Bool.not_true, Bool.false_eq_true, if_false]
      rw [if_pos hgety]
      change BlobsOk (y.discard t.token)
      rw [hy]
      simpa [note] using hgone

/-! ## The tokens of the transfers -/

def tokens (x : BlobRegistry) : List String := x.minted.map (·.token)

theorem tokens_setTransfer (x : BlobRegistry) (i : Nat) {f : BlobTransfer → BlobTransfer}
    (hf : ∀ t, (f t).token = t.token) : (x.setTransfer i f).tokens = x.tokens :=
  map_modify fun t _ => hf t

theorem tokens_discard (x : BlobRegistry) (token : String) :
    (x.discard token).tokens = x.tokens := by
  cases h : x.transfers.get? token with
  | none => rw [discard_of_absent h]; rfl
  | some i => rw [discard_of_held h]; exact map_modify fun _ _ => rfl

theorem tokens_use (x : BlobRegistry) (i : Nat) :
    (x.setTransfer i fun t => { t with used := true }).tokens = x.tokens :=
  x.tokens_setTransfer i fun _ => rfl

theorem tokens_get (x : BlobRegistry) (token userId : String) (entryId : Option String) :
    (x.get token userId entryId).tokens = x.tokens := by
  rcases x.claim_cases token userId false entryId with
    heq | ⟨i, t, -, -, -, -, -, -, heq⟩
  · simp only [BlobRegistry.get, heq]
    rfl
  · simp only [BlobRegistry.get, heq, Bool.false_eq_true, if_false]
    exact (tokens_discard _ token).trans (x.tokens_use i)

theorem tokens_put (x : BlobRegistry) (token userId : String) (entryId : Option String) :
    (x.put token userId entryId).tokens = x.tokens := by
  rcases x.claim_cases token userId true entryId with
    heq | ⟨i, t, -, -, -, -, hdir, -, heq⟩
  · simp only [BlobRegistry.put, heq]
    rfl
  · obtain ⟨f, hf⟩ := Option.isSome_iff_exists.mp hdir
    simp only [BlobRegistry.put, heq, if_true, hf]
    exact x.tokens_use i

theorem tokens_settle (x : BlobRegistry) (r i : Nat) (f : UploadFuture)
    (response : BlobResponse) : (x.settle r i f response).tokens = x.tokens := by
  simp only [settle, setFuture]
  cases x.minted[i]?.bind (·.received) with
  | none => rfl
  | some g =>
    cases g with
    | pending => exact x.tokens_setTransfer i fun _ => rfl
    | _ => rfl

theorem tokens_failReception (x : BlobRegistry) (r i : Nat) (reason : String)
    (response : BlobResponse) : (x.failReception r i reason response).tokens = x.tokens := by
  simp only [failReception]
  split
  · rfl
  · exact x.tokens_settle r i _ response

theorem tokens_chunk (x : BlobRegistry) (r : Nat) (bytes : List UInt8) :
    (x.chunk r bytes).tokens = x.tokens := by
  simp only [chunk]
  split
  · split
    · exact tokens_failReception _ r _ _ _
    · rfl
  · rfl

theorem tokens_interrupt (x : BlobRegistry) (r : Nat) : (x.interrupt r).tokens = x.tokens := by
  simp only [interrupt]
  split
  · exact x.tokens_failReception r _ _ _
  · rfl

theorem tokens_finish (sha256 : List UInt8 → String) (x : BlobRegistry) (r : Nat) :
    (x.finish sha256 r).tokens = x.tokens := by
  simp only [finish]
  split
  · split
    · rfl
    · exact x.tokens_settle r _ _ _
  · rfl

theorem tokens_expire (x : BlobRegistry) (i : Nat) : (x.expire i).tokens = x.tokens := by
  simp only [expire]
  split
  · rfl
  · split
    · rfl
    · split
      · exact (tokens_discard _ _).trans (x.tokens_setTransfer i fun _ => rfl)
      · exact x.tokens_setTransfer i fun _ => rfl

theorem tokens_step (sha256 : List UInt8 → String) (x : BlobRegistry) (m : BlobMove) :
    (step sha256 x m).tokens = x.tokens ++ m.token?.toList := by
  cases m with
  | download => exact List.map_append
  | upload => exact List.map_append
  | take token entryId userId =>
    refine Eq.trans ?_ (List.append_nil _).symm
    rcases x.take_cases token entryId userId with heq | ⟨i, t, data, -, -, -, -, -, heq⟩
    · simp only [step, heq]
    · simp only [step, heq]
      exact tokens_setTransfer _ i fun _ => rfl
  | get token userId entryId => simp [step, tokens_get, BlobMove.token?]
  | put token userId entryId => simp [step, tokens_put, BlobMove.token?]
  | discard token => simp [step, tokens_discard, BlobMove.token?]
  | chunk r bytes => simp [step, tokens_chunk, BlobMove.token?]
  | finish r => simp [step, tokens_finish, BlobMove.token?]
  | interrupt r => simp [step, tokens_interrupt, BlobMove.token?]
  | expire i => simp [step, tokens_expire, BlobMove.token?]
  | giveUp i =>
    refine Eq.trans (x.tokens_setTransfer i ?_) (List.append_nil _).symm
    exact fun _ => rfl
  | _ => exact (List.append_nil _).symm

/-! ## Runs -/

theorem BlobsOk.step (h : BlobsOk x) (sha256 : List UInt8 → String) (m : BlobMove)
    (hfresh : ∀ token, m.token? = some token → token ∉ x.tokens) :
    BlobsOk (step sha256 x m) := by
  cases m with
  | download token entryId data contentType userId =>
    exact h.mint (hfresh token rfl) nofun
  | upload token entryId maxBytes userId =>
    exact h.mint (hfresh token rfl) fun f hf => (Option.some.inj hf).symm
  | get token userId entryId => exact h.get token userId entryId
  | put token userId entryId => exact h.put token userId entryId
  | take token entryId userId =>
    rcases x.take_cases token entryId userId with
      heq | ⟨i, t, data, hi, ht, hdata, hentry, huser, heq⟩
    · simp only [BlobRegistry.step, heq]
      exact h
    · simp only [BlobRegistry.step, heq]
      exact h.take hi ht hdata hentry huser
  | discard token => exact h.discard token
  | chunk r bytes => exact h.chunk r bytes
  | finish r => exact h.finish sha256 r
  | interrupt r => exact h.interrupt r
  | abandon r => exact h.proceed fun _ _ _ _ => ⟨rfl, nofun, nofun, fun _ => rfl⟩
  | giveUp i => exact h.giveUp i
  | expire i => exact h.expire i
  | bindUser entryId userId => exact ⟨h.held, h.claims, h.uploads, h.gone⟩
  | removeEntry entryId => exact ⟨h.held, h.claims, h.uploads, h.gone⟩
  | tick n => exact ⟨h.held, h.claims, h.uploads, h.gone⟩

theorem blobsOk_initial : BlobsOk initial :=
  ⟨⟨List.nodup_nil, by simp [initial], nofun⟩, ⟨nofun, fun _ => Nat.zero_le _⟩,
    ⟨nofun, nofun, nofun, nofun, nofun, fun _ => Nat.zero_le _, nofun⟩, ⟨nofun, nofun, nofun⟩⟩

/-- From a registry whose tokens, together with those still to be drawn, are distinct. -/
theorem BlobsOk.run (h : BlobsOk x) (sha256 : List UInt8 → String) (moves : List BlobMove)
    (hdistinct : (x.tokens ++ moves.filterMap (·.token?)).Nodup) :
    BlobsOk (Library.Runs.run (BlobRegistry.step sha256) x moves) := by
  induction moves generalizing x with
  | nil => exact h
  | cons m rest ih =>
    have hcons : (m :: rest).filterMap (·.token?) =
        m.token?.toList ++ rest.filterMap (·.token?) := by
      cases hm : m.token? <;> simp [hm]
    rw [hcons, ← List.append_assoc] at hdistinct
    refine ih (h.step sha256 m ?_) ?_
    · intro token htoken hmem
      have hdisjoint := (List.nodup_append.mp (List.nodup_append.mp hdistinct).1).2.2
      exact hdisjoint token hmem token (by simp [htoken]) rfl
    · rw [tokens_step]
      exact hdistinct

/-! ## Tokens work once -/

/-- Nothing of the transfer is left: the registry does not hold it, no sweep does, and no
one waits for its future. -/
structure Forgotten (x : BlobRegistry) (i : Nat) (t : BlobTransfer) : Prop where
  absent : ∀ token, x.transfers.get? token ≠ some i
  unswept : t.sweep = false
  settled : ∀ f, t.received = some f → f.done = true

theorem HeldOk.forgotten (h : HeldOk x.minted x.transfers) {i : Nat} {t : BlobTransfer}
    (ht : x.minted[i]? = some t) (hsweep : t.sweep = false) : Forgotten x i t := by
  refine ⟨?_, hsweep, h.settled ht hsweep⟩
  intro token hget
  have := (h.found hget ht).2
  rw [hsweep] at this
  cases this

structure TokensWorkOnce (x : BlobRegistry) : Prop where
  distinct : x.tokens.Nodup
  claimedOnce : ∀ token, x.log.countP (·.claims token) ≤ 1
  claimed : ∀ {c : BlobClaim}, .claimed c ∈ x.log → ∃ t ∈ x.minted, Claimed t c
  takenOnce : ∀ token, x.log.countP (·.takes token) ≤ 1
  taken : ∀ {token entryId userId : String} {data : List UInt8},
    .taken token entryId userId data ∈ x.log → ∃ (i : Nat) (t : BlobTransfer) (c : Reception),
      x.minted[i]? = some t ∧ Taken t token entryId userId data ∧
        Filled x.receptions i t data c
  futures : ∀ i, .invalidState i ∉ x.log
  discarded : ∀ {token : String} {n i : Nat} {t : BlobTransfer}, .discarded token n ∈ x.log →
    i < n → x.minted[i]? = some t → t.token = token → Forgotten x i t
  swept : ∀ {i : Nat}, .swept i ∈ x.log → ∃ t, x.minted[i]? = some t ∧ Forgotten x i t

theorem BlobsOk.tokensWorkOnce (h : BlobsOk x) : TokensWorkOnce x where
  distinct := h.held.tokens
  claimedOnce := h.claims.once
  claimed := h.claims.claimed
  takenOnce := h.uploads.once
  taken := by
    intro token entryId userId data hmem
    obtain ⟨t, ht, htaken⟩ := h.uploads.taken hmem
    obtain ⟨i, hi⟩ := List.mem_iff_getElem?.mp ht
    obtain ⟨c, hc⟩ := h.uploads.filled hi htaken.result
    exact ⟨i, t, c, hi, htaken, hc⟩
  futures := h.uploads.valid
  discarded := by
    intro token n i t hmem hi ht htoken
    exact h.held.forgotten ht ((h.gone.discarded hmem).2 hi ht htoken)
  swept := by
    intro i hmem
    obtain ⟨t, ht, hsweep⟩ := h.gone.swept hmem
    exact ⟨t, ht, h.held.forgotten ht hsweep⟩

/-- In any run with distinct tokens, tokens work once, for their own party, in time. -/
theorem blob_tokens_work_once (sha256 : List UInt8 → String) (moves : List BlobMove)
    (hdistinct : (moves.filterMap (·.token?)).Nodup) : TokensWorkOnce (run sha256 moves) :=
  (blobsOk_initial.run sha256 moves hdistinct).tokensWorkOnce

/-- A browser fills a slot and its bytes are taken; a panel fetches an app that is then
asked for again; a slot nobody fills expires. -/
def onceMoves : List BlobMove :=
  [.upload "slot" "kitchen" 4 (some "admin"), .bindUser "kitchen" (some "panel"),
    .download "app" "kitchen" [7, 8] "application/zip" none, .tick 5,
    .put "slot" "admin" (some "kitchen"), .chunk 0 [1, 2], .chunk 0 [3], .finish 0,
    .take "slot" "kitchen" "admin", .take "slot" "kitchen" "admin",
    .get "app" "panel" none, .get "app" "panel" none,
    .upload "late" "kitchen" 4 none, .put "late" "panel" none, .chunk 1 [1, 2, 3, 4, 5],
    .expire 2, .discard "late"]

theorem blob_tokens_work_once_taken :
    (run (fun _ => "") onceMoves).log.countP (·.claims "slot") = 1 ∧
      (run (fun _ => "") onceMoves).log.countP (·.takes "slot") = 1 ∧
      TokensWorkOnce (run (fun _ => "") onceMoves) :=
  ⟨rfl, rfl, blob_tokens_work_once (fun _ => "") onceMoves (by decide)⟩

end BlobRegistry

end PanelAssistant
