import PanelAssistant.InstallJobs.Details

/-!
# A save is atomic across the two files

A save is the list of its writes (`SavePlan.writes`): the union of the old and the new
details, the primary document, the new details alone. Every prefix of that list leaves
files that hold the old table or the new one (`stored_after_prefix`), and whatever
`_async_save_locked` does, it stops after some prefix (`saveLocked_disk`). A save that
succeeds has written the primary document and caches the new table; one that fails drops
the cache and every claim.
-/

namespace PanelAssistant

open Library

variable (P : Platform)

/-! ## Writes -/

/-- One atomic `Store` write. -/
inductive StoreWrite where
  | detail (document : Json)
  | primary (document : Json)

def Disk.apply (disk : Disk) : StoreWrite → Disk
  | .detail document => { disk with detail := some (wrapDocument detailStoreKey document) }
  | .primary document => { disk with primary := some (wrapDocument storeKey document) }

namespace SavePlan

def detailWrites (plan : SavePlan) : List StoreWrite :=
  (plan.detailDocument.map StoreWrite.detail).toList

/-- The writes of a save, in order. -/
def writes (plan : SavePlan) : List StoreWrite :=
  plan.detailWrites ++ .primary plan.document ::
    (plan.compactDocument.map StoreWrite.detail).toList

/-- The files after the first `k` writes. -/
def diskAfter (plan : SavePlan) (disk : Disk) (k : Nat) : Disk :=
  (plan.writes.take k).foldl Disk.apply disk

/-- The files once the primary document is written. -/
def primaryDisk (plan : SavePlan) (disk : Disk) : Disk :=
  (plan.detailWrites.foldl Disk.apply disk).apply (.primary plan.document)

end SavePlan

/-- What `planSave` has checked about its plan. -/
structure Planned (cached jobs : Jobs) (plan : SavePlan) : Prop where
  writable : Writable P jobs
  retained : plan.retained = detailsOf P jobs
  union : plan.details = (detailsOf P cached).update (detailsOf P jobs)
  reads : ∀ disk : Disk, ∃ read, readJobs P (disk.apply (.primary plan.document)) = .ok read ∧
    read.Same (jobs.map fun _ r => r.clearDetail)
  noDetail : plan.detailDocument = none → plan.details.entries = []
  detail : ∀ document, plan.detailDocument = some document →
    validatedDetailDocument plan.details = .ok document
  compact : ∀ document, plan.compactDocument = some document →
    validatedDetailDocument plan.retained = .ok document

theorem optionalDetailDocument_eq_ok {wanted : Bool} {details : Details} {document : Option Json}
    (h : optionalDetailDocument wanted details = .ok document) :
    (document = none → wanted = false) ∧
      ∀ d, document = some d → validatedDetailDocument details = .ok d := by
  unfold optionalDetailDocument at h
  split at h
  · cases hv : validatedDetailDocument details with
    | error e => simp [hv] at h
    | ok d =>
      simp only [hv, Functor.map, Except.map, Except.ok.injEq] at h
      subst h
      exact ⟨nofun, fun d' hd => by rw [Option.some.inj hd]⟩
  · cases h
    exact ⟨fun _ => by simp_all, nofun⟩

theorem planSave_planned {m : Manager} {io : SaveIo} {cached jobs : Jobs} {plan : SavePlan}
    (hcached : m.jobs = some cached) (h : planSave P m io jobs = .ok plan) :
    Planned P cached jobs plan := by
  simp only [planSave, bind_eq_ok, hcached, pure_eq_ok] at h
  obtain ⟨document, hdocument, _, _, stale, _, compact, hcompact, detail, hdetail, rfl⟩ := h
  obtain ⟨-, hsize, hwritable, verified, hparse, hsame⟩ :=
    validatedDocumentForSave_eq_ok P hdocument
  obtain ⟨hnone, hsome⟩ := optionalDetailDocument_eq_ok hdetail
  refine ⟨hwritable, rfl, rfl, fun disk => ⟨verified, ?_, hsame⟩, fun h => ?_, hsome,
    (optionalDetailDocument_eq_ok hcompact).2⟩
  · simp only [Disk.apply, readJobs, readDurable, if_pos hsize, parseStoreDocument,
      parseStoreBody_wrapDocument, ok_bind, hparse]
  · simpa using hnone h

/-! ## What each write leaves behind -/

section Writes

variable {P} {written : List InstallJobReceipt} {cached jobs candidate : Jobs} {plan : SavePlan}
  {disk : Disk}

theorem recorded_detailsOf (hsound : Sound P written jobs) :
    Recorded P written (detailsOf P jobs) := by
  intro key d hd
  obtain ⟨hkey, jobId, r, hr, hfor⟩ := (get?_detailsOf P hsound.keyed).mp hd
  refine ⟨r, hsound.written jobId r hr, hfor, hkey, ?_⟩
  by_contra hrun
  have hnone := (hsound.detail_none P hr hrun).1
  simp [detailFor, hnone] at hfor

theorem covers_detailsOf (hsound : Sound P written jobs) :
    Covers P (detailsOf P jobs) jobs := by
  intro jobId r d hr hfor
  exact (get?_detailsOf P hsound.keyed).mpr ⟨rfl, jobId, r, hr, hfor⟩

theorem Recorded.same {details details' : Details} (h : Recorded P written details)
    (hsame : details'.Same details) : Recorded P written details' :=
  fun key d hd => h key d (hsame key ▸ hd)

theorem Covers.same {details details' : Details} (h : Covers P details jobs)
    (hsame : details'.Same details) : Covers P details' jobs :=
  fun jobId r d hr hfor => (hsame _).trans (h jobId r d hr hfor)

/-- Receipts of two tables that stand under one id at one revision are the same, if the
new one has stopped. -/
def Agrees (cached candidate : Jobs) : Prop :=
  ∀ jobId r r', cached.get? jobId = some r → candidate.get? jobId = some r' → Stopped r' →
    r'.revision = r.revision → r' = r

/-- The union holds the details of the new table ... -/
theorem covers_union_new (hnew : Sound P written candidate) :
    Covers P ((detailsOf P cached).update (detailsOf P candidate)) candidate := by
  intro jobId r d hr hfor
  rw [Dict.get?_update, covers_detailsOf hnew jobId r d hr hfor]
  rfl

/-- ... and those of the old one: a new detail that took the place of an old one would have
the old receipt's id and revision. -/
theorem covers_union_old (hold : Sound P written cached) (hnew : Sound P written candidate)
    (hagrees : Agrees cached candidate) :
    Covers P ((detailsOf P cached).update (detailsOf P candidate)) cached := by
  intro jobId r d hr hfor
  rw [Dict.get?_update, covers_detailsOf hold jobId r d hr hfor]
  cases hd : (detailsOf P candidate).get? (detailKey d) with
  | none => rfl
  | some d' =>
    obtain ⟨hkey, jobId', r', hr', hfor'⟩ := (get?_detailsOf P hnew.keyed).mp hd
    rw [(detailFor_eq_some P hfor').1, (detailFor_eq_some P hfor).1] at hkey
    simp only [Prod.mk.injEq] at hkey
    have hid : jobId' = jobId := by
      rw [← hnew.keyed jobId' r' hr', hkey.1, hold.keyed jobId r hr]
    have hstop : Stopped r' := by
      by_contra hrun
      have hnone := (hnew.detail_none P hr' hrun).1
      simp [detailFor, hnone] at hfor'
    subst hid
    have hsame := hagrees jobId' r r' hr hr' hstop hkey.2.1
    subst hsame
    rw [hfor, Option.some.injEq] at hfor'
    rw [hfor']
    rfl

theorem recorded_union (hold : Sound P written cached) (hnew : Sound P written candidate) :
    Recorded P written ((detailsOf P cached).update (detailsOf P candidate)) := by
  intro key d hd
  rw [Dict.get?_update, Option.or_eq_some_iff] at hd
  rcases hd with hd | ⟨-, hd⟩
  · exact recorded_detailsOf hnew key d hd
  · exact recorded_detailsOf hold key d hd

theorem readDetails_apply_primary (disk : Disk) (document : Json) :
    readDetails (disk.apply (.primary document)) = readDetails disk := rfl

/-- The detail write, if there is one, keeps the old table. -/
theorem stored_after_details (hplan : Planned P cached candidate plan)
    (hold : Sound P written cached) (hnew : Sound P written candidate)
    (hagrees : Agrees cached candidate) (hstored : Stored P written disk cached) :
    Stored P written (plan.detailWrites.foldl Disk.apply disk) cached := by
  cases hdoc : plan.detailDocument with
  | none => simpa [SavePlan.detailWrites, hdoc] using hstored
  | some document =>
    obtain ⟨read, hread, hsame⟩ := validatedDetailDocument_eq_ok (hplan.detail document hdoc) disk
    rw [hplan.union] at hsame
    simp only [SavePlan.detailWrites, hdoc, Option.map_some, Option.toList_some, List.foldl_cons,
      List.foldl_nil]
    exact ⟨hstored.primary, read, hread, (recorded_union hold hnew).same hsame,
      (covers_union_old hold hnew hagrees).same hsame⟩

/-- The primary write installs the new table. -/
theorem stored_after_primary (hplan : Planned P cached candidate plan)
    (hold : Sound P written cached) (hnew : Sound P written candidate)
    (hstored : Stored P written disk cached) :
    Stored P written (plan.primaryDisk disk) candidate := by
  refine ⟨hplan.reads _, ?_⟩
  rw [SavePlan.primaryDisk, readDetails_apply_primary]
  cases hdoc : plan.detailDocument with
  | none =>
    -- Without details the old leftovers stay, and the new table asks for none of them.
    obtain ⟨details, hread, hrecorded, -⟩ := hstored.details
    refine ⟨details, by simpa [SavePlan.detailWrites, hdoc] using hread, hrecorded, ?_⟩
    intro jobId r d hr hfor
    have hempty := hplan.noDetail hdoc
    have hcovered : ((detailsOf P cached).update (detailsOf P candidate)).get? (detailKey d) =
        some d := covers_union_new hnew jobId r d hr hfor
    rw [← hplan.union, Dict.get?_eq_some, hempty] at hcovered
    cases hcovered
  | some document =>
    obtain ⟨read, hread, hsame⟩ := validatedDetailDocument_eq_ok (hplan.detail document hdoc) disk
    rw [hplan.union] at hsame
    refine ⟨read, ?_, (recorded_union hold hnew).same hsame, (covers_union_new hnew).same hsame⟩
    simpa [SavePlan.detailWrites, hdoc, Disk.apply] using hread

/-- The compaction keeps the new table. -/
theorem stored_after_compaction (hplan : Planned P cached candidate plan)
    (hnew : Sound P written candidate) (hstored : Stored P written disk candidate)
    {document : Json} (hdoc : plan.compactDocument = some document) :
    Stored P written (disk.apply (.detail document)) candidate := by
  obtain ⟨read, hread, hsame⟩ := validatedDetailDocument_eq_ok (hplan.compact document hdoc) disk
  rw [hplan.retained] at hsame
  exact ⟨hstored.primary, read, hread, (recorded_detailsOf hnew).same hsame,
    (covers_detailsOf hnew).same hsame⟩

/-- After every prefix of the writes the files hold the old table or the new one: the new
one as soon as the primary document is written. -/
theorem stored_after_prefix (hplan : Planned P cached candidate plan)
    (hold : Sound P written cached) (hnew : Sound P written candidate)
    (hagrees : Agrees cached candidate) (hstored : Stored P written disk cached) (k : Nat) :
    if k ≤ plan.detailWrites.length then Stored P written (plan.diskAfter disk k) cached
    else Stored P written (plan.diskAfter disk k) candidate := by
  have hprimary := stored_after_primary hplan hold hnew hstored
  split
  · rename_i hk
    rcases Nat.lt_or_ge k plan.detailWrites.length with hlt | hge
    · have hlength : plan.detailWrites.length ≤ 1 := by
        unfold SavePlan.detailWrites
        cases plan.detailDocument <;> simp
      have hzero : k = 0 := by omega
      simpa [SavePlan.diskAfter, hzero] using hstored
    · have hall : k = plan.detailWrites.length := by omega
      simpa [SavePlan.diskAfter, SavePlan.writes, hall] using
        stored_after_details hplan hold hnew hagrees hstored
  · rename_i hk
    obtain ⟨j, rfl⟩ : ∃ j, k = plan.detailWrites.length + (1 + j) :=
      ⟨k - plan.detailWrites.length - 1, by omega⟩
    have hsplit : plan.diskAfter disk (plan.detailWrites.length + (1 + j)) =
        ((plan.compactDocument.map StoreWrite.detail).toList.take j).foldl Disk.apply
          (plan.primaryDisk disk) := by
      rw [SavePlan.diskAfter, SavePlan.writes, List.take_length_add_append, Nat.add_comm 1 j]
      simp [SavePlan.primaryDisk]
    rw [hsplit]
    cases hdoc : plan.compactDocument with
    | none => simpa using hprimary
    | some document =>
      cases j with
      | zero => simpa using hprimary
      | succ j => simpa using stored_after_compaction hplan hnew hprimary hdoc

end Writes

/-! ## Where `_async_save_locked` stops -/

section Stops

variable {P} {plan : SavePlan} {disk : Disk}

@[simp] theorem diskAfter_zero : plan.diskAfter disk 0 = disk := rfl

theorem diskAfter_details :
    plan.diskAfter disk plan.detailWrites.length = plan.detailWrites.foldl Disk.apply disk := by
  simp [SavePlan.diskAfter, SavePlan.writes]

theorem diskAfter_primary :
    plan.diskAfter disk (plan.detailWrites.length + 1) = plan.primaryDisk disk := by
  rw [SavePlan.diskAfter, SavePlan.writes, List.take_length_add_append]
  simp [SavePlan.primaryDisk]

theorem diskAfter_compaction {document : Json} (h : plan.compactDocument = some document) :
    plan.diskAfter disk (plan.detailWrites.length + 2) =
      (plan.primaryDisk disk).apply (.detail document) := by
  rw [SavePlan.diskAfter, SavePlan.writes, List.take_length_add_append]
  simp [SavePlan.primaryDisk, h]

theorem writeDetail_eq (w : WriteIo) (document : Json) :
    disk.writeDetail w document = if w.landed then disk.apply (.detail document) else disk := rfl

theorem writePrimary_eq (w : WriteIo) (document : Json) :
    disk.writePrimary w document = if w.landed then disk.apply (.primary document) else disk := rfl

theorem saveDetails_disk (plan : SavePlan) (disk : Disk) (io : SaveIo) :
    ∃ k, (saveDetails plan disk io).1 = plan.diskAfter disk k ∧
      ∀ u, (saveDetails plan disk io).2 = .ok u → k = plan.detailWrites.length := by
  cases hdoc : plan.detailDocument with
  | none =>
    refine ⟨0, by simp [saveDetails, hdoc], fun _ _ => ?_⟩
    simp [SavePlan.detailWrites, hdoc]
  | some document =>
    have hwrites : plan.detailWrites = [.detail document] := by
      simp [SavePlan.detailWrites, hdoc]
    have hfiles : (saveDetails plan disk io).1 = disk.writeDetail io.detailWrite document := by
      simp only [saveDetails, hdoc]
      split
      · rfl
      · split
        · rfl
        · split <;> rfl
    rw [hfiles, writeDetail_eq]
    cases hlanded : io.detailWrite.landed with
    | true =>
      refine ⟨plan.detailWrites.length, ?_, fun _ _ => rfl⟩
      rw [diskAfter_details, hwrites]
      rfl
    | false =>
      refine ⟨0, by simp, fun u hu => ?_⟩
      have hlost : io.detailWrite = .lost := by
        simpa [WriteIo.landed] using hlanded
      simp only [saveDetails, hdoc, hlost] at hu
      split at hu <;> simp at hu

variable (P) in
theorem savePrimary_disk (plan : SavePlan) (disk : Disk) (jobs : Jobs) (io : SaveIo) :
    ∃ k, (savePrimary P jobs plan (plan.diskAfter disk plan.detailWrites.length) io).1 =
        plan.diskAfter disk k ∧
      ∀ verified, (savePrimary P jobs plan (plan.diskAfter disk plan.detailWrites.length) io).2 =
        .ok verified → k = plan.detailWrites.length + 1 ∧ verified.Same jobs := by
  have hfiles : (savePrimary P jobs plan (plan.diskAfter disk plan.detailWrites.length) io).1 =
      (plan.diskAfter disk plan.detailWrites.length).writePrimary io.write plan.document := by
    simp only [savePrimary]
    split <;> rfl
  have hsaved : ∀ verified,
      (savePrimary P jobs plan (plan.diskAfter disk plan.detailWrites.length) io).2 = .ok verified →
        io.write = .saved ∧ verified.Same jobs := by
    intro verified hv
    simp only [savePrimary] at hv
    split at hv
    · cases hv
    · cases hv
    · cases hv
    · rename_i verified' hverify
      cases hv
      unfold verifyPrimary at hverify
      split at hverify
      · cases hverify
      · split at hverify
        · cases hverify
        · simp only [bind_eq_ok, pure_eq_ok] at hverify
          obtain ⟨joined, -, heq⟩ := hverify
          simp only [Verification.mk.injEq, Bool.or_eq_false_iff, Option.some.injEq,
            Bool.not_eq_false', bne_eq_false_iff_eq, Dict.beq_iff] at heq
          obtain ⟨⟨⟨⟨⟨hwrite, -⟩, -⟩, -⟩, hsame, -⟩, rfl⟩ := heq
          exact ⟨hwrite, hsame⟩
  rw [hfiles, writePrimary_eq]
  cases hlanded : io.write.landed with
  | true =>
    refine ⟨plan.detailWrites.length + 1, ?_, fun verified hv => ⟨rfl, (hsaved verified hv).2⟩⟩
    rw [diskAfter_primary, diskAfter_details]
    rfl
  | false =>
    refine ⟨plan.detailWrites.length, rfl, fun verified hv => ?_⟩
    rw [(hsaved verified hv).1] at hlanded
    cases hlanded

/-- The ways a save ends: refused before its first write, stopped after some prefix of its
writes, or verified with the primary document written. -/
inductive SaveEnds (P : Platform) (m : Manager) (io : SaveIo) (candidate : Jobs) :
    Manager × Except InstallJobError Jobs → Prop
  | refused (e : InstallJobError) : SaveEnds P m io candidate (m.invalidateCache, .error e)
  | stopped (plan : SavePlan) (hplan : planSave P m io candidate = .ok plan) (k : Nat)
      (e : InstallJobError) :
      SaveEnds P m io candidate
        ({ m with disk := plan.diskAfter m.disk k }.invalidateCache, .error e)
  | verified (plan : SavePlan) (hplan : planSave P m io candidate = .ok plan) (k : Nat)
      (hk : plan.detailWrites.length < k) (jobs : Jobs) (hsame : jobs.Same candidate) :
      SaveEnds P m io candidate
        (({ m with disk := plan.diskAfter m.disk k, jobs := some jobs } : Manager).reconcileClaims,
          .ok jobs)

variable (P) in
theorem saveLocked_ends (m : Manager) (io : SaveIo) (candidate : Jobs) :
    SaveEnds P m io candidate (m.saveLocked P io candidate) := by
  unfold Manager.saveLocked
  cases hstore : asStoreError (planSave P m io candidate) with
  | error e => exact .refused e
  | ok plan =>
    have hplan : planSave P m io candidate = .ok plan := by
      revert hstore
      cases planSave P m io candidate with
      | ok p => exact id
      | error e => cases e <;> intro h <;> cases h
    obtain ⟨k, hdisk, hk⟩ := saveDetails_disk plan m.disk io
    simp only
    rw [hdisk]
    cases hdetails : (saveDetails plan m.disk io).2 with
    | error e => exact .stopped plan hplan k e
    | ok u =>
      simp only
      rw [hk u hdetails]
      obtain ⟨k', hdisk', hverified⟩ := savePrimary_disk P plan m.disk candidate io
      rw [hdisk']
      cases hsaved : (savePrimary P candidate plan
          (plan.diskAfter m.disk plan.detailWrites.length) io).2 with
      | error e => exact .stopped plan hplan k' e
      | ok jobs =>
        obtain ⟨rfl, hsame⟩ := hverified jobs hsaved
        simp only
        split
        · exact .stopped plan hplan _ _
        · split
          · exact .verified plan hplan _ (Nat.lt_succ_self _) jobs hsame
          · rename_i document hdoc
            have hcompact : ∀ w, ∃ j, plan.detailWrites.length < j ∧
                (plan.diskAfter m.disk (plan.detailWrites.length + 1)).writeDetail w document =
                  plan.diskAfter m.disk j := by
              intro w
              rw [writeDetail_eq]
              split
              · refine ⟨plan.detailWrites.length + 2, by omega, ?_⟩
                rw [diskAfter_compaction hdoc, diskAfter_primary]
              · exact ⟨plan.detailWrites.length + 1, Nat.lt_succ_self _, rfl⟩
            obtain ⟨j, hj, hwrite⟩ := hcompact io.compactWrite
            split
            · have hends : SaveEnds P m io candidate
                  ({ m with disk := plan.diskAfter m.disk j }.invalidateCache, .error .cancelled) :=
                .stopped plan hplan j .cancelled
              rw [← hwrite] at hends
              exact hends
            · have hends : SaveEnds P m io candidate
                  (({ m with disk := plan.diskAfter m.disk j, jobs := some jobs } :
                    Manager).reconcileClaims, .ok jobs) :=
                .verified plan hplan j hj jobs hsame
              rw [← hwrite] at hends
              exact hends

end Stops

end PanelAssistant
