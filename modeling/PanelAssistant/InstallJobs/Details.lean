import PanelAssistant.InstallJobs.Table
import PanelAssistant.Library.JsonText

/-!
# What the two files say together

A detail is looked up by the job id, the revision and the digest of the primary text of
its receipt. Suppose that no two texts hashed so far share a digest (`CollisionFree`), that
the primary file holds a table without its details, that the detail file holds every detail
of that table, and that every other detail in it was written for some receipt that failed.
Then loading joins every receipt with exactly its own detail (`loadDurable_of_stored`):
a leftover detail that were joined would belong to a receipt with the same text, hence in
the same phase, hence to one that carries a detail of its own.
-/

namespace PanelAssistant

open Library InstallPhase

variable (P : Platform)

/-! ## Digests -/

/-- The text whose digest binds a detail to a receipt. -/
def receiptText (r : InstallJobReceipt) : String :=
  String.ofList (serializeReceipt r).sortKeys.compact

/-- No two of the texts of these receipts share a digest. -/
def CollisionFree (written : List InstallJobReceipt) : Prop :=
  ∀ q ∈ written, ∀ r ∈ written,
    P.sha256 (receiptText q) = P.sha256 (receiptText r) → receiptText q = receiptText r

theorem CollisionFree.mono {small large : List InstallJobReceipt} (h : CollisionFree P large)
    (hsub : ∀ r ∈ small, r ∈ large) : CollisionFree P small :=
  fun q hq r hr => h q (hsub q hq) r (hsub r hr)

def serializedFields (r : InstallJobReceipt) : List (String × Json) :=
  match serializeReceipt r with
  | .obj fields => fields
  | _ => []

theorem serializeReceipt_eq (r : InstallJobReceipt) :
    serializeReceipt r = .obj (serializedFields r) := rfl

theorem nodup_serializedFields (r : InstallJobReceipt) :
    ((serializedFields r).map Prod.fst).Nodup := by
  have hnames : (serializedFields r).map Prod.fst =
      receiptKeys ++ if r.homeClaimDeferred then ["home_claim_deferred"] else [] := by
    simp only [serializedFields, serializeReceipt, List.map_append]
    cases r.homeClaimDeferred <;> rfl
  rw [hnames]
  cases r.homeClaimDeferred <;> decide

/-- The text of a receipt tells its fields. -/
theorem field_eq_of_receiptText {q r : InstallJobReceipt} (h : receiptText q = receiptText r)
    {name : String} {a b : Json} (ha : (name, a) ∈ serializedFields q)
    (hb : (name, b) ∈ serializedFields r) : a.sortKeys = b.sortKeys := by
  have htext : (serializeReceipt q).sortKeys.compact = (serializeReceipt r).sortKeys.compact :=
    String.ofList_injective h
  rw [serializeReceipt_eq, serializeReceipt_eq] at htext
  exact Json.field_eq_of_sorted_text (nodup_serializedFields q) htext ha hb

theorem phase_eq_of_receiptText {q r : InstallJobReceipt} (h : receiptText q = receiptText r) :
    q.phase = r.phase := by
  have hphase : ∀ x : InstallJobReceipt,
      ("phase", Json.str x.phase.value) ∈ serializedFields x := by
    intro x
    simp [serializedFields, serializeReceipt]
  have hvalue := field_eq_of_receiptText h (hphase q) (hphase r)
  simp only [Json.sortKeys, Json.str.injEq] at hvalue
  exact value_injective hvalue

theorem revision_eq_of_receiptText {q r : InstallJobReceipt} (h : receiptText q = receiptText r) :
    q.revision = r.revision := by
  have hrevision : ∀ x : InstallJobReceipt,
      ("revision", Json.int x.revision) ∈ serializedFields x := by
    intro x
    simp [serializedFields, serializeReceipt]
  have hvalue := field_eq_of_receiptText h (hrevision q) (hrevision r)
  simpa only [Json.sortKeys, Json.int.injEq] using hvalue

/-! ## Details of a table -/

/-- The phases whose receipts carry a detail. -/
def Stopped (r : InstallJobReceipt) : Prop := r.phase = failed ∨ r.phase = recoveryRequired

instance (r : InstallJobReceipt) : Decidable (Stopped r) := inferInstanceAs (Decidable (_ ∨ _))

theorem detailFor_eq_some {r : InstallJobReceipt} {d : ReceiptDetail}
    (h : detailFor P r = some d) :
    detailKey d = (r.jobId, r.revision, receiptDigest P r) ∧
      r.failureStage = some d.failureStage ∧ r.resultSubcode = d.resultSubcode := by
  simp only [detailFor, Option.map_eq_some_iff] at h
  obtain ⟨stage, hstage, rfl⟩ := h
  exact ⟨rfl, hstage, rfl⟩

theorem sublist_detail_ids (receipts : List InstallJobReceipt) :
    ((receipts.filterMap (detailFor P)).map (·.jobId)).Sublist (receipts.map (·.jobId)) := by
  induction receipts with
  | nil => simp
  | cons r rest ih =>
    rw [List.filterMap_cons]
    split
    · exact ih.cons _
    · rename_i d hd
      have hid : d.jobId = r.jobId := congrArg Prod.fst (detailFor_eq_some P hd).1
      simpa [hid] using ih

/-- Tables whose receipts stand under their own ids. -/
def Keyed (jobs : Jobs) : Prop := ∀ jobId r, jobs.get? jobId = some r → r.jobId = jobId

theorem Keyed.map_jobId {jobs : Jobs} (h : Keyed jobs) :
    jobs.values.map (·.jobId) = jobs.keys := by
  rw [Dict.values, Dict.keys, List.map_map]
  refine List.map_congr_left fun e he => ?_
  exact h e.1 e.2 (Dict.get?_eq_some.mpr he)

theorem Keyed.nodup_details {jobs : Jobs} (h : Keyed jobs) :
    (((jobs.values.filterMap (detailFor P)).map fun d => (detailKey d, d)).map Prod.fst).Nodup := by
  have hids : ((jobs.values.filterMap (detailFor P)).map (·.jobId)).Nodup := by
    refine List.Nodup.sublist (sublist_detail_ids P jobs.values) ?_
    rw [h.map_jobId]
    exact jobs.nodup
  refine List.Nodup.of_map Prod.fst ?_
  simpa [List.map_map, Function.comp_def, detailKey] using hids

theorem get?_detailsOf {jobs : Jobs} (h : Keyed jobs) {key : DetailKey} {d : ReceiptDetail} :
    (detailsOf P jobs).get? key = some d ↔
      detailKey d = key ∧ ∃ jobId r, jobs.get? jobId = some r ∧ detailFor P r = some d := by
  rw [detailsOf, Dict.get?_ofList (h.nodup_details P), Dict.lookup_eq_some (h.nodup_details P)]
  simp only [List.mem_map, List.mem_filterMap, Prod.mk.injEq, Dict.mem_values]
  constructor
  · rintro ⟨_, ⟨r, ⟨jobId, hr⟩, hd⟩, hkey, rfl⟩
    exact ⟨hkey, jobId, r, hr, hd⟩
  · rintro ⟨hkey, jobId, r, hr, hd⟩
    exact ⟨d, ⟨r, ⟨jobId, hr⟩, hd⟩, hkey, rfl⟩

/-! ## Detail documents -/

theorem parseDetailDocument_parsed {value : Json} {details : Details}
    (h : parseDetailDocument value = .ok details) : details.size ≤ maxDetailJobs := by
  unfold parseDetailDocument at h
  split at h
  · simp only [bind_eq_ok, check_eq_ok] at h
    obtain ⟨_, _, h⟩ := h
    split at h
    · simp only [bind_eq_ok, check_eq_ok, pure_eq_ok, decide_eq_true_eq] at h
      obtain ⟨_, _, _, hcount, parsed, hparsed, _, hnodup, rfl⟩ := h
      have hkeys : ((parsed.map fun d => (detailKey d, d)).map Prod.fst).Nodup := by
        simpa [List.map_map, Function.comp_def] using hnodup
      have hlength := (mapM_eq_ok.mp hparsed).length_eq
      rw [Dict.size, Dict.entries_ofList hkeys, List.length_map, ← hlength]
      exact hcount
    · cases h
  · cases h

/-- A detail document that is written reads back as the details it was made from. -/
theorem validatedDetailDocument_eq_ok {details : Details} {document : Json}
    (h : validatedDetailDocument details = .ok document) (disk : Disk) :
    ∃ read, readDetails { disk with detail := some (wrapDocument detailStoreKey document) } =
      .ok read ∧ read.Same details := by
  simp only [validatedDetailDocument, bind_eq_ok, check_eq_ok, pure_eq_ok,
    parseDetailStoreDocument, parseStoreBody_wrapDocument, ok_bind, Dict.beq_iff] at h
  obtain ⟨_, hsize, verified, hparse, _, hsame, rfl⟩ := h
  refine ⟨verified, ?_, hsame⟩
  simp only [readDetails, readDurable, if_pos hsize, parseDetailStoreDocument,
    parseStoreBody_wrapDocument, ok_bind, hparse]

theorem readDetails_size {disk : Disk} {details : Details} (h : readDetails disk = .ok details) :
    details.size ≤ maxDetailJobs := by
  unfold readDetails at h
  split at h
  · cases h
    exact Nat.zero_le _
  · unfold readDurable at h
    split at h
    · simp only [parseDetailStoreDocument, bind_eq_ok] at h
      obtain ⟨_, _, h⟩ := h
      exact parseDetailDocument_parsed h
    · cases h

/-! ## Tables a save may write -/

/-- What every table satisfies that a manager operation hands to a save. -/
structure Sound (written : List InstallJobReceipt) (jobs : Jobs) : Prop where
  keyed : Keyed jobs
  written : ∀ jobId r, jobs.get? jobId = some r → r ∈ written
  valid : ∀ jobId r, jobs.get? jobId = some r → validateReceiptInvariants P r = .ok ()
  staged : ∀ jobId r, jobs.get? jobId = some r → Stopped r → r.failureStage.isSome

theorem Sound.detail_none {written : List InstallJobReceipt} {jobs : Jobs}
    (h : Sound P written jobs) {jobId : String} {r : InstallJobReceipt}
    (hr : jobs.get? jobId = some r) (hrun : ¬Stopped r) :
    r.failureStage = none ∧ r.resultSubcode = none := by
  have hvalid := ((validate_ok_iff P).mp (h.valid jobId r hr)).1
  simp only [Stopped, not_or] at hrun
  simp only [InstallJobReceipt.detailViolated, Bool.or_eq_false_iff] at hvalid
  have hnone := hvalid.1.2
  simpa [hrun.1, hrun.2] using hnone

theorem Sound.same {written : List InstallJobReceipt} {jobs jobs' : Jobs}
    (h : Sound P written jobs) (hsame : jobs'.Same jobs) : Sound P written jobs' :=
  ⟨fun jobId r hr => h.keyed jobId r (hsame jobId ▸ hr),
    fun jobId r hr => h.written jobId r (hsame jobId ▸ hr),
    fun jobId r hr => h.valid jobId r (hsame jobId ▸ hr),
    fun jobId r hr => h.staged jobId r (hsame jobId ▸ hr)⟩

theorem Sound.mono {written written' : List InstallJobReceipt} {jobs : Jobs}
    (h : Sound P written jobs) (hsub : ∀ r ∈ written, r ∈ written') : Sound P written' jobs :=
  ⟨h.keyed, fun jobId r hr => hsub r (h.written jobId r hr), h.valid, h.staged⟩

/-- Every stored detail was made for a written receipt that had stopped. -/
def Recorded (written : List InstallJobReceipt) (details : Details) : Prop :=
  ∀ key d, details.get? key = some d →
    ∃ q ∈ written, detailFor P q = some d ∧ detailKey d = key ∧ Stopped q

/-- Every detail of the table is stored. -/
def Covers (details : Details) (jobs : Jobs) : Prop :=
  ∀ jobId r d, jobs.get? jobId = some r → detailFor P r = some d →
    details.get? (detailKey d) = some d

/-- The files hold this table: its receipts in one, at least its details in the other. -/
structure Stored (written : List InstallJobReceipt) (disk : Disk) (jobs : Jobs) : Prop where
  primary : ∃ read, readJobs P disk = .ok read ∧ read.Same (jobs.map fun _ r => r.clearDetail)
  details : ∃ details, readDetails disk = .ok details ∧ Recorded P written details ∧
    Covers P details jobs

theorem Stored.mono {written written' : List InstallJobReceipt} {disk : Disk} {jobs : Jobs}
    (h : Stored P written disk jobs) (hsub : ∀ r ∈ written, r ∈ written') :
    Stored P written' disk jobs := by
  obtain ⟨details, hread, hrecorded, hcovers⟩ := h.details
  refine ⟨h.primary, details, hread, fun key d hd => ?_, hcovers⟩
  obtain ⟨q, hq, hfor, hkey, hstop⟩ := hrecorded key d hd
  exact ⟨q, hsub q hq, hfor, hkey, hstop⟩

/-- The detail bound to a receipt is its own, and a receipt without one is bound to none. -/
theorem boundDetail_eq {written : List InstallJobReceipt} {jobs : Jobs} {details : Details}
    (hfree : CollisionFree P written) (hsound : Sound P written jobs)
    (hrecorded : Recorded P written details) (hcovers : Covers P details jobs) {jobId : String}
    {r : InstallJobReceipt} (hr : jobs.get? jobId = some r) :
    boundDetail P details jobId r = detailFor P r := by
  have hid := hsound.keyed jobId r hr
  cases hd : detailFor P r with
  | some d =>
    have hcovered := hcovers jobId r d hr hd
    rw [(detailFor_eq_some P hd).1, hid] at hcovered
    exact hcovered
  | none =>
    rw [Option.eq_none_iff_forall_ne_some]
    intro d hbound
    -- A detail found here was written for a stopped receipt with the same digest.
    obtain ⟨q, hq, hfor, hkey, hqstop⟩ := hrecorded _ d hbound
    have hdigest : receiptDigest P q = receiptDigest P r := by
      have hq := (detailFor_eq_some P hfor).1
      rw [hkey] at hq
      exact (congrArg (·.2.2) hq).symm
    have htext := hfree q hq r (hsound.written jobId r hr) hdigest
    have hphase := phase_eq_of_receiptText htext
    have hstop : Stopped r := by
      simpa only [Stopped, hphase] using hqstop
    obtain ⟨stage, hstage⟩ := Option.isSome_iff_exists.mp (hsound.staged jobId r hr hstop)
    simp [detailFor, hstage] at hd

/-- Joining gives every receipt its own detail and no receipt another's. -/
theorem joinReceipt_clearDetail {written : List InstallJobReceipt} {jobs : Jobs}
    {details : Details} (hfree : CollisionFree P written) (hsound : Sound P written jobs)
    (hrecorded : Recorded P written details) (hcovers : Covers P details jobs) {jobId : String}
    {r : InstallJobReceipt} (hr : jobs.get? jobId = some r) :
    joinReceipt P details jobId r.clearDetail = r := by
  have hbound : boundDetail P details jobId r.clearDetail = detailFor P r :=
    boundDetail_eq P hfree hsound hrecorded hcovers hr
  cases hstage : r.failureStage with
  | some stage =>
    have hd : detailFor P r = some ⟨r.jobId, r.revision, receiptDigest P r, stage,
        r.resultSubcode⟩ := by
      simp [detailFor, hstage]
    rw [joinReceipt, hbound, hd]
    cases r
    simp_all [InstallJobReceipt.clearDetail]
  | none =>
    have hd : detailFor P r = none := by simp [detailFor, hstage]
    rw [joinReceipt, hbound, hd]
    have hvalid := ((validate_ok_iff P).mp (hsound.valid jobId r hr)).1
    have hsubcode : r.resultSubcode = none := by
      simp only [InstallJobReceipt.detailViolated, Bool.or_eq_false_iff, hstage] at hvalid
      simpa using hvalid.1.1.1
    exact clearDetail_of_none hstage hsubcode

/-- What both files hold is what is loaded. -/
theorem joinDetails_of_covers {written : List InstallJobReceipt} {jobs read : Jobs}
    {details : Details} (hfree : CollisionFree P written) (hsound : Sound P written jobs)
    (hread : read.Same (jobs.map fun _ r => r.clearDetail))
    (hrecorded : Recorded P written details) (hcovers : Covers P details jobs) :
    ∃ loaded, joinDetails P read details = .ok loaded ∧ loaded.Same jobs := by
  have hentry : ∀ jobId p, read.get? jobId = some p →
      ∃ r, jobs.get? jobId = some r ∧ p = r.clearDetail := by
    intro jobId p hp
    rw [hread jobId, Dict.get?_map, Option.map_eq_some_iff] at hp
    obtain ⟨r, hr, rfl⟩ := hp
    exact ⟨r, hr, rfl⟩
  have haccepted : (read.entries.any fun e => joinRefused P details e.1 e.2) = false := by
    rw [List.any_eq_false]
    intro e he hrefused
    obtain ⟨r, hr, hp⟩ := hentry e.1 e.2 (Dict.get?_eq_some.mpr he)
    have hjoin := joinReceipt_clearDetail P hfree hsound hrecorded hcovers hr
    rw [hp] at hrefused
    simp only [joinRefused, hjoin, hsound.valid e.1 r hr] at hrefused
    split at hrefused
    · cases hrefused
    · simp [InstallJobReceipt.clearDetail] at hrefused
  refine ⟨read.map (joinReceipt P details), ?_, fun jobId => ?_⟩
  · simp [joinDetails, haccepted]
  · rw [Dict.get?_map, hread jobId, Dict.get?_map]
    cases hr : jobs.get? jobId with
    | none => rfl
    | some r =>
      simp only [Option.map_some]
      rw [joinReceipt_clearDetail P hfree hsound hrecorded hcovers hr]

theorem loadDurable_of_stored {written : List InstallJobReceipt} {disk : Disk} {jobs : Jobs}
    (hfree : CollisionFree P written) (hsound : Sound P written jobs)
    (hstored : Stored P written disk jobs) :
    ∃ loaded, loadDurable P disk = .ok loaded ∧ loaded.Same jobs := by
  obtain ⟨read, hread, hsame⟩ := hstored.primary
  obtain ⟨details, hdetails, hrecorded, hcovers⟩ := hstored.details
  obtain ⟨loaded, hjoin, hloaded⟩ := joinDetails_of_covers P hfree hsound hsame hrecorded hcovers
  exact ⟨loaded, by simp [loadDurable, hread, hdetails, hjoin], hloaded⟩

end PanelAssistant
