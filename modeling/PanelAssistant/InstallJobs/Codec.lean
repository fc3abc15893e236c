import PanelAssistant.InstallJobs.Invariant

/-!
# The durable receipt codec

What a manager writes is read back without its details, whatever run led to it, and the document
that binds a plan determines the plan.
-/

namespace PanelAssistant

open Library Library.Text InstallPhase

variable (P : Platform)

/-- A table whose document parses back to it, details apart, so that a save which refuses it
refuses its size. -/
structure DocumentDurable (jobs : Jobs) : Prop where
  reads : ∃ read, parseDocument P (serializeDocument jobs) = .ok read ∧
    read.Same (jobs.map fun _ r => r.clearDetail)
  saves : validatedDocumentForSave P jobs =
    if sizeAllowed (wrapDocument storeKey (serializeDocument jobs)) then
      .ok (serializeDocument jobs)
    else .error .store

variable {P} in
theorem Storable.documentDurable {jobs : Jobs} (h : Storable P jobs) : DocumentDurable P jobs :=
  ⟨⟨readBack jobs, h.reads, h.readBack_same⟩, h.saves⟩

/-- The durable receipt codec: a receipt is read back without its detail; so is every table
that is loaded from the files, cached, or handed to a save with its clock not running
backwards; and the document that binds a plan determines the plan. -/
theorem durable_receipt_codec (hdigest : ∀ text, isSha256 (P.sha256 text) = true) :
    (∀ r : InstallJobReceipt, FieldsOk P r → validateReceiptInvariants P r = .ok () →
      parseReceipt P (serializeReceipt r) = .ok r.clearDetail) ∧
    (∀ (disk : Disk) (jobs : Jobs), loadDurable P disk = .ok jobs → DocumentDurable P jobs) ∧
    (∀ calls : List Call, CollisionFree P (History.after P calls).written →
      (∀ cached, (History.after P calls).manager.jobs = some cached → DocumentDurable P cached) ∧
      ∀ (call : Call) (s : Saving), call.saving P (History.after P calls).manager = some s →
        call.DrawsHex →
        (∀ loaded, s.manager.jobs = some loaded → clockReversed loaded s.candidate = false) →
        DocumentDurable P s.candidate) ∧
    (∀ (t : InstallTarget) (a : InstallArtifact) (c schema : String),
      installPlanSha256 P t a c schema = P.sha256 <$> planText P t a c schema) ∧
    ∀ (t t' : InstallTarget) (a a' : InstallArtifact) (c c' schema schema' text : String),
      planText P t a c schema = .ok text → planText P t' a' c' schema' = .ok text →
        t = t' ∧ a = a' ∧ c = c' ∧ schema = schema' := by
  refine ⟨fun r h hvalid => parseReceipt_serializeReceipt P h hvalid,
    fun disk jobs h => (storable_of_loadDurable P h).documentDurable,
    fun calls hfree => ⟨fun cached hcached => ?_, fun call s hsaving hdraws hclock => ?_⟩,
    installPlanSha256_eq P,
    fun t t' a a' c c' schema schema' text h h' => planText_injective P h h'⟩
  · obtain ⟨jobs, hholds⟩ := exists_holds P calls hfree
    obtain ⟨loaded, hload, hsame⟩ := hholds.load hfree
    have hstorable := storable_of_loadDurable P hload
    exact (hstorable.same P ((hholds.cached cached hcached).trans hsame.symm)).documentDurable
  · obtain ⟨loaded, hloaded, hstorable, hchecked⟩ := Call.saving_checked hdigest hdraws hsaving
    obtain ⟨jobs, hholds, hbounded⟩ := exists_holds_with P RevisionBounded
      (fun _ _ _ => by simp [RevisionBounded, approvedReceipt])
      (fun _ _ _ hr hrewrite => hrewrite.revisionBounded hr) calls hfree
    obtain ⟨loaded', _, -, hsame, hcached, -⟩ := hholds.saving hfree hsaving
    obtain rfl : loaded' = loaded := Option.some.inj (hcached.cached.symm.trans hloaded)
    refine (hchecked.storable hstorable (fun jobId r hr => ?_)
      (hclock loaded' hloaded)).documentDurable
    have hrevision := hbounded jobId r ((hsame jobId).symm.trans hr)
    have hgeneration := (hholds.tableOk.counters jobId r ((hsame jobId).symm.trans hr)).2.1
    have hrank := rank_le_terminal r.phase
    unfold RevisionBounded at hrevision
    split at hrevision <;> omega

/-- The platform of the small run, with a digest for every text. -/
def SmallRun.hashing : Platform :=
  { SmallRun.platform with
    sha256 := fun text =>
      if isSha256 (SmallRun.platform.sha256 text) then SmallRun.platform.sha256 text
      else SmallRun.arguments.adbCredentialId }

/-- Reading a target hashes nothing. -/
theorem parseTarget_sha256 (P : Platform) (digest : String → String) (value : Json) :
    parseTarget { P with sha256 := digest } value = parseTarget P value := rfl

theorem SmallRun.fits_hashing : SmallRun.Fits SmallRun.hashing := by
  refine ⟨(parseTarget_sha256 _ _ _).trans SmallRun.parseTarget_target, ?_⟩
  have hplan : isSha256 SmallRun.arguments.planSha256 = true := by decide
  simp only [SmallRun.hashing, SmallRun.sha256_planLine, hplan, if_true]

/-- The table that the first creation saves. -/
theorem durable_receipt_codec_small_run :
    ∃ s, SmallRun.create.saving SmallRun.hashing Manager.initial = some s ∧
      DocumentDurable SmallRun.hashing s.candidate := by
  have hdigest : ∀ text, isSha256 (SmallRun.hashing.sha256 text) = true := by
    intro text
    simp only [SmallRun.hashing]
    split
    · assumption
    · decide
  have hsaving := SmallRun.fits_hashing.saving_create
  have hfree : CollisionFree SmallRun.hashing (History.after SmallRun.hashing []).written :=
    fun _ hq => absurd hq List.not_mem_nil
  refine ⟨_, hsaving, ((durable_receipt_codec SmallRun.hashing hdigest).2.2.1 [] hfree).2
    SmallRun.create _ hsaving ?_ fun loaded hloaded => ?_⟩
  · show ∀ token ∈ [SmallRun.jobId], isHex32 token = true
    decide
  · rw [← Option.some.inj hloaded]
    rfl

end PanelAssistant
