import PanelAssistant.InstallJobs.Saved

/-!
# The store invariant over whole runs

After every run the files hold a table that is in order (`TableOk`). A call changes that table
one receipt at a time (`Outcome`): a changed receipt was active, its revision grows by one, its
frozen facts stay and its phase follows the graph; what is terminal is only ever pruned.
-/

namespace PanelAssistant

open Library Library.Text Library.Json InstallPhase

variable (P : Platform)

/-! ## Changes -/

/-- How a receipt may change. -/
structure Changed (r r' : InstallJobReceipt) : Prop where
  active : r.isTerminal = false
  revision : r'.revision = r.revision + 1
  phase : r'.phase = r.phase ∨ r'.phase ∈ nextPhase r.phase ∨
    (∃ updatedAt, r' = claimedReceipt r updatedAt) ∧ r'.phase = recoveryRequired
  sameJob : SameJob r r'

/-- What stands under the id of a receipt after a call. -/
inductive Outcome (r : InstallJobReceipt) : Option InstallJobReceipt → Prop
  | kept : Outcome r (some r)
  | changed (r' : InstallJobReceipt) (h : Changed r r') : Outcome r (some r')
  | pruned (h : r.isTerminal = true) : Outcome r none
  /-- A change finished the job, and the same save pruned it. -/
  | finished (r' : InstallJobReceipt) (h : Changed r r') (hend : r'.isTerminal = true) :
    Outcome r none
  /-- The job was pruned, and the id was drawn for a new one. -/
  | redrawn (h : r.isTerminal = true) (a : CreateArgs) (jobId now : String) :
    Outcome r (some (approvedReceipt a jobId now))

variable {P} in
theorem Rewrite.changed {r r' : InstallJobReceipt} {claimed : Option Int}
    (h : Rewrite P r claimed r') : Changed r r' :=
  ⟨h.active, h.revision, h.phase, h.sameJob⟩

variable {P} in
theorem Effect.outcome {claimed : Dict String Int} {jobs jobs' : Jobs}
    (h : Effect P claimed jobs jobs') {jobId : String} {r : InstallJobReceipt}
    (hr : jobs.get? jobId = some r) : Outcome r (jobs'.get? jobId) := by
  cases h with
  | unchanged hsame =>
    rw [hsame jobId, hr]
    exact .kept
  | saved loaded candidate held id hloaded hheld hcandidate hsaved =>
    have hfate := hcandidate.fate ((hloaded jobId).trans hr)
    rw [hsaved jobId]
    generalize candidate.get? jobId = stored at hfate
    cases hfate with
    | kept => exact .kept
    | rewritten r' hrewrite => exact .changed r' hrewrite.changed
    | pruned hterminal => exact .pruned hterminal
    | finished r' hrewrite hend => exact .finished r' hrewrite.changed hend
    | redrawn hterminal a now => exact .redrawn hterminal a jobId now

variable {P} in
theorem Effect.fresh {claimed : Dict String Int} {jobs jobs' : Jobs}
    (h : Effect P claimed jobs jobs') {jobId : String} (hr : jobs.get? jobId = none) :
    jobs'.get? jobId = none ∨ ∃ a now, jobs'.get? jobId = some (approvedReceipt a jobId now) := by
  cases h with
  | unchanged hsame => exact Or.inl ((hsame jobId).trans hr)
  | saved loaded candidate held id hloaded hheld hcandidate hsaved =>
    rw [hsaved jobId]
    exact hcandidate.born ((hloaded jobId).trans hr)

/-- The store invariant: every reachable table is in order, the next call changes its
receipts only as their outcomes say, and what it puts under an unused id is a new job. -/
theorem install_job_store_invariant (calls : List Call) (call : Call)
    (hfree : CollisionFree P (History.after P (calls ++ [call])).written) :
    ∃ jobs jobs', loadDurable P (History.after P calls).manager.disk = .ok jobs ∧
      loadDurable P (History.after P (calls ++ [call])).manager.disk = .ok jobs' ∧
      TableOk P jobs ∧ TableOk P jobs' ∧
      (∀ jobId r, jobs.get? jobId = some r → Outcome r (jobs'.get? jobId)) ∧
      ∀ jobId, jobs.get? jobId = none → jobs'.get? jobId = none ∨
        ∃ a now, jobs'.get? jobId = some (approvedReceipt a jobId now) := by
  have hstep : History.after P (calls ++ [call]) = (History.after P calls).step P call :=
    Runs.run_concat _ _ _ _
  rw [hstep] at hfree ⊢
  have hold := hfree.mono P (written_subset_step P _ call)
  obtain ⟨jobs, hholds⟩ := exists_holds P calls hold
  obtain ⟨loaded, hload, hsame⟩ := hholds.load hold
  have hloaded := hholds.same hsame
  obtain ⟨jobs', hoperated⟩ := hloaded.apply hfree
  obtain ⟨loaded', hload', hsame'⟩ := hoperated.holds.load hfree
  refine ⟨loaded, loaded', hload, hload', hloaded.tableOk, (hoperated.holds.same hsame').tableOk,
    fun jobId r hr => ?_, fun jobId hr => ?_⟩
  · rw [hsame' jobId]
    exact hoperated.effect.outcome hr
  · rw [hsame' jobId]
    exact hoperated.effect.fresh hr

/-! ## A small run

The job of one panel, while everything the file system does succeeds: it is created, and then its
cancellation is requested, or it is claimed and taken to the launch, which fails. The platform
answers what Python answers on the texts of this run; the plan and the receipts, which are hashed,
have the digests written out here. -/

namespace SmallRun

def jobId : String := "0123456789abcdef0123456789abcdef"

def target : InstallTarget :=
  { address := "10.0.0.5", pinnedAddress := "10.0.0.5", adbSerial := "0123456789ABCDEF",
    model := "Panel", primaryAbi := "arm64-v8a", androidSdk := 30 }

def artifact : InstallArtifact :=
  { descriptorSchema := "io.panelassistant.android.install.v1", releaseTag := "v0.10.2",
    versionName := "0.10.2", versionCode := 1002,
    apkName := "panel-assistant-v0.10.2-manual-setup-required.apk",
    apkSha256 := "ac6193307fb0b70113aae205d7549406f96e063bc5491b67b1d5694a34b0e339",
    apkSize := 1000000, packageId, signerCertificateSha256 := releaseSignerCertificateSha256,
    minSdk := 26, supportedAbis, databaseCompatibility := "hapaneld-db:v1:ha-paneld.db:1:9",
    launchComponent := newClassesSuccessorLaunch, protocolMin := none, protocolMax := none,
    prereleaseOptIn := false }

def arguments : CreateArgs :=
  { target, artifact
    planSha256 := "3bc13ee9e16c3f02d2fef197845f7ac615771646f1e82c757294c7648656ad1e"
    adbCredentialId := "0000000000000000000000000000000000000000000000000000000000000001"
    tokens := [jobId] }

def toAuthorizing : TransitionArgs := { phase := .authorizing }

def toPreflight : TransitionArgs := { phase := .preflight }

def toInstalled : TransitionArgs :=
  { phase := .installed, preflightRootMode := some "root_adbd", actualApkBytes := some 1000000 }

def toLaunching : TransitionArgs := { phase := .launching }

def toFailed : TransitionArgs :=
  { phase := .failed, resultCode := some .launchFailed, resultSubcode := some "launch:not_started" }

def created : InstallJobReceipt := approvedReceipt arguments jobId "2026-07-01T10:00:00+00:00"

def cancelled : InstallJobReceipt := cancelledReceipt created "2026-07-01T10:00:05+00:00"

def claimed : InstallJobReceipt := claimedReceipt created "2026-07-01T10:00:01+00:00"

def authorizing : InstallJobReceipt :=
  transitionedReceipt claimed toAuthorizing "2026-07-01T10:00:02+00:00"

def preflighted : InstallJobReceipt :=
  transitionedReceipt authorizing toPreflight "2026-07-01T10:00:03+00:00"

def installed : InstallJobReceipt :=
  transitionedReceipt preflighted toInstalled "2026-07-01T10:00:04+00:00"

def launching : InstallJobReceipt :=
  transitionedReceipt installed toLaunching "2026-07-01T10:00:05+00:00"

def failed : InstallJobReceipt :=
  transitionedReceipt launching toFailed "2026-07-01T10:00:06+00:00"

/-- The receipts that are hashed. -/
def receipts : List InstallJobReceipt :=
  [created, cancelled, claimed, authorizing, preflighted, installed, launching, failed]

/-- Their digests. -/
def hashes : List String :=
  ["2bacf1f3664165eec29ae584fc6dbbfd304695f5e269cc2123f8b23eff473793",
    "f82660acf1b3739e0fd0de1890035eff0ad074599bb87981bd1aaf514da5c20d",
    "8b536c87f5cd0f4afb7cdd91069710d58d64c0699808635ea052ba88dd3c37d8",
    "d821d59757396af8ff9ee360dfd3dca2ff86ed85042458bdefd4ad5cc659420a",
    "17cae1ca3bdd94c9b43aee946519fccb1c0b9a838cf6a5b09adc4ea8b7e9951f",
    "e1a49a195c9aefcb556fb13d6c5cfc4a73536f07e92829009ca4d5f292ed1062",
    "7b15fa284c0dda32b5bc9c591f14efd06ddafdf67ef55d5335858d14ae61eb52",
    "26929661a9ab0affb1ad5d8722f68b69d185ab5f3ca5ffd9e74b11f20ec56947"]

/-- Receipts of the run differ in their revision or in their cancellation flag, so their texts
differ. -/
theorem receiptText_inj {q r : InstallJobReceipt} (hq : q ∈ receipts) (hr : r ∈ receipts)
    (h : receiptText q = receiptText r) : q = r := by
  have hrevision : q.revision = r.revision := revision_eq_of_receiptText h
  have hflag : q.cancelRequested = r.cancelRequested := by
    have hmem : ∀ x : InstallJobReceipt,
        ("cancel_requested", Json.bool x.cancelRequested) ∈ serializedFields x := by
      intro x
      simp [serializedFields, serializeReceipt]
    have hvalue := field_eq_of_receiptText h (hmem q) (hmem r)
    simpa only [Json.sortKeys, Json.bool.injEq] using hvalue
  have hkeys : (receipts.map fun r => (r.revision, r.cancelRequested)).Nodup := by decide
  exact List.inj_on_of_nodup_map hkeys hq hr (Prod.ext hrevision hflag)

/-- The line that is hashed for the plan. -/
def planLine : String :=
  String.ofList ((planDocument target artifact arguments.adbCredentialId
    currentPlanSchema).sortKeys.compact ++ ['\n'])

/-- The text of a receipt does not end with a new line. -/
theorem receiptText_ne_planLine (r : InstallJobReceipt) : receiptText r ≠ planLine := by
  intro h
  have hlast := congrArg List.getLast? (String.ofList_injective h)
  rw [serializeReceipt_eq, Json.sortKeys, Json.compact, List.getLast?_concat,
    List.getLast?_concat] at hlast
  exact absurd (Option.some.inj hlast) (by decide)

def digests : Dict String String where
  entries := (planLine, arguments.planSha256) :: (receipts.map receiptText).zip hashes
  nodup := by
    have hreceipts : receipts.Nodup :=
      List.Nodup.of_map (fun r => (r.revision, r.cancelRequested)) (by decide)
    rw [List.map_cons, List.map_fst_zip (by rw [List.length_map]; decide), List.nodup_cons]
    refine ⟨fun hmem => ?_, hreceipts.map_on fun q hq r hr => receiptText_inj hq hr⟩
    obtain ⟨r, -, htext⟩ := List.mem_map.mp hmem
    exact receiptText_ne_planLine r htext

def platform : Platform where
  urlsplit text :=
    if text = "//10.0.0.5" then some ⟨some "10.0.0.5", none, none, none, "", "", ""⟩ else none
  ipAddress text := if text = "10.0.0.5" then some (.v4 0x0A000005) else none
  ipText _ := "10.0.0.5"
  inetAton text := text = "10.0.0.5"
  lower text := String.ofList (text.toList.map Char.toLower)
  isPrintable text := text.toList.all fun c => 32 ≤ c.toNat && c.toNat < 127
  sha256 text := (digests.get? text).getD ""
  executionDigest _ _ := ""
  remoteStagingSlotId := ""
  ulidToBytesOrNone _ := none
  bytesToUlid _ := ""

def loadIo : LoadIo := ⟨.ok, .ok⟩

def saveIo : SaveIo :=
  { staleRead := .ok, detailWrite := .saved, detailRead := true, detailCancelled := false,
    write := .saved, presence := true, read := true, detailReread := true, cancelled := false,
    compactWrite := .saved, compactCancelled := false }

/-- An operation at this second. -/
def opIo (now : String) : OpIo := ⟨loadIo, saveIo, now⟩

def createIo : OpIo := opIo "2026-07-01T10:00:00+00:00"

def create : Call := .createOrJoin createIo arguments

def cancelIo : OpIo := opIo "2026-07-01T10:00:05+00:00"

def cancel : Call := .requestCancel cancelIo jobId 0

/-- The call by which the worker makes a transition. -/
def advance (now : String) (r : InstallJobReceipt) (a : TransitionArgs) : Call :=
  .transition (opIo now) jobId r.revision a

def claim : Call := .claim (opIo "2026-07-01T10:00:01+00:00") jobId 0 none

/-- The calls that take the job to its launch. -/
def launch : List Call :=
  [create, claim,
    advance "2026-07-01T10:00:02+00:00" claimed toAuthorizing,
    advance "2026-07-01T10:00:03+00:00" authorizing toPreflight,
    advance "2026-07-01T10:00:04+00:00" preflighted toInstalled,
    advance "2026-07-01T10:00:05+00:00" installed toLaunching]

/-- The launch fails. -/
def fail : Call := advance "2026-07-01T10:00:06+00:00" launching toFailed

/-! ### The texts that are hashed -/

theorem sha256_planLine : platform.sha256 planLine = arguments.planSha256 := by
  have hfind : digests.get? planLine = some arguments.planSha256 :=
    Dict.get?_eq_some.mpr List.mem_cons_self
  simp only [platform, hfind, Option.getD_some]

theorem sha256_receiptText {i : ℕ} (hi : i < receipts.length) :
    platform.sha256 (receiptText receipts[i]) =
      hashes.get ⟨i, hi.trans_eq (by decide)⟩ := by
  have hfind : digests.get? (receiptText receipts[i]) =
      some (hashes.get ⟨i, hi.trans_eq (by decide)⟩) := by
    refine Dict.get?_eq_some.mpr (List.mem_cons_of_mem _ (List.mem_iff_getElem.mpr ⟨i, ?_, ?_⟩))
    · simpa using ⟨hi, hi.trans_eq (by decide)⟩
    · simp
  simp only [platform, hfind, Option.getD_some]

theorem collisionFree : CollisionFree platform receipts := by
  have hnodup : hashes.Nodup := by decide +kernel
  intro q hq r hr hdigest
  obtain ⟨i, hi, rfl⟩ := List.getElem_of_mem hq
  obtain ⟨j, hj, rfl⟩ := List.getElem_of_mem hr
  rw [sha256_receiptText hi, sha256_receiptText hj] at hdigest
  have hsame := List.nodup_iff_injective_get.mp hnodup hdigest
  rw [Fin.mk.injEq] at hsame
  subst hsame
  rfl

/-! ### The creation -/

theorem parseTarget_target : parseTarget platform target.asdict = .ok target := by
  obtain ⟨t, ht⟩ := of_isOk
    (show (parseTarget platform target.asdict).isOk = true by decide +kernel)
  obtain ⟨heq, -⟩ := parseTarget_asdict_eq platform ht
  rw [ht, heq]

theorem parseArtifact_artifact : parseArtifact artifact.asdict = .ok artifact := by
  obtain ⟨a, ha⟩ := of_isOk (show (parseArtifact artifact.asdict).isOk = true by decide +kernel)
  obtain ⟨heq, -⟩ := parseArtifact_asdict_eq ha
  rw [ha, heq]

/-- A platform that knows the panel and the plan of this run. -/
structure Fits (P : Platform) : Prop where
  parses : parseTarget P target.asdict = .ok target
  digest : P.sha256 planLine = arguments.planSha256

theorem fits_platform : Fits platform := ⟨parseTarget_target, sha256_planLine⟩

variable {P : Platform}

theorem Fits.checkedCreate (h : Fits P) : checkedCreate P arguments = .ok arguments := by
  have hhex : isSha256 arguments.adbCredentialId = true := by decide +kernel
  have hcredential : safeText (.str arguments.adbCredentialId) 64 = .ok arguments.adbCredentialId :=
    safeText_of_hex (by decide) le_rfl hhex
  have hexpected : installPlanSha256 P target artifact arguments.adbCredentialId currentPlanSchema =
      .ok arguments.planSha256 := by
    have htext : planText P target artifact arguments.adbCredentialId currentPlanSchema =
        .ok planLine := by
      simp only [planText, h.parses, parseArtifact_artifact, hcredential, hhex,
        check, if_true, ok_bind]
      rfl
    rw [installPlanSha256_eq, htext]
    exact congrArg Except.ok h.digest
  have habi : artifact.supportedAbis.contains target.primaryAbi = true := by decide
  have hsdk : artifact.minSdk ≤ target.androidSdk := by decide
  show (parseTarget P target.asdict >>= _) = _
  rw [h.parses, ok_bind]
  show (parseArtifact artifact.asdict >>= _) = _
  rw [parseArtifact_artifact, ok_bind,
    show arguments.adbCredentialId = arguments.adbCredentialId from rfl, hexpected, ok_bind]
  simp only [beq_self_eq_true, hhex, habi, hsdk, decide_true, Bool.and_self,
    check, if_true, ok_bind]
  rfl

theorem createOrJoin_empty : createOrJoin arguments createIo.now ∅ =
    .ok (.save (only jobId created) jobId) := by
  have hprune : prune (∅ : Jobs) createIo.now = .ok ∅ := by
    have hnow : Clock createIo.now := by decide +kernel
    obtain ⟨instant, hinstant, hcutoff⟩ := any_eq_true_iff.mp hnow.2
    simp only [prune, hinstant, hcutoff, check, if_true, ok_bind]
    rfl
  have htime : timestamp (.str createIo.now) = .ok createIo.now := rfl
  simp only [createOrJoin, htime, hprune, ok_bind]
  rfl

theorem load_initial : Manager.initial.loadLocked P createIo.load true =
    ({ Manager.initial with jobs := some ∅ }, .ok ∅) :=
  loadLocked_fine (joinDetails_empty ∅) rfl

theorem Fits.saving_create (h : Fits P) : create.saving P Manager.initial =
    some ⟨{ Manager.initial with jobs := some ∅ }, saveIo, only jobId created⟩ := by
  rw [create, Call.saving, h.checkedCreate]
  exact saving_of_loaded load_initial createOrJoin_empty

theorem storable_created : Storable platform (only jobId created) := by
  refine CheckedCandidate.storable
    (createOrJoin_checked (by decide +kernel) fits_platform.checkedCreate ?_
      (storable_empty platform)
      createOrJoin_empty) (storable_empty platform) (fun _ _ hr => by cases hr) rfl
  show ∀ token ∈ [jobId], isHex32 token = true
  decide +kernel

/-- Jobs of one plan are bound to it alike. -/
theorem planBound_of_created {r : InstallJobReceipt} (htarget : r.target = created.target)
    (hartifact : r.artifact = created.artifact) (hplan : r.planSha256 = created.planSha256)
    (hcredential : r.adbCredentialId = created.adbCredentialId) : r.planBound platform = true := by
  have hvalid : PrimaryValid platform created :=
    ((validate_ok_iff platform).mp
      (storable_created.valid jobId created (Dict.get?_set_self _ _ _))).2
  have hbound := hvalid.plan
  rw [InstallJobReceipt.planBound] at hbound ⊢
  rw [htarget, hartifact, hplan, hcredential]
  exact hbound

theorem plainTexts_platform : PlainTexts platform := by
  refine ⟨fun text ip h _ => ?_, nofun⟩
  simp only [platform] at h
  split at h
  · rename_i htext
    rw [htext]
    decide
  · cases h

theorem fine_saveIo : saveIo.Fine := ⟨rfl, rfl, rfl, rfl, rfl⟩

theorem basic_panel : ∀ c ∈ "Panel".toList, c.toNat < 65536 := by
  have hall : "Panel".toList.all (fun c => decide (c.toNat < 65536)) = true := by decide
  exact fun c hc => of_decide_eq_true (List.all_eq_true.mp hall c hc)

theorem settled_create : Settled platform (create.apply platform Manager.initial) jobId created ∧
    (create.apply platform Manager.initial).claimedJobs = ∅ := by
  have hsame : (only jobId created).Same (only jobId created) := .refl _
  have hheld : Held jobId created ∅ := fun _ _ hget => by cases hget
  obtain ⟨saved, hsaved, hsave⟩ := saveLocked_fine (P := platform)
    (m := { Manager.initial with jobs := some ∅ }) fine_saveIo rfl (fun _ _ hr => by cases hr)
    storable_created (detailless_of_same hsame rfl)
    (size_of_same plainTexts_platform hsame storable_created basic_panel) rfl rfl
  have hget : saved.get? jobId = some created := get?_only hsaved
  simp only [Manager.reconcileClaims] at hsave
  have hanswer := asyncCreateOrJoin_of_checked fits_platform.checkedCreate
    (perform_of_saved load_initial createOrJoin_empty hsave hget)
  rw [create, Call.apply, hanswer]
  exact ⟨⟨⟨_, saved, hsame, hsaved, storable_created, rfl, rfl⟩, hheld, rfl, basic_panel⟩, rfl⟩

/-! ### The calls after it -/

/-- What the calls have written, and where they leave the job. -/
structure Reached (calls : List Call) (written : List InstallJobReceipt) (r : InstallJobReceipt)
    (claims : Dict String Int) : Prop where
  written : (History.after platform calls).written = written
  settled : Settled platform (History.after platform calls).manager jobId r
  claims : (History.after platform calls).manager.claimedJobs = claims

theorem reached_create : Reached [create] [created] created ∅ := by
  have hmanager : ∀ call, (History.after platform [call]).manager =
      call.apply platform Manager.initial := fun _ => rfl
  have hwritten : ∀ call, (History.after platform [call]).written =
      proposed (call.saving platform Manager.initial) := fun _ => rfl
  obtain ⟨hsettled, hclaims⟩ := settled_create
  rw [← hmanager] at hsettled hclaims
  refine ⟨?_, hsettled, hclaims⟩
  rw [hwritten, fits_platform.saving_create, proposed, Option.elim_some, values_of_same (.refl _)]

section

variable {calls : List Call} {written : List InstallJobReceipt} {r r' : InstallJobReceipt}
  {claims claims' : Dict String Int} {a : TransitionArgs} {now : String}

theorem Reached.next {call : Call} (h : Reached calls written r claims)
    (hwrote : Wrote platform (History.after platform calls).manager call jobId r' claims') :
    Reached (calls ++ [call]) (written ++ [r']) r' claims' := by
  have hrun : History.after platform (calls ++ [call]) =
      (History.after platform calls).step platform call := Runs.run_concat _ _ _ _
  refine ⟨?_, ?_, ?_⟩
  · rw [hrun, History.step, h.written, hwrote.proposed]
  · rw [hrun]
    exact hwrote.settled
  · rw [hrun]
    exact hwrote.claims

theorem isHex_jobId : isHex32 jobId = true := by decide +kernel

theorem wrote_cancel :
    Wrote platform (History.after platform [create]).manager cancel jobId cancelled ∅ ∧
    ((History.after platform [create]).manager.asyncRequestCancel platform cancelIo jobId 0).2 =
      .ok ⟨cancelled, true⟩ := by
  obtain ⟨hwrote, hreply⟩ := reached_create.settled.requestCancel cancelIo plainTexts_platform
    isHex_jobId rfl fine_saveIo (by decide) rfl (by decide +kernel) (by decide +kernel) (by decide)
  rw [reached_create.claims] at hwrote
  exact ⟨hwrote, hreply⟩

theorem reached_cancel : Reached [create, cancel] [created, cancelled] cancelled ∅ :=
  reached_create.next wrote_cancel.1

theorem collisionFree_cancel :
    CollisionFree platform (History.after platform [create, cancel]).written := by
  rw [reached_cancel.written]
  exact collisionFree.mono platform (by simp [receipts])

/-- The receipts stand under the plan that the job was created with. -/
theorem valid_receipts (hr : r ∈ receipts) : validateReceiptInvariants platform r = .ok () := by
  have hbound : ∀ r ∈ receipts, r.target = created.target ∧ r.artifact = created.artifact ∧
      r.planSha256 = created.planSha256 ∧ r.adbCredentialId = created.adbCredentialId := by
    decide +kernel
  have hdetail : ∀ r ∈ receipts, r.detailViolated = false := by decide +kernel
  obtain ⟨htarget, hartifact, hplan, hcredential⟩ := hbound r hr
  refine (validate_ok_iff platform).mpr ⟨hdetail r hr, (primaryViolated_eq_false platform).mp ?_⟩
  rw [InstallJobReceipt.primaryViolated,
    planBound_of_created htarget hartifact hplan hcredential]
  clear hbound hdetail htarget hartifact hplan hcredential
  revert r
  decide +kernel

/-- What a transition of the run needs, next to the validity of what it writes. -/
def Fitting (r : InstallJobReceipt) (a : TransitionArgs) (now : String) : Prop :=
  checkedTransition platform a = true ∧
    transitionAllowed r (some r.executorGeneration) a = true ∧
    Clock now ∧ ¬ now < r.updatedAt ∧ r.revision + 1 ≤ 2 ^ 63 - 1

instance : Decidable (Fitting r a now) := inferInstanceAs (Decidable (_ ∧ _))

variable (a now) in
theorem Reached.advance (h : Reached calls written r claims) (hfitting : Fitting r a now)
    (hclaimed : claims.get? jobId = some r.executorGeneration)
    (hr : transitionedReceipt r a now ∈ receipts) (hruns : a.phase ∉ terminalPhases)
    (hopen : a.phase ≠ .healthyUnclaimed) :
    Reached (calls ++ [SmallRun.advance now r a]) (written ++ [transitionedReceipt r a now])
      (transitionedReceipt r a now) claims := by
  obtain ⟨hargs, hallowed, hnow, hclock, hrevision⟩ := hfitting
  refine h.next ?_
  have hwrote := h.settled.transition (opIo now) plainTexts_platform isHex_jobId rfl fine_saveIo
    (by rw [h.claims]; exact hclaimed) hargs hallowed (valid_receipts hr) hruns hopen hnow hclock
    hrevision
  rw [h.claims] at hwrote
  exact hwrote

theorem reached_claim :
    Reached [create, claim] [created, claimed] claimed ((∅ : Dict String Int).set jobId 1) :=
  reached_create.next (reached_create.settled.claim (opIo "2026-07-01T10:00:01+00:00")
    plainTexts_platform isHex_jobId rfl fine_saveIo (by decide) (by decide) (by decide) (by decide)
    reached_create.claims (by decide +kernel) (by decide +kernel) (by decide))

theorem reached_launch : Reached launch
    [created, claimed, authorizing, preflighted, installed, launching] launching
    ((∅ : Dict String Int).set jobId 1) := by
  have hauthorizing : Reached (launch.take 3) [created, claimed, authorizing] authorizing _ :=
    reached_claim.advance toAuthorizing "2026-07-01T10:00:02+00:00" (by decide +kernel) rfl
      (show authorizing ∈ receipts by simp [receipts]) (by decide) (by decide)
  have hpreflight : Reached (launch.take 4) [created, claimed, authorizing,
    preflighted] preflighted _ :=
    hauthorizing.advance toPreflight "2026-07-01T10:00:03+00:00" (by decide +kernel) rfl
      (show preflighted ∈ receipts by simp [receipts]) (by decide) (by decide)
  have hinstalled : Reached (launch.take 5) [created, claimed, authorizing, preflighted, installed]
      installed _ :=
    hpreflight.advance toInstalled "2026-07-01T10:00:04+00:00" (by decide +kernel) rfl
      (show installed ∈ receipts by simp [receipts]) (by decide) (by decide)
  exact hinstalled.advance toLaunching "2026-07-01T10:00:05+00:00" (by decide +kernel) rfl
    (show launching ∈ receipts by simp [receipts]) (by decide) (by decide)

theorem claimed_launch : (History.after platform launch).manager.claimedJobs.get? jobId =
    some launching.executorGeneration := by
  rw [reached_launch.claims]
  exact Dict.get?_set_self _ _ _

theorem load_launch : ∃ jobs,
    loadDurable platform (History.after platform launch).manager.disk = .ok jobs ∧
    jobs.get? jobId = some launching := by
  obtain ⟨jobs, hsame, -, hload, -⟩ := reached_launch.settled.load plainTexts_platform
  exact ⟨jobs, hload, get?_only hsame⟩

theorem saving_fail : ∃ s, fail.saving platform (History.after platform launch).manager = some s ∧
    s.candidate.Same (only jobId failed) := by
  have hfitting : Fitting launching toFailed "2026-07-01T10:00:06+00:00" := by decide +kernel
  obtain ⟨hargs, hallowed, hnow, -⟩ := hfitting
  exact reached_launch.settled.saving_transition
    (opIo "2026-07-01T10:00:06+00:00") plainTexts_platform
    isHex_jobId rfl rfl claimed_launch hargs hallowed
    (valid_receipts (show failed ∈ receipts by simp [receipts])) hnow

end

end SmallRun

/-- After the creation and the cancellation of a job. -/
theorem install_job_store_invariant_small_run :
    ∃ jobs jobs', loadDurable SmallRun.platform
        (History.after SmallRun.platform [SmallRun.create]).manager.disk = .ok jobs ∧
      loadDurable SmallRun.platform
        (History.after SmallRun.platform [SmallRun.create, SmallRun.cancel]).manager.disk =
          .ok jobs' ∧
      TableOk SmallRun.platform jobs ∧ TableOk SmallRun.platform jobs' ∧
      ∀ jobId r, jobs.get? jobId = some r → Outcome r (jobs'.get? jobId) := by
  obtain ⟨jobs, jobs', hload, hload', hok, hok', houtcome, -⟩ :=
    install_job_store_invariant SmallRun.platform [SmallRun.create] SmallRun.cancel
      SmallRun.collisionFree_cancel
  exact ⟨jobs, jobs', hload, hload', hok, hok', houtcome⟩

end PanelAssistant
