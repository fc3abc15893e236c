import PanelAssistant.InstallJobs.Sizes
import PanelAssistant.InstallJobs.Storing

/-!
# Saves that succeed

While the file system does what it is asked for, a storable table without failure details is
written and read back as it is (`saveLocked_fine`), and it loads again (`loadLocked_fine`). So a
manager that has saved its only job (`Settled`) answers the next operation with the receipt that
this one writes, and has saved it (`Settled.perform`).
-/

namespace PanelAssistant

open Library

section

variable {P : Platform} {m : Manager} {jobs cached : Jobs}

/-- No receipt of the table carries a failure detail. -/
def Detailless (jobs : Jobs) : Prop := ∀ jobId r, jobs.get? jobId = some r → r.failureStage = none

/-- Every read and every write of the save succeeds, and its caller is not cancelled. -/
structure SaveIo.Fine (io : SaveIo) : Prop where
  staleRead : io.staleRead = .ok
  write : io.write = .saved
  presence : io.presence = true
  read : io.read = true
  cancelled : io.cancelled = false

theorem detailsOf_detailless (h : Detailless jobs) : detailsOf P jobs = ∅ := by
  have hnone : jobs.values.filterMap (detailFor P) = [] := by
    rw [List.filterMap_eq_nil_iff]
    intro r hr
    obtain ⟨jobId, hget⟩ := Dict.mem_values.mp hr
    rw [detailFor, h jobId r hget, Option.map_none]
  rw [detailsOf, hnone]
  rfl

theorem joinDetails_empty (jobs : Jobs) :
    joinDetails P jobs ∅ = .ok (jobs.map fun _ r => r) := by
  have hrefused : (jobs.entries.any fun e => joinRefused P ∅ e.1 e.2) = false := by
    rw [List.any_eq_false]
    exact fun e _ => Bool.false_ne_true
  rw [joinDetails, hrefused]
  rfl

/-- Without its detail a receipt of a storable table is what it is. -/
theorem clearDetail_of_detailless (hstorable : Storable P jobs) (h : Detailless jobs)
    {jobId : String} {r : InstallJobReceipt} (hr : jobs.get? jobId = some r) :
    r.clearDetail = r := by
  have hstage := h jobId r hr
  obtain ⟨hdetail, -⟩ := (validate_ok_iff P).mp (hstorable.valid jobId r hr)
  simp only [InstallJobReceipt.detailViolated, Bool.or_eq_false_iff, hstage, Option.isNone_none,
    Bool.and_true, Option.isSome_eq_false_iff, Option.isNone_iff_eq_none] at hdetail
  exact clearDetail_of_none hstage hdetail.1.1.1

theorem readBack_detailless (hstorable : Storable P jobs) (h : Detailless jobs) :
    ((readBack jobs).map fun _ r => r).Same jobs := by
  intro jobId
  rw [Dict.get?_map, hstorable.readBack_same jobId, Dict.get?_map]
  cases hr : jobs.get? jobId with
  | none => rfl
  | some r =>
    rw [Option.map_some, Option.map_some, clearDetail_of_detailless hstorable h hr]

/-- The file of a table reads back as its document. -/
theorem readJobs_saved (hstorable : Storable P jobs)
    (hsize : sizeAllowed (wrapDocument storeKey (serializeDocument jobs)) = true) {disk : Disk}
    (hdisk : disk.primary = some (wrapDocument storeKey (serializeDocument jobs))) :
    readJobs P disk = .ok (readBack jobs) := by
  simp only [readJobs, hdisk, readDurable, hsize, if_true, parseStoreDocument,
    parseStoreBody_wrapDocument, ok_bind, hstorable.reads]

theorem loadDurable_saved (hstorable : Storable P jobs) (hplain : Detailless jobs)
    (hsize : sizeAllowed (wrapDocument storeKey (serializeDocument jobs)) = true) {disk : Disk}
    (hdisk : disk.primary = some (wrapDocument storeKey (serializeDocument jobs)))
    (hdetail : disk.detail = none) :
    ∃ loaded, loadDurable P disk = .ok loaded ∧ loaded.Same jobs := by
  refine ⟨_, ?_, readBack_detailless hstorable hplain⟩
  simp only [loadDurable, readJobs_saved hstorable hsize hdisk, readDetails, hdetail, ok_bind,
    joinDetails_empty, pure, Except.pure]

/-- A load whose reads succeed, where every claimed job reads as it is cached. -/
theorem loadLocked_fine {loaded : Jobs} (hload : loadDurable P m.disk = .ok loaded)
    (hdrift : claimDrifted m loaded = false) :
    m.loadLocked P ⟨.ok, .ok⟩ true =
      ({ m with jobs := some loaded }.reconcileClaims, .ok loaded) := by
  simp only [loadDurable, bind_eq_ok] at hload
  obtain ⟨read, hread, details, hdetails, hjoin⟩ := hload
  have hlocked : readLocked P m ⟨.ok, .ok⟩ = .ok loaded := by
    simp only [readLocked, ReadIo.guard, hread, hdetails, hjoin, hdrift, ok_bind, pure, Except.pure,
      check, Bool.not_false, if_true]
  unfold Manager.loadLocked
  split
  · rename_i hrefresh
    cases hrefresh
  · simp only [hlocked, asStoreError]

/-- A storable table without details is saved while everything the file system does succeeds. -/
theorem saveLocked_fine {io : SaveIo} (hio : io.Fine) (hcached : m.jobs = some cached)
    (hold : Detailless cached) (hstorable : Storable P jobs) (hplain : Detailless jobs)
    (hsize : sizeAllowed (wrapDocument storeKey (serializeDocument jobs)) = true)
    (hclock : clockReversed cached jobs = false) (hdetail : m.disk.detail = none) :
    ∃ saved, saved.Same jobs ∧ m.saveLocked P io jobs =
      (Manager.reconcileClaims ⟨⟨some (wrapDocument storeKey (serializeDocument jobs)), none⟩,
        some saved, m.claimedJobs⟩, .ok saved) := by
  have hsame := readBack_detailless hstorable hplain
  have hplan : planSave P m io jobs =
      .ok ⟨serializeDocument jobs, ∅, ∅, none, none⟩ := by
    have hstale : staleDetails m io ∅ = .ok false := by
      simp only [staleDetails, readDetails, hdetail, hio.staleRead]
      rfl
    simp only [planSave, hstorable.saves, hsize, if_true, ok_bind, hcached, hclock,
      detailsOf_detailless hold, detailsOf_detailless hplain]
    show (staleDetails m io ∅ >>= _) = _
    rw [hstale]
    rfl
  have hread : readJobs P ⟨some (wrapDocument storeKey (serializeDocument jobs)), none⟩ =
      .ok (readBack jobs) := readJobs_saved hstorable hsize rfl
  have hverified : verifyPrimary P jobs ⟨serializeDocument jobs, ∅, ∅, none, none⟩
      ⟨some (wrapDocument storeKey (serializeDocument jobs)), none⟩ io =
        .ok ⟨false, some ((readBack jobs).map fun _ r => r)⟩ := by
    simp [verifyPrimary, hio.write, hio.presence, hio.read, readback, hread, Except.toOption,
      hstorable.serializeDocument_readBack, joinDetails_empty, Dict.beq_iff.mpr hsame,
      Functor.map, Except.map]
  refine ⟨(readBack jobs).map fun _ r => r, hsame, ?_⟩
  generalize (readBack jobs).map (fun _ r => r) = saved at hverified ⊢
  generalize serializeDocument jobs = document at hplan hverified ⊢
  generalize hfile : wrapDocument storeKey document = file at hverified ⊢
  have hprimary : savePrimary P jobs ⟨document, ∅, ∅, none, none⟩ m.disk io =
      (⟨some file, none⟩, .ok saved) := by
    have hwrite : m.disk.writePrimary .saved document = ⟨some file, none⟩ := by
      rw [← hfile, ← hdetail]
      rfl
    simp only [savePrimary, hio.write, hwrite, hverified]
  unfold Manager.saveLocked
  simp only [hplan, asStoreError, saveDetails, hprimary, hio.cancelled]
  rfl

/-! ## Operations that save -/

section

variable {m₁ m₂ : Manager} {loaded candidate saved : Jobs} {jobId : String} {io : OpIo}
  {decide : Jobs → Dict String Int → Except InstallJobError Plan}

theorem saving_of_loaded (hload : m.loadLocked P io.load true = (m₁, .ok loaded))
    (hdecide : decide loaded m₁.claimedJobs = .ok (.save candidate jobId)) :
    m.saving P io decide = some ⟨m₁, io.save, candidate⟩ := by
  simp only [Manager.saving, hload, hdecide]

/-- An operation whose load and save succeed answers what it saved. -/
theorem perform_of_saved {receipt : InstallJobReceipt}
    (hload : m.loadLocked P io.load true = (m₁, .ok loaded))
    (hdecide : decide loaded m₁.claimedJobs = .ok (.save candidate jobId))
    (hsave : m₁.saveLocked P io.save candidate = (m₂, .ok saved))
    (hget : saved.get? jobId = some receipt) :
    m.perform P io decide = (m₂, .ok ⟨receipt, true⟩) := by
  simp only [Manager.perform, hload, hdecide, hsave, hget]

theorem asyncCreateOrJoin_of_checked {a a' : CreateArgs}
    {answer : Manager × Except InstallJobError Reply}
    (hchecked : checkedCreate P a = .ok a')
    (hperform : m.perform P io (fun jobs _ => createOrJoin a' io.now jobs) = answer) :
    m.asyncCreateOrJoin P io a = answer := by
  rw [Manager.asyncCreateOrJoin, hchecked]
  exact hperform

end

/-! ## The only job -/

section

variable {table loaded kept : Jobs} {jobId now : String} {r r' : InstallJobReceipt}
  {claims : Dict String Int} {io : OpIo}

/-- The table of one job. -/
def only (jobId : String) (r : InstallJobReceipt) : Jobs := (∅ : Jobs).set jobId r

theorem get?_of_same (h : table.Same (only jobId r)) {id : String} (hr : table.get? id = some r') :
    id = jobId ∧ r' = r := by
  rw [h id, only, Dict.get?_set] at hr
  split at hr
  · rename_i hid
    exact ⟨hid, (Option.some.inj hr).symm⟩
  · cases hr

theorem get?_only (h : table.Same (only jobId r)) : table.get? jobId = some r := by
  rw [h jobId]
  exact Dict.get?_set_self _ _ _

theorem values_of_same (h : table.Same (only jobId r)) : table.values = [r] :=
  List.perm_singleton.mp h.values_perm

theorem detailless_of_same (h : table.Same (only jobId r)) (hr : r.failureStage = none) :
    Detailless table :=
  fun _ _ hget => (get?_of_same h hget).2 ▸ hr

theorem clock_of_same (h : loaded.Same (only jobId r)) (h' : kept.Same (only jobId r'))
    (hclock : ¬ r'.updatedAt < r.updatedAt) : clockReversed loaded kept = false := by
  rw [clockReversed, List.any_eq_false]
  intro e he
  rw [Bool.not_eq_true, any_eq_false_iff]
  intro x hx
  rw [decide_eq_false_iff_not, (get?_of_same h (Dict.get?_eq_some.mpr he)).2,
    (get?_of_same h' hx).2]
  exact hclock

/-- One job of a plain model can always be written. -/
theorem size_of_same (hplain : PlainTexts P) (h : table.Same (only jobId r))
    (hstorable : Storable P table) (hbasic : ∀ c ∈ r.target.model.toList, c.toNat < 65536) :
    sizeAllowed (wrapDocument storeKey (serializeDocument table)) = true := by
  refine sizeAllowed_of_models hplain hstorable.parsed ?_
  have hvalues : table.values = [r] := values_of_same h
  have hwidths : modelWidths table ≤ 770 * table.values.length := by
    refine modelWidths_le_of_basic (fun r hr => (hstorable.parsed r hr).1) fun r' hr' => ?_
    rw [hvalues, List.mem_singleton] at hr'
    exact hr' ▸ hbasic
  rw [hvalues, List.length_singleton] at hwidths ⊢
  rw [maxStoreBytes]
  omega

theorem set_same (h : loaded.Same (only jobId r)) (r' : InstallJobReceipt) :
    (loaded.set jobId r').Same (only jobId r') := by
  intro id
  rw [Dict.get?_set, only, Dict.get?_set]
  split
  · rfl
  · rename_i hid
    rw [h id, only, Dict.get?_set_ne _ _ hid]

/-- A clock that `_prune` accepts. -/
def Clock (now : String) : Prop :=
  timestamp (.str now) = .ok now ∧
    (fromIsoFormat now).any (fun instant => decide (0 ≤ instant - terminalRetention)) = true

instance : Decidable (Clock now) := inferInstanceAs (Decidable (_ ∧ _))

/-- Pruning keeps a job that runs, and one that has just ended. -/
theorem prune_same (hnow : Clock now) (h : table.Same (only jobId r))
    (hlast : r.isTerminal = false ∨ r.jobId = jobId ∧ r.updatedAt = now) :
    ∃ kept, prune table now = .ok kept ∧ kept.Same (only jobId r) := by
  obtain ⟨instant, hinstant, hcutoff⟩ := any_eq_true_iff.mp hnow.2
  have hretained : r.isTerminal = true →
      ((((terminalOf table.values).insertionSort updatedOrder).take maxTerminalJobs).filter fun r =>
        (fromIsoFormat r.updatedAt).any fun updated =>
          decide (instant - terminalRetention ≤ updated)) = [r] := by
    intro hend
    obtain ⟨-, htime⟩ := hlast.resolve_left (by rw [hend]; decide)
    have hterminal : terminalOf [r] =
      [r] := by rw [terminalOf, List.filter_singleton, hend, cond_true]
    have hrecent : 0 ≤ terminalRetention := by decide
    rw [values_of_same h, hterminal]
    simp [maxTerminalJobs, htime, hinstant, hrecent]
  refine ⟨_, by simp only [prune, hinstant, hcutoff, check, if_true, ok_bind]; rfl, fun id => ?_⟩
  rw [Dict.get?_filter]
  cases hget : table.get? id with
  | none =>
    rw [← h id, hget]
    rfl
  | some r' =>
    obtain ⟨rfl, rfl⟩ := get?_of_same h hget
    rw [← h id, hget, Option.filter_some]
    cases hend : r'.isTerminal with
    | false => rfl
    | true =>
      obtain ⟨hself, -⟩ := hlast.resolve_left (by rw [hend]; decide)
      rw [hretained hend, List.map_singleton, hself]
      simp

/-- The claims are those that a table of this job leaves. -/
def Held (jobId : String) (r : InstallJobReceipt) (claims : Dict String Int) : Prop :=
  ∀ id generation, claims.get? id = some generation →
    id = jobId ∧ generation = r.executorGeneration ∧
    r.isTerminal = false ∧ r.phase ≠ .healthyUnclaimed

theorem filter_held (h : Held jobId r claims) (hsame : table.Same (only jobId r)) :
    claims.filter (Manager.claimCurrent table) = claims := by
  have hcurrent : ∀ e ∈ claims.entries, Manager.claimCurrent table e.1 e.2 = true := by
    intro e he
    obtain ⟨hid, hgeneration, hactive, hopen⟩ := h e.1 e.2 (Dict.get?_eq_some.mpr he)
    rw [Manager.claimCurrent, hid, get?_only hsame, Option.any_some, hactive, hgeneration]
    simp [hopen]
  obtain ⟨entries, hnodup⟩ := claims
  simp only [Dict.filter, Dict.mk.injEq]
  exact List.filter_eq_self.mpr hcurrent

/-- A manager that has saved its only job, with the claims that it holds. -/
structure Settled (P : Platform) (m : Manager) (jobId : String) (r : InstallJobReceipt) : Prop where
  saved : ∃ table cached : Jobs, table.Same (only jobId r) ∧ cached.Same (only jobId r) ∧
    Storable P table ∧ m.jobs = some cached ∧
    m.disk = ⟨some (wrapDocument storeKey (serializeDocument table)), none⟩
  held : Held jobId r m.claimedJobs
  stage : r.failureStage = none
  basic : ∀ c ∈ r.target.model.toList, c.toNat < 65536

theorem drift_same {m : Manager} {cached : Jobs} (hjobs : m.jobs = some cached)
    (hcached : cached.Same (only jobId r)) (hloaded : loaded.Same (only jobId r)) :
    claimDrifted m loaded = false := by
  rw [claimDrifted, hjobs, Option.any_some, List.any_eq_false]
  intro id _
  simp [hloaded id, hcached id]

/-- A settled manager loads its table and keeps its claims. -/
theorem Settled.load {m : Manager} (hplain : PlainTexts P) (h : Settled P m jobId r) :
    ∃ loaded, loaded.Same (only jobId r) ∧ Storable P loaded ∧ loadDurable P m.disk = .ok loaded ∧
      m.loadLocked P ⟨.ok, .ok⟩ true = ({ m with jobs := some loaded }, .ok loaded) := by
  obtain ⟨table, cached, htable, hcached, hstorable, hjobs, hdisk⟩ := h.saved
  obtain ⟨loaded, hload, hloaded⟩ : ∃ loaded, loadDurable P m.disk = .ok loaded ∧
    loaded.Same table :=
    loadDurable_saved hstorable (detailless_of_same htable h.stage)
      (size_of_same hplain htable hstorable h.basic) (by rw [hdisk]) (by rw [hdisk])
  have hsame : loaded.Same (only jobId r) := hloaded.trans htable
  refine ⟨loaded, hsame, hstorable.same P hloaded, hload, ?_⟩
  rw [loadLocked_fine hload (drift_same hjobs hcached hsame)]
  simp only [Manager.reconcileClaims, filter_held h.held hsame]

/-- The next operation on the only job saves the receipt that it writes, and answers it. -/
theorem Settled.perform {m : Manager} (hplain : PlainTexts P) (h : Settled P m jobId r)
    (hio : io.load = ⟨.ok, .ok⟩) (hfine : io.save.Fine)
    (decide : Jobs → Dict String Int → Except InstallJobError Plan)
    (hdecide : ∀ loaded, loaded.Same (only jobId r) → Storable P loaded → ∃ kept,
      decide loaded m.claimedJobs = .ok (.save kept jobId) ∧ kept.Same (only jobId r') ∧
        CheckedCandidate P loaded kept)
    (hheld : Held jobId r' m.claimedJobs) (hstage : r'.failureStage = none)
    (htarget : r'.target = r.target) (hclock : ¬ r'.updatedAt < r.updatedAt)
    (hrevision : r.revision + 1 ≤ 2 ^ 63 - 1) :
    proposed (m.saving P io decide) = [r'] ∧ (m.perform P io decide).2 = .ok ⟨r', true⟩ ∧
      Settled P (m.perform P io decide).1 jobId r' ∧
      (m.perform P io decide).1.claimedJobs = m.claimedJobs := by
  obtain ⟨loaded, hloaded, hstorable, -, hload⟩ := h.load hplain
  obtain ⟨kept, hplan, hkept, hchecked⟩ := hdecide loaded hloaded hstorable
  rw [← hio] at hload
  have hbasic : ∀ c ∈ r'.target.model.toList, c.toNat < 65536 := htarget ▸ h.basic
  have hreversed : clockReversed loaded kept = false := clock_of_same hloaded hkept hclock
  have hnew : Storable P kept :=
    hchecked.storable hstorable (fun _ _ hr => (get?_of_same hloaded hr).2 ▸ hrevision) hreversed
  obtain ⟨saved, hsaved, hsave⟩ :=
    saveLocked_fine (P := P) (m := { m with jobs := some loaded }) hfine rfl
    (detailless_of_same hloaded h.stage) hnew (detailless_of_same hkept hstage)
    (size_of_same hplain hkept hnew hbasic) hreversed (by
      obtain ⟨table, cached, -, -, -, -, hdisk⟩ := h.saved
      rw [hdisk])
  have hsame : saved.Same (only jobId r') := hsaved.trans hkept
  simp only [Manager.reconcileClaims, filter_held hheld hsame] at hsave
  have hperform := perform_of_saved hload hplan hsave (get?_only hsame)
  refine ⟨?_, ?_, ?_, ?_⟩
  · rw [saving_of_loaded hload hplan, proposed, Option.elim_some, values_of_same hkept]
  · rw [hperform]
  · rw [hperform]
    exact ⟨⟨kept, saved, hkept, hsame, hnew, rfl, rfl⟩, hheld, hstage, hbasic⟩
  · rw [hperform]

/-! ## Calls about the only job -/

/-- The call saved a receipt of the job and answered it. -/
structure Wrote (P : Platform) (m : Manager) (call : Call) (jobId : String) (r' : InstallJobReceipt)
    (claims : Dict String Int) : Prop where
  proposed : proposed (call.saving P m) = [r']
  settled : Settled P (call.apply P m) jobId r'
  claims : (call.apply P m).claimedJobs = claims

theorem checkedCurrent_same (hid : isHex32 jobId = true) (h : loaded.Same (only jobId r)) :
    checkedCurrent loaded jobId r.revision = .ok r :=
  checkedCurrent_eq_ok.mpr ⟨hid, get?_only h, rfl⟩

variable (io) in
theorem Settled.requestCancel {m : Manager} (hplain : PlainTexts P) (h : Settled P m jobId r)
    (hid : isHex32 jobId = true) (hio : io.load = ⟨.ok, .ok⟩) (hfine : io.save.Fine)
    (hphase : r.phase ∈ cancellablePhases) (hfirst : r.cancelRequested = false)
    (hnow : Clock io.now) (hclock : ¬ io.now < r.updatedAt)
    (hrevision : r.revision + 1 ≤ 2 ^ 63 - 1) :
    Wrote P m (.requestCancel io jobId r.revision) jobId (cancelledReceipt r io.now) m.claimedJobs ∧
      (m.asyncRequestCancel P io jobId r.revision).2 = .ok ⟨cancelledReceipt r io.now, true⟩ := by
  have hdecide : ∀ loaded, loaded.Same (only jobId r) → Storable P loaded → ∃ kept,
      PanelAssistant.requestCancel jobId r.revision io.now loaded = .ok (.save kept jobId) ∧
        kept.Same (only jobId (cancelledReceipt r io.now)) ∧ CheckedCandidate P loaded kept := by
    intro loaded hloaded hstorable
    have hplan : PanelAssistant.requestCancel jobId r.revision io.now loaded =
        .ok (.save (loaded.set jobId (cancelledReceipt r io.now)) jobId) := by
      simp only [PanelAssistant.requestCancel, checkedCurrent_same hid hloaded,
        ok_bind, check, hphase, hfirst, hnow.1, decide_true, if_true, Bool.false_eq_true, if_false]
      rfl
    exact ⟨_, hplan, set_same hloaded _, requestCancel_checked hstorable hplan⟩
  have hheld : Held jobId (cancelledReceipt r io.now) m.claimedJobs := h.held
  obtain ⟨hproposed, hreply, hsettled, hclaims⟩ :=
    h.perform hplain hio hfine (fun jobs _ =>
      PanelAssistant.requestCancel jobId r.revision io.now jobs)
      hdecide hheld h.stage rfl hclock hrevision
  exact ⟨⟨hproposed, hsettled, hclaims⟩, hreply⟩

variable (io) in
/-- A job that no mutation was interrupted in is claimed, and the claim is held. -/
theorem Settled.claim {m : Manager} (hplain : PlainTexts P) (h : Settled P m jobId r)
    (hid : isHex32 jobId = true) (hio : io.load = ⟨.ok, .ok⟩) (hfine : io.save.Fine)
    (hactive : r.isTerminal = false) (hopen : r.phase ≠ .healthyUnclaimed)
    (hmore : attemptsExhausted r = false) (hsafe : r.phase ∉ restartAmbiguousPhases)
    (hunclaimed : m.claimedJobs = ∅) (hnow : Clock io.now) (hclock : ¬ io.now < r.updatedAt)
    (hrevision : r.revision + 1 ≤ 2 ^ 63 - 1) :
    Wrote P m (.claim io jobId r.revision none) jobId (claimedReceipt r io.now)
      ((∅ : Dict String Int).set jobId (r.executorGeneration + 1)) := by
  have hreceipt : claimedReceipt r io.now =
      { r with
        revision := r.revision + 1, executorGeneration := r.executorGeneration + 1,
        updatedAt := io.now, attempt := r.attempt + 1, resultCode := none, failureStage := none,
        resultSubcode := none } := by
    simp only [claimedReceipt, hmore, hsafe, Bool.false_eq_true, if_false]
  have hrunning : (claimedReceipt r io.now).isTerminal = false := by
    rw [hreceipt]
    exact hactive
  have hdecide : ∀ loaded, loaded.Same (only jobId r) → Storable P loaded → ∃ kept,
      PanelAssistant.claim jobId r.revision none io.now loaded m.claimedJobs =
        .ok (.save kept jobId) ∧
        kept.Same (only jobId (claimedReceipt r io.now)) ∧ CheckedCandidate P loaded kept := by
    intro loaded hloaded hstorable
    obtain ⟨kept, hprune, hkept⟩ := prune_same hnow (set_same hloaded (claimedReceipt r io.now))
      (.inl hrunning)
    have hplan : PanelAssistant.claim jobId r.revision none io.now loaded m.claimedJobs =
        .ok (.save kept jobId) := by
      have hfree : ((∅ : Dict String Int).get? jobId = some r.executorGeneration) = False := by simp
      simp only [PanelAssistant.claim, checkedCurrent_same hid hloaded, ok_bind,
        check, hactive, hopen, hunclaimed, hfree, hmore, hsafe, hnow.1, hprune, ne_eq,
        not_false_eq_true, decide_true, decide_false, Bool.not_false, Bool.and_self, Bool.or_self,
        Bool.true_or, Option.all_none, if_true, if_false]
      rfl
    exact ⟨kept, hplan, hkept, claim_checked hstorable hplan⟩
  have hheld : Held jobId (claimedReceipt r io.now) m.claimedJobs := by
    intro id generation hget
    rw [hunclaimed] at hget
    cases hget
  obtain ⟨hproposed, hreply, hsettled, hclaims⟩ := h.perform hplain hio hfine _ hdecide hheld
    (by rw [hreceipt]) (by rw [hreceipt]) (by rw [hreceipt]; exact hclock) hrevision
  have hrun : m.asyncClaim P io jobId r.revision none =
      ((m.perform P io (PanelAssistant.claim jobId r.revision none io.now)).1.holdClaim jobId
        ⟨claimedReceipt r io.now, true⟩, .ok ⟨claimedReceipt r io.now, true⟩) := by
    unfold Manager.asyncClaim
    generalize m.perform P io (PanelAssistant.claim jobId r.revision none io.now) =
      answer at hreply ⊢
    obtain ⟨m', reply⟩ := answer
    cases hreply
    rfl
  have hclaim : (Call.claim io jobId r.revision none).apply P m =
      { (m.perform P io (PanelAssistant.claim jobId r.revision none io.now)).1 with
        claimedJobs := (∅ : Dict String Int).set jobId (r.executorGeneration + 1) } := by
    rw [Call.apply, hrun]
    simp only [Manager.holdClaim, hrunning, Bool.not_false, Bool.and_self,
      if_true, hclaims, hunclaimed]
    rw [hreceipt]
  refine ⟨hproposed, ?_, by rw [hclaim]⟩
  rw [hclaim]
  refine ⟨hsettled.saved, fun id generation hget => ?_, hsettled.stage, hsettled.basic⟩
  rw [Dict.get?_set] at hget
  split at hget
  · rename_i hsame
    rw [← Option.some.inj hget, hreceipt]
    exact ⟨hsame, rfl, hactive, hopen⟩
  · cases hget

/-- What an allowed transition of the claimed job decides to save. -/
theorem transition_same {a : TransitionArgs} (hid : isHex32 jobId = true)
    (hclaimed : claims.get? jobId = some r.executorGeneration)
    (hargs : checkedTransition P a = true)
    (hallowed : transitionAllowed r (some r.executorGeneration) a = true)
    (hvalid : validateReceiptInvariants P (transitionedReceipt r a now) = .ok ())
    (hlast : a.phase ∉ terminalPhases ∨ r.jobId = jobId) (hnow : Clock now)
    (hloaded : loaded.Same (only jobId r)) (hstorable : Storable P loaded) :
    ∃ kept, transition P jobId r.revision a now loaded claims = .ok (.save kept jobId) ∧
      kept.Same (only jobId (transitionedReceipt r a now)) ∧ CheckedCandidate P loaded kept := by
  obtain ⟨kept, hprune, hkept⟩ := prune_same hnow (set_same hloaded (transitionedReceipt r a now))
    (hlast.imp isTerminal_eq_false.mpr fun hself => ⟨hself, rfl⟩)
  have hadvance : advanceReceipt P r (claims.get? jobId) a now =
    .ok (transitionedReceipt r a now) := by
    simp only [advanceReceipt, hclaimed, check, hallowed, if_true, hnow.1, ok_bind, hvalid]
    rfl
  have hplan : transition P jobId r.revision a now loaded claims = .ok (.save kept jobId) := by
    simp only [transition, checkedCurrent_same hid hloaded, ok_bind, hadvance]
    show (prune (loaded.set jobId (transitionedReceipt r a now)) now >>= _) = _
    rw [hprune]
    rfl
  exact ⟨kept, hplan, hkept, transition_checked hstorable hargs hplan⟩

variable (io) in
/-- The claimed job makes a transition that is allowed. -/
theorem Settled.transition {m : Manager} (hplain : PlainTexts P) (h : Settled P m jobId r)
    (hid : isHex32 jobId = true) (hio : io.load = ⟨.ok, .ok⟩) (hfine : io.save.Fine)
    {a : TransitionArgs} (hclaimed : m.claimedJobs.get? jobId = some r.executorGeneration)
    (hargs : checkedTransition P a = true)
    (hallowed : transitionAllowed r (some r.executorGeneration) a = true)
    (hvalid : validateReceiptInvariants P (transitionedReceipt r a io.now) = .ok ())
    (hruns : a.phase ∉ terminalPhases) (hopen : a.phase ≠ .healthyUnclaimed) (hnow : Clock io.now)
    (hclock : ¬ io.now < r.updatedAt) (hrevision : r.revision + 1 ≤ 2 ^ 63 - 1) :
    Wrote P m (.transition io jobId r.revision a) jobId (transitionedReceipt r a io.now)
      m.claimedJobs := by
  have hstage : (transitionedReceipt r a io.now).failureStage = none := by
    have hfailed : a.phase ≠ .failed := fun heq => hruns (heq ▸ by decide)
    have hrecovery : a.phase ≠ .recoveryRequired := fun heq => hruns (heq ▸ by decide)
    simp [transitionedReceipt, hfailed, hrecovery]
  have hheld : Held jobId (transitionedReceipt r a io.now) m.claimedJobs := by
    intro id generation hget
    obtain ⟨rfl, hgeneration, -⟩ := h.held id generation hget
    exact ⟨rfl, hgeneration, isTerminal_eq_false.mpr hruns, hopen⟩
  obtain ⟨hproposed, -, hsettled, hclaims⟩ :=
    h.perform hplain hio hfine _ (fun _ => transition_same hid hclaimed hargs hallowed hvalid
      (.inl hruns) hnow) hheld hstage rfl hclock hrevision
  have happly : (Call.transition io jobId r.revision a).apply P m =
      (m.perform P io (PanelAssistant.transition P jobId r.revision a io.now)).1 := by
    rw [Call.apply, Manager.asyncTransition, if_pos hargs]
  refine ⟨?_, ?_, ?_⟩
  · rw [Call.saving, if_pos hargs]
    exact hproposed
  · rw [happly]
    exact hsettled
  · rw [happly]
    exact hclaims

variable (io) in
/-- The save that a transition to any phase enters. -/
theorem Settled.saving_transition {m : Manager} (hplain : PlainTexts P) (h : Settled P m jobId r)
    (hid : isHex32 jobId = true) (hself : r.jobId = jobId) (hio : io.load = ⟨.ok, .ok⟩)
    {a : TransitionArgs} (hclaimed : m.claimedJobs.get? jobId = some r.executorGeneration)
    (hargs : checkedTransition P a = true)
    (hallowed : transitionAllowed r (some r.executorGeneration) a = true)
    (hvalid : validateReceiptInvariants P (transitionedReceipt r a io.now) = .ok ())
    (hnow : Clock io.now) :
    ∃ s, (Call.transition io jobId r.revision a).saving P m = some s ∧
      s.candidate.Same (only jobId (transitionedReceipt r a io.now)) := by
  obtain ⟨loaded, hloaded, hstorable, -, hload⟩ := h.load hplain
  obtain ⟨kept, hplan, hkept, -⟩ := transition_same hid hclaimed hargs hallowed hvalid (.inr hself)
    hnow hloaded hstorable
  rw [← hio] at hload
  refine ⟨⟨{ m with jobs := some loaded }, io.save, kept⟩, ?_, hkept⟩
  rw [Call.saving, if_pos hargs]
  exact saving_of_loaded hload hplan

/-- Whoever holds the claim passes the barrier of the job's phase. -/
theorem Settled.barrier {m : Manager} (hplain : PlainTexts P) (h : Settled P m jobId r)
    (hid : isHex32 jobId = true) (hclaimed : m.claimedJobs.get? jobId = some r.executorGeneration)
    (hphase : r.phase ∈ mutationBarriers) (hfree : r.cancelRequested = false) :
    (m.asyncVerifyMutationBarrier P ⟨⟨.ok, .ok⟩, ⟨.ok, .ok⟩,
      ⟨.ok, .ok⟩⟩ jobId r.revision r.phase).2 =
      .ok r := by
  obtain ⟨loaded, hloaded, -, hload, -⟩ := h.load hplain
  obtain ⟨table, cached, -, hcached, -, hjobs, hdisk⟩ := h.saved
  have hmemory : m.loadLocked P ⟨.ok, .ok⟩ false = (m, .ok cached) := by
    unfold Manager.loadLocked
    simp only [hjobs]
  have hsnapshot : readSnapshot P m ⟨.ok, .ok⟩ = .ok loaded := by
    simp only [loadDurable, bind_eq_ok] at hload
    obtain ⟨read, hread, details, hdetails, hjoin⟩ := hload
    have hpresent : m.disk.primary.isSome = true := by rw [hdisk]; rfl
    simp only [readSnapshot, ReadIo.guard, hpresent, check, if_true, hread,
      hdetails, ok_bind, hjoin, pure, Except.pure]
  have hdurable : m.loadDurableLocked P ⟨.ok, .ok⟩ ⟨.ok, .ok⟩ =
      ({ m with jobs := some loaded }, .ok loaded) := by
    have hsnapshots : readSnapshots P m ⟨.ok, .ok⟩ ⟨.ok, .ok⟩ = .ok loaded := by
      simp only [readSnapshots, hsnapshot, ok_bind, Dict.beq_iff.mpr (Dict.Same.refl loaded),
        check, if_true]
      rfl
    simp only [Manager.loadDurableLocked, hsnapshots, asStoreError, Manager.reconcileClaims,
      filter_held h.held hloaded]
  simp only [Manager.asyncVerifyMutationBarrier, hphase, if_true, Manager.verifyBarrier, hmemory,
    checkedCurrent_same hid hcached, hdurable, checkedCurrent_same hid hloaded,
      hfree, hclaimed, and_self]

end

end

end PanelAssistant
