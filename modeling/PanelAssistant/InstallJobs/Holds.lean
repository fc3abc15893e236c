import PanelAssistant.InstallJobs.Candidate

/-!
# A manager that holds a table

`Holds written m jobs`: both files hold the table `jobs`, the cache is that table or empty,
and every claim in memory is of an active receipt of that table at its current generation.
Loading keeps the invariant and returns the table; a save moves it to the old table or to
the candidate, and to the candidate when it succeeds (`Holds.saveLocked`).
-/

namespace PanelAssistant

open Library InstallPhase

variable (P : Platform)

/-- A claim that `_reconcile_claims` keeps. -/
structure ClaimHeld (jobs : Jobs) (jobId : String) (generation : Int) : Prop where
  held : ∃ r, jobs.get? jobId = some r ∧ r.isTerminal = false ∧ r.phase ≠ healthyUnclaimed ∧
    r.executorGeneration = generation

structure Holds (written : List InstallJobReceipt) (m : Manager) (jobs : Jobs) : Prop where
  sound : Sound P written jobs
  stored : Stored P written m.disk jobs
  cached : ∀ cached, m.jobs = some cached → cached.Same jobs
  claims : ∀ jobId generation, m.claimedJobs.get? jobId = some generation →
    ClaimHeld jobs jobId generation

/-- Every claim of one is a claim of the other. -/
def ClaimsWithin (claimed claimed' : Dict String Int) : Prop :=
  ∀ jobId generation, claimed.get? jobId = some generation → claimed'.get? jobId = some generation

theorem ClaimsWithin.refl (claimed : Dict String Int) : ClaimsWithin claimed claimed :=
  fun _ _ h => h

theorem ClaimsWithin.trans {a b c : Dict String Int} (h : ClaimsWithin a b)
    (h' : ClaimsWithin b c) : ClaimsWithin a c :=
  fun jobId generation hg => h' jobId generation (h jobId generation hg)

theorem claimCurrent_iff {jobs : Jobs} {jobId : String} {generation : Int} :
    Manager.claimCurrent jobs jobId generation = true ↔ ClaimHeld jobs jobId generation := by
  unfold Manager.claimCurrent
  rw [any_eq_true_iff]
  simp only [Bool.and_eq_true, Bool.not_eq_true', decide_eq_true_eq, beq_iff_eq]
  constructor
  · rintro ⟨r, hr, ⟨hactive, hopen⟩, hgeneration⟩
    exact ⟨r, hr, hactive, hopen, hgeneration⟩
  · rintro ⟨r, hr, hactive, hopen, hgeneration⟩
    exact ⟨r, hr, ⟨hactive, hopen⟩, hgeneration⟩

theorem ClaimHeld.same {jobs jobs' : Jobs} (hsame : jobs'.Same jobs) {jobId : String}
    {generation : Int} (h : ClaimHeld jobs jobId generation) :
    ClaimHeld jobs' jobId generation := by
  obtain ⟨r, hr, hrest⟩ := h.held
  exact ⟨r, (hsame jobId).trans hr, hrest⟩

theorem get?_reconcileClaims {m : Manager} {jobs : Jobs} (hjobs : m.jobs = some jobs)
    {jobId : String} {generation : Int} :
    m.reconcileClaims.claimedJobs.get? jobId = some generation ↔
      m.claimedJobs.get? jobId = some generation ∧ ClaimHeld jobs jobId generation := by
  simp only [Manager.reconcileClaims, hjobs, Dict.get?_filter, Option.filter_eq_some_iff,
    claimCurrent_iff]

@[simp] theorem reconcileClaims_disk (m : Manager) : m.reconcileClaims.disk = m.disk := by
  unfold Manager.reconcileClaims
  split <;> rfl

@[simp] theorem reconcileClaims_jobs (m : Manager) : m.reconcileClaims.jobs = m.jobs := by
  unfold Manager.reconcileClaims
  split <;> simp_all

section

variable {P} {written : List InstallJobReceipt} {m m' : Manager} {jobs loaded : Jobs}

theorem Stored.same {disk : Disk} (h : Stored P written disk jobs) (hsame : loaded.Same jobs) :
    Stored P written disk loaded := by
  obtain ⟨read, hread, hprimary⟩ := h.primary
  obtain ⟨details, hdetails, hrecorded, hcovers⟩ := h.details
  refine ⟨⟨read, hread, fun jobId => ?_⟩, details, hdetails, hrecorded, fun jobId r d hr => ?_⟩
  · rw [hprimary jobId, Dict.get?_map, Dict.get?_map, hsame jobId]
  · exact hcovers jobId r d (hsame jobId ▸ hr)

theorem Holds.same (h : Holds P written m jobs) (hsame : loaded.Same jobs) :
    Holds P written m loaded :=
  ⟨h.sound.same P hsame, h.stored.same hsame,
    fun cached hc => (h.cached cached hc).trans hsame.symm,
    fun jobId generation hg => (h.claims jobId generation hg).same hsame⟩

theorem Holds.mono {written' : List InstallJobReceipt} (h : Holds P written m jobs)
    (hsub : ∀ r ∈ written, r ∈ written') : Holds P written' m jobs :=
  ⟨h.sound.mono P hsub, h.stored.mono P hsub, h.cached, h.claims⟩

theorem Holds.invalidate (h : Holds P written m jobs) : Holds P written m.invalidateCache jobs :=
  ⟨h.sound, h.stored, nofun, nofun⟩

theorem Holds.load (hfree : CollisionFree P written) (h : Holds P written m jobs) :
    ∃ loaded, loadDurable P m.disk = .ok loaded ∧ loaded.Same jobs :=
  loadDurable_of_stored P hfree h.sound h.stored

/-- The files hold one table only. -/
theorem Holds.load_eq (hfree : CollisionFree P written) (h : Holds P written m jobs)
    (hload : loadDurable P m.disk = .ok loaded) : loaded.Same jobs := by
  obtain ⟨loaded', hload', hsame⟩ := h.load hfree
  rw [hload] at hload'
  cases hload'
  exact hsame

/-- The cache becomes the table, and the claims are reconciled with it. -/
theorem Holds.refresh (h : Holds P written m jobs) (hsame : loaded.Same jobs) :
    Holds P written ({ m with jobs := some loaded } : Manager).reconcileClaims jobs := by
  refine ⟨h.sound, by simpa using h.stored, fun cached hc => ?_, fun jobId generation hg => ?_⟩
  · rw [reconcileClaims_jobs] at hc
    cases hc
    exact hsame
  · rw [get?_reconcileClaims rfl] at hg
    exact h.claims jobId generation hg.1

theorem reconciled_within (m : Manager) (loaded : Jobs) :
    ClaimsWithin ({ m with jobs := some loaded } : Manager).reconcileClaims.claimedJobs
      m.claimedJobs := by
  intro jobId generation hg
  rw [get?_reconcileClaims rfl] at hg
  exact hg.1

/-! ## Loading -/

/-- What a load that succeeds leaves: the table in the cache, no new claim. -/
structure Loaded (m m' : Manager) (loaded : Jobs) : Prop where
  disk : m'.disk = m.disk
  cached : m'.jobs = some loaded
  claims : ClaimsWithin m'.claimedJobs m.claimedJobs

theorem asStoreError_eq_ok {α : Type} {x : Except InstallJobError α} {a : α} :
    asStoreError x = .ok a ↔ x = .ok a := by
  cases x with
  | ok b => simp [asStoreError]
  | error e => cases e <;> simp [asStoreError]

theorem readLocked_eq_ok {io : LoadIo} (h : readLocked P m io = .ok loaded) :
    loadDurable P m.disk = .ok loaded := by
  simp only [readLocked, bind_eq_ok, pure_eq_ok] at h
  obtain ⟨_, -, read, hread, _, -, details, hdetails, joined, hjoin, _, -, rfl⟩ := h
  simp [loadDurable, hread, hdetails, hjoin]

theorem readSnapshot_eq_ok {io : LoadIo} (h : readSnapshot P m io = .ok loaded) :
    loadDurable P m.disk = .ok loaded := by
  simp only [readSnapshot, bind_eq_ok] at h
  obtain ⟨_, -, _, -, read, hread, _, -, details, hdetails, hjoin⟩ := h
  simp [loadDurable, hread, hdetails, hjoin]

theorem loadLocked_error {io : LoadIo} {refresh : Bool} {e : InstallJobError}
    (h : m.loadLocked P io refresh = (m', .error e)) : m' = m.invalidateCache := by
  unfold Manager.loadLocked at h
  split at h
  · cases h
  · split at h <;> cases h
    rfl

theorem Holds.loadLocked (hfree : CollisionFree P written) (h : Holds P written m jobs)
    {io : LoadIo} {refresh : Bool} (hload : m.loadLocked P io refresh = (m', .ok loaded)) :
    Holds P written m' jobs ∧ loaded.Same jobs ∧ Loaded m m' loaded := by
  unfold Manager.loadLocked at hload
  split at hload
  · rename_i cached hcached
    cases hload
    exact ⟨h, h.cached loaded hcached, rfl, hcached, .refl _⟩
  · split at hload
    · rename_i loaded' hread
      have hdurable := readLocked_eq_ok (asStoreError_eq_ok.mp hread)
      cases hload
      have hsame := h.load_eq hfree hdurable
      exact ⟨h.refresh hsame, hsame, by simp, by simp, reconciled_within m loaded⟩
    · cases hload

theorem loadDurableLocked_error {io io' : LoadIo} {e : InstallJobError}
    (h : m.loadDurableLocked P io io' = (m', .error e)) : m' = m.invalidateCache := by
  unfold Manager.loadDurableLocked at h
  split at h <;> cases h
  rfl

theorem Holds.loadDurableLocked (hfree : CollisionFree P written) (h : Holds P written m jobs)
    {io io' : LoadIo} (hload : m.loadDurableLocked P io io' = (m', .ok loaded)) :
    Holds P written m' jobs ∧ loaded.Same jobs ∧ Loaded m m' loaded := by
  unfold Manager.loadDurableLocked at hload
  split at hload
  · rename_i loaded' hread
    have hread := asStoreError_eq_ok.mp hread
    simp only [readSnapshots, bind_eq_ok, pure_eq_ok] at hread
    obtain ⟨_, -, second, hsecond, _, -, rfl⟩ := hread
    cases hload
    have hsame := h.load_eq hfree (readSnapshot_eq_ok hsecond)
    exact ⟨h.refresh hsame, hsame, by simp, by simp, reconciled_within m _⟩
  · cases hload

/-! ## Saving -/

theorem Holds.saveLocked {claimed : Dict String Int} {candidate : Jobs} {jobId : String}
    (h : Holds P written m jobs) (hcached : m.jobs = some jobs)
    (hcandidate : Candidate P jobs claimed candidate jobId)
    (io : SaveIo) :
    (∃ jobs', Holds P (written ++ candidate.values) (m.saveLocked P io candidate).1 jobs' ∧
        (jobs' = jobs ∨ jobs' = candidate)) ∧
      ClaimsWithin (m.saveLocked P io candidate).1.claimedJobs m.claimedJobs ∧
      ∀ saved, (m.saveLocked P io candidate).2 = .ok saved →
        Holds P (written ++ candidate.values) (m.saveLocked P io candidate).1 candidate ∧
          saved.Same candidate := by
  have hgrown := h.mono fun r hr => List.mem_append_left candidate.values hr
  have hpre : ∀ plan, planSave P m io candidate = .ok plan → ∀ k,
      Sound P (written ++ candidate.values) candidate ∧
        if k ≤ plan.detailWrites.length then
          Stored P (written ++ candidate.values) (plan.diskAfter m.disk k) jobs
        else Stored P (written ++ candidate.values) (plan.diskAfter m.disk k) candidate := by
    intro plan hplan k
    have hplanned := planSave_planned P hcached hplan
    have hnew := hcandidate.sound h.sound hplanned.writable
    exact ⟨hnew, stored_after_prefix hplanned hgrown.sound hnew hcandidate.agrees hgrown.stored k⟩
  have hends := saveLocked_ends P m io candidate
  generalize m.saveLocked P io candidate = out at hends
  cases hends with
  | refused e => exact ⟨⟨jobs, hgrown.invalidate, Or.inl rfl⟩, nofun, nofun⟩
  | stopped plan hplan k e =>
    refine ⟨?_, nofun, nofun⟩
    obtain ⟨hnew, hstored⟩ := hpre plan hplan k
    split at hstored
    · exact ⟨jobs, ⟨hgrown.sound, hstored, nofun, nofun⟩, Or.inl rfl⟩
    · exact ⟨candidate, ⟨hnew, hstored, nofun, nofun⟩, Or.inr rfl⟩
  | verified plan hplan k hk saved hsame =>
    obtain ⟨hnew, hstored⟩ := hpre plan hplan k
    rw [if_neg (by omega)] at hstored
    have hholds : Holds P (written ++ candidate.values)
        ({ m with disk := plan.diskAfter m.disk k, jobs := some saved } : Manager).reconcileClaims
        candidate := by
      refine ⟨hnew, by simpa using hstored, fun cached hc => ?_, fun id generation hg => ?_⟩
      · rw [reconcileClaims_jobs] at hc
        cases hc
        exact hsame
      · rw [get?_reconcileClaims rfl] at hg
        exact hg.2.same hsame.symm
    refine ⟨⟨candidate, hholds, Or.inr rfl⟩, reconciled_within _ _, fun saved' hsaved => ?_⟩
    cases hsaved
    exact ⟨hholds, hsame⟩

end

end PanelAssistant
