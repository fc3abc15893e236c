import PanelAssistant.InstallJobs.Invariant

/-!
# The life of one job

A job lives over a run when every store of the run holds its id, and never as a new job: a
receipt of revision 0 is one that was just created. From call to call of such a run the
receipt is kept or rewritten, and the manager takes no claim of a job in an ambiguous phase
(`Follows`). A property of the claim and the receipt that `Follows` keeps holds over the
whole life (`lives_inv`).
-/

namespace PanelAssistant

open Library InstallPhase

variable (P : Platform)

/-- A store that holds the job, and not as a new one. -/
def HoldsJob (jobId : String) (disk : Disk) : Prop :=
  ∃ jobs r, loadDurable P disk = .ok jobs ∧ jobs.get? jobId = some r ∧ r.revision ≠ 0

/-- The job lives over the calls: every store they lead to holds it. -/
def Lives (jobId : String) : History → List Call → Prop :=
  Runs.Along (History.step P) fun h call => HoldsJob P jobId (h.step P call).manager.disk

/-- How the claim and the receipt of a living job follow on one another. -/
structure Follows (claim : Option Int) (r : InstallJobReceipt) (claim' : Option Int)
    (r' : InstallJobReceipt) : Prop where
  receipt : r' = r ∨
    ∃ held, (∀ generation, held = some generation → claim = some generation) ∧ Rewrite P r held r'
  claim : ∀ generation, claim' = some generation →
    claim = some generation ∨ r'.phase ∉ restartAmbiguousPhases

section

variable {P} {written : List InstallJobReceipt} {m m' : Manager} {jobs jobs' : Jobs}
  {jobId : String}

theorem Operated.follows (h : Operated P written m m' jobs jobs') {r r' : InstallJobReceipt}
    (hr : jobs.get? jobId = some r) (hr' : jobs'.get? jobId = some r') (hold : r'.revision ≠ 0) :
    Follows P (m.claimedJobs.get? jobId) r (m'.claimedJobs.get? jobId) r' := by
  refine ⟨?_, fun generation hg => ?_⟩
  · cases h.effect with
    | unchanged hsame =>
      rw [hsame jobId, hr] at hr'
      exact Or.inl (Option.some.inj hr').symm
    | saved loaded candidate held id hloaded hheld hcandidate hsaved =>
      have hfate := hcandidate.fate ((hloaded jobId).trans hr)
      rw [← hsaved jobId, hr'] at hfate
      cases hfate with
      | kept => exact Or.inl rfl
      | rewritten _ hrewrite => exact Or.inr ⟨_, fun generation => hheld jobId generation, hrewrite⟩
      | redrawn _ a now => exact absurd rfl hold
  · rcases h.claims jobId generation hg with hclaim | ⟨r'', hr'', hsafe⟩
    · exact Or.inl hclaim
    · rw [hr'] at hr''
      cases hr''
      exact Or.inr hsafe

/-- A step lemma for one living job. -/
theorem Holds.applyLiving {call : Call} {h : History}
    (hfree : CollisionFree P (h.step P call).written) (hholds : Holds P h.written h.manager jobs)
    {r : InstallJobReceipt} (hr : jobs.get? jobId = some r)
    (hlives : HoldsJob P jobId (h.step P call).manager.disk) :
    ∃ jobs' r', Holds P (h.step P call).written (h.step P call).manager jobs' ∧
      jobs'.get? jobId = some r' ∧
      Follows P (h.manager.claimedJobs.get? jobId) r
        ((h.step P call).manager.claimedJobs.get? jobId) r' := by
  obtain ⟨jobs', hoperated⟩ := hholds.apply hfree
  obtain ⟨loaded, r', hload, hr', hold⟩ := hlives
  have hsame := hoperated.holds.load_eq hfree hload
  rw [hsame jobId] at hr'
  exact ⟨jobs', r', hoperated.holds, hr', hoperated.follows hr hr' hold⟩

theorem written_subset_run (h : History) (calls : List Call) :
    ∀ r ∈ h.written, r ∈ (Runs.run (History.step P) h calls).written := by
  intro r hr
  exact Runs.run_inv (fun h' : History => r ∈ h'.written)
    (fun h' call hmem => written_subset_step P h' call r hmem) hr calls

/-- What every step keeps of a claim and a receipt holds over the life of the job. -/
theorem lives_inv (p : Option Int → InstallJobReceipt → Prop)
    (hstep : ∀ claim r claim' r', p claim r → Follows P claim r claim' r' → p claim' r')
    {h : History} (hholds : Holds P h.written h.manager jobs) {r : InstallJobReceipt}
    (hr : jobs.get? jobId = some r) (hp : p (h.manager.claimedJobs.get? jobId) r)
    {calls : List Call} (hlives : Lives P jobId h calls)
    (hfree : CollisionFree P (Runs.run (History.step P) h calls).written) :
    ∃ jobs' r', Holds P (Runs.run (History.step P) h calls).written
        (Runs.run (History.step P) h calls).manager jobs' ∧ jobs'.get? jobId = some r' ∧
      p ((Runs.run (History.step P) h calls).manager.claimedJobs.get? jobId) r' := by
  refine Runs.run_inv_along
    (fun h' : History => CollisionFree P h'.written → ∃ jobs' r',
      Holds P h'.written h'.manager jobs' ∧ jobs'.get? jobId = some r' ∧
        p (h'.manager.claimedJobs.get? jobId) r')
    (fun h' call ih hjob hfree' => ?_) (fun _ => ⟨jobs, r, hholds, hr, hp⟩) hlives hfree
  obtain ⟨jobs₁, r₁, hholds₁, hr₁, hp₁⟩ := ih (hfree'.mono P (written_subset_step P h' call))
  obtain ⟨jobs₂, r₂, hholds₂, hr₂, hfollows⟩ := hholds₁.applyLiving hfree' hr₁ hjob
  exact ⟨jobs₂, r₂, hholds₂, hr₂, hstep _ _ _ _ hp₁ hfollows⟩

end

end PanelAssistant
