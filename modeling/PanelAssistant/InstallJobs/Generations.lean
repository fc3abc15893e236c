import PanelAssistant.InstallJobs.Lives

/-!
# No mutation is replayed by a second generation

Only a claim raises the executor generation, and a claim of a job in an ambiguous phase
quarantines it. As a job never comes back to a phase it has left, it keeps one generation
for as long as it stays in such a phase (`generation_const`). A job found there by a manager
without its current claim can only be quarantined (`unclaimed_quarantined`); without the
current claim no barrier is passed and no transition is made (`no_authority_without_claim`);
and a receipt of an earlier generation carries a revision that no call accepts any more
(`superseded_refused`).
-/

namespace PanelAssistant

open Library InstallPhase

variable (P : Platform)

section

variable {P} {r r' : InstallJobReceipt} {held claim claim' : Option Int}

theorem rank_lt_of_edge_ambiguous {p : InstallPhase} (h : p ∈ restartAmbiguousPhases) :
    p.rank < 12 := by
  revert h
  cases p <;> decide

/-- A rewrite that leaves a job in an ambiguous phase leaves its generation. -/
theorem Rewrite.generation (h : Rewrite P r held r') (hphase : r'.phase = r.phase)
    (hambiguous : r.phase ∈ restartAmbiguousPhases) :
    r'.executorGeneration = r.executorGeneration := by
  cases h with
  | cancel => rfl
  | claim updatedAt hactive =>
    rcases claimedReceipt_cases r updatedAt with ⟨hquarantine, -⟩ | ⟨-, hsafe, -⟩
    · rw [hphase] at hquarantine
      rw [isTerminal_eq_false, hquarantine] at hactive
      exact absurd (by decide) hactive
    · exact absurd hambiguous hsafe
  | transition a now h =>
    obtain ⟨-, ⟨updatedAt, -, rfl⟩, -⟩ := advanceReceipt_eq_ok P h
    rfl

/-- What a later receipt of a job says, seen from one in an ambiguous phase. -/
def SameGeneration (first r : InstallJobReceipt) : Prop :=
  first.phase.rank ≤ r.phase.rank ∧
    (r.phase.rank = first.phase.rank → r.phase = first.phase) ∧
    (r.phase = first.phase → r.executorGeneration = first.executorGeneration)

theorem eq_of_rank_eq {p q : InstallPhase} (h : q.rank = p.rank) (hp : p.rank < 12) : q = p := by
  revert h hp
  cases p <;> cases q <;> decide

theorem SameGeneration.follows {first : InstallJobReceipt}
    (hambiguous : first.phase ∈ restartAmbiguousPhases) (h : SameGeneration first r)
    (hfollows : Follows P claim r claim' r') : SameGeneration first r' := by
  rcases hfollows.receipt with rfl | ⟨held, -, hrewrite⟩
  · exact h
  · have hrank := hrewrite.rank_le
    refine ⟨h.1.trans hrank, fun hsame => ?_, fun hphase => ?_⟩
    · exact eq_of_rank_eq hsame (rank_lt_of_edge_ambiguous hambiguous)
    · -- The phase was never left, so this rewrite did not move it either.
      have hback : r.phase = first.phase := by
        apply h.2.1
        rw [hphase] at hrank
        exact le_antisymm hrank h.1
      rw [← h.2.2 hback]
      exact hrewrite.generation (hphase.trans hback.symm) (hback ▸ hambiguous)

/-- An unclaimed job in an ambiguous phase, or what became of it. -/
def Unclaimed (first : InstallJobReceipt) (claim : Option Int) (r : InstallJobReceipt) : Prop :=
  r.phase = first.phase ∧ r.executorGeneration = first.executorGeneration ∧
      claim ≠ some first.executorGeneration ∨
    r.phase = recoveryRequired

theorem Unclaimed.follows {first : InstallJobReceipt}
    (hambiguous : first.phase ∈ restartAmbiguousPhases) (h : Unclaimed first claim r)
    (hfollows : Follows P claim r claim' r') : Unclaimed first claim' r' := by
  have hunclaimed : ∀ x : InstallJobReceipt, x.phase = first.phase →
      claim ≠ some first.executorGeneration → x = r' → claim' ≠ some first.executorGeneration := by
    intro x hx hno heq hyes
    rcases hfollows.claim _ hyes with hclaim | hsafe
    · exact hno hclaim
    · rw [← heq, hx] at hsafe
      exact hsafe hambiguous
  rcases hfollows.receipt with rfl | ⟨held, hheld, hrewrite⟩
  · rcases h with ⟨hphase, hgeneration, hno⟩ | hquarantine
    · exact Or.inl ⟨hphase, hgeneration, hunclaimed r' hphase hno rfl⟩
    · exact Or.inr hquarantine
  · rcases h with ⟨hphase, hgeneration, hno⟩ | hquarantine
    · by_cases hstay : r'.phase = r.phase
      · have hkept := hrewrite.generation hstay (hphase ▸ hambiguous)
        have hphase' := hstay.trans hphase
        exact Or.inl ⟨hphase', hkept.trans hgeneration, hunclaimed r' hphase' hno rfl⟩
      · right
        cases hrewrite with
        | cancel => exact absurd rfl hstay
        | claim updatedAt =>
          rcases claimedReceipt_cases r updatedAt with ⟨hend, -⟩ | ⟨hsame, -⟩
          · exact hend
          · exact absurd hsame hstay
        | transition a now h =>
          have hallowed := Allowed.of_transitionAllowed (advanceReceipt_eq_ok P h).1
          rcases hallowed.claim with hedge | hclaim
          · simp only [finalizerEdge, Bool.and_eq_true, decide_eq_true_eq] at hedge
            rw [← hphase, hedge.1] at hambiguous
            exact absurd hambiguous (by decide)
          · rw [← hgeneration] at hno
            exact absurd (hheld _ hclaim) hno
    · have hactive := hrewrite.active
      rw [isTerminal_eq_false, hquarantine] at hactive
      exact absurd (by decide) hactive

/-- Later receipts of a job carry later revisions. -/
def Supersedes (first r : InstallJobReceipt) : Prop := r = first ∨ first.revision < r.revision

theorem Supersedes.follows {first : InstallJobReceipt} (h : Supersedes first r)
    (hfollows : Follows P claim r claim' r') : Supersedes first r' := by
  rcases hfollows.receipt with rfl | ⟨held, -, hrewrite⟩
  · exact h
  · have hrevision := hrewrite.revision
    rcases h with rfl | hlater
    · exact Or.inr (by omega)
    · exact Or.inr (by omega)

end

/-! ## Over the life of a job -/

section

variable {P} {h : History} {jobs : Jobs} {jobId : String}

/-- For as long as a job stays in an ambiguous phase it keeps its generation. -/
theorem generation_const (hholds : Holds P h.written h.manager jobs) {first : InstallJobReceipt}
    (hfirst : jobs.get? jobId = some first) (hambiguous : first.phase ∈ restartAmbiguousPhases)
    {later : List Call} (hlives : Lives P jobId h later)
    (hfree : CollisionFree P (Runs.run (History.step P) h later).written) :
    ∃ jobs' r, Holds P (Runs.run (History.step P) h later).written
        (Runs.run (History.step P) h later).manager jobs' ∧ jobs'.get? jobId = some r ∧
      SameGeneration first r :=
  lives_inv (fun _ r => SameGeneration first r)
    (fun _ _ _ _ hp hfollows => hp.follows hambiguous hfollows) hholds hfirst
    ⟨le_rfl, fun _ => rfl, fun _ => rfl⟩ hlives hfree

/-- A job found in an ambiguous phase without its current claim can only be quarantined. -/
theorem unclaimed_quarantined (hholds : Holds P h.written h.manager jobs)
    {first : InstallJobReceipt} (hfirst : jobs.get? jobId = some first)
    (hambiguous : first.phase ∈ restartAmbiguousPhases)
    (hno : h.manager.claimedJobs.get? jobId ≠ some first.executorGeneration) {later : List Call}
    (hlives : Lives P jobId h later)
    (hfree : CollisionFree P (Runs.run (History.step P) h later).written) :
    ∃ jobs' r, Holds P (Runs.run (History.step P) h later).written
        (Runs.run (History.step P) h later).manager jobs' ∧ jobs'.get? jobId = some r ∧
      (r.phase = first.phase ∨ r.phase = recoveryRequired) := by
  obtain ⟨jobs', r, hholds', hr, hunclaimed⟩ := lives_inv (Unclaimed first)
    (fun _ _ _ _ hp hfollows => hp.follows hambiguous hfollows) hholds hfirst
    (Or.inl ⟨rfl, rfl, hno⟩) hlives hfree
  refine ⟨jobs', r, hholds', hr, ?_⟩
  rcases hunclaimed with ⟨hphase, -⟩ | hquarantine
  · exact Or.inl hphase
  · exact Or.inr hquarantine

/-- Without the current claim no mutation barrier is passed and, save for the finalizer's
edge from HEALTHY_UNCLAIMED, no transition is made. -/
theorem no_authority_without_claim {written : List InstallJobReceipt} {m : Manager}
    (hholds : Holds P written m jobs) {r : InstallJobReceipt} (hr : jobs.get? jobId = some r)
    (hno : m.claimedJobs.get? jobId ≠ some r.executorGeneration) :
    (CollisionFree P written → ∀ io revision phase passed,
      (m.asyncVerifyMutationBarrier P io jobId revision phase).2 ≠ .ok passed) ∧
    ∀ io revision a reply, r.phase ≠ healthyUnclaimed →
      CollisionFree P (written ++ proposed ((Call.transition io jobId revision a).saving P m)) →
      (m.asyncTransition P io jobId revision a).2 ≠ .ok reply := by
  refine ⟨fun hfree io revision phase passed hpassed => ?_,
    fun io revision a reply hopen hfree hreply => ?_⟩
  · obtain ⟨-, hpass⟩ := (hholds.asyncVerifyMutationBarrier hfree).2 passed hpassed
    have hreceipt := hpass.receipt
    rw [hr, Option.some.injEq] at hreceipt
    rw [hreceipt] at hno
    exact hno hpass.claim
  · obtain ⟨jobs', -, hreplied⟩ := hholds.asyncTransition hfree
    obtain ⟨current, hcurrent, -, hclaim⟩ := hreplied reply hreply
    rw [hr, Option.some.injEq] at hcurrent
    rw [← hcurrent] at hclaim
    rcases hclaim with hphase | hclaim
    · exact hopen hphase
    · exact hno hclaim

/-- A receipt of an earlier generation carries a revision that no call accepts any more. -/
theorem superseded_refused {written : List InstallJobReceipt} {m : Manager}
    (hholds : Holds P written m jobs) {first r : InstallJobReceipt}
    (hr : jobs.get? jobId = some r) (hlater : Supersedes first r)
    (hgeneration : r.executorGeneration ≠ first.executorGeneration) :
    (CollisionFree P written → ∀ io phase passed,
      (m.asyncVerifyMutationBarrier P io jobId first.revision phase).2 ≠ .ok passed) ∧
    ∀ io a reply,
      CollisionFree P
        (written ++ proposed ((Call.transition io jobId first.revision a).saving P m)) →
      (m.asyncTransition P io jobId first.revision a).2 ≠ .ok reply := by
  have hrevision : first.revision < r.revision := by
    rcases hlater with heq | hlt
    · rw [heq] at hgeneration
      exact absurd rfl hgeneration
    · exact hlt
  refine ⟨fun hfree io phase passed hpassed => ?_, fun io a reply hfree hreply => ?_⟩
  · obtain ⟨-, hpass⟩ := (hholds.asyncVerifyMutationBarrier hfree).2 passed hpassed
    have hreceipt := hpass.receipt
    rw [hr, Option.some.injEq] at hreceipt
    have := hpass.revision
    rw [← hreceipt] at this
    omega
  · obtain ⟨jobs', -, hreplied⟩ := hholds.asyncTransition hfree
    obtain ⟨current, hcurrent, hrev, -⟩ := hreplied reply hreply
    rw [hr, Option.some.injEq] at hcurrent
    rw [← hcurrent] at hrev
    omega

/-- Along the life of a job its later receipts supersede the earlier ones. -/
theorem supersedes_of_lives (hholds : Holds P h.written h.manager jobs)
    {first : InstallJobReceipt} (hfirst : jobs.get? jobId = some first) {later : List Call}
    (hlives : Lives P jobId h later)
    (hfree : CollisionFree P (Runs.run (History.step P) h later).written) :
    ∃ jobs' r, Holds P (Runs.run (History.step P) h later).written
        (Runs.run (History.step P) h later).manager jobs' ∧ jobs'.get? jobId = some r ∧
      Supersedes first r :=
  lives_inv (fun _ r => Supersedes first r) (fun _ _ _ _ hp hfollows => hp.follows hfollows) hholds
    hfirst (Or.inl rfl) hlives hfree

end

/-! ## Whole runs -/

/-- The mutation barriers of one job and one ambiguous phase are passed under one generation. -/
def OneGeneration (calls : List Call) (jobId : String) : Prop :=
  ∀ io revision phase passed, phase ∈ restartAmbiguousPhases →
    ((History.after P calls).manager.asyncVerifyMutationBarrier P io jobId revision phase).2 =
      .ok passed →
    ∀ later, Lives P jobId (History.after P calls) later →
      CollisionFree P (History.after P (calls ++ later)).written →
      ∀ io' revision' passed',
        ((History.after P (calls ++ later)).manager.asyncVerifyMutationBarrier P io' jobId revision'
          phase).2 = .ok passed' →
        passed'.executorGeneration = passed.executorGeneration

/-- A job found in an ambiguous phase without its claim leaves the phase for quarantine only. -/
def OnlyQuarantined (calls : List Call) (jobId : String) (r : InstallJobReceipt) : Prop :=
  r.phase ∈ restartAmbiguousPhases →
    (History.after P calls).manager.claimedJobs.get? jobId ≠ some r.executorGeneration →
    ∀ later, Lives P jobId (History.after P calls) later →
      CollisionFree P (History.after P (calls ++ later)).written →
      ∃ jobs' r', loadDurable P (History.after P (calls ++ later)).manager.disk = .ok jobs' ∧
        jobs'.get? jobId = some r' ∧ (r'.phase = r.phase ∨ r'.phase = recoveryRequired)

/-- Neither a barrier nor a transition of the job accepts the revision. -/
def Refused (h : History) (jobId : String) (revision : Int) : Prop :=
  (∀ io phase passed,
    (h.manager.asyncVerifyMutationBarrier P io jobId revision phase).2 ≠ .ok passed) ∧
  ∀ io a reply, CollisionFree P (h.step P (.transition io jobId revision a)).written →
    (h.manager.asyncTransition P io jobId revision a).2 ≠ .ok reply

/-- No panel mutation is replayed: one generation passes the barriers of a phase, a job whose
claim is gone in an ambiguous phase can only be quarantined, and whoever lost the claim,
because it was dropped or because a later generation took it, is refused. -/
theorem no_mutation_replayed (calls : List Call) (jobId : String)
    (hfree : CollisionFree P (History.after P calls).written) :
    OneGeneration P calls jobId ∧
    ∀ jobs r, loadDurable P (History.after P calls).manager.disk = .ok jobs →
      jobs.get? jobId = some r →
      OnlyQuarantined P calls jobId r ∧
      (r.phase ≠ healthyUnclaimed →
        (History.after P calls).manager.claimedJobs.get? jobId ≠ some r.executorGeneration →
        ∀ revision, Refused P (History.after P calls) jobId revision) ∧
      ∀ later, Lives P jobId (History.after P calls) later →
        CollisionFree P (History.after P (calls ++ later)).written →
        ∀ jobs' r', loadDurable P (History.after P (calls ++ later)).manager.disk = .ok jobs' →
          jobs'.get? jobId = some r' → r'.executorGeneration ≠ r.executorGeneration →
          Refused P (History.after P (calls ++ later)) jobId r.revision := by
  have hrun : ∀ later, History.after P (calls ++ later) =
      Runs.run (History.step P) (History.after P calls) later :=
    fun later => Runs.run_append _ _ _ _
  obtain ⟨jobs, hholds⟩ := exists_holds P calls hfree
  refine ⟨fun io revision phase passed hphase hpassed later hlives hlater io' revision' passed'
      hpassed' => ?_, fun loaded r hload hr => ?_⟩
  · rw [hrun] at hlater hpassed'
    obtain ⟨-, hfirst⟩ := (hholds.asyncVerifyMutationBarrier hfree).2 passed hpassed
    obtain ⟨jobs', r', hholds', hr', hsame⟩ := generation_const hholds hfirst.receipt
      (hfirst.phase ▸ hphase) hlives hlater
    obtain ⟨-, hlast⟩ := (hholds'.asyncVerifyMutationBarrier hlater).2 passed' hpassed'
    have hreceipt := hlast.receipt
    rw [hr', Option.some.injEq] at hreceipt
    rw [← hreceipt]
    exact hsame.2.2 (by rw [hreceipt, hlast.phase, hfirst.phase])
  · have hloaded := hholds.same (hholds.load_eq hfree hload)
    have hfirst : loaded.get? jobId = some r := hr
    refine ⟨fun hphase hno later hlives hlater => ?_, fun hopen hno revision => ?_,
      fun later hlives hlater jobs' r' hload' hr' hgeneration => ?_⟩
    · rw [hrun] at hlater ⊢
      obtain ⟨jobs', r', hholds', hr', hend⟩ := unclaimed_quarantined hloaded hfirst hphase hno
        hlives hlater
      obtain ⟨read, hread, hsame⟩ := hholds'.load hlater
      exact ⟨read, r', hread, (hsame jobId).trans hr', hend⟩
    · obtain ⟨hbarrier, htransition⟩ := no_authority_without_claim hloaded hfirst hno
      exact ⟨fun io phase passed => hbarrier hfree io revision phase passed,
        fun io a reply hfree' => htransition io revision a reply hopen hfree'⟩
    · rw [hrun] at hlater hload' ⊢
      obtain ⟨jobs'', r'', hholds', hr'', hlater'⟩ :=
        supersedes_of_lives hloaded hfirst hlives hlater
      have hsame := hholds'.load_eq hlater hload'
      rw [hsame jobId, hr'', Option.some.injEq] at hr'
      subst hr'
      obtain ⟨hbarrier, htransition⟩ := superseded_refused hholds' hr'' hlater' hgeneration
      exact ⟨fun io phase passed => hbarrier hlater io phase passed,
        fun io a reply hfree' => htransition io a reply hfree'⟩

/-- The job of the small run passes the barrier of its launch; when the process starts again, the
claim is gone, the job can only be quarantined, and its worker is refused. -/
theorem no_mutation_replayed_small_run :
    OneGeneration SmallRun.platform SmallRun.launch SmallRun.jobId ∧
      (∃ io, ((History.after SmallRun.platform SmallRun.launch).manager.asyncVerifyMutationBarrier
        SmallRun.platform io SmallRun.jobId 5 launching).2 = .ok SmallRun.launching) ∧
      OnlyQuarantined SmallRun.platform (SmallRun.launch ++ [.restart]) SmallRun.jobId
        SmallRun.launching ∧
      Refused SmallRun.platform (History.after SmallRun.platform (SmallRun.launch ++ [.restart]))
        SmallRun.jobId 5 := by
  have hwritten : (History.after SmallRun.platform SmallRun.launch).written ⊆
    SmallRun.receipts := by
    rw [SmallRun.reached_launch.written]
    simp [SmallRun.receipts]
  have hrestart : History.after SmallRun.platform (SmallRun.launch ++ [.restart]) =
      (History.after SmallRun.platform SmallRun.launch).step SmallRun.platform .restart :=
    Runs.run_concat _ _ _ _
  have hfree : CollisionFree SmallRun.platform
      (History.after SmallRun.platform (SmallRun.launch ++ [.restart])).written := by
    rw [hrestart]
    refine SmallRun.collisionFree.mono _ fun r hr => hwritten ?_
    simpa [History.step, Call.saving, proposed] using hr
  obtain ⟨jobs, hload, hget⟩ := SmallRun.load_launch
  have hreload : loadDurable SmallRun.platform
      (History.after SmallRun.platform (SmallRun.launch ++ [.restart])).manager.disk =
        .ok jobs := by
    have hdisk : ∀ h : History, (h.step SmallRun.platform .restart).manager.disk = h.manager.disk :=
      fun _ => rfl
    rw [hrestart, hdisk, hload]
  have hdropped : (History.after SmallRun.platform
      (SmallRun.launch ++ [.restart])).manager.claimedJobs.get? SmallRun.jobId ≠
        some SmallRun.launching.executorGeneration := by
    have hclaims : ∀ h : History, (h.step SmallRun.platform .restart).manager.claimedJobs = ∅ :=
      fun _ => rfl
    rw [hrestart, hclaims, Dict.get?_empty]
    exact (Option.some_ne_none _).symm
  obtain ⟨hone, -⟩ := no_mutation_replayed SmallRun.platform SmallRun.launch SmallRun.jobId
    (SmallRun.collisionFree.mono _ hwritten)
  obtain ⟨-, hlater⟩ := no_mutation_replayed SmallRun.platform (SmallRun.launch ++ [Call.restart])
    SmallRun.jobId hfree
  obtain ⟨hquarantined, hrefused, -⟩ := hlater jobs SmallRun.launching hreload hget
  have hbarrier := SmallRun.reached_launch.settled.barrier SmallRun.plainTexts_platform
    SmallRun.isHex_jobId SmallRun.claimed_launch (by decide) rfl
  exact ⟨hone, ⟨_, hbarrier⟩, hquarantined, hrefused (by decide) hdropped 5⟩

end PanelAssistant
