import PanelAssistant.InstallJobs.Lives

/-!
# A cancellation is neither lost nor overtaken

A receipt whose flag is set is at a phase that can be cancelled or at one of the three ends
a cancelled job may reach (`CancelPhase`), in every reachable store. Once a request has
returned such a receipt, the flag stays for the rest of the job's life, no mutation barrier
is passed again, and the phase changes only to one of the three ends.
-/

namespace PanelAssistant

open Library InstallPhase

variable (P : Platform)

/-- The ends of a job whose cancellation was requested. -/
def cancelEnds : List InstallPhase := [.cancelled, failed, recoveryRequired]

def CancelPhase (p : InstallPhase) : Prop := p ∈ cancellablePhases ∨ p ∈ cancelEnds

theorem not_overtaken {p : InstallPhase} (h : CancelPhase p) :
    p ∉ [installing, installed, launching, healthCheck, healthyUnclaimed, consumed] := by
  rcases h with h | h <;> revert h <;> cases p <;> decide

/-- A rewrite keeps the flag, and takes a flagged receipt to one of the three ends if it
changes its phase at all. -/
theorem Rewrite.flagged {P : Platform} {r r' : InstallJobReceipt} {claimed : Option Int}
    (h : Rewrite P r claimed r') (hflag : r.cancelRequested = true) :
    r'.cancelRequested = true ∧ (r'.phase = r.phase ∨ r'.phase ∈ cancelEnds) := by
  cases h with
  | cancel _ _ hfirst =>
    rw [hflag] at hfirst
    cases hfirst
  | claim updatedAt =>
    refine ⟨(claimedReceipt_frame r updatedAt).2.2.trans hflag, ?_⟩
    rcases claimedReceipt_cases r updatedAt with ⟨hphase, -⟩ | ⟨hphase, -⟩
    · right
      rw [hphase]
      decide
    · exact Or.inl hphase
  | transition a now h =>
    obtain ⟨hallowed, ⟨updatedAt, -, rfl⟩, -⟩ := advanceReceipt_eq_ok P h
    refine ⟨hflag, Or.inr ?_⟩
    have hend := (Allowed.of_transitionAllowed hallowed).cancel hflag
    have hphase : (transitionedReceipt r a updatedAt).phase = a.phase := rfl
    rw [hphase]
    rcases hend with hend | hend | hend <;> rw [hend] <;> decide

/-- The invariant of every stored receipt. -/
theorem Rewrite.cancelPhase {P : Platform} {r r' : InstallJobReceipt} {claimed : Option Int}
    (h : Rewrite P r claimed r') (hr : r.cancelRequested = true → CancelPhase r.phase) :
    r'.cancelRequested = true → CancelPhase r'.phase := by
  intro hflag'
  cases hflag : r.cancelRequested with
  | true =>
    rcases (h.flagged hflag).2 with hphase | hend
    · rw [hphase]
      exact hr hflag
    · exact Or.inr hend
  | false =>
    -- Only a request sets the flag, and only at a phase that can be cancelled.
    cases h with
    | cancel _ hphase => exact Or.inl hphase
    | claim updatedAt =>
      rw [(claimedReceipt_frame r updatedAt).2.2, hflag] at hflag'
      cases hflag'
    | transition a now h =>
      obtain ⟨-, ⟨updatedAt, -, rfl⟩, -⟩ := advanceReceipt_eq_ok P h
      have hsame : (transitionedReceipt r a updatedAt).cancelRequested = r.cancelRequested := rfl
      rw [hsame, hflag] at hflag'
      cases hflag'

/-- A flagged receipt along the life of its job. -/
def Flagged (r : InstallJobReceipt) : Prop := r.cancelRequested = true ∧ CancelPhase r.phase

theorem Flagged.follows {P : Platform} {claim claim' : Option Int} {r r' : InstallJobReceipt}
    (h : Flagged r) (hfollows : Follows P claim r claim' r') :
    Flagged r' ∧ (r'.phase = r.phase ∨ r'.phase ∈ cancelEnds) := by
  rcases hfollows.receipt with rfl | ⟨held, -, hrewrite⟩
  · exact ⟨h, Or.inl rfl⟩
  · obtain ⟨hflag, hphase⟩ := hrewrite.flagged h.1
    exact ⟨⟨hflag, hrewrite.cancelPhase (fun _ => h.2) hflag⟩, hphase⟩

/-- Every stored receipt whose cancellation was requested can still be cancelled or has
ended. And when a request has returned, then for as long as its job lives the flag stays, the
job enters no phase past the cancellable ones, passes no mutation barrier, and leaves its
phase for no other than CANCELLED, FAILED and RECOVERY_REQUIRED. -/
theorem cancellation_never_lost (calls : List Call) :
    (CollisionFree P (History.after P calls).written →
      ∀ jobs, loadDurable P (History.after P calls).manager.disk = .ok jobs →
        ∀ jobId r, jobs.get? jobId = some r → r.cancelRequested = true → CancelPhase r.phase) ∧
    ∀ io jobId revision reply,
      ((History.after P calls).manager.asyncRequestCancel P io jobId revision).2 = .ok reply →
      ∀ later, Lives P jobId (History.after P (calls ++ [.requestCancel io jobId revision])) later →
        CollisionFree P
          (History.after P (calls ++ .requestCancel io jobId revision :: later)).written →
        let h := History.after P (calls ++ .requestCancel io jobId revision :: later)
        ∃ jobs r, loadDurable P h.manager.disk = .ok jobs ∧ jobs.get? jobId = some r ∧
          r.cancelRequested = true ∧ CancelPhase r.phase ∧
          r.phase ∉ [installing, installed, launching, healthCheck, healthyUnclaimed, consumed] ∧
          (∀ io revision phase passed,
            (h.manager.asyncVerifyMutationBarrier P io jobId revision phase).2 ≠ .ok passed) ∧
          ∀ call, HoldsJob P jobId (h.step P call).manager.disk →
            CollisionFree P (h.step P call).written →
            ∃ jobs' r', loadDurable P (h.step P call).manager.disk = .ok jobs' ∧
              jobs'.get? jobId = some r' ∧ r'.cancelRequested = true ∧
              (r'.phase = r.phase ∨ r'.phase ∈ cancelEnds) := by
  refine ⟨fun hfree jobs hload jobId r hr hflag => ?_,
    fun io jobId revision reply hreply later hlives hfree => ?_⟩
  · obtain ⟨jobs', hholds, hall⟩ := exists_holds_with P
      (fun r => r.cancelRequested = true → CancelPhase r.phase) (fun _ _ _ hflag => by cases hflag)
      (fun _ _ _ hp hrewrite => hrewrite.cancelPhase hp) calls hfree
    have hsame := hholds.load_eq hfree hload
    exact hall jobId r ((hsame jobId).symm.trans hr) hflag
  · have hrun : History.after P (calls ++ .requestCancel io jobId revision :: later) =
        Runs.run (History.step P)
          ((History.after P calls).step P (.requestCancel io jobId revision)) later := by
      rw [History.after, Runs.run_append, Runs.run_cons]
      rfl
    have hcancel : History.after P (calls ++ [.requestCancel io jobId revision]) =
        (History.after P calls).step P (.requestCancel io jobId revision) :=
      Runs.run_concat _ _ _ _
    rw [hcancel] at hlives
    rw [hrun] at hfree ⊢
    have hfree₁ := hfree.mono P (written_subset_run _ later)
    obtain ⟨jobs₀, hholds₀⟩ := exists_holds P calls (hfree₁.mono P (written_subset_step P _ _))
    obtain ⟨jobs₁, hoperated, hreplied⟩ := hholds₀.asyncRequestCancel hfree₁
    obtain ⟨hr₁, hflag₁, hphase₁⟩ := hreplied reply hreply
    have hholds₁ : Holds P
      ((History.after P calls).step P (.requestCancel io jobId revision)).written
        ((History.after P calls).step P (.requestCancel io jobId revision)).manager jobs₁ :=
      hoperated.holds
    obtain ⟨jobs, r, hholds, hr, hflagged⟩ := lives_inv (fun _ r => Flagged r)
      (fun _ _ _ _ hp hfollows => (hp.follows hfollows).1) hholds₁ hr₁
      ⟨hflag₁, Or.inl hphase₁⟩ hlives hfree
    obtain ⟨loaded, hload, hsame⟩ := hholds.load hfree
    refine ⟨loaded, r, hload, (hsame jobId).trans hr, hflagged.1, hflagged.2,
      not_overtaken hflagged.2, fun io revision phase passed hpassed => ?_,
      fun call hjob hfree' => ?_⟩
    · obtain ⟨-, hpass⟩ := (hholds.asyncVerifyMutationBarrier hfree).2 passed hpassed
      have hreceipt := hpass.receipt
      rw [hr, Option.some.injEq] at hreceipt
      have hflag := hflagged.1
      rw [hreceipt, hpass.cancelRequested] at hflag
      cases hflag
    · obtain ⟨jobs', r', hholds', hr', hfollows⟩ := hholds.applyLiving hfree' hr hjob
      obtain ⟨loaded', hload', hsame'⟩ := hholds'.load hfree'
      obtain ⟨hflagged', hphase⟩ := hflagged.follows hfollows
      exact ⟨loaded', r', hload', (hsame' jobId).trans hr', hflagged'.1, hphase⟩

/-- A job that is created and cancelled at once. -/
theorem cancellation_never_lost_small_run :
    ∃ jobs r, loadDurable SmallRun.platform
        (History.after SmallRun.platform [SmallRun.create, SmallRun.cancel]).manager.disk =
          .ok jobs ∧
      jobs.get? SmallRun.jobId = some r ∧ r.cancelRequested = true := by
  obtain ⟨jobs, r, hload, hr, hflag, -⟩ :=
    (cancellation_never_lost SmallRun.platform [SmallRun.create]).2
      SmallRun.cancelIo SmallRun.jobId 0
      _ SmallRun.wrote_cancel.2 [] trivial SmallRun.collisionFree_cancel
  exact ⟨jobs, r, hload, hr, hflag⟩

end PanelAssistant
