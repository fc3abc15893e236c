import PanelAssistant.InstallJobs.Save

/-!
# How an operation changes a receipt

The three ways in which an operation rewrites a receipt (`Rewrite`): a cancellation request,
a claim, a transition. Each raises the revision by one, starts from an active receipt, keeps
the frozen facts, and moves the phase along an edge, not at all, or into quarantine
(`Rewrite.phase`). A table an operation hands to a save is a `Candidate`: a new job beside
the receipts that were kept, or one rewritten receipt among them; only terminal receipts are
pruned. `Fate` says what a save makes of one receipt.
-/

namespace PanelAssistant

open Library InstallPhase

variable (P : Platform)

/-! ## Rewriting one receipt -/

/-- How an operation rewrites a receipt whose claim the manager holds as `claimed`. -/
inductive Rewrite (current : InstallJobReceipt) (claimed : Option Int) : InstallJobReceipt → Prop
  | cancel (updatedAt : String) (hphase : current.phase ∈ cancellablePhases)
      (hfirst : current.cancelRequested = false) :
      Rewrite current claimed (cancelledReceipt current updatedAt)
  | claim (updatedAt : String) (hactive : current.isTerminal = false)
      (hopen : current.phase ≠ healthyUnclaimed)
      (hfree : claimed ≠ some current.executorGeneration) :
      Rewrite current claimed (claimedReceipt current updatedAt)
  | transition (a : TransitionArgs) (now : String) {updated : InstallJobReceipt}
      (h : advanceReceipt P current claimed a now = .ok updated) : Rewrite current claimed updated

/-- The facts of a job that are frozen when it is created. -/
structure SameJob (r r' : InstallJobReceipt) : Prop where
  jobId : r'.jobId = r.jobId
  createdAt : r'.createdAt = r.createdAt
  target : r'.target = r.target
  artifact : r'.artifact = r.artifact
  planSha256 : r'.planSha256 = r.planSha256
  adbCredentialId : r'.adbCredentialId = r.adbCredentialId

theorem isTerminal_eq_false {r : InstallJobReceipt} :
    r.isTerminal = false ↔ r.phase ∉ terminalPhases := by
  simp [InstallJobReceipt.isTerminal]

theorem not_terminal_of_cancellable {p : InstallPhase} (h : p ∈ cancellablePhases) :
    p ∉ terminalPhases := by
  revert h
  cases p <;> decide

/-- The three receipts `async_claim` writes. -/
theorem claimedReceipt_cases (r : InstallJobReceipt) (t : String) :
    (claimedReceipt r t).phase = recoveryRequired ∧
        (attemptsExhausted r = true ∨ r.phase ∈ restartAmbiguousPhases) ∧
        (claimedReceipt r t).failureStage = some r.phase ∧
        (∃ subcode, (claimedReceipt r t).resultSubcode = some subcode ∧
          subcodeAllowed subcode = true) ∨
      (claimedReceipt r t).phase = r.phase ∧ r.phase ∉ restartAmbiguousPhases ∧
        (claimedReceipt r t).executorGeneration = r.executorGeneration + 1 ∧
        (claimedReceipt r t).failureStage = none ∧ (claimedReceipt r t).resultSubcode = none := by
  unfold claimedReceipt
  split
  · rename_i h
    exact Or.inl ⟨rfl, Or.inl h, rfl, _, rfl, by decide⟩
  · split
    · rename_i h
      exact Or.inl ⟨rfl, Or.inr h, rfl, _, rfl, by decide⟩
    · rename_i h
      exact Or.inr ⟨rfl, h, rfl, rfl, rfl⟩

theorem claimedReceipt_frame (r : InstallJobReceipt) (t : String) :
    (claimedReceipt r t).revision = r.revision + 1 ∧ SameJob r (claimedReceipt r t) ∧
      (claimedReceipt r t).cancelRequested = r.cancelRequested := by
  unfold claimedReceipt
  split
  · exact ⟨rfl, ⟨rfl, rfl, rfl, rfl, rfl, rfl⟩, rfl⟩
  · split <;> exact ⟨rfl, ⟨rfl, rfl, rfl, rfl, rfl, rfl⟩, rfl⟩

theorem advanceReceipt_eq_ok {current updated : InstallJobReceipt} {claimed : Option Int}
    {a : TransitionArgs} {now : String}
    (h : advanceReceipt P current claimed a now = .ok updated) :
    transitionAllowed current claimed a = true ∧
      (∃ updatedAt, timestamp (.str now) = .ok updatedAt ∧
        updated = transitionedReceipt current a updatedAt) ∧
      validateReceiptInvariants P updated = .ok () := by
  simp only [advanceReceipt, bind_eq_ok, check_eq_ok] at h
  obtain ⟨_, hallowed, updatedAt, htime, h⟩ := h
  split at h
  · rename_i u hvalid
    rw [pure_eq_ok] at h
    subst h
    exact ⟨hallowed, ⟨updatedAt, htime, rfl⟩, hvalid⟩
  · cases h

/-- What the guards of a transition say, one by one. -/
structure Allowed (current : InstallJobReceipt) (claimed : Option Int) (a : TransitionArgs) :
    Prop where
  edge : a.phase ∈ nextPhase current.phase
  cancel : current.cancelRequested = true →
    a.phase = .cancelled ∨ a.phase = failed ∨ a.phase = recoveryRequired
  claim : finalizerEdge current.phase a.phase = true ∨ claimed = some current.executorGeneration
  outcome : outcomeArguments current a = true

theorem Allowed.of_transitionAllowed {current : InstallJobReceipt} {claimed : Option Int}
    {a : TransitionArgs} (h : transitionAllowed current claimed a = true) :
    Allowed current claimed a := by
  simp only [transitionAllowed, Bool.and_eq_true, decide_eq_true_eq, Bool.or_eq_true,
    Bool.not_eq_true', beq_iff_eq] at h
  obtain ⟨⟨⟨⟨⟨⟨⟨hedge, hcancel⟩, hclaim⟩, -⟩, -⟩, -⟩, -⟩, houtcome⟩ := h
  refine ⟨hedge, fun hrequested => ?_, hclaim, houtcome⟩
  rcases hcancel with ((hno | h) | h) | h
  · rw [hrequested] at hno
    cases hno
  · exact Or.inl h
  · exact Or.inr (Or.inl h)
  · exact Or.inr (Or.inr h)

namespace Rewrite

variable {P} {r r' : InstallJobReceipt} {claimed : Option Int}

theorem revision (h : Rewrite P r claimed r') : r'.revision = r.revision + 1 := by
  cases h with
  | cancel => rfl
  | claim updatedAt => exact (claimedReceipt_frame r updatedAt).1
  | transition a now h =>
    obtain ⟨-, ⟨_, -, rfl⟩, -⟩ := advanceReceipt_eq_ok P h
    rfl

theorem sameJob (h : Rewrite P r claimed r') : SameJob r r' := by
  cases h with
  | cancel => exact ⟨rfl, rfl, rfl, rfl, rfl, rfl⟩
  | claim updatedAt => exact (claimedReceipt_frame r updatedAt).2.1
  | transition a now h =>
    obtain ⟨-, ⟨_, -, rfl⟩, -⟩ := advanceReceipt_eq_ok P h
    exact ⟨rfl, rfl, rfl, rfl, rfl, rfl⟩

theorem active (h : Rewrite P r claimed r') : r.isTerminal = false := by
  rw [isTerminal_eq_false]
  cases h with
  | cancel _ hphase => exact not_terminal_of_cancellable hphase
  | claim _ hactive => exact isTerminal_eq_false.mp hactive
  | transition a now h =>
    have hallowed := Allowed.of_transitionAllowed (advanceReceipt_eq_ok P h).1
    exact not_mem_terminal_of_nextPhase hallowed.edge

/-- The phase stays, follows an edge, or a claim quarantines the job. -/
theorem phase (h : Rewrite P r claimed r') :
    r'.phase = r.phase ∨ r'.phase ∈ nextPhase r.phase ∨
      (∃ updatedAt, r' = claimedReceipt r updatedAt) ∧ r'.phase = recoveryRequired := by
  cases h with
  | cancel => exact Or.inl rfl
  | claim updatedAt =>
    rcases claimedReceipt_cases r updatedAt with ⟨hphase, -⟩ | ⟨hphase, -⟩
    · exact Or.inr (Or.inr ⟨⟨updatedAt, rfl⟩, hphase⟩)
    · exact Or.inl hphase
  | transition a now h =>
    obtain ⟨hallowed, ⟨_, -, rfl⟩, -⟩ := advanceReceipt_eq_ok P h
    exact Or.inr (Or.inl (Allowed.of_transitionAllowed hallowed).edge)

theorem rank_le (h : Rewrite P r claimed r') : r.phase.rank ≤ r'.phase.rank := by
  rcases h.phase with hsame | hedge | ⟨-, hquarantine⟩
  · rw [hsame]
  · exact (rank_lt_of_nextPhase hedge).le
  · rw [hquarantine]
    exact rank_le_terminal r.phase

/-- A rewritten receipt keeps its detail admissible, and carries one once it has stopped. -/
theorem detail (h : Rewrite P r claimed r') (hr : r.detailViolated = false) :
    r'.detailViolated = false ∧ (Stopped r' → r'.failureStage.isSome) := by
  have hactive := isTerminal_eq_false.mp h.active
  cases h with
  | cancel _ hphase =>
    refine ⟨hr, fun hstop => ?_⟩
    rcases hstop with hfailed | hrecovery
    · have : r.phase = failed := hfailed
      rw [this] at hphase
      exact absurd hphase (by decide)
    · have : r.phase = recoveryRequired := hrecovery
      rw [this] at hphase
      exact absurd hphase (by decide)
  | claim updatedAt =>
    rcases claimedReceipt_cases r updatedAt with ⟨hphase, -, hstage, subcode, hsub, hallowed⟩ |
        ⟨hphase, -, -, hstage, hsub⟩
    · simp only [subcodeAllowed, Bool.and_eq_true, decide_eq_true_eq] at hallowed
      refine ⟨?_, fun _ => by simp [hstage]⟩
      simp only [InstallJobReceipt.detailViolated, hphase, hstage, hsub]
      simp [hallowed.2, hactive, hallowed.1]
    · refine ⟨?_, fun hstop => ?_⟩
      · simp [InstallJobReceipt.detailViolated, hstage, hsub]
      · simp only [Stopped, hphase] at hstop
        rcases hstop with hstop | hstop <;> rw [hstop] at hactive <;>
          exact absurd (by decide) hactive
  | transition a now h =>
    obtain ⟨-, ⟨_, -, rfl⟩, hvalid⟩ := advanceReceipt_eq_ok P h
    refine ⟨((validate_ok_iff P).mp hvalid).1, fun hstop => ?_⟩
    have hstop' : a.phase = failed ∨ a.phase = recoveryRequired := hstop
    simp [transitionedReceipt, hstop']

end Rewrite

end PanelAssistant
