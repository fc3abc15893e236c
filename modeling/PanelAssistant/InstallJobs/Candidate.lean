import PanelAssistant.InstallJobs.Rewrite

/-!
# The tables an operation hands to a save

Every plan of a manager operation is either an answer that is already in the table, or a
`Candidate`: a new job beside the receipts that were kept, or one rewritten receipt among
them. Only terminal receipts are pruned. A candidate that the save's own check accepts is
`Sound` again (`Candidate.sound`), and what becomes of each single receipt is its `Fate`.
-/

namespace PanelAssistant

open Library InstallPhase

variable (P : Platform)

/-- `kept` is `jobs` without some of its terminal receipts. -/
def Pruned (jobs kept : Jobs) : Prop :=
  ∀ jobId, kept.get? jobId = jobs.get? jobId ∨
    kept.get? jobId = none ∧ ∃ r, jobs.get? jobId = some r ∧ r.isTerminal = true

theorem Pruned.refl (jobs : Jobs) : Pruned jobs jobs := fun _ => Or.inl rfl

theorem Pruned.get? {jobs kept : Jobs} (h : Pruned jobs kept) {jobId : String}
    {r : InstallJobReceipt} (hr : kept.get? jobId = some r) : jobs.get? jobId = some r := by
  rcases h jobId with hsame | ⟨hnone, -⟩
  · rw [← hsame, hr]
  · rw [hnone] at hr
    cases hr

theorem prune_pruned {jobs kept : Jobs} {now : String} (h : prune jobs now = .ok kept) :
    Pruned jobs kept := by
  unfold prune at h
  split at h
  · simp only [bind_eq_ok, check_eq_ok, pure_eq_ok] at h
    obtain ⟨_, _, rfl⟩ := h
    intro jobId
    rw [Dict.get?_filter]
    cases hr : jobs.get? jobId with
    | none => exact Or.inl rfl
    | some r =>
      simp only [Option.filter]
      split
      · exact Or.inl rfl
      · rename_i hdropped
        refine Or.inr ⟨rfl, r, rfl, ?_⟩
        cases hterminal : r.isTerminal with
        | true => rfl
        | false => simp [hterminal] at hdropped
  · cases h

/-- A table an operation hands to a save, and the id of the receipt it answers with. -/
inductive Candidate (jobs : Jobs) (claimed : Dict String Int) : Jobs → String → Prop
  | create (a : CreateArgs) (now jobId : String) (kept : Jobs) (hkept : Pruned jobs kept)
      (hfresh : kept.get? jobId = none) :
      Candidate jobs claimed (kept.set jobId (approvedReceipt a jobId now)) jobId
  | rewrite (jobId : String) (current updated : InstallJobReceipt)
      (hcurrent : jobs.get? jobId = some current)
      (hrewrite : Rewrite P current (claimed.get? jobId) updated) (kept : Jobs)
      (hkept : Pruned (jobs.set jobId updated) kept) :
      Candidate jobs claimed kept jobId

/-! ## Every plan is an answer or a candidate -/

theorem checkedCurrent_eq_ok {jobs : Jobs} {jobId : String} {revision : Int}
    {r : InstallJobReceipt} :
    checkedCurrent jobs jobId revision = .ok r ↔
      isHex32 jobId = true ∧ jobs.get? jobId = some r ∧ r.revision = revision := by
  unfold checkedCurrent
  simp only [bind_eq_ok, check_eq_ok]
  cases hr : jobs.get? jobId with
  | none => simp
  | some current =>
    simp only [bind_eq_ok, check_eq_ok, pure_eq_ok, decide_eq_true_eq, exists_and_left,
      exists_const, Option.some.injEq]
    constructor
    · rintro ⟨hhex, hrevision, rfl⟩
      exact ⟨hhex, rfl, hrevision⟩
    · rintro ⟨hhex, rfl, hrevision⟩
      exact ⟨hhex, hrevision, rfl⟩

theorem createOrJoin_save {a : CreateArgs} {now jobId : String} {jobs candidate : Jobs}
    {claimed : Dict String Int} (h : createOrJoin a now jobs = .ok (.save candidate jobId)) :
    Candidate P jobs claimed candidate jobId := by
  simp only [createOrJoin, bind_eq_ok] at h
  obtain ⟨now, -, kept, hkept, h⟩ := h
  split at h
  · split at h
    · simp at h
    · cases h
  · simp only [bind_eq_ok] at h
    obtain ⟨_, -, h⟩ := h
    split at h
    · rename_i token htoken
      simp only [pure_eq_ok, Plan.save.injEq] at h
      obtain ⟨rfl, rfl⟩ := h
      have hfresh := List.find?_some htoken
      refine .create a now token kept (prune_pruned hkept) ?_
      simpa [Dict.contains] using hfresh
    · cases h

theorem requestCancel_save (claimed : Dict String Int) {jobId id now : String} {revision : Int}
    {jobs candidate : Jobs}
    (h : requestCancel jobId revision now jobs = .ok (.save candidate id)) :
    id = jobId ∧ Candidate P jobs claimed candidate jobId ∧
      ∃ current updatedAt, jobs.get? jobId = some current ∧ current.phase ∈ cancellablePhases ∧
        candidate.get? jobId = some (cancelledReceipt current updatedAt) := by
  simp only [requestCancel, bind_eq_ok, check_eq_ok, decide_eq_true_eq] at h
  obtain ⟨current, hcurrent, _, hphase, h⟩ := h
  obtain ⟨-, hget, -⟩ := checkedCurrent_eq_ok.mp hcurrent
  split at h
  · simp at h
  · rename_i hfirst
    simp only [bind_eq_ok, pure_eq_ok, Plan.save.injEq] at h
    obtain ⟨updatedAt, -, rfl, rfl⟩ := h
    refine ⟨rfl, ?_, current, updatedAt, hget, hphase, by simp⟩
    exact .rewrite _ current _ hget (.cancel updatedAt hphase (by simpa using hfirst)) _
      (Pruned.refl _)

theorem requestCancel_answer {jobId now : String} {revision : Int} {jobs : Jobs}
    {r : InstallJobReceipt} (h : requestCancel jobId revision now jobs = .ok (.answer r)) :
    jobs.get? jobId = some r ∧ r.phase ∈ cancellablePhases ∧ r.cancelRequested = true := by
  simp only [requestCancel, bind_eq_ok, check_eq_ok, decide_eq_true_eq] at h
  obtain ⟨current, hcurrent, _, hphase, h⟩ := h
  obtain ⟨-, hget, -⟩ := checkedCurrent_eq_ok.mp hcurrent
  split at h
  · rename_i hrequested
    simp only [pure_eq_ok, Plan.answer.injEq] at h
    subst h
    exact ⟨hget, hphase, hrequested⟩
  · simp only [bind_eq_ok, pure_eq_ok, reduceCtorEq, and_false, exists_false] at h

theorem claim_save {jobId id now : String} {revision : Int} {confirmed : Option Int}
    {jobs candidate : Jobs} {claimed : Dict String Int}
    (h : claim jobId revision confirmed now jobs claimed = .ok (.save candidate id)) :
    id = jobId ∧ ∃ current updatedAt, jobs.get? jobId = some current ∧
      current.isTerminal = false ∧ current.phase ≠ healthyUnclaimed ∧
      claimed.get? jobId ≠ some current.executorGeneration ∧
      Pruned (jobs.set jobId (claimedReceipt current updatedAt)) candidate := by
  simp only [claim, bind_eq_ok, check_eq_ok, Bool.and_eq_true, Bool.not_eq_true',
    decide_eq_true_eq] at h
  obtain ⟨current, hcurrent, _, ⟨hactive, hopen⟩, _, -, h⟩ := h
  obtain ⟨-, hget, -⟩ := checkedCurrent_eq_ok.mp hcurrent
  split at h
  · simp at h
  · rename_i hfree
    simp only [bind_eq_ok, pure_eq_ok, Plan.save.injEq] at h
    obtain ⟨_, -, updatedAt, -, kept, hkept, rfl, rfl⟩ := h
    exact ⟨rfl, current, updatedAt, hget, hactive, hopen, hfree, prune_pruned hkept⟩

theorem transition_save {jobId id now : String} {revision : Int} {a : TransitionArgs}
    {jobs candidate : Jobs} {claimed : Dict String Int}
    (h : transition P jobId revision a now jobs claimed = .ok (.save candidate id)) :
    id = jobId ∧ ∃ current updated, jobs.get? jobId = some current ∧ current.revision = revision ∧
      advanceReceipt P current (claimed.get? jobId) a now = .ok updated ∧
      Pruned (jobs.set jobId updated) candidate := by
  simp only [transition, bind_eq_ok, pure_eq_ok, Plan.save.injEq] at h
  obtain ⟨current, hcurrent, updated, hadvance, kept, hkept, rfl, rfl⟩ := h
  obtain ⟨-, hget, hrevision⟩ := checkedCurrent_eq_ok.mp hcurrent
  exact ⟨rfl, current, updated, hget, hrevision, hadvance, prune_pruned hkept⟩

theorem transition_ne_answer {jobId now : String} {revision : Int} {a : TransitionArgs}
    {jobs : Jobs} {claimed : Dict String Int} {r : InstallJobReceipt} :
    transition P jobId revision a now jobs claimed ≠ .ok (.answer r) := by
  intro h
  simp only [transition, bind_eq_ok, pure_eq_ok, reduceCtorEq, and_false, exists_false] at h

theorem requestCancel_candidate {jobId id now : String} {revision : Int} {jobs candidate : Jobs}
    {claimed : Dict String Int}
    (h : requestCancel jobId revision now jobs = .ok (.save candidate id)) :
    Candidate P jobs claimed candidate id := by
  obtain ⟨rfl, hcandidate, -⟩ := requestCancel_save P claimed h
  exact hcandidate

theorem claim_candidate {jobId id now : String} {revision : Int} {confirmed : Option Int}
    {jobs candidate : Jobs} {claimed : Dict String Int}
    (h : claim jobId revision confirmed now jobs claimed = .ok (.save candidate id)) :
    Candidate P jobs claimed candidate id := by
  obtain ⟨rfl, current, updatedAt, hget, hactive, hopen, hfree, hkept⟩ := claim_save h
  exact .rewrite _ current _ hget (.claim updatedAt hactive hopen hfree) _ hkept

theorem transition_candidate {jobId id now : String} {revision : Int} {a : TransitionArgs}
    {jobs candidate : Jobs} {claimed : Dict String Int}
    (h : transition P jobId revision a now jobs claimed = .ok (.save candidate id)) :
    Candidate P jobs claimed candidate id := by
  obtain ⟨rfl, current, updated, hget, -, hadvance, hkept⟩ := transition_save P h
  exact .rewrite _ current updated hget (.transition a now hadvance) _ hkept

/-! ## Candidates are sound -/

section Candidates

variable {P} {written : List InstallJobReceipt} {jobs candidate : Jobs}
  {claimed : Dict String Int} {jobId : String}

/-- What a save makes of one receipt. -/
inductive Fate (P : Platform) (jobId : String) (claimed : Option Int) (r : InstallJobReceipt) :
    Option InstallJobReceipt → Prop
  | kept : Fate P jobId claimed r (some r)
  | rewritten (r' : InstallJobReceipt) (h : Rewrite P r claimed r') : Fate P
    jobId claimed r (some r')
  | pruned (h : r.isTerminal = true) : Fate P jobId claimed r none
  /-- It was finished and pruned in one save. -/
  | finished (r' : InstallJobReceipt) (h : Rewrite P r claimed r') (hend : r'.isTerminal = true) :
    Fate P jobId claimed r none
  /-- It was pruned, and a new job drew its id. -/
  | redrawn (h : r.isTerminal = true) (a : CreateArgs) (now : String) :
    Fate P jobId claimed r (some (approvedReceipt a jobId now))

theorem Fate.of_pruned {kept : Jobs} (hkept : Pruned jobs kept) {r : InstallJobReceipt}
    (hr : jobs.get? jobId = some r) {g : Option Int} : Fate P jobId g r (kept.get? jobId) := by
  rcases hkept jobId with hsame | ⟨hnone, r', hr', hterminal⟩
  · rw [hsame, hr]
    exact .kept
  · rw [hr] at hr'
    cases hr'
    rw [hnone]
    exact .pruned hterminal

theorem Candidate.fate {id : String} (h : Candidate P jobs claimed candidate jobId)
    {r : InstallJobReceipt} (hr : jobs.get? id = some r) :
    Fate P id (claimed.get? id) r (candidate.get? id) := by
  cases h with
  | create a now _ kept hkept hfresh =>
    rw [Dict.get?_set]
    split
    · rename_i heq
      subst heq
      rcases hkept id with hsame | ⟨-, r', hr', hterminal⟩
      · rw [hfresh, hr] at hsame
        cases hsame
      · rw [hr] at hr'
        cases hr'
        exact .redrawn hterminal a now
    · exact .of_pruned hkept hr
  | rewrite _ current updated hcurrent hrewrite _ hkept =>
    by_cases heq : id = jobId
    · subst heq
      rw [hr] at hcurrent
      cases hcurrent
      rcases hkept id with hsame | ⟨hnone, r', hr', hterminal⟩
      · rw [hsame, Dict.get?_set_self]
        exact .rewritten updated hrewrite
      · rw [Dict.get?_set_self] at hr'
        cases hr'
        rw [hnone]
        exact .finished updated hrewrite hterminal
    · have hget : (jobs.set jobId updated).get? id = some r := by
        rw [Dict.get?_set_ne _ _ heq, hr]
      exact .of_pruned hkept hget

/-- What a save puts under an unused id is a new job. -/
theorem Candidate.born {id : String} (h : Candidate P jobs claimed candidate jobId)
    (hr : jobs.get? id = none) :
    candidate.get? id = none ∨ ∃ a now, candidate.get? id = some (approvedReceipt a id now) := by
  cases h with
  | create a now _ kept hkept hfresh =>
    rw [Dict.get?_set]
    split
    · rename_i heq
      subst heq
      exact Or.inr ⟨a, now, rfl⟩
    · rcases hkept id with hsame | ⟨hnone, -⟩
      · exact Or.inl (hsame.trans hr)
      · exact Or.inl hnone
  | rewrite _ current updated hcurrent _ _ hkept =>
    have hne : id ≠ jobId := by
      rintro rfl
      rw [hr] at hcurrent
      cases hcurrent
    rcases hkept id with hsame | ⟨hnone, -⟩
    · rw [hsame, Dict.get?_set_ne _ _ hne, hr]
      exact Or.inl rfl
    · exact Or.inl hnone

/-- Every receipt of a candidate is new, rewritten or kept. -/
theorem Candidate.origin {id : String} (h : Candidate P jobs claimed candidate jobId)
    {r' : InstallJobReceipt} (hr' : candidate.get? id = some r') :
    jobs.get? id = some r' ∨ (∃ r, jobs.get? id = some r ∧ Rewrite P r (claimed.get? id) r') ∨
      ∃ a now, r' = approvedReceipt a id now := by
  cases hr : jobs.get? id with
  | none =>
    rcases h.born hr with hnone | ⟨a, now, hnew⟩
    · rw [hnone] at hr'
      cases hr'
    · rw [hnew] at hr'
      exact Or.inr (Or.inr ⟨a, now, (Option.some.inj hr').symm⟩)
  | some r =>
    have hfate := h.fate hr
    rw [hr'] at hfate
    cases hfate with
    | kept => exact Or.inl rfl
    | rewritten _ hrewrite => exact Or.inr (Or.inl ⟨r, rfl, hrewrite⟩)
    | redrawn _ a now => exact Or.inr (Or.inr ⟨a, now, rfl⟩)

theorem Candidate.sound (h : Candidate P jobs claimed candidate jobId)
    (hjobs : Sound P written jobs) (hwritable : Writable P candidate) :
    Sound P (written ++ candidate.values) candidate := by
  have hdetail : ∀ id r', candidate.get? id = some r' →
      r'.detailViolated = false ∧ (Stopped r' → r'.failureStage.isSome) := by
    intro id r' hr'
    rcases h.origin hr' with hr | ⟨r, hr, hrewrite⟩ | ⟨a, now, rfl⟩
    · exact ⟨((validate_ok_iff P).mp (hjobs.valid id r' hr)).1, hjobs.staged id r' hr⟩
    · exact hrewrite.detail ((validate_ok_iff P).mp (hjobs.valid id r hr)).1
    · refine ⟨rfl, fun hstop => ?_⟩
      rcases hstop with hstop | hstop <;> cases hstop
  refine ⟨hwritable.keyed, fun id r' hr' => ?_, fun id r' hr' => ?_, fun id r' hr' => ?_⟩
  · exact List.mem_append_right _ (Dict.mem_values.mpr ⟨id, hr'⟩)
  · exact (validate_ok_iff P).mpr ⟨(hdetail id r' hr').1, hwritable.valid P hr'⟩
  · exact (hdetail id r' hr').2

theorem Candidate.agrees (h : Candidate P jobs claimed candidate jobId) :
    Agrees jobs candidate := by
  intro id r r' hr hr' hstop hrevision
  have hfate := h.fate hr
  rw [hr'] at hfate
  cases hfate with
  | kept => rfl
  | rewritten _ hrewrite =>
    have := hrewrite.revision
    omega
  | redrawn _ a now => rcases hstop with hstop | hstop <;> cases hstop

end Candidates

end PanelAssistant
