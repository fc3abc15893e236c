import PanelAssistant.InstallReceipt.Codec

/-!
# What the receipt rules say

`validateReceiptInvariants` accepts a receipt exactly when its detail is admissible and
`PrimaryValid` holds; the second reads no detail. A receipt that `parseReceipt` returns is
`Parsed`: it carries no detail, its primary rules hold and its counters are in range.

The phase graph of `nextPhase` is acyclic: `InstallPhase.rank` grows along every edge, so
a job never comes back to a phase it has left.
-/

namespace PanelAssistant

open Library InstallPhase

variable (P : Platform)

/-! ## Enumerations -/

theorem InstallPhase.value_injective {p q : InstallPhase} (h : p.value = q.value) : p = q := by
  revert h
  cases p <;> cases q <;> decide

/-- Every phase stands below the phases it may be left for. -/
def InstallPhase.rank : InstallPhase → Nat
  | approved => 0
  | authorizing => 1
  | preflight => 2
  | downloading => 3
  | artifactReady => 4
  | revalidating => 5
  | staging => 6
  | installing => 7
  | installed => 8
  | launching => 9
  | healthCheck => 10
  | healthyUnclaimed => 11
  | consumed => 12
  | .cancelled => 12
  | failed => 12
  | recoveryRequired => 12

theorem rank_lt_of_nextPhase {p q : InstallPhase} (h : q ∈ nextPhase p) : p.rank < q.rank := by
  revert h
  cases p <;> cases q <;> decide

theorem rank_le_terminal (p : InstallPhase) : p.rank ≤ 12 := by
  cases p <;> decide

theorem nextPhase_of_terminal {p : InstallPhase} (h : p ∈ terminalPhases) : nextPhase p = [] := by
  revert h
  cases p <;> decide

/-- A terminal receipt is at no phase a claim or a transition starts from. -/
theorem not_mem_terminal_of_nextPhase {p q : InstallPhase} (h : q ∈ nextPhase p) :
    p ∉ terminalPhases := by
  intro hp
  rw [nextPhase_of_terminal hp] at h
  cases h

/-! ## Primary rules -/

/-- The rules of a receipt that read no failure detail. -/
structure PrimaryValid (r : InstallJobReceipt) : Prop where
  clock : r.createdAt ≤ r.updatedAt
  size : ∀ bytes, r.actualApkBytes = some bytes → bytes = r.artifact.apkSize
  plan : r.planBound P = true
  abi : r.artifact.supportedAbis.contains r.target.primaryAbi = true
  sdk : r.artifact.minSdk ≤ r.target.androidSdk
  attempt : r.attempt = r.executorGeneration
  revision : r.executorGeneration ≤ r.revision
  noRootMode : r.phase ∈ preflightRootModeForbiddenPhases → r.preflightRootMode = none
  rootMode : r.phase ∈ preflightRootModeRequiredPhases →
    ∃ mode, r.preflightRootMode = some mode ∧ mode ∈ preflightRootModes
  measured : r.phase ∈ artifactRequiredPhases → r.actualApkBytes.isSome
  unmeasured : r.phase ∉ artifactRequiredPhases → r.phase ∉ terminalPhases →
    r.actualApkBytes = none
  outcome : r.outcomeViolated = false
  healthy : r.phase = healthyUnclaimed ∨ r.phase = consumed → r.healthCheckedAt.isSome
  unhealthy : ¬(r.phase = healthyUnclaimed ∨ r.phase = consumed) → r.healthCheckedAt = none
  health : ∀ checked, r.healthCheckedAt = some checked →
    r.createdAt ≤ checked ∧ checked ≤ r.updatedAt

theorem any_eq_false_iff {α : Type} {p : α → Bool} {o : Option α} :
    o.any p = false ↔ ∀ a, o = some a → p a = false := by
  cases o <;> simp

theorem any_eq_true_iff {α : Type} {p : α → Bool} {o : Option α} :
    o.any p = true ↔ ∃ a, o = some a ∧ p a = true := by
  cases o <;> simp

theorem primaryViolated_eq_false {r : InstallJobReceipt} :
    r.primaryViolated P = false ↔ PrimaryValid P r := by
  simp only [InstallJobReceipt.primaryViolated, Bool.or_eq_false_iff, decide_eq_false_iff_not,
    any_eq_false_iff, Bool.not_eq_false', bne_eq_false_iff_eq, Bool.and_eq_false_imp,
    decide_eq_true_eq, not_lt, not_or, Decidable.not_not]
  constructor
  · rintro ⟨⟨⟨⟨⟨⟨⟨⟨⟨⟨hclock, hsize⟩, hplan⟩, habi, hsdk⟩, hattempt, hrevision⟩, hno, hroot⟩,
      hmeasured⟩, hunmeasured⟩, houtcome⟩, hhealthy⟩, hhealth⟩
    refine ⟨hclock, hsize, hplan, habi, hsdk, hattempt, hrevision, ?_, ?_, ?_, ?_, houtcome, ?_, ?_,
      hhealth⟩
    · intro hp
      simpa using hno hp
    · intro hp
      obtain ⟨mode, hmode, hmem⟩ := any_eq_true_iff.mp (hroot hp)
      exact ⟨mode, hmode, List.contains_iff_mem.mp hmem⟩
    · intro hp
      simpa [Option.isSome_iff_ne_none] using hmeasured hp
    · intro hp ht
      simpa using hunmeasured ⟨hp, ht⟩
    · intro hp
      simpa [hp, Option.isSome_iff_ne_none] using hhealthy
    · intro hp
      simpa [hp] using hhealthy
  · intro h
    refine ⟨⟨⟨⟨⟨⟨⟨⟨⟨⟨h.clock, h.size⟩, h.plan⟩, h.abi, h.sdk⟩, h.attempt, h.revision⟩, ?_, ?_⟩,
      ?_⟩, ?_⟩, h.outcome⟩, ?_⟩, h.health⟩
    · intro hp
      simp [h.noRootMode hp]
    · intro hp
      obtain ⟨mode, hmode, hmem⟩ := h.rootMode hp
      exact any_eq_true_iff.mpr ⟨mode, hmode, List.contains_iff_mem.mpr hmem⟩
    · intro hp
      simpa [Option.isSome_iff_ne_none] using h.measured hp
    · rintro ⟨hp, ht⟩
      simp [h.unmeasured hp ht]
    · split
      · rename_i hp
        simpa [Option.isSome_iff_ne_none] using h.healthy hp
      · rename_i hp
        simp [h.unhealthy hp]

theorem validate_ok_iff {r : InstallJobReceipt} {u : Unit} :
    validateReceiptInvariants P r = .ok u ↔ r.detailViolated = false ∧ PrimaryValid P r := by
  rw [← primaryViolated_eq_false, validateReceiptInvariants]
  cases r.detailViolated <;> cases r.primaryViolated P <;> simp

/-! ## Clearing the detail -/

@[simp] theorem detailViolated_clearDetail (r : InstallJobReceipt) :
    r.clearDetail.detailViolated = false := by
  simp [InstallJobReceipt.detailViolated, InstallJobReceipt.clearDetail]

theorem primaryValid_clearDetail {r : InstallJobReceipt} :
    PrimaryValid P r.clearDetail ↔ PrimaryValid P r := by
  rw [← primaryViolated_eq_false, ← primaryViolated_eq_false]
  rfl

@[simp] theorem serializeReceipt_clearDetail (r : InstallJobReceipt) :
    serializeReceipt r.clearDetail = serializeReceipt r := rfl

theorem clearDetail_of_none {r : InstallJobReceipt} (h : r.failureStage = none)
    (h' : r.resultSubcode = none) : r.clearDetail = r := by
  cases r
  simp_all [InstallJobReceipt.clearDetail]

/-! ## Parsed receipts -/

/-- What `parseReceipt` returns. -/
structure Parsed (r : InstallJobReceipt) : Prop where
  hex : isHex32 r.jobId = true
  noStage : r.failureStage = none
  noSubcode : r.resultSubcode = none
  valid : PrimaryValid P r
  revision : 0 ≤ r.revision ∧ r.revision ≤ 2 ^ 63 - 1
  generation : 0 ≤ r.executorGeneration
  attempt : r.attempt ≤ maxAttempts

theorem integer_eq_ok {value : Json} {low high n : Int} (h : integer value low high = .ok n) :
    low ≤ n ∧ n ≤ high := by
  unfold integer at h
  split at h
  · split at h
    · cases h
      assumption
    · cases h
  · cases h

theorem parseReceipt_parsed {value : Json} {r : InstallJobReceipt}
    (h : parseReceipt P value = .ok r) : Parsed P r := by
  unfold parseReceipt at h
  split at h
  · simp only [bind_eq_ok, check_eq_ok] at h
    obtain ⟨_, _, h⟩ := h
    split at h
    · simp only [bind_eq_ok, check_eq_ok] at h
      obtain ⟨jobId, _, _, _, _, _, _, hids, _, _, _, _, h⟩ := h
      split at h
      · simp only [bind_eq_ok, pure_eq_ok] at h
        obtain ⟨_, _, _, _, _, _, _, _, revision, hrevision, generation, hgeneration, _, _, _, _,
          attempt, hattempt, _, _, _, _, _, hvalid, rfl⟩ := h
        simp only [Bool.and_eq_true] at hids
        exact ⟨hids.1.1, rfl, rfl, ((validate_ok_iff P).mp hvalid).2, integer_eq_ok hrevision,
          (integer_eq_ok hgeneration).1, (integer_eq_ok hattempt).2⟩
      · cases h
    · cases h
  · cases h

end PanelAssistant
