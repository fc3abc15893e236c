import PanelAssistant.InstallJobs.RoundTrip

/-!
# What an operation hands to a save is storable

A candidate is compared with the storable table it was built from. What the operation
rewrites keeps its frozen fields and reads only arguments that were checked
(`CheckedRewrite`), its counters are bounded along every run (`RevisionBounded`), only
terminal receipts are dropped, and a new job shares no panel with an active one. The one rule
a candidate may break is that of its clock, and the save makes that check itself
(`clockReversed`); so a save that is refused is refused for its size or its clock.
-/

namespace PanelAssistant

open Library Library.Text InstallPhase

variable (P : Platform)

/-! ## Rewritten receipts -/

/-- Only so many rewrites fit into the life of a job. -/
def RevisionBounded (r : InstallJobReceipt) : Prop :=
  r.revision ≤ r.executorGeneration + r.phase.rank + if r.cancelRequested then 1 else 0

theorem rank_lt_of_active {p : InstallPhase} (h : p ∉ terminalPhases) : p.rank < 12 := by
  revert h
  cases p <;> decide

variable {P} in
theorem Rewrite.revisionBounded {r r' : InstallJobReceipt} {claimed : Option Int}
    (h : Rewrite P r claimed r') (hr : RevisionBounded r) : RevisionBounded r' := by
  have hrank := rank_lt_of_active (isTerminal_eq_false.mp h.active)
  unfold RevisionBounded at *
  cases h with
  | cancel updatedAt hphase hfirst =>
    simp only [hfirst, Bool.false_eq_true, if_false] at hr
    simp only [cancelledReceipt, if_true]
    omega
  | claim updatedAt =>
    have hquarantine : recoveryRequired.rank = 12 := rfl
    unfold claimedReceipt
    split
    · simp only [hquarantine]
      omega
    · split
      · simp only [hquarantine]
        omega
      · simp only
        omega
  | transition a now h =>
    obtain ⟨hallowed, ⟨_, -, rfl⟩, -⟩ := advanceReceipt_eq_ok P h
    have hedge := rank_lt_of_nextPhase (Allowed.of_transitionAllowed hallowed).edge
    show r.revision + 1 ≤ r.executorGeneration + a.phase.rank + if r.cancelRequested then 1 else 0
    omega

/-- A rewrite whose new fields have passed their parsers. -/
inductive CheckedRewrite (current : InstallJobReceipt) : InstallJobReceipt → Prop
  | cancel (updatedAt : String) (htime : timestamp (.str updatedAt) = .ok updatedAt)
      (hphase : current.phase ∈ cancellablePhases) :
      CheckedRewrite current (cancelledReceipt current updatedAt)
  | claim (updatedAt : String) (htime : timestamp (.str updatedAt) = .ok updatedAt)
      (hactive : current.isTerminal = false) (hopen : current.phase ≠ healthyUnclaimed) :
      CheckedRewrite current (claimedReceipt current updatedAt)
  | transition (a : TransitionArgs) (updatedAt : String)
      (htime : timestamp (.str updatedAt) = .ok updatedAt) (hchecked : checkedTransition P a = true)
      (hedge : a.phase ∈ nextPhase current.phase)
      (hvalid : validateReceiptInvariants P (transitionedReceipt current a updatedAt) = .ok ()) :
      CheckedRewrite current (transitionedReceipt current a updatedAt)

theorem integer_int {n low high : Int} (hlow : low ≤ n) (hhigh : n ≤ high) :
    integer (.int n) low high = .ok n := by
  simp [integer, hlow, hhigh]

theorem of_isOk {α : Type} {x : Except InstallJobError α} (h : x.isOk = true) : ∃ a, x = .ok a := by
  cases x with
  | ok a => exact ⟨a, rfl⟩
  | error e => cases h

/-- What a claim leaves alone, what it counts, and what it concludes. -/
theorem claimedReceipt_learned (r : InstallJobReceipt) (t : String) :
    (claimedReceipt r t).actualApkBytes = r.actualApkBytes ∧
      (claimedReceipt r t).preflightRootMode = r.preflightRootMode ∧
      (claimedReceipt r t).healthCheckedAt = r.healthCheckedAt ∧
      (claimedReceipt r t).consumedEntryId = r.consumedEntryId ∧
      ((claimedReceipt r t).attempt = r.attempt ∧
          (claimedReceipt r t).executorGeneration = r.executorGeneration ∨
        (claimedReceipt r t).attempt = r.attempt + 1 ∧
          (claimedReceipt r t).executorGeneration = r.executorGeneration + 1) ∧
      ((claimedReceipt r t).phase = r.phase ∧ (claimedReceipt r t).resultCode = none ∨
        (claimedReceipt r t).phase = recoveryRequired ∧
          (claimedReceipt r t).resultCode = some .verificationRequired) := by
  unfold claimedReceipt
  split
  · exact ⟨rfl, rfl, rfl, rfl, Or.inl ⟨rfl, rfl⟩, Or.inr ⟨rfl, rfl⟩⟩
  · split
    · exact ⟨rfl, rfl, rfl, rfl, Or.inr ⟨rfl, rfl⟩, Or.inr ⟨rfl, rfl⟩⟩
    · exact ⟨rfl, rfl, rfl, rfl, Or.inr ⟨rfl, rfl⟩, Or.inl ⟨rfl, rfl⟩⟩

namespace CheckedRewrite

variable {P} {current updated : InstallJobReceipt}

theorem active (h : CheckedRewrite P current updated) : current.phase ∉ terminalPhases := by
  cases h with
  | cancel _ _ hphase => exact not_terminal_of_cancellable hphase
  | claim _ _ hactive => exact isTerminal_eq_false.mp hactive
  | transition _ _ _ _ hedge => exact not_mem_terminal_of_nextPhase hedge

theorem sameJob (h : CheckedRewrite P current updated) : SameJob current updated := by
  cases h with
  | cancel => exact ⟨rfl, rfl, rfl, rfl, rfl, rfl⟩
  | claim updatedAt => exact (claimedReceipt_frame current updatedAt).2.1
  | transition => exact ⟨rfl, rfl, rfl, rfl, rfl, rfl⟩

/-- The fields that a transition learns have been checked before the lock was taken. -/
theorem learned {a : TransitionArgs} (h : checkedTransition P a = true) :
    (∀ mode, a.preflightRootMode = some mode → parseRootMode (.str mode) = .ok mode) ∧
      (∀ bytes, a.actualApkBytes = some bytes → integer (.int bytes) 1 maxApkBytes = .ok bytes) ∧
      (∀ checked, a.healthCheckedAt = some checked → timestamp (.str checked) = .ok checked) ∧
      ∀ entry, a.consumedEntryId = some entry → parseEntryId P (.str entry) = .ok entry := by
  simp only [checkedTransition, Bool.and_eq_true] at h
  obtain ⟨⟨⟨⟨-, hmode⟩, hbytes⟩, hhealth⟩, hentry⟩ := h
  refine ⟨fun mode hm => ?_, fun bytes hb => ?_, fun checked hc => ?_, fun entry he => ?_⟩
  · rw [hm, Option.all_some, Bool.and_eq_true] at hmode
    exact parseRootMode_iff.mpr hmode.2
  · rw [hb, Option.all_some] at hbytes
    obtain ⟨n, hn⟩ := of_isOk hbytes
    obtain rfl := Json.int.inj (integer_eq_int hn)
    exact hn
  · rw [hc, Option.all_some] at hhealth
    obtain ⟨text, htext⟩ := of_isOk hhealth
    obtain rfl := Json.str.inj (timestamp_eq_ok htext)
    exact htext
  · rw [he, Option.all_some, Bool.and_eq_true] at hentry
    obtain ⟨text, htext⟩ := of_isOk hentry.1
    obtain rfl := Json.str.inj (safeText_eq_ok htext)
    simp only [parseEntryId, htext, ok_bind, check, hentry.2, if_true]
    rfl

theorem fields (h : CheckedRewrite P current updated) (hr : FieldsOk P current)
    (hbound : current.revision + 1 ≤ 2 ^ 63 - 1) : FieldsOk P updated := by
  have hrevision : integer (.int (current.revision + 1)) 0 (2 ^ 63 - 1) =
      .ok (current.revision + 1) :=
    integer_int (by have := (integer_eq_ok hr.revision).1; omega) hbound
  cases h with
  | cancel updatedAt htime =>
    exact ⟨hr.jobId, hr.planSha256, hr.adbCredentialId, hr.ids, hr.rootMode, hr.actual, hr.health,
      hr.entry, hrevision, hr.generation, hr.createdAt, htime, hr.attempt, hr.target, hr.artifact⟩
  | claim updatedAt htime =>
    unfold claimedReceipt
    split
    · exact ⟨hr.jobId, hr.planSha256, hr.adbCredentialId, hr.ids, hr.rootMode, hr.actual, hr.health,
        hr.entry, hrevision, hr.generation, hr.createdAt, htime, hr.attempt, hr.target, hr.artifact⟩
    · rename_i hmore
      simp only [attemptsExhausted, Bool.or_eq_true, decide_eq_true_eq, not_or, not_le] at hmore
      have hgeneration : integer (.int (current.executorGeneration + 1)) 0 maxExecutorGeneration =
          .ok (current.executorGeneration + 1) :=
        integer_int (by have := (integer_eq_ok hr.generation).1; omega) (by omega)
      have hattempt : integer (.int (current.attempt + 1)) 0 maxAttempts =
          .ok (current.attempt + 1) :=
        integer_int (by have := (integer_eq_ok hr.attempt).1; omega) (by omega)
      split <;> exact ⟨hr.jobId, hr.planSha256, hr.adbCredentialId, hr.ids, hr.rootMode, hr.actual,
        hr.health, hr.entry, hrevision, hgeneration, hr.createdAt, htime, hattempt, hr.target,
        hr.artifact⟩
  | transition a updatedAt htime hchecked =>
    obtain ⟨hmode, hbytes, hhealth, hentry⟩ := learned hchecked
    refine ⟨hr.jobId, hr.planSha256, hr.adbCredentialId, hr.ids, fun mode hm => ?_,
      fun bytes hb => ?_, fun checked hc => ?_, hentry, hrevision, hr.generation, hr.createdAt,
      htime, hr.attempt, hr.target, hr.artifact⟩
    · rcases Option.or_eq_some_iff.mp hm with hm | ⟨-, hm⟩
      · exact hmode mode hm
      · exact hr.rootMode mode hm
    · rcases Option.or_eq_some_iff.mp hb with hb | ⟨-, hb⟩
      · exact hbytes bytes hb
      · exact hr.actual bytes hb
    · simp only [transitionedReceipt] at hc
      split at hc
      · cases hc
      · rcases Option.or_eq_some_iff.mp hc with hc | ⟨-, hc⟩
        · exact hhealth checked hc
        · exact hr.health checked hc

/-- The rules of a receipt that keeps its frozen fields and what it has learned, and stays in
its phase or is quarantined. -/
theorem primaryValid {r r' : InstallJobReceipt} (hr : PrimaryValid P r) (hsame : SameJob r r')
    (hage : r.createdAt ≤ r'.updatedAt) (hactual : r'.actualApkBytes = r.actualApkBytes)
    (hmode : r'.preflightRootMode = r.preflightRootMode)
    (hhealth : r'.healthCheckedAt = r.healthCheckedAt)
    (hquiet : ¬(r.phase = healthyUnclaimed ∨ r.phase = consumed))
    (hphase : r'.phase = r.phase ∨ r'.phase = recoveryRequired)
    (hattempt : r'.attempt = r'.executorGeneration)
    (hrevision : r'.executorGeneration ≤ r'.revision)
    (houtcome : r'.outcomeViolated = false) : PrimaryValid P r' := by
  have hplan : r'.planBound P = true := by
    have := hr.plan
    simp only [InstallJobReceipt.planBound, hsame.target, hsame.artifact, hsame.planSha256,
      hsame.adbCredentialId] at this ⊢
    exact this
  have hquiet' : ¬(r'.phase = healthyUnclaimed ∨ r'.phase = consumed) := by
    rcases hphase with hphase | hphase
    · rwa [hphase]
    · rw [hphase]
      decide
  have hnone : r'.healthCheckedAt = none := hhealth.trans (hr.unhealthy hquiet)
  refine ⟨hsame.createdAt ▸ hage, fun bytes hb => ?_, hplan, ?_, ?_, hattempt, hrevision,
    fun hp => ?_, fun hp => ?_, fun hp => ?_, fun hp ht => ?_, houtcome,
      fun hp => (hquiet' hp).elim, fun _ => hnone, fun checked hc => ?_⟩
  · rw [hsame.artifact]
    exact hr.size bytes (hactual ▸ hb)
  · rw [hsame.artifact, hsame.target]
    exact hr.abi
  · rw [hsame.artifact, hsame.target]
    exact hr.sdk
  · rcases hphase with hphase | hphase
    · exact hmode.trans (hr.noRootMode (hphase ▸ hp))
    · rw [hphase] at hp
      exact absurd hp (by decide)
  · rcases hphase with hphase | hphase
    · exact hmode ▸ hr.rootMode (hphase ▸ hp)
    · rw [hphase] at hp
      exact absurd hp (by decide)
  · rcases hphase with hphase | hphase
    · exact hactual ▸ hr.measured (hphase ▸ hp)
    · rw [hphase] at hp
      exact absurd hp (by decide)
  · rcases hphase with hphase | hphase
    · exact hactual.trans (hr.unmeasured (hphase ▸ hp) (hphase ▸ ht))
    · rw [hphase] at ht
      exact absurd (by decide) ht
  · rw [hnone] at hc
    cases hc

theorem outcome_of_running {r : InstallJobReceipt} (hactive : r.phase ∉ terminalPhases)
    (hentry : r.consumedEntryId = none) (hcode : r.resultCode = none) :
    r.outcomeViolated = false := by
  simp only [terminalPhases, List.mem_cons, List.not_mem_nil, or_false, not_or] at hactive
  obtain ⟨h₁, h₂, h₃, h₄⟩ := hactive
  simp [InstallJobReceipt.outcomeViolated, h₁, h₂, h₃, h₄, hentry, hcode]

theorem outcome_of_quarantine {r : InstallJobReceipt} (hphase : r.phase = recoveryRequired)
    (hcode : r.resultCode = some .verificationRequired) (hentry : r.consumedEntryId = none) :
    r.outcomeViolated = false := by
  have hrecovery : InstallResultCode.verificationRequired ∈ recoveryCodes := by decide
  simp [InstallJobReceipt.outcomeViolated, hphase, hcode, hentry, hrecovery]

theorem running_outcome {r : InstallJobReceipt} (hactive : r.phase ∉ terminalPhases)
    (h : r.outcomeViolated = false) : r.consumedEntryId = none ∧ r.resultCode = none := by
  simp only [terminalPhases, List.mem_cons, List.not_mem_nil, or_false, not_or] at hactive
  obtain ⟨h₁, h₂, h₃, h₄⟩ := hactive
  simpa [InstallJobReceipt.outcomeViolated, h₁, h₂, h₃, h₄] using h

/-- A cancellation request and a claim keep the rules of the receipt, unless the clock has
run backwards; a transition has checked them. -/
theorem valid (h : CheckedRewrite P current updated)
    (hr : validateReceiptInvariants P current = .ok ())
    (hclock : current.updatedAt ≤ updated.updatedAt) :
    validateReceiptInvariants P updated = .ok () := by
  obtain ⟨hdetail, hr⟩ := (validate_ok_iff P).mp hr
  have hactive := h.active
  have hsame := h.sameJob
  have hage : current.createdAt ≤ updated.updatedAt := hr.clock.trans hclock
  obtain ⟨hentry, hcode⟩ := running_outcome hactive hr.outcome
  have hrevision := hr.revision
  have hattempt := hr.attempt
  cases h with
  | cancel updatedAt _ hphase =>
    have hquiet : ¬(current.phase = healthyUnclaimed ∨ current.phase = consumed) := by
      revert hphase
      cases current.phase <;> decide
    refine (validate_ok_iff P).mpr ⟨hdetail, primaryValid hr hsame hage rfl rfl rfl hquiet
      (Or.inl rfl) hattempt ?_ (outcome_of_running hactive hentry hcode)⟩
    simp only [cancelledReceipt]
    omega
  | claim updatedAt _ hterminal hopen =>
    have hquiet : ¬(current.phase = healthyUnclaimed ∨ current.phase = consumed) := by
      rintro (h | h)
      · exact hopen h
      · exact hactive (h ▸ by decide)
    refine (validate_ok_iff P).mpr ⟨?_, ?_⟩
    · have hrewrite : Rewrite P current none (claimedReceipt current updatedAt) :=
        .claim updatedAt hterminal hopen nofun
      exact (hrewrite.detail hdetail).1
    · obtain ⟨hactual, hmode, hhealth, hentry', hcounters, hphase⟩ :=
        claimedReceipt_learned current updatedAt
      have hnext := (claimedReceipt_frame current updatedAt).1
      refine primaryValid hr hsame hage hactual hmode hhealth hquiet (hphase.imp And.left And.left)
        (by omega) (by omega) ?_
      rcases hphase with ⟨hphase, hcode'⟩ | ⟨hphase, hcode'⟩
      · exact outcome_of_running (hphase ▸ hactive) (hentry'.trans hentry) hcode'
      · exact outcome_of_quarantine hphase hcode' (hentry'.trans hentry)
  | transition _ _ _ _ _ hvalid => exact hvalid

end CheckedRewrite

/-! ## New receipts -/

/-- The plan digest of a checked creation is one that `sha256` returned. -/
theorem isSha256_of_checkedCreate {a a' : CreateArgs}
    (hdigest : ∀ text, isSha256 (P.sha256 text) = true) (hchecked : checkedCreate P a = .ok a') :
    isSha256 a.planSha256 = true := by
  simp only [checkedCreate, bind_eq_ok, check_eq_ok, pure_eq_ok, Bool.and_eq_true, beq_iff_eq,
    decide_eq_true_eq] at hchecked
  obtain ⟨target, htarget, artifact, hartifact, expected, hplan, _, ⟨⟨⟨heq, -⟩, -⟩, -⟩, -⟩ :=
    hchecked
  rw [installPlanSha256_eq] at hplan
  cases htext : planText P target artifact a.adbCredentialId currentPlanSchema with
  | error e => simp [htext] at hplan
  | ok text =>
    rw [htext] at hplan
    rw [heq, ← Except.ok.inj hplan]
    exact hdigest text

/-- A job whose arguments were checked starts with a valid receipt. -/
theorem approvedReceipt_ok {a a' : CreateArgs} {jobId now : String}
    (hsha : isSha256 a.planSha256 = true) (hchecked : checkedCreate P a = .ok a')
    (hhex : isHex32 jobId = true) (htime : timestamp (.str now) = .ok now) :
    FieldsOk P (approvedReceipt a' jobId now) ∧
      validateReceiptInvariants P (approvedReceipt a' jobId now) = .ok () := by
  simp only [checkedCreate, bind_eq_ok, check_eq_ok, pure_eq_ok, Bool.and_eq_true, beq_iff_eq,
    decide_eq_true_eq] at hchecked
  obtain ⟨target, htarget, artifact, hartifact, expected, hplan, _, ⟨⟨⟨heq, hcredential⟩, habi⟩,
    hsdk⟩, rfl⟩ := hchecked
  obtain ⟨rfl, -⟩ := parseTarget_asdict_eq P htarget
  obtain ⟨rfl, -⟩ := parseArtifact_asdict_eq hartifact
  refine ⟨⟨safeText_of_hex (by decide) le_rfl hhex, safeText_of_hex (by decide) le_rfl hsha,
    safeText_of_hex (by decide) le_rfl hcredential, ?_, (fun _ hx => by cases hx),
    (fun _ hx => by cases hx), (fun _ hx => by cases hx),
      (fun _ hx => by cases hx), rfl, rfl, htime, htime, rfl, htarget,
    hartifact⟩, (validate_ok_iff P).mpr ⟨rfl, ?_⟩⟩
  · simp only [approvedReceipt, hhex, hsha, hcredential, Bool.and_self]
  · refine ⟨le_rfl, (fun _ hx => by cases hx), ?_, habi, hsdk, rfl, le_rfl, fun _ => rfl,
      fun hp => ?_, fun hp => ?_, fun _ _ => rfl, rfl, fun hp => ?_, fun _ => rfl,
      fun _ hx => by cases hx⟩
    · rw [InstallJobReceipt.planBound, List.any_eq_true]
      exact ⟨currentPlanSchema, by decide, by simp [approvedReceipt, hplan, heq]⟩
    all_goals exact absurd hp (by simp only [approvedReceipt]; decide)

/-! ## Counting receipts -/

theorem length_le_of_ids {small large : List InstallJobReceipt}
    (hnodup : (small.map (·.jobId)).Nodup)
    (hsub : ∀ r ∈ small, ∃ r' ∈ large, r'.jobId = r.jobId) : small.length ≤ large.length := by
  have hids : small.map (·.jobId) ⊆ large.map (·.jobId) := by
    intro id hid
    obtain ⟨r, hr, rfl⟩ := List.mem_map.mp hid
    obtain ⟨r', hr', heq⟩ := hsub r hr
    exact List.mem_map.mpr ⟨r', hr', heq⟩
  simpa using (List.subperm_of_subset hnodup hids).length_le

section Tables

variable {P} {jobs kept candidate : Jobs}

theorem mem_activeOf {r : InstallJobReceipt} :
    r ∈ activeOf jobs.values ↔ ∃ jobId, jobs.get? jobId = some r ∧ r.isTerminal = false := by
  simp only [activeOf, List.mem_filter, Bool.not_eq_true', Dict.mem_values, exists_and_right]

theorem mem_terminalOf {r : InstallJobReceipt} :
    r ∈ terminalOf jobs.values ↔ ∃ jobId, jobs.get? jobId = some r ∧ r.isTerminal = true := by
  simp only [terminalOf, List.mem_filter, Dict.mem_values, exists_and_right]

theorem Keyed.nodup_ids (h : Keyed jobs) : (jobs.values.map (·.jobId)).Nodup := by
  rw [h.map_jobId]
  exact jobs.nodup

theorem Keyed.pruned (h : Keyed jobs) (hkept : Pruned jobs kept) : Keyed kept :=
  fun jobId r hr => h jobId r (hkept.get? hr)

/-- Pruning keeps the active receipts and a bounded list of terminal ones. -/
theorem prune_eq_ok {now : String} (h : prune jobs now = .ok kept) :
    ∃ retained : List InstallJobReceipt, retained.length ≤ maxTerminalJobs ∧
      kept = jobs.filter fun jobId r => !r.isTerminal ||
        (retained.map (·.jobId)).contains jobId := by
  unfold prune at h
  split at h
  · simp only [bind_eq_ok, check_eq_ok, pure_eq_ok] at h
    obtain ⟨_, _, rfl⟩ := h
    exact ⟨_, (List.length_filter_le _ _).trans (List.length_take_le _ _), rfl⟩
  · cases h

theorem prune_terminal {now : String} (hkeyed : Keyed jobs) (h : prune jobs now = .ok kept) :
    (terminalOf kept.values).length ≤ maxTerminalJobs := by
  have hids := (hkeyed.pruned (prune_pruned h)).nodup_ids
  obtain ⟨retained, hlength, rfl⟩ := prune_eq_ok h
  refine (length_le_of_ids (hids.sublist (List.filter_sublist.map _)) fun r hr => ?_).trans hlength
  obtain ⟨jobId, hget, hterminal⟩ := mem_terminalOf.mp hr
  rw [Dict.get?_filter, Option.filter_eq_some_iff] at hget
  obtain ⟨hget, hretained⟩ := hget
  simp only [hterminal, Bool.not_true, Bool.false_or, List.contains_iff_mem, List.mem_map]
    at hretained
  obtain ⟨r', hr', hid⟩ := hretained
  exact ⟨r', hr', hid.trans (hkeyed jobId r hget).symm⟩

/-- Whether the clock of a receipt would run backwards, receipt by receipt. -/
theorem clockReversed_eq_false {jobs candidate : Jobs} (h : clockReversed jobs candidate = false)
    {jobId : String} {r r' : InstallJobReceipt} (hr : jobs.get? jobId = some r)
    (hr' : candidate.get? jobId = some r') : r.updatedAt ≤ r'.updatedAt := by
  simp only [clockReversed, List.any_eq_false] at h
  have hentry := h (jobId, r) (Dict.get?_eq_some.mp hr)
  simp only [hr', Option.any_some, decide_eq_true_eq, not_lt] at hentry
  exact hentry

/-- The table checks, read from the table: distinct panels, and the two counts. -/
theorem Keyed.admissible (hkeyed : Keyed jobs)
    (hexclusive : ∀ jobId jobId' r r', jobs.get? jobId = some r → jobs.get? jobId' = some r' →
      r.isTerminal = false → r'.isTerminal = false → SharesPanel r r' → jobId = jobId')
    (hactive : (activeOf jobs.values).length ≤ maxActiveJobs)
    (hterminal : (terminalOf jobs.values).length ≤ maxTerminalJobs) :
    TableAdmissible jobs.values := by
  have hnodup : (activeOf jobs.values).Nodup :=
    (hkeyed.nodup_ids.sublist (List.filter_sublist.map _)).of_map _
  have hdistinct : ∀ {β : Type} (f : InstallJobReceipt → β),
      (∀ r r', f r = f r' → SharesPanel r r') → ((activeOf jobs.values).map f).Nodup := by
    intro β f hf
    refine List.Nodup.map_on (fun r hr r' hr' heq => ?_) hnodup
    obtain ⟨jobId, hget, hrun⟩ := mem_activeOf.mp hr
    obtain ⟨jobId', hget', hrun'⟩ := mem_activeOf.mp hr'
    obtain rfl := hexclusive jobId jobId' r r' hget hget' hrun hrun' (hf r r' heq)
    exact Option.some.inj (hget.symm.trans hget')
  exact ⟨hkeyed.nodup_ids, hdistinct _ fun _ _ h => Or.inl h,
    hdistinct _ fun _ _ h => Or.inr (Or.inl h), hdistinct _ fun _ _ h => Or.inr (Or.inr h),
    hactive, hterminal⟩

theorem Storable.exclusive (h : Storable P jobs) {jobId jobId' : String} {r r' : InstallJobReceipt}
    (hr : jobs.get? jobId = some r) (hr' : jobs.get? jobId' = some r') (hrun : r.isTerminal = false)
    (hrun' : r'.isTerminal = false) (hshares : SharesPanel r r') : jobId = jobId' := by
  have heq : r = r' := by
    rcases hshares with haddress | hpin | hserial
    · exact eq_of_nodup_active h.admissible.addresses hr hr' hrun hrun' haddress
    · exact eq_of_nodup_active h.admissible.pins hr hr' hrun hrun' hpin
    · exact eq_of_nodup_active h.admissible.serials hr hr' hrun hrun' hserial
  rw [← h.keyed jobId r hr, ← h.keyed jobId' r' hr', heq]

end Tables

/-! ## Candidates -/

/-- A table handed to a save: a new job beside the receipts that were kept, or one rewritten
receipt among them, with every new field checked. -/
inductive CheckedCandidate (jobs : Jobs) : Jobs → Prop
  | create (r : InstallJobReceipt) (kept : Jobs) (hkept : Pruned jobs kept)
      (hfresh : kept.get? r.jobId = none) (hrun : r.isTerminal = false) (hfields : FieldsOk P r)
      (hvalid : validateReceiptInvariants P r = .ok ())
      (halone : ∀ jobId r', kept.get? jobId = some r' → r'.isTerminal = false → ¬SharesPanel r' r)
      (hcapacity : (activeOf kept.values).length < maxActiveJobs)
      (hterminal : (terminalOf kept.values).length ≤ maxTerminalJobs) :
      CheckedCandidate jobs (kept.set r.jobId r)
  | rewrite (jobId : String) (current updated : InstallJobReceipt)
      (hcurrent : jobs.get? jobId = some current) (hrewrite : CheckedRewrite P current updated)
      (kept : Jobs) (hkept : Pruned (jobs.set jobId updated) kept)
      (hterminal : (terminalOf kept.values).length ≤ maxTerminalJobs) :
      CheckedCandidate jobs kept

section Candidates

variable {P} {jobs candidate : Jobs}

theorem SharesPanel.symm {r r' : InstallJobReceipt} (h : SharesPanel r r') : SharesPanel r' r :=
  h.imp Eq.symm (Or.imp Eq.symm Eq.symm)

theorem storable_create {r : InstallJobReceipt} {kept : Jobs} (hjobs : Storable P jobs)
    (hkept : Pruned jobs kept) (hfresh : kept.get? r.jobId = none) (hrun : r.isTerminal = false)
    (hfields : FieldsOk P r) (hvalid : validateReceiptInvariants P r = .ok ())
    (halone : ∀ jobId r', kept.get? jobId = some r' → r'.isTerminal = false → ¬SharesPanel r' r)
    (hcapacity : (activeOf kept.values).length < maxActiveJobs)
    (hterminal : (terminalOf kept.values).length ≤ maxTerminalJobs) :
    Storable P (kept.set r.jobId r) := by
  have hget : ∀ jobId r', (kept.set r.jobId r).get? jobId = some r' →
      jobId = r.jobId ∧ r' = r ∨ kept.get? jobId = some r' := by
    intro jobId r' hr'
    rw [Dict.get?_set] at hr'
    split at hr'
    · rename_i heq
      exact Or.inl ⟨heq, (Option.some.inj hr').symm⟩
    · exact Or.inr hr'
  have hkeyed : Keyed (kept.set r.jobId r) := by
    intro jobId r' hr'
    rcases hget jobId r' hr' with ⟨rfl, rfl⟩ | hr'
    · rfl
    · exact hjobs.keyed jobId r' (hkept.get? hr')
  have hids := hkeyed.nodup_ids
  refine ⟨hkeyed, fun jobId r' hr' => ?_, fun jobId r' hr' => ?_, hkeyed.admissible ?_ ?_ ?_⟩
  · rcases hget jobId r' hr' with ⟨-, rfl⟩ | hr'
    · exact hfields
    · exact hjobs.fields jobId r' (hkept.get? hr')
  · rcases hget jobId r' hr' with ⟨-, rfl⟩ | hr'
    · exact hvalid
    · exact hjobs.valid jobId r' (hkept.get? hr')
  · intro jobId jobId' q q' hq hq' hactive hactive' hshares
    rcases hget jobId q hq with ⟨hid, hqr⟩ | hkq <;>
      rcases hget jobId' q' hq' with ⟨hid', hqr'⟩ | hkq'
    · exact hid.trans hid'.symm
    · exact (halone jobId' q' hkq' hactive' (hqr ▸ hshares.symm)).elim
    · exact (halone jobId q hkq hactive (hqr' ▸ hshares)).elim
    · exact hjobs.exclusive (hkept.get? hkq) (hkept.get? hkq') hactive hactive' hshares
  · -- The new job is one more than the receipts it stands beside.
    have hcount : (activeOf (kept.set r.jobId r).values).length ≤
        (r :: activeOf kept.values).length := by
      refine length_le_of_ids (hids.sublist (List.filter_sublist.map _)) fun q hq => ?_
      obtain ⟨jobId, hq, hactive⟩ := mem_activeOf.mp hq
      rcases hget jobId q hq with ⟨-, rfl⟩ | hq
      · exact ⟨q, List.mem_cons_self, rfl⟩
      · exact ⟨q, List.mem_cons_of_mem _ (mem_activeOf.mpr ⟨jobId, hq, hactive⟩), rfl⟩
    exact hcount.trans hcapacity
  · refine (length_le_of_ids (hids.sublist (List.filter_sublist.map _)) fun q hq => ?_).trans
      hterminal
    obtain ⟨jobId, hq, hend⟩ := mem_terminalOf.mp hq
    rcases hget jobId q hq with ⟨-, rfl⟩ | hq
    · rw [hrun] at hend
      cases hend
    · exact ⟨q, mem_terminalOf.mpr ⟨jobId, hq, hend⟩, rfl⟩

theorem storable_rewrite {jobId : String} {current updated : InstallJobReceipt} {kept : Jobs}
    (hjobs : Storable P jobs) (hcurrent : jobs.get? jobId = some current)
    (hrewrite : CheckedRewrite P current updated) (hbound : current.revision + 1 ≤ 2 ^ 63 - 1)
    (hclock : clockReversed jobs kept = false) (hkept : Pruned (jobs.set jobId updated) kept)
    (hterminal : (terminalOf kept.values).length ≤ maxTerminalJobs) : Storable P kept := by
  have hsame := hrewrite.sameJob
  have hrun : current.isTerminal = false := isTerminal_eq_false.mpr hrewrite.active
  have hid : updated.jobId = jobId := hsame.jobId.trans (hjobs.keyed jobId current hcurrent)
  have hget : ∀ id r, kept.get? id = some r →
      id = jobId ∧ r = updated ∨ jobs.get? id = some r := by
    intro id r hr
    have hr := hkept.get? hr
    rw [Dict.get?_set] at hr
    split at hr
    · rename_i heq
      exact Or.inl ⟨heq, (Option.some.inj hr).symm⟩
    · exact Or.inr hr
  -- Every active receipt has an active one of the same panel under its id in the old table.
  have hold : ∀ id r, kept.get? id = some r → r.isTerminal = false →
      ∃ r₀, jobs.get? id = some r₀ ∧ r₀.isTerminal = false ∧ r₀.target = r.target ∧
        r₀.jobId = r.jobId := by
    intro id r hr hactive
    rcases hget id r hr with ⟨rfl, rfl⟩ | hr
    · exact ⟨current, hcurrent, hrun, hsame.target.symm, hsame.jobId.symm⟩
    · exact ⟨r, hr, hactive, rfl, rfl⟩
  have hkeyed : Keyed kept := by
    intro id r hr
    rcases hget id r hr with ⟨rfl, rfl⟩ | hr
    · exact hid
    · exact hjobs.keyed id r hr
  refine ⟨hkeyed, fun id r hr => ?_, fun id r hr => ?_, hkeyed.admissible ?_ ?_ hterminal⟩
  · rcases hget id r hr with ⟨rfl, rfl⟩ | hr
    · exact hrewrite.fields (hjobs.fields id current hcurrent) hbound
    · exact hjobs.fields id r hr
  · rcases hget id r hr with ⟨rfl, rfl⟩ | hr'
    · exact hrewrite.valid (hjobs.valid id current hcurrent)
        (clockReversed_eq_false hclock hcurrent hr)
    · exact hjobs.valid id r hr'
  · intro id id' r r' hr hr' hactive hactive' hshares
    obtain ⟨r₀, hr₀, hactive₀, htarget, -⟩ := hold id r hr hactive
    obtain ⟨r₀', hr₀', hactive₀', htarget', -⟩ := hold id' r' hr' hactive'
    refine hjobs.exclusive hr₀ hr₀' hactive₀ hactive₀' ?_
    simpa only [SharesPanel, htarget, htarget'] using hshares
  · refine (length_le_of_ids (hkeyed.nodup_ids.sublist (List.filter_sublist.map _))
      fun r hr => ?_).trans hjobs.admissible.active
    obtain ⟨id, hr, hactive⟩ := mem_activeOf.mp hr
    obtain ⟨r₀, hr₀, hactive₀, -, hsame₀⟩ := hold id r hr hactive
    exact ⟨r₀, mem_activeOf.mpr ⟨id, hr₀, hactive₀⟩, hsame₀⟩

/-- A candidate whose clock does not run backwards is storable. -/
theorem CheckedCandidate.storable (h : CheckedCandidate P jobs candidate) (hjobs : Storable P jobs)
    (hbound : ∀ jobId r, jobs.get? jobId = some r → r.revision + 1 ≤ 2 ^ 63 - 1)
    (hclock : clockReversed jobs candidate = false) : Storable P candidate := by
  cases h with
  | create r kept hkept hfresh hrun hfields hvalid halone hcapacity hterminal =>
    exact storable_create hjobs hkept hfresh hrun hfields hvalid halone hcapacity hterminal
  | rewrite jobId current updated hcurrent hrewrite kept hkept hterminal =>
    exact storable_rewrite hjobs hcurrent hrewrite (hbound jobId current hcurrent) hclock hkept
      hterminal

end Candidates

/-! ## What the operations hand over -/

/-- The ids a call draws are what `token_hex(16)` returns. -/
def Call.DrawsHex : Call → Prop
  | .createOrJoin _ a => ∀ token ∈ a.tokens, isHex32 token = true
  | .crash call _ => call.DrawsHex
  | _ => True

section Operations

variable {P} {jobs candidate : Jobs}

theorem createOrJoin_checked {a a' : CreateArgs} {now id : String}
    (hsha : isSha256 a.planSha256 = true) (hchecked : checkedCreate P a = .ok a')
    (hdraws : ∀ token ∈ a.tokens, isHex32 token = true) (hjobs : Storable P jobs)
    (h : createOrJoin a' now jobs = .ok (.save candidate id)) :
    CheckedCandidate P jobs candidate := by
  have htokens : a'.tokens = a.tokens := by
    simp only [checkedCreate, bind_eq_ok, check_eq_ok, pure_eq_ok] at hchecked
    obtain ⟨_, _, _, _, _, _, _, _, rfl⟩ := hchecked
    rfl
  simp only [createOrJoin, bind_eq_ok] at h
  obtain ⟨time, htime, kept, hkept, h⟩ := h
  obtain rfl := Json.str.inj (timestamp_eq_ok htime)
  split at h
  · split at h
    · simp at h
    · cases h
  · rename_i halone
    simp only [bind_eq_ok, check_eq_ok, decide_eq_true_eq] at h
    obtain ⟨_, hcapacity, h⟩ := h
    split at h
    · rename_i token htoken
      simp only [pure_eq_ok, Plan.save.injEq] at h
      obtain ⟨rfl, rfl⟩ := h
      have hfresh := List.find?_some htoken
      have hhex := hdraws token (htokens ▸ List.mem_of_find?_eq_some htoken)
      obtain ⟨hfields, hvalid⟩ := approvedReceipt_ok P hsha hchecked hhex htime
      refine .create (approvedReceipt a' token now) kept (prune_pruned hkept) ?_ rfl hfields hvalid
        (fun jobId r' hr' hactive hshares => ?_) hcapacity (prune_terminal hjobs.keyed hkept)
      · simpa [Dict.contains, approvedReceipt] using hfresh
      · have hnone := List.find?_eq_none.mp halone r' (mem_activeOf.mpr ⟨jobId, hr', hactive⟩)
        simp only [sharesTarget, Bool.or_eq_true, beq_iff_eq, not_or] at hnone
        rcases hshares with h | h | h
        · exact hnone.1.1 h
        · exact hnone.1.2 h
        · exact hnone.2 h
    · cases h

theorem requestCancel_checked {jobId id now : String} {revision : Int} (hjobs : Storable P jobs)
    (h : requestCancel jobId revision now jobs = .ok (.save candidate id)) :
    CheckedCandidate P jobs candidate := by
  simp only [requestCancel, bind_eq_ok, check_eq_ok, decide_eq_true_eq] at h
  obtain ⟨current, hcurrent, _, hphase, h⟩ := h
  obtain ⟨-, hget, -⟩ := checkedCurrent_eq_ok.mp hcurrent
  split at h
  · simp at h
  · simp only [bind_eq_ok, pure_eq_ok, Plan.save.injEq] at h
    obtain ⟨time, htime, rfl, rfl⟩ := h
    obtain rfl := Json.str.inj (timestamp_eq_ok htime)
    have hrun := isTerminal_eq_false.mpr (not_terminal_of_cancellable hphase)
    have hkeyed : Keyed (jobs.set jobId (cancelledReceipt current now)) := by
      intro key r hr
      rw [Dict.get?_set] at hr
      split at hr
      · rename_i heq
        rw [← Option.some.inj hr, heq]
        exact hjobs.keyed jobId current hget
      · exact hjobs.keyed key r hr
    refine .rewrite jobId current _ hget (.cancel now htime hphase) _ (Pruned.refl _) ?_
    -- The receipt that is cancelled stays active, so no terminal receipt is new.
    refine (length_le_of_ids (hkeyed.nodup_ids.sublist (List.filter_sublist.map _))
      fun r hr => ?_).trans hjobs.admissible.terminal
    obtain ⟨key, hr, hend⟩ := mem_terminalOf.mp hr
    rw [Dict.get?_set] at hr
    split at hr
    · obtain rfl := Option.some.inj hr
      exact absurd (hrun.symm.trans hend) (by decide)
    · exact ⟨r, mem_terminalOf.mpr ⟨key, hr, hend⟩, rfl⟩

theorem keyed_set_rewrite {jobId : String} {current updated : InstallJobReceipt}
    (hjobs : Storable P jobs) (hget : jobs.get? jobId = some current)
    (hrewrite : CheckedRewrite P current updated) : Keyed (jobs.set jobId updated) := by
  intro key r hr
  rw [Dict.get?_set] at hr
  split at hr
  · rename_i heq
    rw [← Option.some.inj hr, heq, hrewrite.sameJob.jobId]
    exact hjobs.keyed jobId current hget
  · exact hjobs.keyed key r hr

theorem claim_checked {jobId id now : String} {revision : Int} {confirmed : Option Int}
    {claimed : Dict String Int} (hjobs : Storable P jobs)
    (h : claim jobId revision confirmed now jobs claimed = .ok (.save candidate id)) :
    CheckedCandidate P jobs candidate := by
  simp only [claim, bind_eq_ok, check_eq_ok, Bool.and_eq_true, Bool.not_eq_true',
    decide_eq_true_eq] at h
  obtain ⟨current, hcurrent, _, ⟨hactive, hopen⟩, _, -, h⟩ := h
  obtain ⟨-, hget, -⟩ := checkedCurrent_eq_ok.mp hcurrent
  split at h
  · simp at h
  · simp only [bind_eq_ok, pure_eq_ok, Plan.save.injEq] at h
    obtain ⟨_, -, time, htime, kept, hkept, rfl, rfl⟩ := h
    obtain rfl := Json.str.inj (timestamp_eq_ok htime)
    have hrewrite : CheckedRewrite P current (claimedReceipt current now) :=
      .claim now htime hactive hopen
    exact .rewrite jobId current _ hget hrewrite _ (prune_pruned hkept)
      (prune_terminal (keyed_set_rewrite hjobs hget hrewrite) hkept)

theorem transition_checked {jobId id now : String} {revision : Int} {a : TransitionArgs}
    {claimed : Dict String Int} (hjobs : Storable P jobs) (hchecked : checkedTransition P a = true)
    (h : transition P jobId revision a now jobs claimed = .ok (.save candidate id)) :
    CheckedCandidate P jobs candidate := by
  simp only [transition, bind_eq_ok, pure_eq_ok, Plan.save.injEq] at h
  obtain ⟨current, hcurrent, updated, hadvance, kept, hkept, rfl, rfl⟩ := h
  obtain ⟨-, hget, -⟩ := checkedCurrent_eq_ok.mp hcurrent
  obtain ⟨hallowed, ⟨time, htime, rfl⟩, hvalid⟩ := advanceReceipt_eq_ok P hadvance
  obtain rfl := Json.str.inj (timestamp_eq_ok htime)
  have hrewrite : CheckedRewrite P current (transitionedReceipt current a now) :=
    .transition a now htime hchecked (Allowed.of_transitionAllowed hallowed).edge hvalid
  exact .rewrite jobId current _ hget hrewrite _ (prune_pruned hkept)
    (prune_terminal (keyed_set_rewrite hjobs hget hrewrite) hkept)

theorem loadLocked_refreshed {m m' : Manager} {io : LoadIo} {loaded : Jobs}
    (h : m.loadLocked P io true = (m', .ok loaded)) :
    m'.jobs = some loaded ∧ loadDurable P m.disk = .ok loaded := by
  unfold Manager.loadLocked at h
  split at h
  · rename_i heq
    cases heq
  · split at h
    · rename_i loaded' hread
      cases h
      exact ⟨by simp, readLocked_eq_ok (asStoreError_eq_ok.mp hread)⟩
    · cases h

theorem managerSaving_checked {m : Manager} {io : OpIo} {s : Saving}
    {decide : Jobs → Dict String Int → Except InstallJobError Plan}
    (hdecide : ∀ loaded held candidate id, Storable P loaded →
      decide loaded held = .ok (.save candidate id) → CheckedCandidate P loaded candidate)
    (h : m.saving P io decide = some s) :
    ∃ loaded, s.manager.jobs = some loaded ∧ Storable P loaded ∧
      CheckedCandidate P loaded s.candidate := by
  unfold Manager.saving at h
  split at h
  · cases h
  · rename_i m' loaded hload
    obtain ⟨hcached, hdurable⟩ := loadLocked_refreshed hload
    have hstorable := storable_of_loadDurable P hdurable
    split at h
    · rename_i candidate id hplan
      cases h
      exact ⟨loaded, hcached, hstorable, hdecide loaded _ candidate id hstorable hplan⟩
    · cases h

/-- Every call saves a candidate of the table it has loaded, with every new field checked. -/
theorem Call.saving_checked {m : Manager} {call : Call} {s : Saving}
    (hdigest : ∀ text, isSha256 (P.sha256 text) = true) (hdraws : call.DrawsHex)
    (h : call.saving P m = some s) :
    ∃ loaded, s.manager.jobs = some loaded ∧ Storable P loaded ∧
      CheckedCandidate P loaded s.candidate := by
  induction call with
  | createOrJoin io a =>
    simp only [Call.saving] at h
    split at h
    · cases h
    · rename_i a' hchecked
      exact managerSaving_checked
        (fun _ _ _ _ hjobs hplan =>
          createOrJoin_checked (isSha256_of_checkedCreate P hdigest hchecked)
          hchecked hdraws hjobs hplan) h
  | requestCancel io jobId revision =>
    exact managerSaving_checked (fun _ _ _ _ hjobs hplan => requestCancel_checked hjobs hplan) h
  | claim io jobId revision confirmed =>
    exact managerSaving_checked (fun _ _ _ _ hjobs hplan => claim_checked hjobs hplan) h
  | transition io jobId revision a =>
    simp only [Call.saving] at h
    split at h
    · rename_i hchecked
      exact managerSaving_checked
        (fun _ _ _ _ hjobs hplan => transition_checked hjobs hchecked hplan) h
    · cases h
  | crash call k ih => exact ih hdraws h
  | _ => cases h

end Operations

end PanelAssistant
