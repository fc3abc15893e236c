import PanelAssistant.InstallJobs.Holds
import PanelAssistant.Library.Runs

/-!
# Runs of the install-job manager

A run is a list of calls: the operations with any arguments and any behaviour of the file
system, restarts, which forget the memory, and crashes, which end the process between two
writes of a save. A `History` is a manager together with every
receipt that was ever handed to a save; these are the receipts whose digests a run relies
on. `Holds.apply` is the step lemma of everything that follows: after a call the manager
holds the table it held, or a candidate built from it (`Effect`).
-/

namespace PanelAssistant

open Library InstallPhase

variable (P : Platform)

/-! ## Calls -/

/-- One call of the manager, with what the environment does to it. -/
inductive Call where
  | createOrJoin (io : OpIo) (a : CreateArgs)
  | requestCancel (io : OpIo) (jobId : String) (expectedRevision : Int)
  | claim (io : OpIo) (jobId : String) (expectedRevision : Int)
      (cleanupConfirmedRevision : Option Int)
  | transition (io : OpIo) (jobId : String) (expectedRevision : Int) (a : TransitionArgs)
  | get (io : LoadIo) (jobId : String)
  | list (io : LoadIo)
  | verifyMutationBarrier (io : BarrierIo) (jobId : String) (expectedRevision : Int)
      (phase : InstallPhase)
  | verifyCleanupBarrier (io : BarrierIo) (jobId : String) (expectedRevision : Int)
      (phase : InstallPhase)
  /-- The process ends and another one starts. -/
  | restart
  /-- The process ends inside the save of a call, after `k` of its writes. -/
  | crash (call : Call) (k : Nat)

/-- A save that an operation enters: the manager that has loaded, and the candidate. -/
structure Saving where
  manager : Manager
  io : SaveIo
  candidate : Jobs

def Manager.saving (m : Manager) (io : OpIo)
    (decide : Jobs → Dict String Int → Except InstallJobError Plan) : Option Saving :=
  match m.loadLocked P io.load true with
  | (_, .error _) => none
  | (m, .ok jobs) =>
    match decide jobs m.claimedJobs with
    | .ok (.save candidate _) => some ⟨m, io.save, candidate⟩
    | _ => none

/-- The save that a call enters, if it gets that far. -/
def Call.saving (m : Manager) : Call → Option Saving
  | .createOrJoin io a =>
    match checkedCreate P a with
    | .error _ => none
    | .ok a => m.saving P io fun jobs _ => PanelAssistant.createOrJoin a io.now jobs
  | .requestCancel io jobId revision =>
    m.saving P io fun jobs _ => PanelAssistant.requestCancel jobId revision io.now jobs
  | .claim io jobId revision confirmed =>
    m.saving P io (PanelAssistant.claim jobId revision confirmed io.now)
  | .transition io jobId revision a =>
    if checkedTransition P a then
      m.saving P io (PanelAssistant.transition P jobId revision a io.now)
    else none
  | .crash call _ => call.saving m
  | _ => none

/-- The receipts of the table a save is entered with. -/
def proposed (saving : Option Saving) : List InstallJobReceipt :=
  saving.elim [] fun s => s.candidate.values

/-- The files a process leaves that ends after `k` writes of a save. -/
def Saving.diskAfter (s : Saving) (k : Nat) : Disk :=
  match planSave P s.manager s.io s.candidate with
  | .ok plan => plan.diskAfter s.manager.disk k
  | .error _ => s.manager.disk

/-- The manager after a call. -/
def Call.apply (m : Manager) : Call → Manager
  | .createOrJoin io a => (m.asyncCreateOrJoin P io a).1
  | .requestCancel io jobId revision => (m.asyncRequestCancel P io jobId revision).1
  | .claim io jobId revision confirmed => (m.asyncClaim P io jobId revision confirmed).1
  | .transition io jobId revision a => (m.asyncTransition P io jobId revision a).1
  | .get io jobId => (m.asyncGet P io jobId).1
  | .list io => (m.asyncList P io).1
  | .verifyMutationBarrier io jobId revision phase =>
    (m.asyncVerifyMutationBarrier P io jobId revision phase).1
  | .verifyCleanupBarrier io jobId revision phase =>
    (m.asyncVerifyCleanupBarrier P io jobId revision phase).1
  | .restart => m.restart
  | .crash call k =>
    match call.saving P m with
    | some s => ({ m with disk := s.diskAfter P k } : Manager).restart
    | none => m.restart

/-- A manager, and every receipt that was handed to a save. -/
structure History where
  manager : Manager
  written : List InstallJobReceipt

namespace History

/-- An empty store. -/
def initial : History := ⟨Manager.initial, []⟩

def step (h : History) (call : Call) : History :=
  ⟨call.apply P h.manager, h.written ++ proposed (call.saving P h.manager)⟩

/-- The history after a run from the empty store. -/
def after (calls : List Call) : History := Runs.run (step P) initial calls

end History

/-! ## The effect of a call -/

/-- What a call makes of the table: nothing, or a candidate built from it. -/
inductive Effect (claimed : Dict String Int) (jobs jobs' : Jobs) : Prop
  | unchanged (h : jobs'.Same jobs)
  | saved (loaded candidate : Jobs) (held : Dict String Int) (jobId : String)
      (hloaded : loaded.Same jobs) (hheld : ClaimsWithin held claimed)
      (hcandidate : Candidate P loaded held candidate jobId) (hsaved : jobs'.Same candidate)

/-- What a reply says: a receipt that was there, or one of the candidate just saved. -/
inductive Replied (decide : Jobs → Dict String Int → Except InstallJobError Plan)
    (claimed : Dict String Int) (jobs jobs' : Jobs) (reply : Reply) : Prop
  | answered (loaded : Jobs) (held : Dict String Int) (hloaded : loaded.Same jobs)
      (hheld : ClaimsWithin held claimed) (hunsaved : reply.saved = false)
      (hdecide : decide loaded held = .ok (.answer reply.receipt)) (hsame : jobs'.Same jobs)
  | saved (loaded candidate : Jobs) (held : Dict String Int) (jobId : String)
      (hloaded : loaded.Same jobs) (hheld : ClaimsWithin held claimed)
      (hsaved : reply.saved = true)
      (hdecide : decide loaded held = .ok (.save candidate jobId))
      (hsame : jobs'.Same candidate) (hreceipt : candidate.get? jobId = some reply.receipt)

section

variable {P} {written : List InstallJobReceipt} {m : Manager} {jobs : Jobs}

theorem Holds.perform {io : OpIo}
    {decide : Jobs → Dict String Int → Except InstallJobError Plan}
    (hfree : CollisionFree P (written ++ proposed (m.saving P io decide)))
    (h : Holds P written m jobs)
    (hdecide : ∀ loaded held candidate jobId,
      decide loaded held = .ok (.save candidate jobId) → Candidate P loaded held candidate jobId) :
    ∃ jobs', Holds P (written ++ proposed (m.saving P io decide)) (m.perform P io decide).1 jobs' ∧
      Effect P m.claimedJobs jobs jobs' ∧
      ClaimsWithin (m.perform P io decide).1.claimedJobs m.claimedJobs ∧
      ∀ reply, (m.perform P io decide).2 = .ok reply →
        Replied decide m.claimedJobs jobs jobs' reply := by
  have hold : CollisionFree P written := hfree.mono P fun r hr => List.mem_append_left _ hr
  have hstay : ∀ m', Holds P written m' jobs →
      Holds P (written ++ proposed (m.saving P io decide)) m' jobs :=
    fun m' hm => hm.mono fun r hr => List.mem_append_left _ hr
  cases hload : m.loadLocked P io.load true with
  | mk m₁ result =>
    cases result with
    | error e =>
      have hm := loadLocked_error hload
      subst hm
      refine ⟨jobs, ?_, .unchanged (.refl _), ?_, ?_⟩
      · simpa [Manager.perform, hload] using hstay _ h.invalidate
      · simp only [Manager.perform, hload]
        exact nofun
      · simp [Manager.perform, hload]
    | ok loaded =>
      obtain ⟨hm, hsame, hloaded⟩ := h.loadLocked hold hload
      cases hplan : decide loaded m₁.claimedJobs with
      | error e =>
        refine ⟨jobs, ?_, .unchanged (.refl _), ?_, ?_⟩
        · simpa [Manager.perform, hload, hplan] using hstay _ hm
        · simpa [Manager.perform, hload, hplan] using hloaded.claims
        · simp [Manager.perform, hload, hplan]
      | ok plan =>
        cases plan with
        | answer receipt =>
          refine ⟨jobs, ?_, .unchanged (.refl _), ?_, fun reply hreply => ?_⟩
          · simpa [Manager.perform, hload, hplan] using hstay _ hm
          · simpa [Manager.perform, hload, hplan] using hloaded.claims
          · simp only [Manager.perform, hload, hplan, Except.ok.injEq] at hreply
            subst hreply
            exact .answered loaded m₁.claimedJobs hsame hloaded.claims rfl hplan (.refl _)
        | save candidate jobId =>
          have hproposed : proposed (m.saving P io decide) = candidate.values := by
            simp [proposed, Manager.saving, hload, hplan]
          rw [hproposed] at hfree ⊢
          have hcandidate := hdecide loaded m₁.claimedJobs candidate jobId hplan
          obtain ⟨⟨jobs', hholds, hjobs'⟩, hclaims, hsaved⟩ :=
            (hm.same hsame).saveLocked hloaded.cached hcandidate io.save
          have hwithin := hclaims.trans hloaded.claims
          have heffect : Effect P m.claimedJobs jobs candidate :=
            .saved loaded candidate m₁.claimedJobs jobId hsame hloaded.claims hcandidate (.refl _)
          cases hsave : m₁.saveLocked P io.save candidate with
          | mk m₂ result =>
            rw [hsave] at hholds hsaved hwithin
            cases result with
            | error e =>
              refine ⟨jobs', ?_, ?_, ?_, ?_⟩
              · simpa [Manager.perform, hload, hplan, hsave] using hholds
              · rcases hjobs' with rfl | rfl
                · exact .unchanged hsame
                · exact heffect
              · simpa [Manager.perform, hload, hplan, hsave] using hwithin
              · simp [Manager.perform, hload, hplan, hsave]
            | ok saved =>
              obtain ⟨hholds, hsavedSame⟩ := hsaved saved rfl
              refine ⟨candidate, ?_, heffect, ?_, fun reply hreply => ?_⟩
              · simp only [Manager.perform, hload, hplan, hsave]
                split <;> exact hholds
              · simp only [Manager.perform, hload, hplan, hsave]
                split <;> exact hwithin
              · simp only [Manager.perform, hload, hplan, hsave] at hreply
                cases hreceipt : saved.get? jobId with
                | none => simp [hreceipt] at hreply
                | some receipt =>
                  simp only [hreceipt, Except.ok.injEq] at hreply
                  subst hreply
                  exact .saved loaded candidate m₁.claimedJobs jobId hsame hloaded.claims rfl hplan
                    (.refl _) ((hsavedSame jobId).symm.trans hreceipt)

/-! ## The operations -/

/-- What a call leaves: a table that came from the old one, and no new claim of a job in a
phase that a restart makes ambiguous. -/
structure Operated (P : Platform) (written : List InstallJobReceipt) (m m' : Manager)
    (jobs jobs' : Jobs) : Prop where
  holds : Holds P written m' jobs'
  effect : Effect P m.claimedJobs jobs jobs'
  claims : ∀ jobId generation, m'.claimedJobs.get? jobId = some generation →
    m.claimedJobs.get? jobId = some generation ∨
      ∃ r, jobs'.get? jobId = some r ∧ r.phase ∉ restartAmbiguousPhases

theorem Operated.idle {m' : Manager} (h : Holds P written m' jobs)
    (hclaims : ClaimsWithin m'.claimedJobs m.claimedJobs) : Operated P written m m' jobs jobs :=
  ⟨h, .unchanged (.refl _), fun jobId generation hg => Or.inl (hclaims jobId generation hg)⟩

theorem Operated.mono {written' : List InstallJobReceipt} {m' : Manager} {jobs' : Jobs}
    (h : Operated P written m m' jobs jobs') (hsub : ∀ r ∈ written, r ∈ written') :
    Operated P written' m m' jobs jobs' :=
  ⟨h.holds.mono hsub, h.effect, h.claims⟩

theorem Holds.asyncCreateOrJoin {io : OpIo} {a : CreateArgs}
    (hfree : CollisionFree P (written ++ proposed ((Call.createOrJoin io a).saving P m)))
    (h : Holds P written m jobs) :
    ∃ jobs', Operated P (written ++ proposed ((Call.createOrJoin io a).saving P m)) m
      (m.asyncCreateOrJoin P io a).1 jobs jobs' := by
  unfold Manager.asyncCreateOrJoin Call.saving at *
  cases hcheck : checkedCreate P a with
  | error e =>
    exact ⟨jobs, .idle (h.mono fun r hr => List.mem_append_left _ hr) (.refl _)⟩
  | ok a =>
    simp only [hcheck] at hfree ⊢
    obtain ⟨jobs', hholds, heffect, hclaims, -⟩ := h.perform hfree
      fun _ _ _ _ => createOrJoin_save P
    exact ⟨jobs', hholds, heffect, fun _ _ hg => Or.inl (hclaims _ _ hg)⟩

/-- The receipt a cancellation request returns carries the flag, and stands in the table. -/
theorem Holds.asyncRequestCancel {io : OpIo} {jobId : String} {revision : Int}
    (hfree : CollisionFree P (written ++
      proposed ((Call.requestCancel io jobId revision).saving P m)))
    (h : Holds P written m jobs) :
    ∃ jobs', Operated P (written ++ proposed ((Call.requestCancel io jobId revision).saving P m)) m
        (m.asyncRequestCancel P io jobId revision).1 jobs jobs' ∧
      ∀ reply, (m.asyncRequestCancel P io jobId revision).2 = .ok reply →
        jobs'.get? jobId = some reply.receipt ∧ reply.receipt.cancelRequested = true ∧
          reply.receipt.phase ∈ cancellablePhases := by
  obtain ⟨jobs', hholds, heffect, hclaims, hreplied⟩ := h.perform hfree
    fun _ _ _ _ => requestCancel_candidate P
  refine ⟨jobs', ⟨hholds, heffect, fun _ _ hg => Or.inl (hclaims _ _ hg)⟩, fun reply hreply => ?_⟩
  cases hreplied reply hreply with
  | answered loaded held hloaded _ _ hdecide hsame =>
    obtain ⟨hget, hphase, hrequested⟩ := requestCancel_answer hdecide
    exact ⟨(hsame jobId).trans ((hloaded jobId).symm.trans hget), hrequested, hphase⟩
  | saved loaded candidate held id hloaded _ _ hdecide hsame hreceipt =>
    obtain ⟨rfl, -, current, updatedAt, -, hphase, hget⟩ := requestCancel_save P held hdecide
    rw [hget, Option.some.injEq] at hreceipt
    rw [← hreceipt]
    exact ⟨(hsame _).trans hget, rfl, hphase⟩

/-- A claim that is taken is of a job in no ambiguous phase, at the generation it stored. -/
theorem Holds.asyncClaim {io : OpIo} {jobId : String} {revision : Int} {confirmed : Option Int}
    (hfree : CollisionFree P (written ++
      proposed ((Call.claim io jobId revision confirmed).saving P m)))
    (h : Holds P written m jobs) :
    ∃ jobs',
      Operated P (written ++ proposed ((Call.claim io jobId revision confirmed).saving P m)) m
      (m.asyncClaim P io jobId revision confirmed).1 jobs jobs' := by
  obtain ⟨jobs', hholds, heffect, hclaims, hreplied⟩ := h.perform hfree
    fun _ _ _ _ => claim_candidate P
  refine ⟨jobs', ?_⟩
  unfold Manager.asyncClaim
  cases hperform : m.perform P io (PanelAssistant.claim jobId revision confirmed io.now) with
  | mk m₁ result =>
    rw [hperform] at hholds hclaims hreplied
    cases result with
    | error e => exact ⟨hholds, heffect, fun _ _ hg => Or.inl (hclaims _ _ hg)⟩
    | ok reply =>
      simp only [Manager.holdClaim]
      split
      · rename_i hheld
        simp only [Bool.and_eq_true, Bool.not_eq_true'] at hheld
        obtain ⟨hsaved, hactive⟩ := hheld
        -- Only a claim that leaves the phase as it is saves an active receipt.
        have hnew : jobs'.get? jobId = some reply.receipt ∧
            reply.receipt.phase ≠ healthyUnclaimed ∧
            reply.receipt.phase ∉ restartAmbiguousPhases := by
          cases hreplied reply rfl with
          | answered _ _ _ _ hunsaved => rw [hsaved] at hunsaved; cases hunsaved
          | saved loaded candidate held id hloaded hheld _ hdecide hsame hreceipt =>
            obtain ⟨rfl, current, updatedAt, hget, -, hopen, -, hkept⟩ := claim_save hdecide
            have hreceipt' := hkept.get? hreceipt
            rw [Dict.get?_set_self, Option.some.injEq] at hreceipt'
            rw [← hreceipt'] at hactive hreceipt ⊢
            refine ⟨(hsame _).trans hreceipt, ?_⟩
            rcases claimedReceipt_cases current updatedAt with ⟨hphase, -⟩ | ⟨hphase, hsafe, -⟩
            · rw [isTerminal_eq_false, hphase] at hactive
              exact absurd (by decide) hactive
            · rw [hphase]
              exact ⟨hopen, hsafe⟩
        refine ⟨⟨hholds.sound, hholds.stored, hholds.cached, fun id generation hg => ?_⟩, heffect,
          fun id generation hg => ?_⟩
        · rw [Dict.get?_set] at hg
          split at hg
          · rename_i heq
            subst heq
            cases hg
            exact ⟨reply.receipt, hnew.1, hactive, hnew.2.1, rfl⟩
          · exact hholds.claims id generation hg
        · rw [Dict.get?_set] at hg
          split at hg
          · rename_i heq
            subst heq
            exact Or.inr ⟨reply.receipt, hnew.1, hnew.2.2⟩
          · exact Or.inl (hclaims id generation hg)
      · exact ⟨hholds, heffect, fun _ _ hg => Or.inl (hclaims _ _ hg)⟩

/-- A transition that succeeds starts from the expected revision, under the job's claim or
along the finalizer's edge. -/
theorem Holds.asyncTransition {io : OpIo} {jobId : String} {revision : Int} {a : TransitionArgs}
    (hfree : CollisionFree P (written ++
      proposed ((Call.transition io jobId revision a).saving P m)))
    (h : Holds P written m jobs) :
    ∃ jobs', Operated P (written ++ proposed ((Call.transition io jobId revision a).saving P m)) m
        (m.asyncTransition P io jobId revision a).1 jobs jobs' ∧
      ∀ reply, (m.asyncTransition P io jobId revision a).2 = .ok reply →
        ∃ current, jobs.get? jobId = some current ∧ current.revision = revision ∧
          (current.phase = healthyUnclaimed ∨
            m.claimedJobs.get? jobId = some current.executorGeneration) := by
  cases hchecked : checkedTransition P a with
  | true =>
    simp only [Manager.asyncTransition, Call.saving, hchecked, if_true] at hfree ⊢
    obtain ⟨jobs', hholds, heffect, hclaims, hreplied⟩ := h.perform hfree
      fun _ _ _ _ => transition_candidate P
    refine ⟨jobs', ⟨hholds, heffect, fun _ _ hg => Or.inl (hclaims _ _ hg)⟩,
      fun reply hreply => ?_⟩
    cases hreplied reply hreply with
    | answered loaded held hloaded _ _ hdecide => exact absurd hdecide (transition_ne_answer P)
    | saved loaded candidate held id hloaded hheld _ hdecide =>
      obtain ⟨rfl, current, updated, hget, hrevision, hadvance, -⟩ := transition_save P hdecide
      have hallowed := Allowed.of_transitionAllowed (advanceReceipt_eq_ok P hadvance).1
      refine ⟨current, (hloaded _).symm.trans hget, hrevision, ?_⟩
      rcases hallowed.claim with hedge | hclaim
      · simp only [finalizerEdge, Bool.and_eq_true, decide_eq_true_eq] at hedge
        exact Or.inl hedge.1
      · exact Or.inr (hheld _ _ hclaim)
  | false =>
    simp only [Manager.asyncTransition, hchecked, Bool.false_eq_true, if_false]
    exact ⟨jobs, .idle (h.mono fun r hr => List.mem_append_left _ hr) (.refl _),
      fun _ hreply => by cases hreply⟩

/-! ## Reads and barriers -/

theorem Holds.asyncGet {io : LoadIo} {jobId : String} (hfree : CollisionFree P written)
    (h : Holds P written m jobs) :
    Operated P written m (m.asyncGet P io jobId).1 jobs jobs ∧
      ∀ r, (m.asyncGet P io jobId).2 = .ok r → jobs.get? jobId = some r := by
  unfold Manager.asyncGet
  split
  · cases hload : m.loadLocked P io true with
    | mk m₁ result =>
      cases result with
      | error e =>
        rw [loadLocked_error hload]
        exact ⟨.idle h.invalidate (fun _ _ hc => by cases hc), fun _ hr => by cases hr⟩
      | ok loaded =>
        obtain ⟨hm, hsame, hloaded⟩ := h.loadLocked hfree hload
        refine ⟨.idle hm hloaded.claims, fun r hr => ?_⟩
        cases hget : loaded.get? jobId with
        | none => simp [hget] at hr
        | some r' =>
          simp only [hget, Option.elim_some, Except.ok.injEq] at hr
          rw [← hsame jobId, hget, hr]
  · exact ⟨.idle h (.refl _), fun _ hr => by cases hr⟩

theorem Holds.asyncList {io : LoadIo} (hfree : CollisionFree P written)
    (h : Holds P written m jobs) : Operated P written m (m.asyncList P io).1 jobs jobs := by
  unfold Manager.asyncList
  cases hload : m.loadLocked P io true with
  | mk m₁ result =>
    cases result with
    | error e =>
      rw [loadLocked_error hload]
      exact .idle h.invalidate (fun _ _ hc => by cases hc)
    | ok loaded =>
      obtain ⟨hm, -, hloaded⟩ := h.loadLocked hfree hload
      exact .idle hm hloaded.claims

/-- What a barrier that is passed says about the receipt it returns. -/
structure Passed (m m' : Manager) (jobs : Jobs) (jobId : String) (revision : Int)
    (phase : InstallPhase) (cancelRequested : Bool) (r : InstallJobReceipt) : Prop where
  receipt : jobs.get? jobId = some r
  revision : r.revision = revision
  phase : r.phase = phase
  cancelRequested : r.cancelRequested = cancelRequested
  claim : m.claimedJobs.get? jobId = some r.executorGeneration
  held : m'.claimedJobs.get? jobId = some r.executorGeneration

theorem Holds.verifyBarrier {io : BarrierIo} {jobId : String} {revision : Int}
    {phase : InstallPhase} {cancelRequested : Bool} (hfree : CollisionFree P written)
    (h : Holds P written m jobs) :
    Operated P written m (m.verifyBarrier P io jobId revision phase cancelRequested).1 jobs jobs ∧
      ∀ r, (m.verifyBarrier P io jobId revision phase cancelRequested).2 = .ok r →
        Passed m (m.verifyBarrier P io jobId revision phase cancelRequested).1 jobs jobId revision
          phase cancelRequested r := by
  unfold Manager.verifyBarrier
  cases hload : m.loadLocked P io.load false with
  | mk m₁ result =>
    cases result with
    | error e =>
      rw [loadLocked_error hload]
      exact ⟨.idle h.invalidate (fun _ _ hc => by cases hc), fun _ hr => by cases hr⟩
    | ok cached =>
      obtain ⟨hm, -, hloaded⟩ := h.loadLocked hfree hload
      simp only
      cases hmemory : checkedCurrent cached jobId revision with
      | error e => exact ⟨.idle hm hloaded.claims, fun _ hr => by cases hr⟩
      | ok inMemory =>
        simp only
        cases hdurable : m₁.loadDurableLocked P io.first io.second with
        | mk m₂ result =>
          cases result with
          | error e =>
            rw [loadDurableLocked_error hdurable]
            exact ⟨.idle hm.invalidate (fun _ _ hc => by cases hc), fun _ hr => by cases hr⟩
          | ok durable =>
            obtain ⟨hm₂, hsame, hloaded₂⟩ := hm.loadDurableLocked hfree hdurable
            have hclaims := hloaded₂.claims.trans hloaded.claims
            simp only
            cases hcurrent : checkedCurrent durable jobId revision with
            | error e => exact ⟨.idle hm₂ hclaims, fun _ hr => by cases hr⟩
            | ok receipt =>
              simp only
              split
              · rename_i hpassed
                obtain ⟨-, hphase, hflag, hclaim⟩ := hpassed
                obtain ⟨-, hget, hrevision⟩ := checkedCurrent_eq_ok.mp hcurrent
                refine ⟨.idle hm₂ hclaims, fun r hr => ?_⟩
                cases hr
                exact ⟨(hsame jobId).symm.trans hget, hrevision, hphase, hflag,
                  hclaims _ _ hclaim, hclaim⟩
              · exact ⟨.idle hm₂.invalidate (fun _ _ hc => by cases hc), fun _ hr => by cases hr⟩

theorem Holds.asyncVerifyMutationBarrier {io : BarrierIo} {jobId : String} {revision : Int}
    {phase : InstallPhase} (hfree : CollisionFree P written) (h : Holds P written m jobs) :
    Operated P written m (m.asyncVerifyMutationBarrier P io jobId revision phase).1 jobs jobs ∧
      ∀ r, (m.asyncVerifyMutationBarrier P io jobId revision phase).2 = .ok r →
        phase ∈ mutationBarriers ∧
          Passed m (m.asyncVerifyMutationBarrier P io jobId revision phase).1 jobs jobId revision
            phase false r := by
  unfold Manager.asyncVerifyMutationBarrier
  split
  · rename_i hphase
    obtain ⟨hoperated, hpassed⟩ := h.verifyBarrier hfree
    exact ⟨hoperated, fun r hr => ⟨hphase, hpassed r hr⟩⟩
  · exact ⟨.idle h (.refl _), fun _ hr => by cases hr⟩

theorem Holds.asyncVerifyCleanupBarrier {io : BarrierIo} {jobId : String} {revision : Int}
    {phase : InstallPhase} (hfree : CollisionFree P written) (h : Holds P written m jobs) :
    Operated P written m (m.asyncVerifyCleanupBarrier P io jobId revision phase).1 jobs jobs := by
  unfold Manager.asyncVerifyCleanupBarrier
  split
  · exact (h.verifyBarrier hfree).1
  · exact .idle h (.refl _)

/-! ## Crashes -/

theorem Holds.managerSaving {io : OpIo}
    {decide : Jobs → Dict String Int → Except InstallJobError Plan} {s : Saving}
    (hfree : CollisionFree P written) (h : Holds P written m jobs)
    (hdecide : ∀ loaded held candidate jobId,
      decide loaded held = .ok (.save candidate jobId) → Candidate P loaded held candidate jobId)
    (hsaving : m.saving P io decide = some s) :
    ∃ loaded jobId, Holds P written s.manager loaded ∧ loaded.Same jobs ∧
      Loaded m s.manager loaded ∧
      Candidate P loaded s.manager.claimedJobs s.candidate jobId := by
  unfold Manager.saving at hsaving
  split at hsaving
  · cases hsaving
  · rename_i m₁ loaded hload
    obtain ⟨hm, hsame, hloaded⟩ := h.loadLocked hfree hload
    split at hsaving
    · rename_i candidate jobId hplan
      cases hsaving
      exact ⟨loaded, jobId, hm.same hsame, hsame, hloaded,
        hdecide loaded m₁.claimedJobs candidate jobId hplan⟩
    · cases hsaving

/-- A save is entered with a candidate built from the table just loaded. -/
theorem Holds.saving {call : Call} {s : Saving} (hfree : CollisionFree P written)
    (h : Holds P written m jobs) (hsaving : call.saving P m = some s) :
    ∃ loaded jobId, Holds P written s.manager loaded ∧ loaded.Same jobs ∧
      Loaded m s.manager loaded ∧
      Candidate P loaded s.manager.claimedJobs s.candidate jobId := by
  induction call with
  | createOrJoin io a =>
    simp only [Call.saving] at hsaving
    split at hsaving
    · cases hsaving
    · exact h.managerSaving hfree (fun _ _ _ _ => createOrJoin_save P) hsaving
  | requestCancel io jobId revision =>
    exact h.managerSaving hfree (fun _ _ _ _ => requestCancel_candidate P) hsaving
  | claim io jobId revision confirmed =>
    exact h.managerSaving hfree (fun _ _ _ _ => claim_candidate P) hsaving
  | transition io jobId revision a =>
    simp only [Call.saving] at hsaving
    split at hsaving
    · exact h.managerSaving hfree (fun _ _ _ _ => transition_candidate P) hsaving
    · cases hsaving
  | crash call k ih => exact ih hsaving
  | _ => cases hsaving

/-- After any number of writes of a save the files hold the loaded table or the candidate. -/
theorem Saving.stored_diskAfter {s : Saving} {loaded : Jobs} {claimed : Dict String Int}
    {jobId : String} (h : Holds P written s.manager loaded)
    (hcached : s.manager.jobs = some loaded)
    (hcandidate : Candidate P loaded claimed s.candidate jobId) (k : Nat) :
    Stored P (written ++ s.candidate.values) (s.diskAfter P k) loaded ∨
      Sound P (written ++ s.candidate.values) s.candidate ∧
        Stored P (written ++ s.candidate.values) (s.diskAfter P k) s.candidate := by
  have hgrown := h.mono fun r hr => List.mem_append_left s.candidate.values hr
  unfold Saving.diskAfter
  split
  · rename_i plan hplan
    have hplanned := planSave_planned P hcached hplan
    have hnew := hcandidate.sound h.sound hplanned.writable
    have hstored := stored_after_prefix hplanned hgrown.sound hnew hcandidate.agrees hgrown.stored k
    split at hstored
    · exact Or.inl hstored
    · exact Or.inr ⟨hnew, hstored⟩
  · exact Or.inl hgrown.stored

theorem Holds.crash {call : Call} {k : Nat}
    (hfree : CollisionFree P (written ++ proposed ((Call.crash call k).saving P m)))
    (h : Holds P written m jobs) :
    ∃ jobs', Operated P (written ++ proposed ((Call.crash call k).saving P m)) m
      ((Call.crash call k).apply P m) jobs jobs' := by
  have hold : CollisionFree P written := hfree.mono P fun _ hr => List.mem_append_left _ hr
  have hshape : (Call.crash call k).saving P m = call.saving P m := rfl
  rw [hshape] at hfree ⊢
  simp only [Call.apply]
  cases hsaving : call.saving P m with
  | none =>
    exact ⟨jobs, .idle (h.mono fun _ hr => List.mem_append_left _ hr).invalidate nofun⟩
  | some s =>
    obtain ⟨loaded, jobId, hm, hsame, hloaded, hcandidate⟩ := h.saving hold hsaving
    have hgrown := hm.mono fun r hr => List.mem_append_left s.candidate.values hr
    have hclaims : ∀ id generation, (∅ : Dict String Int).get? id = some generation → False :=
      fun id generation hg => by cases hg
    rcases Saving.stored_diskAfter hm hloaded.cached hcandidate k with hstored | ⟨hnew, hstored⟩
    · exact ⟨loaded, ⟨hgrown.sound, hstored, (fun _ hc => by cases hc),
        fun id generation hg => (hclaims id generation hg).elim⟩, .unchanged hsame,
        fun id generation hg => (hclaims id generation hg).elim⟩
    · exact ⟨s.candidate, ⟨hnew, hstored, (fun _ hc => by cases hc),
        fun id generation hg => (hclaims id generation hg).elim⟩,
        .saved loaded s.candidate s.manager.claimedJobs jobId hsame hloaded.claims hcandidate
          (.refl _),
        fun id generation hg => (hclaims id generation hg).elim⟩

/-! ## Steps and runs -/

/-- The step lemma: a call takes a manager that holds a table to one that holds a table
which came from it. -/
theorem Holds.apply {call : Call} (hfree : CollisionFree P (written ++ proposed (call.saving P m)))
    (h : Holds P written m jobs) :
    ∃ jobs', Operated P (written ++ proposed (call.saving P m)) m (call.apply P m) jobs jobs' := by
  have hold : CollisionFree P written := hfree.mono P fun r hr => List.mem_append_left _ hr
  have hgrow : ∀ r ∈ written, r ∈ written ++ proposed (call.saving P m) :=
    fun r hr => List.mem_append_left _ hr
  cases call with
  | createOrJoin io a => exact h.asyncCreateOrJoin hfree
  | requestCancel io jobId revision =>
    obtain ⟨jobs', hoperated, -⟩ := h.asyncRequestCancel hfree
    exact ⟨jobs', hoperated⟩
  | claim io jobId revision confirmed => exact h.asyncClaim hfree
  | transition io jobId revision a =>
    obtain ⟨jobs', hoperated, -⟩ := h.asyncTransition hfree
    exact ⟨jobs', hoperated⟩
  | get io jobId => exact ⟨jobs, (h.asyncGet hold).1.mono hgrow⟩
  | list io => exact ⟨jobs, (h.asyncList hold).mono hgrow⟩
  | verifyMutationBarrier io jobId revision phase =>
    exact ⟨jobs, (h.asyncVerifyMutationBarrier hold).1.mono hgrow⟩
  | verifyCleanupBarrier io jobId revision phase =>
    exact ⟨jobs, (h.asyncVerifyCleanupBarrier hold).mono hgrow⟩
  | restart => exact ⟨jobs, .idle (h.mono hgrow).invalidate nofun⟩
  | crash call k => exact h.crash hfree

end

theorem holds_initial : Holds P [] Manager.initial ∅ := by
  have hnone : ∀ (jobId : String) (r : InstallJobReceipt), (∅ : Jobs).get? jobId = some r → False :=
    fun jobId r hr => by cases hr
  have hdetails : ∀ key d, (∅ : Details).get? key = some d → False :=
    fun key d hd => by cases hd
  refine ⟨⟨fun _ _ hr => (hnone _ _ hr).elim, fun _ _ hr => (hnone _ _ hr).elim,
    fun _ _ hr => (hnone _ _ hr).elim, fun _ _ hr => (hnone _ _ hr).elim⟩,
    ⟨⟨∅, rfl, fun _ => rfl⟩, ∅, rfl, fun _ _ hd => (hdetails _ _ hd).elim,
      fun _ _ _ hr => (hnone _ _ hr).elim⟩,
    (fun _ hc => by cases hc), fun _ _ hg => by cases hg⟩

theorem written_subset_step (h : History) (call : Call) :
    ∀ r ∈ h.written, r ∈ (h.step P call).written :=
  fun _ hr => List.mem_append_left _ hr

/-- Every manager that a run reaches holds a table. -/
theorem exists_holds (calls : List Call)
    (hfree : CollisionFree P (History.after P calls).written) :
    ∃ jobs, Holds P (History.after P calls).written (History.after P calls).manager jobs := by
  refine Runs.run_inv
    (fun h : History => CollisionFree P h.written → ∃ jobs, Holds P h.written h.manager jobs)
    (fun h call ih hfree => ?_) (fun _ => ⟨∅, holds_initial P⟩) calls hfree
  obtain ⟨jobs, hholds⟩ := ih (hfree.mono P (written_subset_step P h call))
  obtain ⟨jobs', hoperated⟩ := hholds.apply hfree
  exact ⟨jobs', hoperated.holds⟩

end PanelAssistant
