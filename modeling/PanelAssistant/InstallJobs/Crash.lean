import PanelAssistant.InstallJobs.Invariant

/-!
# A save is atomic in every reachable state

`Holds.saving` and `Saving.stored_diskAfter` put together: whatever run led to a save, with
aborted saves and crashes of its own, the files load after any number of the save's writes,
and what they load is the table the save started from or the candidate it was given.
-/

namespace PanelAssistant

open Library

variable (P : Platform)

/-- What a load finds: it succeeds on a table, each receipt is bound to its own detail and no
other, and the detail document is within its bound. -/
structure LoadsAs (disk : Disk) (jobs : Jobs) : Prop where
  load : ∃ loaded, loadDurable P disk = .ok loaded ∧ loaded.Same jobs
  details : ∃ details, readDetails disk = .ok details ∧ details.size ≤ 64 ∧
    ∀ jobId r, jobs.get? jobId = some r → boundDetail P details jobId r = detailFor P r

variable {P} in
theorem LoadsAs.of_stored {written : List InstallJobReceipt} {disk : Disk} {jobs : Jobs}
    (hfree : CollisionFree P written) (hsound : Sound P written jobs)
    (hstored : Stored P written disk jobs) : LoadsAs P disk jobs := by
  obtain ⟨details, hread, hrecorded, hcovers⟩ := hstored.details
  exact ⟨loadDurable_of_stored P hfree hsound hstored, details, hread, readDetails_size hread,
    fun _ _ hr => boundDetail_eq P hfree hsound hrecorded hcovers hr⟩

/-- After any number of writes of any save, and after the save itself however it ends, the
files load as the old table or as the candidate; as the candidate if the save succeeds. -/
theorem save_is_crash_atomic (calls : List Call) (call : Call) (s : Saving)
    (hsaving : call.saving P (History.after P calls).manager = some s)
    (hfree : CollisionFree P ((History.after P calls).written ++ s.candidate.values)) :
    ∃ jobs, loadDurable P (History.after P calls).manager.disk = .ok jobs ∧
      (∃ cached, s.manager.jobs = some cached ∧ cached.Same jobs) ∧
      (∀ k, LoadsAs P (s.diskAfter P k) jobs ∨ LoadsAs P (s.diskAfter P k) s.candidate) ∧
      (LoadsAs P (s.manager.saveLocked P s.io s.candidate).1.disk jobs ∨
        LoadsAs P (s.manager.saveLocked P s.io s.candidate).1.disk s.candidate) ∧
      ∀ saved, (s.manager.saveLocked P s.io s.candidate).2 = .ok saved →
        LoadsAs P (s.manager.saveLocked P s.io s.candidate).1.disk s.candidate := by
  have hold : CollisionFree P (History.after P calls).written :=
    hfree.mono P fun _ hr => List.mem_append_left _ hr
  obtain ⟨jobs, hholds⟩ := exists_holds P calls hold
  obtain ⟨loaded, hload, hsame⟩ := hholds.load hold
  obtain ⟨cached, jobId, hm, hcached, hloaded, hcandidate⟩ :=
    (hholds.same hsame).saving hold hsaving
  have hgrown := (hm.same hcached.symm).mono fun r hr => List.mem_append_left s.candidate.values hr
  obtain ⟨⟨jobs', hsaved, hjobs'⟩, -, hsuccess⟩ :=
    hm.saveLocked hloaded.cached hcandidate s.io
  refine ⟨loaded, hload, ⟨cached, hloaded.cached, hcached⟩, fun k => ?_, ?_, fun saved hok => ?_⟩
  · rcases Saving.stored_diskAfter hm hloaded.cached hcandidate k with hstored | ⟨hnew, hstored⟩
    · exact Or.inl (.of_stored hfree hgrown.sound (hstored.same hcached.symm))
    · exact Or.inr (.of_stored hfree hnew hstored)
  · rcases hjobs' with rfl | rfl
    · exact Or.inl (.of_stored hfree hgrown.sound (hsaved.stored.same hcached.symm))
    · exact Or.inr (.of_stored hfree hsaved.sound hsaved.stored)
  · have hdone := (hsuccess saved hok).1
    exact .of_stored hfree hdone.sound hdone.stored

/-- The launch of the small run fails, and the process may end after any write of the save that
records the stage and its subcode. -/
theorem save_is_crash_atomic_small_run :
    ∃ s jobs, SmallRun.fail.saving SmallRun.platform
        (History.after SmallRun.platform SmallRun.launch).manager = some s ∧
      jobs.get? SmallRun.jobId = some SmallRun.launching ∧
      s.candidate.get? SmallRun.jobId = some SmallRun.failed ∧
      SmallRun.failed.failureStage = some .launching ∧
      SmallRun.failed.resultSubcode = some "launch:not_started" ∧
      ∀ k, LoadsAs SmallRun.platform (s.diskAfter SmallRun.platform k) jobs ∨
        LoadsAs SmallRun.platform (s.diskAfter SmallRun.platform k) s.candidate := by
  obtain ⟨s, hsaving, hcandidate⟩ := SmallRun.saving_fail
  have hfree : CollisionFree SmallRun.platform
      ((History.after SmallRun.platform SmallRun.launch).written ++ s.candidate.values) := by
    rw [SmallRun.reached_launch.written, values_of_same hcandidate]
    exact SmallRun.collisionFree.mono _ (by simp [SmallRun.receipts])
  obtain ⟨jobs, hload, -, hatomic, -⟩ :=
    save_is_crash_atomic SmallRun.platform SmallRun.launch SmallRun.fail s hsaving hfree
  obtain ⟨loaded, hloaded, hget⟩ := SmallRun.load_launch
  rw [hload] at hloaded
  cases hloaded
  exact ⟨s, jobs, hsaving, hget, get?_only hcandidate, rfl, rfl, hatomic⟩

end PanelAssistant
