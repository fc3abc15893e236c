import PanelAssistant.InstallJobs.Runs

/-!
# The tables that managers hold

A property of new receipts that every rewrite keeps holds of every receipt of a reachable table
(`exists_holds_with`), and every table that a manager holds is in order (`TableOk`): no two
active receipts share an address, a pin or a serial, the counts are in bounds and every receipt
satisfies the receipt rules.
-/

namespace PanelAssistant

open Library InstallPhase

variable (P : Platform)

/-! ## Facts about single receipts -/

/-- A property of new receipts that every rewrite keeps holds of every stored receipt. -/
theorem Effect.receipts {P : Platform} {claimed : Dict String Int} {jobs jobs' : Jobs}
    {p : InstallJobReceipt → Prop} (h : Effect P claimed jobs jobs')
    (hnew : ∀ a jobId now, p (approvedReceipt a jobId now))
    (hrewrite : ∀ r held r', p r → Rewrite P r held r' → p r')
    (hjobs : ∀ jobId r, jobs.get? jobId = some r → p r) :
    ∀ jobId r, jobs'.get? jobId = some r → p r := by
  intro jobId r' hr'
  cases h with
  | unchanged hsame => exact hjobs jobId r' ((hsame jobId).symm.trans hr')
  | saved loaded candidate held id hloaded hheld hcandidate hsaved =>
    rcases hcandidate.origin ((hsaved jobId).symm.trans hr') with hr | ⟨r, hr, hrw⟩ | ⟨a, now, rfl⟩
    · exact hjobs jobId r' ((hloaded jobId).symm.trans hr)
    · exact hrewrite r _ r' (hjobs jobId r ((hloaded jobId).symm.trans hr)) hrw
    · exact hnew a jobId now

theorem exists_holds_with (p : InstallJobReceipt → Prop)
    (hnew : ∀ a jobId now, p (approvedReceipt a jobId now))
    (hrewrite : ∀ r held r', p r → Rewrite P r held r' → p r') (calls : List Call)
    (hfree : CollisionFree P (History.after P calls).written) :
    ∃ jobs, Holds P (History.after P calls).written (History.after P calls).manager jobs ∧
      ∀ jobId r, jobs.get? jobId = some r → p r := by
  refine Runs.run_inv
    (fun h : History => CollisionFree P h.written →
      ∃ jobs, Holds P h.written h.manager jobs ∧ ∀ jobId r, jobs.get? jobId = some r → p r)
    (fun h call ih hfree => ?_)
    (fun _ => ⟨∅, holds_initial P, fun _ _ hr => by cases hr⟩) calls hfree
  obtain ⟨jobs, hholds, hjobs⟩ := ih (hfree.mono P (written_subset_step P h call))
  obtain ⟨jobs', hoperated⟩ := hholds.apply hfree
  exact ⟨jobs', hoperated.holds, hoperated.effect.receipts hnew hrewrite hjobs⟩

/-! ## Tables -/

/-- Two receipts ask for the same panel. -/
def SharesPanel (r r' : InstallJobReceipt) : Prop :=
  r.target.address = r'.target.address ∨ r.target.pinnedAddress = r'.target.pinnedAddress ∨
    r.target.adbSerial = r'.target.adbSerial

structure TableOk (jobs : Jobs) : Prop where
  /-- No two active receipts ask for the same panel. -/
  exclusive : ∀ jobId jobId' r r', jobs.get? jobId = some r → jobs.get? jobId' = some r' →
    r.isTerminal = false → r'.isTerminal = false → SharesPanel r r' → jobId = jobId'
  active : (activeOf jobs.values).length ≤ 4
  terminal : (terminalOf jobs.values).length ≤ 32
  valid : ∀ jobId r, jobs.get? jobId = some r → validateReceiptInvariants P r = .ok ()
  counters : ∀ jobId r, jobs.get? jobId = some r →
    r.attempt = r.executorGeneration ∧ r.executorGeneration ≤ 32 ∧ r.executorGeneration ≤ r.revision

theorem eq_of_nodup_active {β : Type} {jobs : Jobs} {f : InstallJobReceipt → β}
    (hnodup : ((activeOf jobs.values).map f).Nodup) {jobId jobId' : String}
    {r r' : InstallJobReceipt} (hr : jobs.get? jobId = some r) (hr' : jobs.get? jobId' = some r')
    (hactive : r.isTerminal = false) (hactive' : r'.isTerminal = false) (h : f r = f r') :
    r = r' := by
  have hmem : ∀ id x, jobs.get? id = some x → x.isTerminal = false → x ∈ activeOf jobs.values := by
    intro id x hx hx'
    simp only [activeOf, List.mem_filter, Bool.not_eq_true']
    exact ⟨Dict.mem_values.mpr ⟨id, hx⟩, hx'⟩
  exact List.inj_on_of_nodup_map hnodup (hmem _ _ hr hactive) (hmem _ _ hr' hactive') h

theorem readJobs_parsedTable {disk : Disk} {read : Jobs} (h : readJobs P disk = .ok read) :
    read = ∅ ∨ ParsedTable P read := by
  unfold readJobs at h
  split at h
  · cases h
    exact Or.inl rfl
  · unfold readDurable at h
    split at h
    · simp only [parseStoreDocument, bind_eq_ok] at h
      obtain ⟨_, -, h⟩ := h
      exact Or.inr (parseDocument_parsed P h)
    · cases h

theorem tableAdmissible_nil : TableAdmissible [] := by
  constructor <;> simp [activeOf, terminalOf]

variable {P} in
/-- A table that a manager holds has passed the parser, details apart. -/
theorem Holds.tableOk {written : List InstallJobReceipt} {m : Manager} {jobs : Jobs}
    (h : Holds P written m jobs) : TableOk P jobs := by
  obtain ⟨read, hread, hsame⟩ := h.stored.primary
  have hget : ∀ jobId r, jobs.get? jobId = some r → read.get? jobId = some r.clearDetail := by
    intro jobId r hr
    rw [hsame jobId, Dict.get?_map, hr]
    rfl
  have hadmissible : TableAdmissible jobs.values := by
    have hvalues : (jobs.map fun _ r => r.clearDetail).values =
      jobs.values.map (·.clearDetail) := by
      rw [Dict.values_map]
      simp [Dict.values, List.map_map, Function.comp_def]
    have hperm := hsame.values_perm
    rw [hvalues] at hperm
    refine TableAdmissible.of_clearDetail (TableAdmissible.perm ?_ hperm)
    rcases readJobs_parsedTable P hread with rfl | hparsed
    · exact tableAdmissible_nil
    · exact hparsed.admissible
  have hreceipt : ∀ jobId r, jobs.get? jobId = some r → Parsed P r.clearDetail := by
    intro jobId r hr
    rcases readJobs_parsedTable P hread with rfl | hparsed
    · cases hget jobId r hr
    · exact hparsed.parsed jobId _ (hget jobId r hr)
  refine ⟨?_, hadmissible.active, hadmissible.terminal, h.sound.valid, fun jobId r hr => ?_⟩
  · intro jobId jobId' r r' hr hr' hactive hactive' hshares
    have heq : r = r' := by
      rcases hshares with haddress | hpin | hserial
      · exact eq_of_nodup_active hadmissible.addresses hr hr' hactive hactive' haddress
      · exact eq_of_nodup_active hadmissible.pins hr hr' hactive hactive' hpin
      · exact eq_of_nodup_active hadmissible.serials hr hr' hactive hactive' hserial
    rw [← h.sound.keyed jobId r hr, ← h.sound.keyed jobId' r' hr', heq]
  · have hparsed := hreceipt jobId r hr
    have hattempt : r.attempt = r.executorGeneration := hparsed.valid.attempt
    have hbound : r.attempt ≤ 32 := hparsed.attempt
    have hrevision : r.executorGeneration ≤ r.revision := hparsed.valid.revision
    exact ⟨hattempt, by omega, hrevision⟩

end PanelAssistant
