import PanelAssistant.InstallJobs.RoundTrip
import PanelAssistant.InstallReceipt.Sizes

/-!
# The size of the job store

The primary document of `n` receipts takes `2858 * n + 160` characters and those of their models
at most (`fileSize_le`), so the counts keep it under `_MAX_STORE_BYTES` while the escaped models
take no more than what is left (`sizeAllowed_of_models`).
-/

namespace PanelAssistant

open Library Library.Json InstallPhase

section

variable {P : Platform}

/-- What the models of a table take, quotes and escapes included. -/
def modelWidths (jobs : Jobs) : ℕ := (jobs.values.map fun r => width r.target.model).sum

theorem Storable.parsed {jobs : Jobs} (h : Storable P jobs) :
    ∀ r ∈ jobs.values, FieldsOk P r ∧ PrimaryValid P r := by
  intro r hr
  obtain ⟨jobId, hget⟩ := Dict.mem_values.mp hr
  exact ⟨h.fields jobId r hget, ((validate_ok_iff P).mp (h.valid jobId r hget)).2⟩

theorem length_listed_le (hplain : PlainTexts P) (receipts : List InstallJobReceipt)
    (hparsed : ∀ r ∈ receipts, FieldsOk P r ∧ PrimaryValid P r) :
    ((receipts.map serializeReceipt).map fun a => (pretty 3 a).length + (2 * 2 + 4)).sum ≤
      2858 * receipts.length + (receipts.map fun r => width r.target.model).sum := by
  induction receipts with
  | nil => exact Nat.le_refl 0
  | cons r receipts ih =>
    rw [List.forall_mem_cons] at hparsed
    have hhead := length_serializeReceipt_le hplain hparsed.1.1 hparsed.1.2
    have htail := ih hparsed.2
    simp only [List.map_cons, List.sum_cons, List.length_cons]
    omega

/-- The document around the listed receipts. -/
theorem fileSize_eq (jobs : Jobs) :
    fileSize (wrapDocument storeKey (serializeDocument jobs)) =
      154 + (pretty 2 (.arr ((listed jobs).map serializeReceipt))).length := by
  have houter : ["version", "minor_version", "key", "data"].map width = [9, 15, 5, 6] := by
    repeat' refine congrArg₂ List.cons (width_ofList (by decide)) ?_
    rfl
  have hinner : ["format", "jobs"].map width = [8, 6] := by
    repeat' refine congrArg₂ List.cons (width_ofList (by decide)) ?_
    rfl
  have hkey : width storeKey = 30 := width_ofList (by decide)
  have hformat : width documentFormat = 27 := width_ofList (by decide)
  have hversion : (pretty 1 (.int 1)).length = 1 := by
    rw [pretty]
    decide
  simp only [List.map_cons, List.map_nil, List.cons.injEq, and_true] at houter hinner
  rw [fileSize, wrapDocument, serializeDocument, length_pretty_obj]
  simp only [List.map_cons, List.map_nil, List.sum_cons, List.sum_nil, length_pretty_obj,
    length_pretty_str, houter, hinner, hkey, hformat, hversion, Nat.reduceAdd]
  rw [listed]
  omega

theorem fileSize_le (hplain : PlainTexts P) {jobs : Jobs}
    (hparsed : ∀ r ∈ jobs.values, FieldsOk P r ∧ PrimaryValid P r) :
    fileSize (wrapDocument storeKey (serializeDocument jobs)) ≤
      160 + 2858 * jobs.values.length + modelWidths jobs := by
  have hperm := perm_listed jobs
  have hlisted := length_listed_le hplain (listed jobs) fun r hr => hparsed r (hperm.mem_iff.mp hr)
  have hmodels : ((listed jobs).map fun r => width r.target.model).sum = modelWidths jobs :=
    (hperm.map _).sum_eq
  rw [fileSize_eq, ← hperm.length_eq]
  cases hreceipts : listed jobs with
  | nil =>
    rw [List.map_nil, pretty]
    simp only [List.length_cons, List.length_nil]
    omega
  | cons r receipts =>
    rw [hreceipts] at hlisted hmodels
    rw [List.map_cons, length_pretty_arr, ← List.map_cons, show 2 + 1 = 3 from rfl]
    omega

/-- The counts and the models of a table decide whether it can be written. -/
theorem sizeAllowed_of_models (hplain : PlainTexts P) {jobs : Jobs}
    (hparsed : ∀ r ∈ jobs.values, FieldsOk P r ∧ PrimaryValid P r)
    (hsize : 160 + 2858 * jobs.values.length + modelWidths jobs ≤ maxStoreBytes) :
    sizeAllowed (wrapDocument storeKey (serializeDocument jobs)) = true := by
  rw [sizeAllowed, Bool.and_eq_true, decide_eq_true_eq, decide_eq_true_eq]
  refine ⟨?_, (fileSize_le hplain hparsed).trans hsize⟩
  rw [fileSize_eq]
  omega

theorem modelWidths_le_of_basic {jobs : Jobs} (hfields : ∀ r ∈ jobs.values, FieldsOk P r)
    (hbasic : ∀ r ∈ jobs.values, ∀ c ∈ r.target.model.toList, c.toNat < 65536) :
    modelWidths jobs ≤ 770 * jobs.values.length := by
  have hle := List.sum_le_card_nsmul (jobs.values.map fun r => width r.target.model) 770
    fun n hn => by
      obtain ⟨r, hr, rfl⟩ := List.mem_map.mp hn
      have hlength := length_of_safeText (hfields r hr).targetOk.model
      have hwidth := width_le fun c hc => length_escapeChar_le_of_lt (hbasic r hr c hc)
      omega
  rw [List.length_map, nsmul_eq_mul, Nat.cast_id, Nat.mul_comm] at hle
  exact hle

end

variable (P : Platform)

/-- The counts and the byte bound: a table of admitted receipts is written in full whenever the
models take at most 28024 characters, which is more than 36 models without a character beyond
the basic plane can take. -/
theorem counts_bound_store_size (hplain : PlainTexts P) (jobs : Jobs)
    (hactive : (activeOf jobs.values).length ≤ maxActiveJobs)
    (hterminal : (terminalOf jobs.values).length ≤ maxTerminalJobs)
    (hparsed : ∀ r ∈ jobs.values, ∃ value, parseReceipt P value = .ok r.clearDetail)
    (hmodels : modelWidths jobs ≤ 28024 ∨
      ∀ r ∈ jobs.values, ∀ c ∈ r.target.model.toList, c.toNat < 65536) :
    sizeAllowed (wrapDocument storeKey (serializeDocument jobs)) = true ∧
      (Storable P jobs → validatedDocumentForSave P jobs = .ok (serializeDocument jobs)) := by
  have hadmitted : ∀ r ∈ jobs.values, FieldsOk P r ∧ PrimaryValid P r := by
    intro r hr
    obtain ⟨value, hvalue⟩ := hparsed r hr
    exact ⟨(FieldsOk.clearDetail P).mp (fieldsOk_of_parseReceipt P hvalue),
      (primaryValid_clearDetail P).mp (parseReceipt_parsed P hvalue).valid⟩
  have hcount : jobs.values.length ≤ 36 := by
    have hsplit := List.length_eq_length_filter_add (l := jobs.values) fun r => !r.isTerminal
    simp only [Bool.not_not] at hsplit
    simp only [activeOf, terminalOf, maxActiveJobs, maxTerminalJobs] at hactive hterminal
    omega
  have hwidths : 160 + 2858 * jobs.values.length + modelWidths jobs ≤ maxStoreBytes := by
    rw [maxStoreBytes]
    rcases hmodels with hmodels | hbasic
    · omega
    · have hle := modelWidths_le_of_basic (fun r hr => (hadmitted r hr).1) hbasic
      omega
  have hsize := sizeAllowed_of_models hplain hadmitted hwidths
  refine ⟨hsize, fun hstorable => ?_⟩
  rw [hstorable.saves, if_pos hsize]

end PanelAssistant
