import PanelAssistant.InstallJobs.Manager
import PanelAssistant.InstallReceipt.Rules

/-!
# Receipt tables that pass the store's own checks

`_parse_document` accepts a table only when its ids are distinct, its active receipts share
no address, pin or serial, and the counts are in bounds (`TableAdmissible`); every receipt
it returns is `Parsed` and stands under its own id. `_validated_document_for_save` runs the
same parser on what it is about to write, so a table that is written satisfies all of this
too, up to the details the primary document does not hold (`Writable`).
-/

namespace PanelAssistant

open Library

variable (P : Platform)

/-! ## Admissible tables -/

/-- What `tableAdmissible` checks. -/
structure TableAdmissible (receipts : List InstallJobReceipt) : Prop where
  ids : (receipts.map (·.jobId)).Nodup
  addresses : ((activeOf receipts).map (·.target.address)).Nodup
  pins : ((activeOf receipts).map (·.target.pinnedAddress)).Nodup
  serials : ((activeOf receipts).map (·.target.adbSerial)).Nodup
  active : (activeOf receipts).length ≤ maxActiveJobs
  terminal : (terminalOf receipts).length ≤ maxTerminalJobs

theorem tableAdmissible_iff {receipts : List InstallJobReceipt} :
    tableAdmissible receipts = true ↔ TableAdmissible receipts := by
  simp only [tableAdmissible, Bool.and_eq_true, decide_eq_true_eq]
  constructor
  · rintro ⟨⟨⟨⟨⟨h₁, h₂⟩, h₃⟩, h₄⟩, h₅⟩, h₆⟩
    exact ⟨h₁, h₂, h₃, h₄, h₅, h₆⟩
  · rintro ⟨h₁, h₂, h₃, h₄, h₅, h₆⟩
    exact ⟨⟨⟨⟨⟨h₁, h₂⟩, h₃⟩, h₄⟩, h₅⟩, h₆⟩

theorem TableAdmissible.perm {a b : List InstallJobReceipt} (h : TableAdmissible a)
    (hp : a.Perm b) : TableAdmissible b := by
  have hactive : (activeOf a).Perm (activeOf b) := hp.filter _
  have hterminal : (terminalOf a).Perm (terminalOf b) := hp.filter _
  exact ⟨(hp.map _).nodup_iff.mp h.ids, (hactive.map _).nodup_iff.mp h.addresses,
    (hactive.map _).nodup_iff.mp h.pins, (hactive.map _).nodup_iff.mp h.serials,
    hactive.length_eq ▸ h.active, hterminal.length_eq ▸ h.terminal⟩

theorem activeOf_clearDetail (receipts : List InstallJobReceipt) :
    activeOf (receipts.map (·.clearDetail)) = (activeOf receipts).map (·.clearDetail) := by
  simp only [activeOf, List.filter_map]
  rfl

theorem terminalOf_clearDetail (receipts : List InstallJobReceipt) :
    terminalOf (receipts.map (·.clearDetail)) = (terminalOf receipts).map (·.clearDetail) := by
  simp only [terminalOf, List.filter_map]
  rfl

/-- The checks read no detail. -/
theorem TableAdmissible.of_clearDetail {receipts : List InstallJobReceipt}
    (h : TableAdmissible (receipts.map (·.clearDetail))) : TableAdmissible receipts := by
  obtain ⟨h₁, h₂, h₃, h₄, h₅, h₆⟩ := h
  simp only [activeOf_clearDetail, terminalOf_clearDetail, List.map_map, List.length_map]
    at h₁ h₂ h₃ h₄ h₅ h₆
  exact ⟨h₁, h₂, h₃, h₄, h₅, h₆⟩

/-! ## The primary document -/

/-- What `_parse_document` returns. -/
structure ParsedTable (jobs : Jobs) : Prop where
  keyed : ∀ jobId r, jobs.get? jobId = some r → r.jobId = jobId
  parsed : ∀ jobId r, jobs.get? jobId = some r → Parsed P r
  admissible : TableAdmissible jobs.values

/-- The parser returns the receipts it has parsed, under their ids. -/
theorem parseDocument_eq_ok {value : Json} {jobs : Jobs} (h : parseDocument P value = .ok jobs) :
    ∃ (documents : List Json) (receipts : List InstallJobReceipt),
      documents.mapM (parseReceipt P) = .ok receipts ∧
      TableAdmissible receipts ∧ jobs = Dict.ofList (receipts.map fun r => (r.jobId, r)) ∧
      jobs.values = receipts ∧
      ∀ jobId r, jobs.get? jobId = some r → r.jobId = jobId ∧ r ∈ receipts := by
  unfold parseDocument at h
  split at h
  · simp only [bind_eq_ok, check_eq_ok] at h
    obtain ⟨_, _, h⟩ := h
    split at h
    · simp only [bind_eq_ok, check_eq_ok, pure_eq_ok] at h
      obtain ⟨_, _, _, _, receipts, hreceipts, _, hadmissible, rfl⟩ := h
      rw [tableAdmissible_iff] at hadmissible
      have hkeys : ((receipts.map fun r => (r.jobId, r)).map Prod.fst).Nodup := by
        simpa [List.map_map, Function.comp_def] using hadmissible.ids
      refine ⟨_, receipts, hreceipts, hadmissible, rfl, ?_, fun jobId r hr => ?_⟩
      · simp [Dict.values, Dict.entries_ofList hkeys, Function.comp_def]
      · rw [Dict.get?_eq_some, Dict.entries_ofList hkeys, List.mem_map] at hr
        obtain ⟨_, hmem, heq⟩ := hr
        cases heq
        exact ⟨rfl, hmem⟩
    · cases h
  · cases h

theorem parseDocument_parsed {value : Json} {jobs : Jobs} (h : parseDocument P value = .ok jobs) :
    ParsedTable P jobs := by
  obtain ⟨_, receipts, hreceipts, hadmissible, -, hvalues, hentry⟩ := parseDocument_eq_ok P h
  refine ⟨fun jobId r hr => (hentry jobId r hr).1, fun jobId r hr => ?_, hvalues ▸ hadmissible⟩
  obtain ⟨_, _, hraw⟩ := of_mem_mapM hreceipts (hentry jobId r hr).2
  exact parseReceipt_parsed P hraw

/-! ## Files -/

@[simp] theorem parseStoreBody_wrapDocument (key : String) (document : Json) :
    parseStoreBody key (wrapDocument key document) = .ok document := by
  have hkeys : Json.keysAre [("version", .int 1), ("minor_version", .int 1), ("key", .str key),
      ("data", document)] ["version", "minor_version", "key", "data"] = true := rfl
  simp only [parseStoreBody, wrapDocument, hkeys, fieldOf, Json.field?]
  simp
  rfl

/-! ## Tables a save has checked -/

/-- What a table satisfies once `_validated_document_for_save` has accepted it. -/
structure Writable (jobs : Jobs) : Prop where
  keyed : ∀ jobId r, jobs.get? jobId = some r → r.jobId = jobId
  parsed : ∀ jobId r, jobs.get? jobId = some r → Parsed P r.clearDetail
  admissible : TableAdmissible jobs.values

theorem Writable.valid {jobs : Jobs} (h : Writable P jobs) {jobId : String} {r : InstallJobReceipt}
    (hr : jobs.get? jobId = some r) : PrimaryValid P r :=
  (primaryValid_clearDetail P).mp (h.parsed jobId r hr).valid

/-- A saved document parses to the table it was made from, details apart. -/
theorem validatedDocumentForSave_eq_ok {jobs : Jobs} {document : Json}
    (h : validatedDocumentForSave P jobs = .ok document) :
    document = serializeDocument jobs ∧ sizeAllowed (wrapDocument storeKey document) = true ∧
      Writable P jobs ∧ ∃ verified, parseDocument P document = .ok verified ∧
        verified.Same (jobs.map fun _ r => r.clearDetail) := by
  simp only [validatedDocumentForSave, bind_eq_ok, check_eq_ok, pure_eq_ok, Bool.and_eq_true,
    parseStoreDocument, parseStoreBody_wrapDocument, ok_bind, Dict.beq_iff] at h
  obtain ⟨_, hsize, verified, hparse, _, ⟨hsame, -⟩, rfl⟩ := h
  have htable := parseDocument_parsed P hparse
  refine ⟨rfl, hsize, ?_, verified, hparse, hsame⟩
  have hget : ∀ jobId r, jobs.get? jobId = some r → verified.get? jobId = some r.clearDetail := by
    intro jobId r hr
    rw [hsame jobId, Dict.get?_map, hr]
    rfl
  refine ⟨fun jobId r hr => ?_, fun jobId r hr => htable.parsed jobId _ (hget jobId r hr), ?_⟩
  · have hkeyed := htable.keyed jobId r.clearDetail (hget jobId r hr)
    exact hkeyed
  · have hperm := hsame.values_perm
    rw [Dict.values_map] at hperm
    have hvalues : (jobs.entries.map fun e => e.2.clearDetail) =
      jobs.values.map (·.clearDetail) := by
      simp [Dict.values, List.map_map, Function.comp_def]
    rw [hvalues] at hperm
    exact (htable.admissible.perm hperm).of_clearDetail

end PanelAssistant
