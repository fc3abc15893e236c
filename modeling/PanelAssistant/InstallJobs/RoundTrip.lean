import PanelAssistant.InstallReceipt.RoundTrip
import PanelAssistant.InstallJobs.Reachable

/-!
# The primary document reads back

A table is `Storable` when its receipts pass the field parsers and the receipt rules, stand
under their own ids and satisfy the table checks. The document such a table is written as
parses back to it, the details apart (`Storable.reads`), so a save that refuses it refuses
its size (`Storable.saves`). Everything that loads is storable (`storable_of_loadDurable`).
-/

namespace PanelAssistant

open Library InstallPhase

variable (P : Platform)

/-! ## Storable tables -/

/-- What the parser asks of a table, before its document is written. -/
structure Storable (jobs : Jobs) : Prop where
  keyed : Keyed jobs
  fields : ∀ jobId r, jobs.get? jobId = some r → FieldsOk P r
  valid : ∀ jobId r, jobs.get? jobId = some r → validateReceiptInvariants P r = .ok ()
  admissible : TableAdmissible jobs.values

theorem Storable.same {jobs jobs' : Jobs} (h : Storable P jobs) (hsame : jobs'.Same jobs) :
    Storable P jobs' :=
  ⟨fun jobId r hr => h.keyed jobId r (hsame jobId ▸ hr),
    fun jobId r hr => h.fields jobId r (hsame jobId ▸ hr),
    fun jobId r hr => h.valid jobId r (hsame jobId ▸ hr),
    h.admissible.perm hsame.symm.values_perm⟩

/-- The table checks read no detail. -/
theorem TableAdmissible.clearDetail {receipts : List InstallJobReceipt}
    (h : TableAdmissible receipts) : TableAdmissible (receipts.map (·.clearDetail)) := by
  obtain ⟨h₁, h₂, h₃, h₄, h₅, h₆⟩ := h
  constructor <;>
    simp only [activeOf_clearDetail, terminalOf_clearDetail, List.map_map, List.length_map]
  · exact h₁
  · exact h₂
  · exact h₃
  · exact h₄
  · exact h₅
  · exact h₆

/-- The receipts of a table, as the document lists them. -/
def listed (jobs : Jobs) : List InstallJobReceipt := jobs.values.insertionSort createdOrder

instance : Std.Total createdOrder where
  total a b := by
    unfold createdOrder
    rcases lt_trichotomy a.createdAt b.createdAt with h | h | h
    · exact Or.inl (Or.inl h)
    · rcases le_total a.jobId b.jobId with hid | hid
      · exact Or.inl (Or.inr ⟨h, hid⟩)
      · exact Or.inr (Or.inr ⟨h.symm, hid⟩)
    · exact Or.inr (Or.inl h)

instance : IsTrans InstallJobReceipt createdOrder where
  trans a b c := by
    rintro (hab | ⟨hab, hid⟩) (hbc | ⟨hbc, hid'⟩)
    · exact Or.inl (hab.trans hbc)
    · exact Or.inl (hbc ▸ hab)
    · exact Or.inl (hab ▸ hbc)
    · exact Or.inr ⟨hab.trans hbc, hid.trans hid'⟩

theorem perm_listed (jobs : Jobs) : (listed jobs).Perm jobs.values :=
  List.perm_insertionSort _ _

theorem mem_listed {jobs : Jobs} {r : InstallJobReceipt} :
    r ∈ listed jobs ↔ ∃ jobId, jobs.get? jobId = some r := by
  rw [(perm_listed jobs).mem_iff, Dict.mem_values]

/-- What the document says is already in its order. -/
theorem insertionSort_listed_clearDetail (jobs : Jobs) :
    ((listed jobs).map (·.clearDetail)).insertionSort createdOrder =
      (listed jobs).map (·.clearDetail) := by
  refine List.Pairwise.insertionSort_eq ?_
  rw [List.pairwise_map]
  exact List.pairwise_insertionSort createdOrder jobs.values

theorem length_le_of_admissible {receipts : List InstallJobReceipt}
    (h : TableAdmissible receipts) : receipts.length ≤ maxActiveJobs + maxTerminalJobs := by
  have hcount := List.length_eq_length_filter_add (l := receipts) fun r => !r.isTerminal
  have hactive := h.active
  have hterminal := h.terminal
  simp only [activeOf, terminalOf] at hactive hterminal
  simp only [Bool.not_not] at hcount
  omega

/-- The parser on a document of the right shape. -/
theorem parseDocument_of_list {documents : List Json} {receipts : List InstallJobReceipt}
    (hparsed : documents.mapM (parseReceipt P) = .ok receipts)
    (hcount : documents.length ≤ maxActiveJobs + maxTerminalJobs)
    (hadmissible : tableAdmissible receipts = true) :
    parseDocument P (.obj [("format", .str documentFormat), ("jobs", .arr documents)]) =
      .ok (Dict.ofList (receipts.map fun r => (r.jobId, r))) := by
  have hkeys : Json.keysAre [("format", Json.str documentFormat), ("jobs", .arr documents)]
      ["format", "jobs"] = true := rfl
  have hformat : fieldOf [("format", Json.str documentFormat), ("jobs", .arr documents)] "format" =
      .str documentFormat := rfl
  have hjobs : fieldOf [("format", Json.str documentFormat), ("jobs", .arr documents)] "jobs" =
      .arr documents := rfl
  simp only [parseDocument, hkeys, hformat, hjobs, hparsed, hadmissible, check, hcount,
    beq_self_eq_true, decide_true, if_true, ok_bind]
  rfl

/-- What the parser makes of the receipts a document lists. -/
def readBack (jobs : Jobs) : Jobs :=
  Dict.ofList (((listed jobs).map (·.clearDetail)).map fun r => (r.jobId, r))

section

variable {P} {jobs : Jobs}

theorem Storable.nodup_ids (h : Storable P jobs) :
    ((((listed jobs).map (·.clearDetail)).map fun r => (r.jobId, r)).map Prod.fst).Nodup := by
  have hids : ((listed jobs).map (·.jobId)).Nodup :=
    ((perm_listed jobs).map _).nodup_iff.mpr h.admissible.ids
  simp only [List.map_map]
  exact hids

theorem Storable.readBack_same (h : Storable P jobs) :
    (readBack jobs).Same (jobs.map fun _ r => r.clearDetail) := by
  intro jobId
  refine Option.ext fun r => ?_
  rw [readBack, Dict.get?_ofList h.nodup_ids, Dict.lookup_eq_some h.nodup_ids, Dict.get?_map,
    Option.map_eq_some_iff]
  simp only [List.mem_map, Prod.mk.injEq]
  constructor
  · rintro ⟨_, ⟨r', hr', rfl⟩, hid, rfl⟩
    obtain ⟨id, hget⟩ := mem_listed.mp hr'
    have hkey : r'.jobId = jobId := hid
    rw [h.keyed id r' hget] at hkey
    exact ⟨r', hkey ▸ hget, rfl⟩
  · rintro ⟨r', hget, rfl⟩
    exact ⟨_, ⟨r', mem_listed.mpr ⟨jobId, hget⟩, rfl⟩, h.keyed jobId r' hget, rfl⟩

theorem Storable.serializeDocument_readBack (h : Storable P jobs) :
    serializeDocument (readBack jobs) = serializeDocument jobs := by
  have hvalues : (readBack jobs).values = (listed jobs).map (·.clearDetail) := by
    rw [readBack, Dict.values, Dict.entries_ofList h.nodup_ids, List.map_map]
    exact List.map_id _
  rw [serializeDocument, hvalues, insertionSort_listed_clearDetail, List.map_map]
  rfl

/-- The document of a storable table parses back to it, the details apart. -/
theorem Storable.reads (h : Storable P jobs) :
    parseDocument P (serializeDocument jobs) = .ok (readBack jobs) := by
  have hperm := perm_listed jobs
  have hparsed : ((listed jobs).map serializeReceipt).mapM (parseReceipt P) =
      .ok ((listed jobs).map (·.clearDetail)) := by
    rw [mapM_eq_ok, List.forall₂_map_left_iff, List.forall₂_map_right_iff, List.forall₂_same]
    intro r hr
    obtain ⟨jobId, hget⟩ := mem_listed.mp hr
    exact parseReceipt_serializeReceipt P (h.fields jobId r hget) (h.valid jobId r hget)
  have hcount : ((listed jobs).map serializeReceipt).length ≤ maxActiveJobs + maxTerminalJobs := by
    rw [List.length_map, hperm.length_eq]
    exact length_le_of_admissible h.admissible
  have hadmissible : tableAdmissible ((listed jobs).map (·.clearDetail)) = true :=
    tableAdmissible_iff.mpr (h.admissible.perm hperm.symm).clearDetail
  exact parseDocument_of_list P hparsed hcount hadmissible

/-- Only its size keeps the document of a storable table from being saved. -/
theorem Storable.saves (h : Storable P jobs) :
    validatedDocumentForSave P jobs =
      if sizeAllowed (wrapDocument storeKey (serializeDocument jobs)) then
        .ok (serializeDocument jobs)
      else .error .store := by
  have hsame : (readBack jobs).beq (jobs.map fun _ r => r.clearDetail) = true :=
    Dict.beq_iff.mpr h.readBack_same
  simp only [validatedDocumentForSave, parseStoreDocument, parseStoreBody_wrapDocument, ok_bind,
    h.reads, hsame, h.serializeDocument_readBack, beq_self_eq_true, check, Bool.and_self]
  cases sizeAllowed (wrapDocument storeKey (serializeDocument jobs)) <;> rfl

end

/-! ## What loads is storable -/

theorem parseDocument_storable {value : Json} {jobs : Jobs}
    (h : parseDocument P value = .ok jobs) : Storable P jobs := by
  have hparsed := parseDocument_parsed P h
  obtain ⟨_, receipts, hreceipts, -, -, -, hentry⟩ := parseDocument_eq_ok P h
  refine ⟨hparsed.keyed, fun jobId r hr => ?_, fun jobId r hr => ?_, hparsed.admissible⟩
  · obtain ⟨_, _, hraw⟩ := of_mem_mapM hreceipts (hentry jobId r hr).2
    exact fieldsOk_of_parseReceipt P hraw
  · have hr' := hparsed.parsed jobId r hr
    refine (validate_ok_iff P).mpr ⟨?_, hr'.valid⟩
    rw [← clearDetail_of_none hr'.noStage hr'.noSubcode]
    exact detailViolated_clearDetail r

theorem storable_empty : Storable P ∅ := by
  have hnone : ∀ (jobId : String) (r : InstallJobReceipt), (∅ : Jobs).get? jobId ≠ some r :=
    fun jobId r hr => by cases hr
  exact ⟨fun jobId r hr => (hnone jobId r hr).elim, fun jobId r hr => (hnone jobId r hr).elim,
    fun jobId r hr => (hnone jobId r hr).elim, tableAdmissible_nil⟩

theorem readJobs_storable {disk : Disk} {read : Jobs} (h : readJobs P disk = .ok read) :
    Storable P read := by
  unfold readJobs at h
  split at h
  · cases h
    exact storable_empty P
  · unfold readDurable at h
    split at h
    · simp only [parseStoreDocument, bind_eq_ok] at h
      obtain ⟨_, -, h⟩ := h
      exact parseDocument_storable P h
    · cases h

theorem joinReceipt_clearDetail_eq (details : Details) (jobId : String) (r : InstallJobReceipt) :
    (joinReceipt P details jobId r).clearDetail = r.clearDetail := by
  unfold joinReceipt
  split <;> rfl

/-- Joining keeps a table storable: it validates what it joins. -/
theorem Storable.joinDetails {jobs loaded : Jobs} {details : Details} (h : Storable P jobs)
    (hjoin : PanelAssistant.joinDetails P jobs details = .ok loaded) : Storable P loaded := by
  unfold PanelAssistant.joinDetails at hjoin
  split at hjoin
  · cases hjoin
  · rename_i haccepted
    rw [pure_eq_ok] at hjoin
    subst hjoin
    have hentry : ∀ jobId r, (jobs.map (joinReceipt P details)).get? jobId = some r →
        ∃ r', jobs.get? jobId = some r' ∧ r.clearDetail = r'.clearDetail ∧
          r = joinReceipt P details jobId r' := by
      intro jobId r hr
      rw [Dict.get?_map, Option.map_eq_some_iff] at hr
      obtain ⟨r', hr', rfl⟩ := hr
      exact ⟨r', hr', joinReceipt_clearDetail_eq P details jobId r', rfl⟩
    refine ⟨fun jobId r hr => ?_, fun jobId r hr => ?_, fun jobId r hr => ?_, ?_⟩
    · obtain ⟨r', hr', hclear, -⟩ := hentry jobId r hr
      have hid : r.jobId = r'.jobId := congrArg (·.jobId) hclear
      rw [hid, h.keyed jobId r' hr']
    · obtain ⟨r', hr', hclear, -⟩ := hentry jobId r hr
      exact (FieldsOk.clearDetail P).mp
        (hclear ▸ (FieldsOk.clearDetail P).mpr (h.fields jobId r' hr'))
    · obtain ⟨r', hr', -, rfl⟩ := hentry jobId r hr
      simp only [Bool.not_eq_true, List.any_eq_false] at haccepted
      have hrefused := haccepted (jobId, r') (Dict.get?_eq_some.mp hr')
      cases hbound : boundDetail P details jobId r' with
      | none => simpa [joinReceipt, hbound] using h.valid jobId r' hr'
      | some d =>
        simp only [joinRefused, hbound] at hrefused
        cases hvalid : validateReceiptInvariants P (joinReceipt P details jobId r') with
        | ok u => rfl
        | error e => simp [hvalid] at hrefused
    · have hvalues : (jobs.map (joinReceipt P details)).values.map (·.clearDetail) =
          jobs.values.map (·.clearDetail) := by
        rw [Dict.values_map, List.map_map, Dict.values, List.map_map]
        exact List.map_congr_left fun e _ => joinReceipt_clearDetail_eq P details e.1 e.2
      exact TableAdmissible.of_clearDetail (hvalues ▸ h.admissible.clearDetail)

/-- Whatever the two files hold, a table that loads from them is storable. -/
theorem storable_of_loadDurable {disk : Disk} {jobs : Jobs}
    (h : loadDurable P disk = .ok jobs) : Storable P jobs := by
  simp only [loadDurable, bind_eq_ok] at h
  obtain ⟨read, hread, details, -, hjoin⟩ := h
  exact (readJobs_storable P hread).joinDetails P hjoin

end PanelAssistant
