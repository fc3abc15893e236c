import PanelAssistant.Library.Dict
import PanelAssistant.InstallReceipt.Codec

/-!
# The two receipt documents

The primary document holds every receipt without its failure detail, the detail document
holds the details, each bound to one receipt by the receipt's id, its revision and the
digest of its primary text. This module is `install_jobs.py` from `_parse_document` to
`_parse_detail_store_document`.

A store file is the document it holds. Its size is that of the indented ASCII text which
`_validated_document_for_save` measures before a save.
-/

namespace PanelAssistant

open Library Library.Text

variable (P : Platform)

abbrev Jobs := Dict String InstallJobReceipt

def storeKey : String := "panel_assistant.install_jobs"

def detailStoreKey : String := "panel_assistant.install_jobs.details"

def maxStoreBytes : Nat := 128 * 1024

def maxActiveJobs : Nat := 4

def maxTerminalJobs : Nat := 32

def maxDetailJobs : Nat := 2 * maxTerminalJobs

/-- `_TERMINAL_RETENTION`, in seconds. -/
def terminalRetention : Int := 7 * 86400

def documentFormat : String := "ha-paneld-install-jobs-v1"

def detailFormat : String := "ha-paneld-install-job-details-v1"

/-! ## Files -/

/-- What `Store` writes around a document. -/
def wrapDocument (key : String) (document : Json) : Json :=
  .obj [("version", .int 1), ("minor_version", .int 1), ("key", .str key), ("data", document)]

def fileSize (file : Json) : Nat := (file.pretty 0).length

def sizeAllowed (file : Json) : Bool :=
  decide (1 ≤ fileSize file) && decide (fileSize file ≤ maxStoreBytes)

/-- `_parse_store_body`, after `json.loads`. -/
def parseStoreBody (key : String) (file : Json) : Except InstallJobError Json := do
  let .obj fields := file | throw .store
  check .store (Json.keysAre fields ["version", "minor_version", "key", "data"] &&
    fieldOf fields "version" == .int 1 && fieldOf fields "minor_version" == .int 1 &&
    fieldOf fields "key" == .str key)
  return fieldOf fields "data"

/-! ## The primary document -/

/-- The receipts no executor has finished. -/
def activeOf (receipts : List InstallJobReceipt) : List InstallJobReceipt :=
  receipts.filter fun r => !r.isTerminal

def terminalOf (receipts : List InstallJobReceipt) : List InstallJobReceipt :=
  receipts.filter (·.isTerminal)

/-- The checks of `_parse_document` on the receipts it has parsed: distinct ids, distinct
addresses, pins and serials among the active ones, and the two counts. -/
def tableAdmissible (receipts : List InstallJobReceipt) : Bool :=
  decide (receipts.map (·.jobId)).Nodup &&
    decide ((activeOf receipts).map (·.target.address)).Nodup &&
    decide ((activeOf receipts).map (·.target.pinnedAddress)).Nodup &&
    decide ((activeOf receipts).map (·.target.adbSerial)).Nodup &&
    decide ((activeOf receipts).length ≤ maxActiveJobs) &&
    decide ((terminalOf receipts).length ≤ maxTerminalJobs)

def parseDocument (value : Json) : Except InstallJobError Jobs := do
  let .obj fields := value | throw .store
  check .store (Json.keysAre fields ["format", "jobs"])
  let .arr jobs := fieldOf fields "jobs" | throw .store
  check .store (fieldOf fields "format" == .str documentFormat)
  check .store (jobs.length ≤ maxActiveJobs + maxTerminalJobs)
  let receipts ← jobs.mapM (parseReceipt P)
  check .store (tableAdmissible receipts)
  return Dict.ofList (receipts.map fun r => (r.jobId, r))

/-- The order `(created_at, job_id)`. -/
def createdOrder (a b : InstallJobReceipt) : Prop :=
  a.createdAt < b.createdAt ∨ a.createdAt = b.createdAt ∧ a.jobId ≤ b.jobId

instance : DecidableRel createdOrder := fun _ _ => inferInstanceAs (Decidable (_ ∨ _))

def serializeDocument (jobs : Jobs) : Json :=
  .obj [("format", .str documentFormat),
    ("jobs", .arr ((jobs.values.insertionSort createdOrder).map serializeReceipt))]

def parseStoreDocument (file : Json) : Except InstallJobError Jobs := do
  parseDocument P (← parseStoreBody storeKey file)

/-- Strictly round-trip the exact candidate before the store may write it. -/
def validatedDocumentForSave (jobs : Jobs) : Except InstallJobError Json := do
  let document := serializeDocument jobs
  let file := wrapDocument storeKey document
  check .store (sizeAllowed file)
  let verified ← parseStoreDocument P file
  check .store (verified.beq (jobs.map fun _ r => r.clearDetail) &&
    serializeDocument verified == document)
  return document

/-! ## The detail document -/

structure ReceiptDetail where
  jobId : String
  revision : Int
  receiptSha256 : String
  failureStage : InstallPhase
  resultSubcode : Option String
  deriving DecidableEq

abbrev DetailKey := String × Int × String

abbrev Details := Dict DetailKey ReceiptDetail

/-- Bind a detail to the exact receipt the primary document holds. -/
def receiptDigest (r : InstallJobReceipt) : String :=
  P.sha256 (String.ofList (serializeReceipt r).sortKeys.compact)

def detailFor (r : InstallJobReceipt) : Option ReceiptDetail :=
  r.failureStage.map fun stage =>
    { jobId := r.jobId, revision := r.revision, receiptSha256 := receiptDigest P r,
      failureStage := stage, resultSubcode := r.resultSubcode }

def detailKey (d : ReceiptDetail) : DetailKey := (d.jobId, d.revision, d.receiptSha256)

/-- The details of a table, under their keys. -/
def detailsOf (jobs : Jobs) : Details :=
  Dict.ofList ((jobs.values.filterMap (detailFor P)).map fun d => (detailKey d, d))

/-- The lexicographic order of detail keys. -/
def detailOrder (a b : ReceiptDetail) : Prop :=
  a.jobId < b.jobId ∨ a.jobId = b.jobId ∧
    (a.revision < b.revision ∨ a.revision = b.revision ∧ a.receiptSha256 ≤ b.receiptSha256)

instance : DecidableRel detailOrder := fun _ _ => inferInstanceAs (Decidable (_ ∨ _))

def serializeDetail (d : ReceiptDetail) : Json :=
  .obj [("job_id", .str d.jobId), ("revision", .int d.revision),
    ("receipt_sha256", .str d.receiptSha256), ("failure_stage", .str d.failureStage.value),
    ("result_subcode", jsonOf .str d.resultSubcode)]

def serializeDetailDocument (details : Details) : Json :=
  .obj [("format", .str detailFormat),
    ("details", .arr ((details.values.insertionSort detailOrder).map serializeDetail))]

def subcodeAllowed (text : String) : Bool := decide (text.length ≤ 96) && isSubcode text

def parseSubcode (value : Json) : Except InstallJobError String :=
  match value with
  | .str text => if subcodeAllowed text then pure text else throw .store
  | _ => throw .store

def parseDetail (raw : Json) : Except InstallJobError ReceiptDetail := do
  let .obj fields := raw | throw .store
  check .store (Json.keysAre fields ["job_id", "revision", "receipt_sha256", "failure_stage",
    "result_subcode"])
  let jobId ← safeText (fieldOf fields "job_id") 32
  let receiptSha256 ← safeText (fieldOf fields "receipt_sha256") 64
  let resultSubcode ← optional parseSubcode (fieldOf fields "result_subcode")
  check .store (isHex32 jobId && isSha256 receiptSha256)
  let failureStage ← parsePhase (fieldOf fields "failure_stage")
  check .store (failureStage ∉ terminalPhases)
  let revision ← integer (fieldOf fields "revision") 0 (2 ^ 63 - 1)
  return { jobId, revision, receiptSha256, failureStage, resultSubcode }

def parseDetailDocument (value : Json) : Except InstallJobError Details := do
  let .obj fields := value | throw .store
  check .store (Json.keysAre fields ["format", "details"])
  let .arr entries := fieldOf fields "details" | throw .store
  check .store (fieldOf fields "format" == .str detailFormat)
  check .store (entries.length ≤ maxDetailJobs)
  let details ← entries.mapM parseDetail
  check .store (decide (details.map detailKey).Nodup)
  return Dict.ofList (details.map fun d => (detailKey d, d))

def parseDetailStoreDocument (file : Json) : Except InstallJobError Details := do
  parseDetailDocument (← parseStoreBody detailStoreKey file)

def validatedDetailDocument (details : Details) : Except InstallJobError Json := do
  let document := serializeDetailDocument details
  let file := wrapDocument detailStoreKey document
  check .store (sizeAllowed file)
  let verified ← parseDetailStoreDocument file
  check .store (verified.beq details)
  return document

/-! ## Joining -/

/-- The detail bound to a receipt under a job id. -/
def boundDetail (details : Details) (jobId : String) (r : InstallJobReceipt) :
    Option ReceiptDetail :=
  details.get? (jobId, r.revision, receiptDigest P r)

def joinReceipt (details : Details) (jobId : String) (r : InstallJobReceipt) : InstallJobReceipt :=
  match boundDetail P details jobId r with
  | none => r
  | some d => { r with failureStage := some d.failureStage, resultSubcode := d.resultSubcode }

/-- Whether joining raises: the receipt carries another detail, or breaks a receipt rule
with this one. -/
def joinRefused (details : Details) (jobId : String) (r : InstallJobReceipt) : Bool :=
  match boundDetail P details jobId r with
  | none => false
  | some d =>
    r.failureStage.isSome &&
        (r.failureStage != some d.failureStage || r.resultSubcode != d.resultSubcode) ||
      match validateReceiptInvariants P (joinReceipt P details jobId r) with
      | .ok _ => false
      | .error _ => true

def joinDetails (jobs : Jobs) (details : Details) : Except InstallJobError Jobs :=
  if jobs.entries.any fun e => joinRefused P details e.1 e.2 then throw .store
  else pure (jobs.map (joinReceipt P details))

end PanelAssistant
