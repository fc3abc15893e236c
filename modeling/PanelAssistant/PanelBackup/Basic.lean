import Mathlib.Data.List.Lex
import Mathlib.Data.List.Sort
import PanelAssistant.Library.Files
import PanelAssistant.Library.Text
import PanelAssistant.Library.Wire

/-!
# Panel backups

`panel_backup.py`: a backup is verified, written beside its name and put in its place, and so is its
receipt; then all but the last five archives of its entry in the order of names are removed. Zip
files, JSON texts and digests are read by what the standard library has (`Readers`).
-/

namespace PanelAssistant.PanelBackup

open Library Library.Files Library.Text

/-! ## Verification -/

/-- An open zip file. -/
structure ZipFile where
  /-- The first member that does not pass its checksum. -/
  testzip : Option String
  namelist : List String
  read : String → Bytes

structure Readers where
  /-- `ZipFile(BytesIO(data))`, unless it raises. -/
  zipFile : Bytes → Option ZipFile
  /-- `json.loads`, unless it raises. -/
  loads : Bytes → Option Wire
  /-- `sha256(data).hexdigest()` -/
  digest : Bytes → List Char

/-- `_MANIFEST_ENTRY` -/
def manifestEntry : String := "manifest.json"

/-- `_MAX_ARCHIVE_ENTRIES` -/
def maxArchiveEntries : ℕ := 8

/-- `_KEEP_PER_PANEL` -/
def keepPerPanel : ℕ := 5

/-- The manifest does not mark a failed read of the panel's state. -/
def plausibleManifest : Wire → Bool
  | .obj manifest =>
    match Wire.get manifest "state" with
    | .null => true
    | .obj state => (Wire.field? state "error").isNone
    | _ => false
  | _ => false

/-- `verify_panel_backup`: the number of entries and the digest, or `none` if it raises. -/
def verifyPanelBackup (r : Readers) (data : Bytes) : Option (ℕ × List Char) := do
  if data = [] then none
  let archive ← r.zipFile data
  if archive.testzip.isSome then none
  let names := archive.namelist
  if names = [] ∨ maxArchiveEntries < names.length ∨ ¬ names.Nodup ∨ manifestEntry ∉ names ∨
      archive.read manifestEntry = [] then none
  let manifest ← r.loads (archive.read manifestEntry)
  if plausibleManifest manifest then some (names.length, r.digest data) else none

/-! ## Names -/

/-- The id of a config entry, which is a ULID. -/
structure EntryId where
  text : List Char
  plain : ∀ c ∈ text, isAlnum c = true

/-- `datetime.now(UTC)`, in whole seconds. -/
structure Clock where
  year : ℕ
  month : ℕ
  day : ℕ
  hour : ℕ
  minute : ℕ
  second : ℕ

/-- A number with leading zeros. -/
def padded (width n : ℕ) : List Char :=
  List.replicate (width - (Nat.toDigits 10 n).length) '0' ++ Nat.toDigits 10 n

/-- `strftime("%Y%m%dT%H%M%SZ")` -/
def Clock.stamp (clock : Clock) : List Char :=
  padded 4 clock.year ++ padded 2 clock.month ++ padded 2 clock.day ++ 'T' ::
    (padded 2 clock.hour ++ padded 2 clock.minute ++ padded 2 clock.second ++ ['Z'])

/-- `isoformat(timespec="seconds").replace("+00:00", "Z")` -/
def Clock.isoformat (clock : Clock) : List Char :=
  padded 4 clock.year ++ '-' :: (padded 2 clock.month ++ '-' :: (padded 2 clock.day ++ 'T' ::
    (padded 2 clock.hour ++
      ':' :: (padded 2 clock.minute ++ ':' :: (padded 2 clock.second ++ ['Z'])))))

def integerText : ℤ → List Char
  | .ofNat n => Nat.toDigits 10 n
  | .negSucc n => '-' :: Nat.toDigits 10 (n + 1)

/-- `version_code if version_code else 'unknown'` -/
def codeText : Option ℤ → List Char
  | none => ['u', 'n', 'k', 'n', 'o', 'w', 'n']
  | some code => if code = 0 then ['u', 'n', 'k', 'n', 'o', 'w', 'n'] else integerText code

/-- `f"{entry_id}-"` -/
def EntryId.dashed (entry : EntryId) : Name := entry.text ++ ['-']

/-- `.zip` -/
def zipEnding : List Char := ['.', 'z', 'i', 'p']

/-- `.json` -/
def jsonEnding : List Char := ['.', 'j', 's', 'o', 'n']

/-- `.partial` -/
def besideEnding : List Char := ['.', 'p', 'a', 'r', 't', 'i', 'a', 'l']

def archiveName (entry : EntryId) (code : Option ℤ) (clock : Clock) : Name :=
  entry.dashed ++ (clock.stamp ++ '-' :: 'v' :: 'c' :: codeText code) ++ zipEnding

/-- `f"{name}.json"` -/
def receiptName (name : Name) : Name := name ++ jsonEnding

/-- `f".{name}.partial"` -/
def besideName (name : Name) : Name := '.' :: (name ++ besideEnding)

/-- `f"{entry_id}-*.zip"` matches the name. -/
def isArchive (entry : EntryId) (name : Name) : Bool :=
  entry.dashed.isPrefixOf name && zipEnding.isSuffixOf (name.drop entry.dashed.length)

/-- `f"{entry_id}-*.zip*"` matches the name. -/
def isArtifact (entry : EntryId) (name : Name) : Bool :=
  entry.dashed.isPrefixOf name && (name.drop entry.dashed.length).tails.any zipEnding.isPrefixOf

/-- The archives of an entry in a directory. -/
def archives (entry : EntryId) (d : Directory) : List Name := d.keys.filter (isArchive entry)

/-! ## Calls -/

/-- `PanelBackupReceipt` -/
structure Receipt where
  archive : Name
  size : ℕ
  sha256 : List Char
  entries : ℕ
  takenAt : List Char

/-- The texts of a receipt need no escapes. -/
def quoted (text : List Char) : List Char := '"' :: (text ++ ['"'])

/-- `json.dump(receipt.as_dict(), handle, sort_keys=True)` -/
def Receipt.bytes (receipt : Receipt) : Bytes :=
  ("\x7b\"archive\": ".toList ++ quoted receipt.archive ++ ", \"entries\": ".toList ++
    Nat.toDigits 10 receipt.entries ++ ", \"sha256\": ".toList ++ quoted receipt.sha256 ++
    ", \"size\": ".toList ++ Nat.toDigits 10 receipt.size ++ ", \"taken_at\": ".toList ++
    quoted receipt.takenAt ++ "\x7d".toList).flatMap String.utf8EncodeChar

/-- The archive and its receipt, each beside its name and then in its place. -/
def writeOps (receipt : Receipt) (data : Bytes) : List Op :=
  writeFile (besideName receipt.archive) receipt.archive data ++
    writeFile (besideName (receiptName receipt.archive)) (receiptName receipt.archive) receipt.bytes

/-- `sorted(directory.glob(f"{prefix}*.zip"))` -/
def kept (entry : EntryId) (d : Directory) : List Name := (archives entry d).insertionSort (· ≤ ·)

/-- The archives but the last five, and their receipts. -/
def retentionOps (entry : EntryId) (d : Directory) : List Op :=
  ((kept entry d).take ((kept entry d).length - keepPerPanel)).flatMap fun old =>
    [.unlink old, .unlink (receiptName old)]

/-- `_write_backup` -/
def writeBackup (entry : EntryId) (receipt : Receipt) (data : Bytes) (d : Directory) : List Op :=
  writeOps receipt data ++ retentionOps entry (exec d (writeOps receipt data))

/-- The receipt of `async_store_panel_backup`, or `none` if the backup is refused. -/
def backupReceipt (r : Readers) (entry : EntryId) (code : Option ℤ) (clock : Clock) (data : Bytes) :
    Option Receipt :=
  (verifyPanelBackup r data).map fun (entries, digest) =>
    ⟨archiveName entry code clock, data.length, digest, entries, clock.isoformat⟩

/-- `async_store_panel_backup`, where it returns. -/
def asyncStorePanelBackup (r : Readers) (entry : EntryId) (code : Option ℤ)
    (clock : Clock) (data : Bytes)
    (d : Directory) : Option (Receipt × Directory) :=
  (backupReceipt r entry code clock data).map fun receipt =>
    (receipt, exec d (writeBackup entry receipt data d))

/-- The operations of `delete_panel_backups`. -/
def deleteOps (entry : EntryId) (d : Directory) : List Op :=
  (d.keys.filter fun name => isArtifact entry name &&
    (zipEnding.isSuffixOf name || (zipEnding ++ jsonEnding).isSuffixOf name)).map .unlink

/-- `delete_panel_backups` -/
def deletePanelBackups (entry : EntryId) (d : Directory) : Directory := exec d (deleteOps entry d)

inductive Call where
  | store (entry : EntryId) (code : Option ℤ) (clock : Clock) (data : Bytes)
  | delete (entry : EntryId)

def Call.entry : Call → EntryId
  | store entry _ _ _ => entry
  | delete entry => entry

/-- The file operations of a call. -/
def Call.ops (r : Readers) (d : Directory) : Call → List Op
  | store entry code clock data =>
    match backupReceipt r entry code clock data with
    | some receipt => writeBackup entry receipt data d
    | none => []
  | delete entry => deleteOps entry d

/-- A call and, if the process ends in it, after how many operations and how many bytes of a
write. -/
structure Attempt where
  call : Call
  cutOff : Option (ℕ × ℕ)

def Attempt.result (r : Readers) (d : Directory) (a : Attempt) : Directory :=
  match a.cutOff with
  | none => exec d (a.call.ops r d)
  | some (n, k) => interrupted d (a.call.ops r d) n k

end PanelAssistant.PanelBackup
