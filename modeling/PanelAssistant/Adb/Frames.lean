import PanelAssistant.InstallExecutor.Basic
import PanelAssistant.Library.Lines

/-!
# Framed answers of the shell

The frames of `adb_protocol.py`. An answer is a list of lines: an opening line, for each section
its opening line, its values and its closing line with a status, and a closing line. The loops
scan the lines from `offset` on; here they recurse on those lines, the last one left out.

Prefixes, section names and nonces are `Word`s: the patterns that read statuses hold them
unescaped, so on these texts they match them literally.
-/

namespace PanelAssistant.Adb

open Library Library.Text Library.Lines

def isWordChar (c : Char) : Bool := isAlnum c || c == '_'

/-- A text of `[0-9A-Za-z_]`. -/
structure Word where
  text : String
  word : text.toList.all isWordChar = true
  deriving DecidableEq

/-- `f"{prefix}_{name}"` -/
def Word.section (label name : Word) : Word where
  text := label.text ++ "_" ++ name.text
  word := by
    rw [String.toList_append, String.toList_append, List.all_append, List.all_append, label.word,
      name.word]
    rfl

/-- How the parsers fail. The last three are Python's own exceptions. -/
inductive Failure where
  /-- `_MalformedAdbResponse` -/
  | malformed
  /-- `InstallAdbError` -/
  | adb (code : InstallAdbErrorCode)
  | keyError
  | indexError
  | valueError
  deriving DecidableEq

/-- `_MAX_SHELL_RESPONSE_BYTES` -/
def maxShellResponseBytes : ℕ := 32 * 1024

/-- What is read of a section: its lines and its status. -/
abbrev Reading := List String × ℕ

abbrev Sections := Dict Word Reading

/-- `HAPANELD_{label}_BEGIN:{nonce}` -/
def beginLine (label nonce : Word) : String :=
  "HAPANELD_" ++ label.text ++ "_BEGIN:" ++ nonce.text

/-- `HAPANELD_{label}_END:{nonce}` -/
def endLine (label nonce : Word) : String := "HAPANELD_" ++ label.text ++ "_END:" ++ nonce.text

/-- `HAPANELD_{label}_END:{nonce}:{status}` -/
def statusLine (label nonce : Word) (status : String) : String :=
  endLine label nonce ++ ":" ++ status

/-- `line.startswith("HAPANELD_")` -/
def isMarker (line : String) : Bool := "HAPANELD_".toList.isPrefixOf line.toList

/-- `_decode_lines` -/
def decodeLines (body : ByteArray) : Except Failure (List String) :=
  if body.size = 0 ∨ maxShellResponseBytes < body.size then .error .malformed
  else if h : body.IsValidUTF8 then
    let text := dropReturns (String.ofByteArray body h).toList
    if '\r' ∈ text ∨ text.getLast? ≠ some '\n' then .error .malformed
    else .ok ((splitLines text).map String.ofList)
  else .error .malformed

/-- `_parse_status` -/
def parseStatus (line : String) (label nonce : Word) : Option ℕ :=
  match after? (statusLine label nonce "").toList line.toList with
  | some digits => if repeats isDigit 1 3 digits then some (decimal digits) else none
  | none => none

/-- The values of one section, its status, and the lines after it. -/
def scanValues (label nonce : Word) : List String → Except Failure (List String × ℕ × List String)
  | [] => .error .malformed
  | line :: rest =>
    match parseStatus line label nonce with
    | some status => .ok ([], status, rest)
    | none =>
      if isMarker line then .error .malformed
      else do
        let (values, status, rest) ← scanValues label nonce rest
        .ok (line :: values, status, rest)

/-- The sections of a frame in the order of `names`. -/
def scanSections (label nonce : Word) :
    List Word → List String → Sections → Except Failure Sections
  | [], [], parsed => .ok parsed
  | [], _ :: _, _ => .error .malformed
  | _ :: _, [], _ => .error .malformed
  | name :: names, line :: rest, parsed =>
    if line ≠ beginLine (label.section name) nonce then .error .malformed
    else do
      let (values, status, rest) ← scanValues (label.section name) nonce rest
      scanSections label nonce names rest (parsed.set name (values, status))

/-- `_parse_sections` -/
def parseSections (body : ByteArray) (label nonce : Word) (names : List Word) :
    Except Failure Sections := do
  match ← decodeLines body with
  | [] => .error .indexError
  | first :: rest =>
    if first ≠ beginLine label nonce ∨ (first :: rest).getLast? ≠ some (endLine label nonce) then
      .error .malformed
    else scanSections label nonce names rest.dropLast ∅

/-- `sections[name]` -/
def item (sections : Sections) (name : Word) : Except Failure Reading :=
  match sections.get? name with
  | some reading => .ok reading
  | none => .error .keyError

/-- The lines of one section as they are written back. -/
def sectionLines (label nonce name : Word) (reading : Reading) : List String :=
  beginLine (label.section name) nonce :: reading.1 ++
    [statusLine (label.section name) nonce reading.2.repr]

/-- The lines joined and encoded, with a newline after the last one. -/
def encodeLines (lines : List String) : ByteArray :=
  (String.ofList (terminate (lines.map String.toList))).toByteArray

/-- `_sections_as_frame` -/
def sectionsAsFrame (sections : Sections) (label nonce : Word) (names : List Word) :
    Except Failure ByteArray := do
  let lines ← names.mapM fun name => do
    let reading ← item sections name
    .ok (sectionLines label nonce name reading)
  .ok (encodeLines (beginLine label nonce :: lines.flatten ++ [endLine label nonce]))

end PanelAssistant.Adb
