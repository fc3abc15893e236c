import PanelAssistant.Library.Text

/-!
# What the integration takes from Python and from Home Assistant

A `Platform` is one behaviour of the functions the modelled code calls outside its own
repository: URL splitting, the `ipaddress` and `socket` parsers, the Unicode tables,
SHA-256 and the ULID codec. Nothing is assumed about them here; a result that needs a
documented fact of one of them names it as a hypothesis.
-/

namespace PanelAssistant

/-- An address as `ipaddress.ip_address` parses it. -/
inductive IpAddress where
  | v4 (value : Nat)
  | v6 (value : Nat) (scopeId : Option String)
  deriving DecidableEq

/-- The parts of `urllib.parse.urlsplit` that are read. -/
structure SplitResult where
  hostname : Option String
  port : Option Int
  username : Option String
  password : Option String
  path : String
  query : String
  fragment : String

structure Platform where
  /-- `urlsplit` with its `port` read; `none` where either raises `ValueError`. -/
  urlsplit : String → Option SplitResult
  /-- `ipaddress.ip_address`; `none` where it raises `ValueError`. -/
  ipAddress : String → Option IpAddress
  /-- `str` of an address. -/
  ipText : IpAddress → String
  /-- Whether `socket.inet_aton` accepts the text. -/
  inetAton : String → Bool
  /-- `str.lower`. -/
  lower : String → String
  /-- `str.isprintable`. -/
  isPrintable : String → Bool
  /-- `sha256(text.encode()).hexdigest()`. -/
  sha256 : String → String
  /-- The id `_execution_id` derives from a job id and a plan digest. -/
  executionDigest : String → String → String
  /-- `_REMOTE_STAGING_SLOT_ID`. -/
  remoteStagingSlotId : String
  /-- `ulid_to_bytes_or_none`. -/
  ulidToBytesOrNone : String → Option (List Nat)
  /-- `bytes_to_ulid`. -/
  bytesToUlid : List Nat → String

end PanelAssistant
