import PanelAssistant.Platform

/-!
# Panel addresses

`PanelAddress` and `normalize_address` of `client.py`, and the address rules of
`install_network.py` that every stored installation target passes. The exceptions of this
code are told apart nowhere in the modelled callers, so a refusal is `none`.
-/

namespace PanelAssistant

open Library.Text

def defaultPort : Int := 8888

/-- Normalized host and port for a panel. -/
structure PanelAddress where
  host : String
  port : Int
  deriving DecidableEq

/-- The canonical config-entry representation. -/
def PanelAddress.storedValue (a : PanelAddress) : String :=
  let host := if a.host.toList.contains ':' then "[" ++ a.host ++ "]" else a.host
  if a.port = defaultPort then host else host ++ ":" ++ toString a.port

/-- Whether `sub` occurs in the text. -/
def contains (sub cs : List Char) : Bool := cs.tails.any fun t => sub.isPrefixOf t

/-- `normalize_address`; `none` is `InvalidAddressError`. -/
def normalizeAddress (P : Platform) (value : String) : Option PanelAddress :=
  let candidate := strip value.toList
  if candidate.isEmpty || contains "://".toList candidate then none
  else
    (P.urlsplit (String.ofList ('/' :: '/' :: candidate))).bind fun parsed =>
      let port := parsed.port.getD defaultPort
      parsed.hostname.bind fun host =>
        if parsed.username.isSome || parsed.password.isSome || parsed.path ≠ "" ||
            parsed.query ≠ "" || parsed.fragment ≠ "" || candidate.getLast? == some ':' ||
            candidate.any isSpace || ¬(1 ≤ port ∧ port ≤ 65535) then none
        else some ⟨P.lower host, port⟩

/-- An address in the installer's explicit LAN ranges: RFC 1918, or `fc00::/7` without a
scope. -/
def isAllowedInstallAddress : IpAddress → Bool
  | .v4 n => n / 2 ^ 24 == 10 || n / 2 ^ 20 == 0xAC1 || n / 2 ^ 16 == 0xC0A8
  | .v6 n scopeId => scopeId.isNone && n / 2 ^ 121 == 126

/-- `_DNS_LABEL_PATTERN` -/
def isDnsLabel (cs : List Char) : Bool :=
  repeats (fun c => isAlnum c || c == '-') 1 63 cs && cs.head?.any isAlnum &&
    cs.getLast?.any isAlnum

/-- `_resolver_hostname`; `none` is `InstallNetworkError(INVALID_HOST)`. -/
def resolverHostname (P : Platform) (host : String) : Option String :=
  let cs := host.toList
  if cs.isEmpty || cs.contains '%' || cs.any (fun c => decide (127 < c.toNat)) ||
      P.inetAton host || decide (253 < cs.length) then none
  else
    let bare := (before? ['.'] cs).getD cs
    if (bare.splitOn '.').all isDnsLabel then some (String.ofList (cs.map Char.toLower)) else none

/-- The address rules of `_parse_target`: both texts are canonical, the pin is a literal LAN
address on the same port, and the original names it or is a host name. -/
def addressesAdmissible (P : Platform) (address pinnedAddress : String) : Bool :=
  match normalizeAddress P address, normalizeAddress P pinnedAddress with
  | some original, some pinned =>
    match P.ipAddress pinned.host with
    | none => false
    | some pinnedIp =>
      original.storedValue == address && pinned.storedValue == pinnedAddress &&
        pinned.host == P.ipText pinnedIp && pinned.port == original.port &&
        isAllowedInstallAddress pinnedIp &&
        match P.ipAddress original.host with
        | none => (resolverHostname P original.host).isSome
        | some originalIp => originalIp == pinnedIp
  | _, _ => false

end PanelAssistant
