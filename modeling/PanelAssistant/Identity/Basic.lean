import PanelAssistant.HealthLine

/-!
# Installation identities

`identity.py`: which panel an entry stands for. `accept_health` admits the health of a panel to its
entry, or withdraws the entry's authority; a panel that is confirmed or reinstalled takes the
entities of its entry along. No call awaits anything, so each is one step.
-/

namespace PanelAssistant.Identity

open Library Library.Text

/-! ## Records -/

/-- `CONF_IDENTITY_PENDING` -/
structure Pending where
  did : String
  legacyDid : String
  address : String
  deriving DecidableEq

/-- `CONF_CUTOVER`: what was taken over from MQTT. -/
structure Cutover where
  did : Option String
  panelId : String
  deviceIds : List String
  deriving DecidableEq

structure Entry where
  entryId : String
  uniqueId : Option String
  address : String
  /-- `CONF_INSTALL_IDENTITY` -/
  installation : Bool
  /-- `CONF_PREVIOUS_IDENTITY` -/
  previous : Option String
  pending : Option Pending
  /-- `CONF_LEGACY_DID` -/
  legacyDid : Option String
  cutover : Option Cutover
  deriving DecidableEq

/-- An entity of the registry, of this integration or of another one. -/
structure Entity where
  entityId : String
  domain : String
  native : Bool
  uniqueId : String
  entryId : String
  deriving DecidableEq

/-- A device of the registry, with the entries that own it or a part of it. -/
structure Device where
  identifiers : List (String × String)
  owners : List String

structure Coordinator where
  connected : Bool
  lastUpdateSuccess : Bool
  /-- The identity in the health that it read last. -/
  discoveryId : Option String
  identityMismatch : Bool

structure Panels where
  entries : List Entry
  entities : List Entity
  /-- Deleted devices included. -/
  devices : String → Option Device
  coordinators : String → Option Coordinator
  /-- The entries with a live session. -/
  sessions : List String
  /-- The entries whose panel an operation has claimed. -/
  operations : List String
  /-- The entries with a Repair that asks for a confirmation. -/
  confirmations : List String
  /-- The entries with a Repair that reports another panel. -/
  mismatches : List String

/-- The identity that a native unique id begins with. -/
def nativeIdentity (uniqueId : String) : Option String :=
  match uniqueId.toList.drop 64 with
  | '_' :: c :: rest =>
    if repeats isHex 64 64 (uniqueId.toList.take 64) && !(c :: rest).contains '\n' then
      some (String.ofList (uniqueId.toList.take 64))
    else none
  | _ => none

namespace Entity

/-- A native entity of an entry, under one of its identities. -/
def belongs (item : Entity) (entryId own : String) : Bool :=
  item.entryId = entryId && item.native && (own ++ "_").toList.isPrefixOf item.uniqueId.toList

/-- The unique id after a rekey. -/
def target (item : Entity) (own did : String) : String :=
  did ++ String.ofList (item.uniqueId.toList.drop own.length)

def rekey (item : Entity) (entryId own did : String) : Entity :=
  if item.belongs entryId own then { item with uniqueId := item.target own did } else item

end Entity

/-- `migration_candidate` -/
def migrationCandidate (entry : Entry) (health : HealthLine.PanelHealth) : Bool :=
  !entry.installation && entry.uniqueId.isSome && health.installationIdentity &&
    health.discoveryId.isSome &&
    health.discoveryId ≠ entry.uniqueId && health.legacyDiscoveryId = entry.uniqueId

/-- `_accepted` -/
def Entry.accepted (entry : Entry) (health : HealthLine.PanelHealth) : Entry :=
  { entry with
    installation := entry.installation || health.installationIdentity
    legacyDid := health.legacyDiscoveryId.or entry.legacyDid }

namespace Panels

variable (s : Panels) (entry : Entry)

def update (entryId : String) (f : Entry → Entry) : Panels :=
  { s with entries := s.entries.map fun e => if e.entryId = entryId then f e else e }

def others : List Entry := s.entries.filter (·.entryId ≠ entry.entryId)

/-- `identity_available` -/
def identityAvailable (did : String) : Bool := !(s.others entry).any (·.uniqueId = some did)

/-- `_native_identities` -/
def nativeIdentities : List String :=
  ((s.entities.filter fun item => item.entryId = entry.entryId && item.native).filterMap
    fun item => nativeIdentity item.uniqueId).dedup

/-- `_link_holders` -/
def linkHolders (link : String) : List Entry := (s.others entry).filter (·.legacyDid = some link)

/-- `_linked_reinstall`, with the new identity and the link. -/
def linkedReinstall (health : HealthLine.PanelHealth) : Option (String × String) :=
  match health.discoveryId, health.legacyDiscoveryId with
  | some did, some link =>
    if entry.installation && entry.uniqueId.isSome && health.installationIdentity &&
      some did ≠ entry.uniqueId &&
        entry.legacyDid = some link && s.identityAvailable entry did then some (did, link)
    else none
  | _, _ => none

/-- `reinstalled`, with the new identity. -/
def reinstalled (health : HealthLine.PanelHealth) : Option String :=
  match s.linkedReinstall entry health with
  | some (did, link) => if (s.linkHolders entry link).isEmpty then some did else none
  | none => none

/-! ## Evidence of an earlier installation -/

/-- What `_prior_installation` asks of one device that was taken over. -/
def provesDevice (sha256 : String → String) (record : Cutover) (did deviceId : String) : Bool :=
  match s.devices deviceId with
  | none => false
  | some device =>
    let names := (device.identifiers.filter (·.1 = "mqtt")).map (·.2.toList)
    let uids := (names.filter ("ha-paneld-uid-".toList.isPrefixOf ·)).map (·.drop 14)
    let panelIds := names.filter fun name =>
      "ha-paneld-".toList.isPrefixOf name && !"ha-paneld-uid-".toList.isPrefixOf name &&
        !"ha-paneld-aid-".toList.isPrefixOf name
    (match uids.dedup with
      | [uid] =>
        repeats isHex 32 32 uid && sha256 ("panel-assistant-mdns-v1\x00" ++ String.ofList uid) = did
      | _ => false) &&
    panelIds.dedup = ["ha-paneld-".toList ++ record.panelId.toList] &&
    (s.others entry).all fun other =>
      !device.owners.contains other.entryId && !other.cutover.any fun record =>
        record.deviceIds.contains deviceId

/-- `_prior_installation` -/
def priorInstallation (sha256 : String → String) (did : String) : Bool :=
  !((s.others entry).any fun other => entry.uniqueId = other.uniqueId ||
    entry.uniqueId = other.previous) &&
    match entry.cutover with
    | none => false
    | some record =>
      record.did = entry.uniqueId && !record.deviceIds.isEmpty &&
        record.deviceIds.all (s.provesDevice entry sha256 record did)

/-! ## Rekeying -/

/-- No entity of another one has a unique id that a rekey needs. -/
def targetsFree (own did : String) : Bool :=
  s.entities.all fun item =>
    !item.belongs entry.entryId own ||
      !s.entities.any fun holder =>
        holder.native && holder.domain = item.domain && holder.uniqueId = item.target own did &&
          holder.entityId ≠ item.entityId

/-- What both ways to a new identity check. -/
def movable (own did : String) : Bool :=
  s.identityAvailable entry did && (s.nativeIdentities entry).all (fun x => x = own || x = did) &&
    s.targetsFree entry own did

/-- `_commit_identity` -/
def commitIdentity (own did : String) : Panels :=
  { s.update entry.entryId fun e =>
      { e with
        uniqueId := some did
        installation := true
        previous := some own
        pending := none
        cutover := e.cutover.map fun record =>
          if record.did = some own then { record with did := some did } else record }
    with
    entities := s.entities.map (·.rekey entry.entryId own did)
    sessions := s.sessions.filter (· ≠ entry.entryId)
    confirmations := s.confirmations.filter (· ≠ entry.entryId)
    mismatches := s.mismatches.filter (· ≠ entry.entryId) }

/-- `can_confirm_identity`, with the identities before and after. -/
def canConfirmIdentity (health : HealthLine.PanelHealth) : Option (String × String) :=
  match entry.uniqueId, health.discoveryId with
  | some own, some did =>
    if migrationCandidate entry health && entry.pending.all (· = ⟨did, own, entry.address⟩) &&
        s.movable entry own did then some (own, did)
    else none
  | _, _ => none

/-- `confirm_identity` -/
def confirmIdentity (health : HealthLine.PanelHealth) : Panels × Bool :=
  match s.canConfirmIdentity entry health with
  | some (own, did) => (s.commitIdentity entry own did, true)
  | none => (s, false)

/-- `adopt_moved_identity` -/
def adoptMovedIdentity (did : String) : Panels × Bool :=
  match entry.uniqueId with
  | none => (s, false)
  | some own =>
    if HealthLine.isValidDiscoveryId did.toList && did ≠ own && s.movable entry own did then
      (s.commitIdentity entry own did, true)
    else (s, false)

/-- The registry is ahead of the entry, whose save was lost. -/
def ahead : Option (String × String) :=
  match entry.uniqueId, s.nativeIdentities entry with
  | some own, [ahead] =>
    if entry.installation && ahead ≠ own && some ahead ≠ entry.previous &&
      s.identityAvailable entry ahead then
      some (own, ahead)
    else none
  | _, _ => none

/-- `reconcile_identity` -/
def reconcileIdentity : Panels × Bool :=
  match s.ahead entry with
  | some (own, did) => (s.commitIdentity entry own did, true)
  | none =>
    match entry.previous, entry.installation with
    | some previous, true =>
      match entry.uniqueId with
      | none => (s, false)
      | some did =>
        if s.movable entry previous did then
          ({ s with entities := s.entities.map (·.rekey entry.entryId previous did) }, true)
        else (s, false)
    | _, _ => (s, (s.nativeIdentities entry).all fun x => some x = entry.uniqueId)

/-! ## Admission -/

/-- `_withdraw_authority` -/
def withdrawAuthority : Panels :=
  { s with
    coordinators := fun entryId =>
      if entryId = entry.entryId then
        (s.coordinators entryId).map fun c =>
          { c with lastUpdateSuccess := false, identityMismatch := true }
      else s.coordinators entryId
    sessions := s.sessions.filter (· ≠ entry.entryId) }

/-- `_reject_health` -/
def rejectHealth : Panels × Bool :=
  if s.confirmations.contains entry.entryId then (s.withdrawAuthority entry, false)
  else ({ s.withdrawAuthority entry with mismatches := entry.entryId :: s.mismatches }, false)

/-- `_answers_as_itself` -/
def answersAsItself (other : Entry) : Bool :=
  (s.coordinators other.entryId).any fun c =>
    c.connected || (c.lastUpdateSuccess && c.discoveryId = other.uniqueId)

/-- `_claim_link` of an entry with this link. -/
def claimLink (link : Option String) : Panels :=
  match link with
  | none => s
  | some link =>
    { s with
      entries := s.entries.map fun other =>
        if other.entryId ≠ entry.entryId && other.legacyDid = some link &&
          !s.answersAsItself other then
          { other with legacyDid := none }
        else other }

/-- `_adopt_reinstalled` -/
def adoptReinstalled (did : String) : Panels × Bool :=
  if s.operations.contains entry.entryId then (s.withdrawAuthority entry, false)
  else
    match s.adoptMovedIdentity entry did with
    | (moved, true) => (moved, true)
    | (_, false) => s.rejectHealth entry

/-- `accept_health` of an entry that has an identity and no rekey on its way, for another
identity. -/
def acceptOther (sha256 : String → String) (health : HealthLine.PanelHealth) : Panels × Bool :=
  match health.discoveryId with
  | none => s.rejectHealth entry
  | some did =>
    if migrationCandidate entry health then
      if s.priorInstallation entry sha256 did && (s.canConfirmIdentity entry health).isSome then
        s.confirmIdentity entry health
      else { s with confirmations := entry.entryId :: s.confirmations }.rejectHealth entry
    else
      match s.reinstalled entry health with
      | some did => s.adoptReinstalled entry did
      | none => s.rejectHealth entry

/-- `accept_health` after an identity was restored. -/
def acceptKnown (sha256 : String → String) (health : HealthLine.PanelHealth) : Panels × Bool :=
  match entry.pending with
  | some pending =>
    if health.discoveryId = some pending.did && health.legacyDiscoveryId = some pending.legacyDid &&
        pending.address = entry.address && (s.canConfirmIdentity entry health).isSome then
      s.confirmIdentity entry health
    else s.rejectHealth entry
  | none =>
    match entry.uniqueId, health.discoveryId with
    | none, none => (s, true)
    | none, some did =>
      if s.identityAvailable entry did then
        ((s.update entry.entryId fun e =>
          { e.accepted health with uniqueId := some did }).claimLink entry
          (entry.accepted health).legacyDid, true)
      else s.rejectHealth entry
    | some own, did =>
      if did = some own then
        ({ s.update entry.entryId (·.accepted health) with
            mismatches := s.mismatches.filter (· ≠ entry.entryId) }.claimLink entry
          (entry.accepted health).legacyDid, true)
      else s.acceptOther entry sha256 health

/-- The identities that the records of an entry without one name. -/
def recordedIdentities : List String :=
  match entry.cutover.bind (·.did) with
  | some old =>
    if HealthLine.isValidDiscoveryId old.toList then (old :: s.nativeIdentities entry).dedup
    else s.nativeIdentities entry
  | none => s.nativeIdentities entry

/-- `accept_health` -/
def acceptHealth (sha256 : String → String) (health : HealthLine.PanelHealth) : Panels × Bool :=
  match entry.uniqueId, s.recordedIdentities entry with
  | some _, _ => s.acceptKnown entry sha256 health
  | none, [] => s.acceptKnown entry sha256 health
  | none, [did] =>
    (s.update entry.entryId fun e => { e with uniqueId := some did }).acceptKnown
      { entry with uniqueId := some did }
      sha256 health
  | none, _ :: _ :: _ => s.rejectHealth entry

end Panels

end PanelAssistant.Identity
