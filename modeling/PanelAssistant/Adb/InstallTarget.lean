import PanelAssistant.Adb.ProbeSegments
import PanelAssistant.Library.Coop

/-!
# Probing an install target

`async_probe_install_target` of `provisioning.py`. What the panel answers, and how a call to it
fails, is up to the device. The results of the two parsers are characterised first: a result is read
off one frame, and what stands in the segment of one id does not reach the answer of another one.
-/

namespace PanelAssistant.Adb

open Library Library.Text Library.Lines Library.Coop

/-! ## The probe -/

/-- `InstallTargetState` -/
inductive InstallTargetState where
  | adbUnreachable
  | adbUnauthorized
  | incompatible
  | installCandidate
  | installed
  | migrationCandidate
  | retainedOrAmbiguous
  deriving DecidableEq

/-- How the probe fails. -/
inductive ProbeFailure where
  /-- `DeviceAuthError` -/
  | deviceAuth
  /-- `_MalformedProbeResponse`, `_MalformedAdbResponse` and `_UnsafeAdbPacket` -/
  | malformed
  /-- The errors of the connection. -/
  | connection
  /-- What the probe does not handle. -/
  | other
  deriving DecidableEq

inductive ProbeCall where
  | connect
  | tokenHex
  | shell (command : String)
  | close

/-- What the device answers: to `connect`, whether it asked for a key and how that ended; to
`shell`, the chunks, `none` for one that is no `bytes`, and how the stream failed if it did. -/
def ProbeCall.Reply : ProbeCall → Type
  | .connect => Bool × Except ProbeFailure Bool
  | .tokenHex => Word
  | .shell _ => List (Option ByteArray) × Option ProbeFailure
  | .close => Unit

abbrev ProbeProgram : Type → Type := Coop ProbeCall ProbeCall.Reply ProbeFailure

def ask (c : ProbeCall) : ProbeProgram c.Reply := call c

def returning {α : Type} (o : Except ProbeFailure α) : ProbeProgram α := Coop.ofExcept o

/-- `_MAX_SHELL_RESPONSE_BYTES` of `provisioning.py` -/
def maxProbeBytes : ℕ := 16 * 1024

/-- `_MIN_ANDROID_SDK` -/
def minAndroidSdk : ℕ := 26

/-- `_SUPPORTED_PRIMARY_ABIS` -/
def supportedPrimaryAbis : List String := ["arm64-v8a", "armeabi-v7a"]

def idLabel : Word := ⟨"ID", by decide⟩

/-- `_package_presence_command`, or `_retained_package_data_command` -/
def probeCommand (label : Word) (observe : String → String) (nonce : Word) : String :=
  "echo " ++ probeBegin label nonce ++ "; " ++
    String.join (probedPackageIds.zipIdx.map fun (id, index) =>
      observe id ++ "; echo " ++ statusMarker (targetLabel label index) nonce "$?" ++ "; ") ++
    "pm path android; echo " ++ statusMarker (liveLabel label) nonce "$?" ++ "; echo " ++
    probeEnd label nonce

def packagePresenceCommand : Word → String := probeCommand pkgLabel fun id => "pm path " ++ id

def retainedPackageDataCommand : Word → String :=
  probeCommand dataLabel fun id => "pm list packages -u " ++ id

/-- `_property_sections` -/
def propertySections : List (Word × String) :=
  [(modelName, "ro.product.model"), (serialName, "ro.serialno"), (abiName, "ro.product.cpu.abi"),
    (sdkName, "ro.build.version.sdk")]

/-- `_framed_value_commands` -/
def framedValueCommands (label nonce : Word) : List String :=
  ("echo " ++ beginLine label nonce) ::
    (propertySections.flatMap fun (name, property) =>
      ["echo " ++ beginLine (label.section name) nonce, "getprop " ++ property,
        "echo " ++ statusLine (label.section name) nonce "$?"]) ++
    ["echo " ++ endLine label nonce]

/-- The chunks that a shell observation takes in. -/
def collect (ended : Option ProbeFailure) : List (Option ByteArray) → ByteArray →
    Except ProbeFailure ByteArray
  | [], body =>
    match ended with
    | none => .ok body
    | some e => .error e
  | none :: _, _ => .error .malformed
  | some chunk :: chunks, body =>
    if maxProbeBytes < body.size + chunk.size then .error .malformed
    else collect ended chunks (body ++ chunk)

/-- The text of a shell observation. -/
def shellText (reply : List (Option ByteArray) × Option ProbeFailure) :
    Except ProbeFailure String := do
  let body ← collect reply.2 reply.1 ByteArray.empty
  if h : body.IsValidUTF8 then .ok (String.ofByteArray body h) else .error .malformed

/-- `_async_bounded_shell` -/
def asyncBoundedShell (command : String) : ProbeProgram String := do
  let reply : List (Option ByteArray) × Option ProbeFailure ← ask (.shell command)
  returning (shellText reply)

/-- What the probe makes of an exception of the parsers it shares with the installer. -/
def ProbeFailure.ofFailure : Failure → ProbeFailure
  | .malformed => .malformed
  | _ => .other

/-- `_async_target_facts` -/
def asyncTargetFacts (P : Platform) : ProbeProgram ObservedTarget := do
  let nonce : Word ← ask .tokenHex
  let output ← asyncBoundedShell ("; ".intercalate (framedValueCommands idLabel nonce))
  returning ((parseIdentity P output.toByteArray nonce idLabel).mapError .ofFailure)

/-- `presence[package_id]` -/
def presenceItem (presence : Dict String PackagePresence) (id : String) :
    Except ProbeFailure PackagePresence :=
  match presence.get? id with
  | some value => .ok value
  | none => .error .other

/-- The state of a panel that the facts may show incompatible. -/
def compatibleState (facts : ObservedTarget) (state : InstallTargetState) : InstallTargetState :=
  if facts.androidSdk < minAndroidSdk ∨ facts.primaryAbi ∉ supportedPrimaryAbis then .incompatible
  else state

/-- The last branch of the classification, where both app ids are absent. -/
def classifyAbsent (P : Platform) : ProbeProgram (InstallTargetState × Option ObservedTarget) := do
  let nonce : Word ← ask .tokenHex
  let output ← asyncBoundedShell (retainedPackageDataCommand nonce)
  match parseRetainedPackageData output nonce with
  | none => pure (.retainedOrAmbiguous, none)
  | some retained =>
    if retained.values.all (· = .absent) then do
      let facts ← asyncTargetFacts P
      pure (compatibleState facts .installCandidate, some facts)
    else pure (.retainedOrAmbiguous, none)

/-- The classification of a connected panel. -/
def classifyTarget (P : Platform) : ProbeProgram (InstallTargetState × Option ObservedTarget) := do
  let nonce : Word ← ask .tokenHex
  let output ← asyncBoundedShell (packagePresenceCommand nonce)
  match parsePackagePresence output nonce with
  -- an unreadable frame is never admission
  | none => pure (.retainedOrAmbiguous, none)
  | some presence => do
    let current ← returning (presenceItem presence packageId)
    if current = .present then do
      let facts ← asyncTargetFacts P
      pure (.installed, some facts)
    else do
      let legacy ← returning (presenceItem presence legacyPackageId)
      if legacy = .present then do
        let facts ← asyncTargetFacts P
        pure (compatibleState facts .migrationCandidate, some facts)
      else classifyAbsent P

/-- `InstallTargetProbe` -/
structure InstallTargetProbe where
  state : InstallTargetState
  model : Option String
  serial : Option String
  primaryAbi : Option String
  androidSdk : Option ℕ

def InstallTargetProbe.of (state : InstallTargetState) (facts : Option ObservedTarget) :
    InstallTargetProbe where
  state := state
  model := facts.map (·.model)
  serial := facts.map (·.serial)
  primaryAbi := facts.map (·.primaryAbi)
  androidSdk := facts.map (·.androidSdk)

/-- What `connect` comes to: without `authorize` a key that is asked for is refused. -/
def connectOutcome (authorize : Bool) (reply : Bool × Except ProbeFailure Bool) :
    Except ProbeFailure Bool :=
  if reply.1 && !authorize then .error .deviceAuth else reply.2

/-- What a failure of the probe says of the panel. -/
def failedState (offered connected : Bool) : ProbeFailure → Except ProbeFailure InstallTargetState
  | .deviceAuth => .ok .adbUnauthorized
  | .malformed => .ok .retainedOrAmbiguous
  -- a key that was offered and not accepted is a missing Allow
  | .connection => .ok (if offered && !connected then .adbUnauthorized else .adbUnreachable)
  | .other => .error .other

/-- `async_probe_install_target` -/
def asyncProbeInstallTarget (P : Platform) (authorize : Bool) :
    ProbeProgram InstallTargetProbe := do
  let reply : Bool × Except ProbeFailure Bool ← ask .connect
  let outcome ← attempt do
    let connected ← returning (connectOutcome authorize reply)
    if connected then classifyTarget P else pure (.adbUnreachable, none)
  let _ : Unit ← ask .close
  match outcome with
  | .ok (state, facts) => pure (.of state facts)
  | .error e => do
    let state ← returning
      (failedState (reply.1 && authorize) (connectOutcome authorize reply matches .ok true) e)
    pure (.of state none)

/-! ## Results of the parsers -/

section

variable {nonce : Word} {output : String} {w : Walk}

theorem presenceOf_of_holds {targets : List Segment} (h : Holds w targets) {i : ℕ} {seg : Segment}
    (hseg : targets[i]? = some seg) :
    presenceOf w i = if seg.ProvesPresence then some seg.presence else none := by
  obtain ⟨hstatus, htarget⟩ := h i seg hseg
  unfold presenceOf Segment.ProvesPresence Segment.presence
  rw [hstatus, htarget]
  by_cases hnil : seg.lines = []
  · have hempty : (!seg.lines.isEmpty) = false := by rw [hnil]; rfl
    simp only [hempty, Bool.false_eq_true, if_false, if_pos hnil, List.mem_cons, Option.some.injEq,
      List.not_mem_nil, or_false]
    exact if_congr (by omega) rfl rfl
  · have hsome : (!seg.lines.isEmpty) = true := by rw [List.isEmpty_eq_false_iff.mpr hnil]; rfl
    simp only [hsome, if_true, if_neg hnil, ne_eq, Option.some.injEq, ite_not]

theorem parsePackagePresence_walk {presence : Dict String PackagePresence} :
    parsePackagePresence output nonce = some presence ↔
      ∃ w, Proves presenceReader nonce output w ∧ ∃ entries,
        (probedPackageIds.zipIdx.mapM fun e => (presenceOf w e.2).map fun value => (e.1, value)) =
          some entries ∧ Dict.ofList entries = presence := by
  unfold parsePackagePresence
  simp only [Option.bind_eq_bind, Option.bind_eq_some_iff]
  refine exists_congr fun w => ?_
  change Reader.walk presenceReader nonce Walk.initial (outputLines output) = some w ∧ _ ↔ _
  rw [Proves, Reader.Finishes, and_assoc, and_assoc]
  refine and_congr_right fun _ => ?_
  split
  · rename_i hnone
    refine iff_of_false (by simp) ?_
    rintro ⟨hsegment, ⟨hstatus, hpath⟩, -⟩
    rcases hnone with hnone | hnone | hnone
    · exact hnone hsegment
    · exact hnone hstatus
    · rw [hnone] at hpath
      cases hpath
  · rename_i hsome
    simp only [not_or, not_not, Bool.not_eq_false] at hsome
    simp only [hsome, true_and, Option.bind_eq_some_iff, Option.some.injEq]

/-- A presence result is what one frame proves. -/
theorem parsePackagePresence_eq_some {presence : Dict String PackagePresence} :
    parsePackagePresence output nonce = some presence ↔ ∃ targets live,
      Framed presenceReader nonce output targets live ∧ (∀ seg ∈ targets, seg.ProvesPresence) ∧
        presence = Dict.ofList (probedPackageIds.zip (targets.map Segment.presence)) := by
  rw [parsePackagePresence_walk]
  constructor
  · rintro ⟨w, hproves, entries, hentries, rfl⟩
    obtain ⟨targets, live, hframed, rfl⟩ := framed_of_proves hproves
    obtain ⟨values, hlength, hvalues, rfl⟩ := mapM_zipIdx.mp hentries
    have hholds := holds_ofFrame live hframed.length
    have hlengths : values.length = targets.length := hlength.trans hframed.length.symm
    have hproved : ∀ (i : ℕ) (seg : Segment) (value : PackagePresence), targets[i]? = some seg →
      values[i]? = some value →
        seg.ProvesPresence ∧ value = seg.presence := by
      intro i seg value hseg hvalue
      have hget := hvalues i value hvalue
      rw [Nat.zero_add, presenceOf_of_holds hholds hseg] at hget
      split at hget
      · rename_i hproves
        exact ⟨hproves, (Option.some.inj hget).symm⟩
      · cases hget
    refine ⟨targets, live, hframed, ?_, ?_⟩
    · intro seg hseg
      obtain ⟨i, hi⟩ := List.mem_iff_getElem?.mp hseg
      have hlt := (List.getElem?_eq_some_iff.mp hi).1
      exact (hproved i seg _ hi (List.getElem?_eq_getElem (hlengths ▸ hlt))).1
    · have heq : values = targets.map Segment.presence := by
        refine List.ext_getElem (by rw [List.length_map, hlengths]) fun i hi hi' => ?_
        rw [List.length_map] at hi'
        rw [List.getElem_map]
        exact (hproved i _ _ (List.getElem?_eq_getElem hi') (List.getElem?_eq_getElem hi)).2
      rw [heq]
  · rintro ⟨targets, live, hframed, hproves, rfl⟩
    refine ⟨_, proves_of_framed hframed, _,
      mapM_zipIdx.mpr ⟨targets.map Segment.presence, ?_, ?_, rfl⟩, rfl⟩
    · rw [List.length_map, hframed.length]
      rfl
    · intro i value hvalue
      obtain ⟨seg, hseg, rfl⟩ := Option.map_eq_some_iff.mp (List.getElem?_map ▸ hvalue)
      rw [Nat.zero_add, presenceOf_of_holds (holds_ofFrame _ hframed.length) hseg,
        if_pos (hproves seg (List.mem_of_getElem? hseg))]

/-- A frame with a segment that proves nothing has no result. -/
theorem parsePackagePresence_eq_none {targets : List Segment} {live : Segment}
    (h : Framed presenceReader nonce output targets live) {seg : Segment} (hseg : seg ∈ targets)
    (hnot : ¬seg.ProvesPresence) : parsePackagePresence output nonce = none := by
  cases hparse : parsePackagePresence output nonce with
  | none => rfl
  | some presence =>
    obtain ⟨w, hproves, entries, hentries, -⟩ := parsePackagePresence_walk.mp hparse
    obtain rfl := Option.some.inj (hproves.1.1.symm.trans (proves_of_framed h).1.1)
    obtain ⟨values, hlength, hvalues, -⟩ := mapM_zipIdx.mp hentries
    obtain ⟨i, hi⟩ := List.mem_iff_getElem?.mp hseg
    have hlt : i < values.length := by
      have hlt := (List.getElem?_eq_some_iff.mp hi).1
      rw [h.length] at hlt
      rw [hlength]
      exact hlt
    have hget := hvalues i _ (List.getElem?_eq_getElem hlt)
    rw [Nat.zero_add, presenceOf_of_holds (holds_ofFrame live h.length) hi, if_neg hnot] at hget
    cases hget

/-- The lines of an output that was written line by line. -/
theorem outputLines_terminate {lines : List String} (h : ∀ line ∈ lines, Unbroken line.toList) :
    outputLines (String.ofList (terminate (lines.map String.toList))) = lines := by
  have hreturn : ∀ c ∈ terminate (lines.map String.toList), (c != '\r') = true := by
    intro c hc
    rw [terminate, List.mem_flatMap] at hc
    obtain ⟨cs, hcs, hc⟩ := hc
    obtain ⟨line, hline, rfl⟩ := List.mem_map.mp hcs
    rcases List.mem_append.mp hc with hc | hc
    · have hbreak := h line hline c hc
      rw [bne_iff_ne]
      rintro rfl
      cases hbreak
    · rw [List.mem_singleton.mp hc]
      rfl
  rw [outputLines, String.toList_ofList, List.filter_eq_self.mpr hreturn, splitLines_terminate,
    List.map_map]
  · conv_rhs => rw [← List.map_id lines]
    exact List.map_congr_left fun line _ => String.ofList_toList
  · intro cs hcs
    obtain ⟨line, hline, rfl⟩ := List.mem_map.mp hcs
    exact h line hline

/-- What the walk of `_parse_retained_package_data` found of one id. -/
def retainedOf (w : Walk) (index : ℕ) : RetainedPackageData :=
  if w.target index then .retained else .absent

theorem parseRetainedPackageData_walk {retained : Dict String RetainedPackageData} :
    parseRetainedPackageData output nonce = some retained ↔
      ∃ w, Proves retainedReader nonce output w ∧ (∀ i < count, w.targetStatus i = some 0) ∧
        Dict.ofList (probedPackageIds.zipIdx.map fun e => (e.1, retainedOf w e.2)) = retained := by
  unfold parseRetainedPackageData
  simp only [Option.bind_eq_bind, Option.bind_eq_some_iff]
  refine exists_congr fun w => ?_
  change Reader.walk retainedReader nonce Walk.initial (outputLines output) = some w ∧ _ ↔ _
  rw [Proves, Reader.Finishes, and_assoc, and_assoc]
  refine and_congr_right fun _ => ?_
  have hstatuses : ((List.range count).any fun index => w.targetStatus index != some 0) = true ↔
      ¬ ∀ i < count, w.targetStatus i = some 0 := by
    simp only [List.any_eq_true, List.mem_range, bne_iff_ne, ne_eq, not_forall, exists_prop]
  split
  · rename_i hnone
    refine iff_of_false (by simp) ?_
    rintro ⟨hsegment, ⟨hstatus, hpath⟩, hzero, -⟩
    rcases hnone with hnone | hnone | hnone | hnone
    · exact hnone hsegment
    · exact hnone hstatus
    · rw [hnone] at hpath
      cases hpath
    · exact hstatuses.mp hnone hzero
  · rename_i hsome
    simp only [not_or, not_not, Bool.not_eq_false, hstatuses] at hsome
    obtain ⟨hsegment, hstatus, hpath, hzero⟩ := hsome
    simp only [hsegment, hstatus, hpath, true_and, Option.some.injEq]
    exact ⟨fun h => ⟨hzero, h⟩, fun h => h.2⟩

theorem map_zipIdx {α : Type} (f : ℕ → α) {ids : List String} {values : List α} {k : ℕ}
    (hlength : values.length = ids.length)
    (h : ∀ i value, values[i]? = some value → f (k + i) = value) :
    ((ids.zipIdx k).map fun e => (e.1, f e.2)) = ids.zip values := by
  induction ids generalizing values k with
  | nil => rfl
  | cons id ids ih =>
    cases values with
    | nil => cases hlength
    | cons value values =>
      rw [List.zipIdx_cons, List.map_cons, List.zip_cons_cons,
        ih (Nat.succ.inj hlength), ← h 0 value rfl]
      · rfl
      · intro i value' hvalue'
        rw [show k + 1 + i = k + (i + 1) by omega]
        exact h (i + 1) value' hvalue'

theorem retained_of_holds {targets : List Segment} (hlength : targets.length = count)
    (h : Holds w targets) :
    (probedPackageIds.zipIdx.map fun e => (e.1, retainedOf w e.2)) =
      probedPackageIds.zip (targets.map Segment.retained) := by
  refine map_zipIdx (retainedOf w) (by rw [List.length_map, hlength]; rfl) fun i value hvalue => ?_
  obtain ⟨seg, hseg, rfl⟩ := Option.map_eq_some_iff.mp (List.getElem?_map ▸ hvalue)
  rw [Nat.zero_add, retainedOf, Segment.retained, (h i seg hseg).2]
  by_cases hnil : seg.lines = []
  · rw [if_pos hnil, hnil]
    rfl
  · rw [if_neg hnil, List.isEmpty_eq_false_iff.mpr hnil]
    rfl

/-- A retained-data result is what one frame proves. -/
theorem parseRetainedPackageData_eq_some {retained : Dict String RetainedPackageData} :
    parseRetainedPackageData output nonce = some retained ↔ ∃ targets live,
      Framed retainedReader nonce output targets live ∧ (∀ seg ∈ targets, seg.status.value = 0) ∧
        retained = Dict.ofList (probedPackageIds.zip (targets.map Segment.retained)) := by
  rw [parseRetainedPackageData_walk]
  constructor
  · rintro ⟨w, hproves, hzero, rfl⟩
    obtain ⟨targets, live, hframed, rfl⟩ := framed_of_proves hproves
    have hholds := holds_ofFrame live hframed.length
    refine ⟨targets, live, hframed,
      fun seg hseg => ?_, by rw [retained_of_holds hframed.length hholds]⟩
    obtain ⟨i, hi⟩ := List.mem_iff_getElem?.mp hseg
    have hlt : i < count := hframed.length ▸ (List.getElem?_eq_some_iff.mp hi).1
    exact Option.some.inj ((hholds i seg hi).1.symm.trans (hzero i hlt))
  · rintro ⟨targets, live, hframed, hzero, rfl⟩
    have hholds := holds_ofFrame live hframed.length
    refine ⟨_, proves_of_framed hframed,
      fun i hi => ?_, by rw [retained_of_holds hframed.length hholds]⟩
    have hseg := List.getElem?_eq_getElem (show i < targets.length by rw [hframed.length]; exact hi)
    rw [(hholds i _ hseg).1, hzero _ (List.mem_of_getElem? hseg)]

end

/-! ## One segment replaced -/

/-- In an output of three texts, the one in the middle stands in segment `i` and has no line with
the nonce. -/
structure Within (R : Reader) (nonce : Word) (i : ℕ) (before inside after : String)
    (rest : List String) : Prop where
  opened : ∃ lines opener, outputLines before = lines ++ [opener] ∧ Reader.Opens R nonce i opener
  ended : ∃ cs, before.toList = cs ++ ['\n']
  plain : ∀ line ∈ outputLines inside, ¬ Reader.Carries nonce line
  closed : ∃ status, outputLines after = R.marker nonce i status :: rest

section

variable {R : Reader} {nonce : Word} {i : ℕ} {before inside inside' after after' : String}
  {rest : List String}

/-- The lines of such an output: the last line in the middle may be glued to the marker. -/
theorem Within.lines (h : Within R nonce i before inside after rest) :
    ∃ lines opener inner tail status, outputLines before = lines ++ [opener] ∧
      Reader.Opens R nonce i opener ∧ (∀ line ∈ inner, ¬ Reader.Carries nonce line) ∧
      outputLines (before ++ inside ++ after) = lines ++ [opener] ++ inner ++
        String.ofList (tail ++ (R.marker nonce i status).toList) :: rest := by
  obtain ⟨lines, opener, hbefore, hopens⟩ := h.opened
  obtain ⟨cs, hcs⟩ := h.ended
  obtain ⟨status, hafter⟩ := h.closed
  have hreturn : ∀ cs : List Char, '\r' ∉ cs.filter (· != '\r') := by
    intro cs hmem
    simpa using (List.mem_filter.mp hmem).2
  have hnewline : (cs ++ ['\n']).filter (· != '\r') = cs.filter (· != '\r') ++ ['\n'] := by
    rw [List.filter_append]
    rfl
  obtain ⟨inner, tail, hinner⟩ := exists_splitLines_append (hreturn inside.toList)
  rw [outputLines, hcs, hnewline] at hbefore
  refine ⟨lines, opener, inner.map String.ofList, tail,
    status, by rw [outputLines, hcs, hnewline, hbefore], hopens, ?_, ?_⟩
  · intro line hline
    refine h.plain line ?_
    have hinside := hinner []
    rw [List.append_nil] at hinside
    rw [outputLines, hinside, List.map_append]
    exact List.mem_append_left _ hline
  · have hsplit : splitLines (after.toList.filter (· != '\r')) =
        (R.marker nonce i status).toList :: rest.map String.toList := by
      have htexts := congrArg (List.map String.toList) hafter
      rw [outputLines, List.map_map, List.map_cons] at htexts
      rw [← htexts]
      conv_lhs => rw [← List.map_id (splitLines _)]
      exact List.map_congr_left fun line _ => String.toList_ofList.symm
    have hrest : (rest.map String.toList).map String.ofList = rest := by
      rw [List.map_map]
      conv_rhs => rw [← List.map_id rest]
      exact List.map_congr_left fun line _ => String.ofList_toList
    rw [outputLines, String.toList_append, String.toList_append, hcs, List.filter_append,
      List.filter_append, hnewline, List.append_assoc, List.append_assoc, List.singleton_append,
      splitLines_append_newline (hreturn cs), List.map_append, hbefore, hinner, hsplit, glue,
      List.map_append, List.map_cons, hrest]
    simp only [List.append_assoc]

/-- Walks over two outputs that differ in segment `i` only hold the same of the other segments. -/
theorem agree_of_within (hi : i ≤ count) (h : Within R nonce i before inside after rest)
    (h' : Within R nonce i before inside' after' rest) {f f' : Walk}
    (hproves : Proves R nonce (before ++ inside ++ after) f)
    (hproves' : Proves R nonce (before ++ inside' ++ after') f') : Reader.Agree i f f' := by
  obtain ⟨lines, opener, inner, tail, status, hbefore, hopens, hinner, hlines⟩ := h.lines
  obtain ⟨lines', opener', inner', tail', status', hbefore', -, hinner', hlines'⟩ := h'.lines
  obtain ⟨rfl, hopener⟩ := List.append_inj' (hbefore.symm.trans hbefore') rfl
  obtain rfl := List.head_eq_of_cons_eq hopener
  have hfinishes := hproves.1
  have hfinishes' := hproves'.1
  rw [hlines] at hfinishes
  rw [hlines'] at hfinishes'
  exact Reader.agree_replaced hi hopens hinner hinner' hfinishes hfinishes'

theorem mem_targets {j : ℕ} {id : String} (hid : probedPackageIds[j]? = some id) : j < count :=
  (List.getElem?_eq_some_iff.mp hid).1

/-- What a walk holds of an id is what the result says of it. -/
theorem get?_presence {w : Walk} {entries : List (String × PackagePresence)}
    (h : (probedPackageIds.zipIdx.mapM fun e => (presenceOf w e.2).map fun value => (e.1, value)) =
      some entries) {j : ℕ} {id : String} (hid : probedPackageIds[j]? = some id) :
    (Dict.ofList entries).get? id = presenceOf w j := by
  obtain ⟨values, hlength, hvalues, rfl⟩ := mapM_zipIdx.mp h
  have hvalue :=
    List.getElem?_eq_getElem (show j < values.length by rw [hlength]; exact mem_targets hid)
  rw [(get?_answers hlength).mpr ⟨j, hid, hvalue⟩, ← hvalues j _ hvalue, Nat.zero_add]

theorem get?_retained (w : Walk) {j : ℕ} {id : String} (hid : probedPackageIds[j]? = some id) :
    (Dict.ofList (probedPackageIds.zipIdx.map fun e => (e.1, retainedOf w e.2))).get? id =
      some (retainedOf w j) := by
  have hzip : (probedPackageIds.zipIdx.map fun e => (e.1, retainedOf w e.2)) =
      probedPackageIds.zip ((List.range count).map (retainedOf w)) := by
    refine map_zipIdx (retainedOf w) (by rw [List.length_map, List.length_range]; rfl)
      fun i value hvalue => ?_
    obtain ⟨index, hindex, rfl⟩ := Option.map_eq_some_iff.mp (List.getElem?_map ▸ hvalue)
    obtain ⟨hlt, rfl⟩ := List.getElem?_eq_some_iff.mp hindex
    rw [List.getElem_range, Nat.zero_add]
  rw [hzip]
  refine (get?_answers (by rw [List.length_map, List.length_range]; rfl)).mpr ⟨j, hid, ?_⟩
  rw [List.getElem?_map, List.getElem?_range (mem_targets hid)]
  rfl

/-- The answer of another id does not depend on what stands in segment `i`. -/
theorem presence_replaced (hi : i < count)
    (h : Within presenceReader nonce i before inside after rest)
    (h' : Within presenceReader nonce i before inside' after' rest)
    {presence presence' : Dict String PackagePresence}
    (hparse : parsePackagePresence (before ++ inside ++ after) nonce = some presence)
    (hparse' : parsePackagePresence (before ++ inside' ++ after') nonce = some presence')
    {j : ℕ} (hne : j ≠ i) {id : String} (hid : probedPackageIds[j]? = some id) :
    presence.get? id = presence'.get? id := by
  obtain ⟨w, hproves, entries, hentries, rfl⟩ := parsePackagePresence_walk.mp hparse
  obtain ⟨w', hproves', entries', hentries', rfl⟩ := parsePackagePresence_walk.mp hparse'
  have hj := mem_targets hid
  obtain ⟨hstatus, hseen⟩ := (agree_of_within hi.le h h' hproves hproves').others j hj.le hne
  rw [Walk.status, Walk.status, if_pos hj, if_pos hj] at hstatus
  rw [Walk.seen, Walk.seen, if_pos hj, if_pos hj] at hseen
  rw [get?_presence hentries hid, get?_presence hentries' hid, presenceOf,
    presenceOf, hstatus, hseen]

theorem retained_replaced (hi : i < count)
    (h : Within retainedReader nonce i before inside after rest)
    (h' : Within retainedReader nonce i before inside' after' rest)
    {retained retained' : Dict String RetainedPackageData}
    (hparse : parseRetainedPackageData (before ++ inside ++ after) nonce = some retained)
    (hparse' : parseRetainedPackageData (before ++ inside' ++ after') nonce = some retained')
    {j : ℕ} (hne : j ≠ i) {id : String} (hid : probedPackageIds[j]? = some id) :
    retained.get? id = retained'.get? id := by
  obtain ⟨w, hproves, -, rfl⟩ := parseRetainedPackageData_walk.mp hparse
  obtain ⟨w', hproves', -, rfl⟩ := parseRetainedPackageData_walk.mp hparse'
  have hj := mem_targets hid
  have hseen := ((agree_of_within hi.le h h' hproves hproves').others j hj.le hne).2
  rw [Walk.seen, Walk.seen, if_pos hj, if_pos hj] at hseen
  rw [get?_retained w hid, get?_retained w' hid, retainedOf, retainedOf, hseen]

end

/-! ## Install candidates -/

section

variable {σ : Type} {step : σ → (c : ProbeCall) → c.Reply → σ → Prop} {s s' : σ}
  {trace : List ((c : ProbeCall) × c.Reply)} {P : Platform}

/-- A shell observation was made, and answered with this text. -/
def Observed (trace : List ((c : ProbeCall) × c.Reply)) (command output : String) : Prop :=
  ∃ reply, ⟨.shell command, reply⟩ ∈ trace ∧ shellText reply = .ok output

theorem Observed.mono {trace' : List ((c : ProbeCall) × c.Reply)} {command output : String}
    (h : Observed trace command output) (hsub : trace ⊆ trace') :
    Observed trace' command output := by
  obtain ⟨reply, hmem, htext⟩ := h
  exact ⟨reply, hsub hmem, htext⟩

theorem observed_of_exec {command output : String}
    (h : Exec step (asyncBoundedShell command) s trace (.ok output) s') :
    Observed trace command output := by
  obtain ⟨reply, trace₁, trace₂, s₁, rfl, hcall, htext⟩ := exec_bind_ok h
  obtain ⟨hok, rfl⟩ := exec_ofExcept htext
  rw [exec_call hcall]
  exact ⟨reply, List.mem_cons_self, hok⟩

theorem compatibleState_eq {facts : ObservedTarget} {state : InstallTargetState}
    (h : compatibleState facts state = .installCandidate) : state = .installCandidate := by
  unfold compatibleState at h
  split at h
  · cases h
  · exact h

/-- The retained-data frame proved both ids absent. -/
def RetainedAbsent (trace : List ((c : ProbeCall) × c.Reply)) : Prop :=
  ∃ nonce output retained, Observed trace (retainedPackageDataCommand nonce) output ∧
    parseRetainedPackageData output nonce = some retained ∧
    ∀ id ∈ probedPackageIds, retained.get? id = some .absent

/-- The presence frame proved both ids absent. -/
def PresenceAbsent (trace : List ((c : ProbeCall) × c.Reply)) : Prop :=
  ∃ nonce output presence, Observed trace (packagePresenceCommand nonce) output ∧
    parsePackagePresence output nonce = some presence ∧
    ∀ id ∈ probedPackageIds, presence.get? id = some .absent

theorem RetainedAbsent.mono {trace' : List ((c : ProbeCall) × c.Reply)} (h : RetainedAbsent trace)
    (hsub : trace ⊆ trace') : RetainedAbsent trace' := by
  obtain ⟨nonce, output, retained, hobserved, hparse, habsent⟩ := h
  exact ⟨nonce, output, retained, hobserved.mono hsub, hparse, habsent⟩

theorem PresenceAbsent.mono {trace' : List ((c : ProbeCall) × c.Reply)} (h : PresenceAbsent trace)
    (hsub : trace ⊆ trace') : PresenceAbsent trace' := by
  obtain ⟨nonce, output, presence, hobserved, hparse, habsent⟩ := h
  exact ⟨nonce, output, presence, hobserved.mono hsub, hparse, habsent⟩

theorem classifyAbsent_candidate {facts : Option ObservedTarget}
    (h : Exec step (classifyAbsent P) s trace (.ok (.installCandidate, facts)) s') :
    RetainedAbsent trace := by
  obtain ⟨nonce, trace₁, trace₂, s₁, rfl, -, h⟩ := exec_bind_ok h
  obtain ⟨output, trace₃, trace₄, s₂, rfl, hshell, h⟩ := exec_bind_ok h
  have hobserved := (observed_of_exec hshell).mono
    (List.subset_append_of_subset_right trace₁ (List.subset_append_left trace₃ trace₄))
  split at h
  · cases exec_pure h
  · rename_i retained hparse
    split at h
    · rename_i hall
      refine ⟨nonce, output, retained, hobserved, hparse, fun id hid => ?_⟩
      obtain ⟨j, hj⟩ := List.mem_iff_getElem?.mp hid
      obtain ⟨w, -, -, rfl⟩ := parseRetainedPackageData_walk.mp hparse
      have hget := get?_retained w hj
      have habsent := List.all_eq_true.mp hall _ (Dict.mem_values.mpr ⟨id, hget⟩)
      rw [hget, of_decide_eq_true habsent]
    · cases exec_pure h

/-- A result says of an id that it is present or absent. -/
theorem presence_cases {nonce : Word} {output : String} {presence : Dict String PackagePresence}
    (hparse : parsePackagePresence output nonce = some presence) {id : String}
    (hid : id ∈ probedPackageIds) {value : PackagePresence}
    (hvalue : presenceItem presence id = .ok value) (hne : ¬ value = .present) :
    presence.get? id = some .absent := by
  obtain ⟨w, -, entries, hentries, rfl⟩ := parsePackagePresence_walk.mp hparse
  obtain ⟨j, hj⟩ := List.mem_iff_getElem?.mp hid
  have hget := get?_presence hentries hj
  unfold presenceItem at hvalue
  split at hvalue
  · rename_i found hfound
    obtain rfl := Except.ok.inj hvalue
    rw [hfound] at hget ⊢
    unfold presenceOf at hget
    split at hget
    · split at hget
      · cases hget
      · exact absurd (Option.some.inj hget) hne
    · split at hget
      · exact hget
      · cases hget
  · cases hvalue

theorem classifyTarget_candidate {facts : Option ObservedTarget}
    (h : Exec step (classifyTarget P) s trace (.ok (.installCandidate, facts)) s') :
    PresenceAbsent trace ∧ RetainedAbsent trace := by
  obtain ⟨nonce, trace₁, trace₂, s₁, rfl, -, h⟩ := exec_bind_ok h
  obtain ⟨output, trace₃, trace₄, s₂, rfl, hshell, h⟩ := exec_bind_ok h
  have hobserved := (observed_of_exec hshell).mono
    (List.subset_append_of_subset_right trace₁ (List.subset_append_left trace₃ trace₄))
  split at h
  · cases exec_pure h
  rename_i presence hparse
  obtain ⟨current, trace₅, trace₆, s₃, rfl, hcurrent, h⟩ := exec_bind_ok h
  split at h
  · obtain ⟨facts', trace₇, trace₈, s₄, rfl, -, h⟩ := exec_bind_ok h
    cases exec_pure h
  rename_i hcurrentAbsent
  obtain ⟨legacy, trace₇, trace₈, s₄, rfl, hlegacy, h⟩ := exec_bind_ok h
  split at h
  · obtain ⟨facts', trace₉, trace₁₀, s₅, rfl, -, h⟩ := exec_bind_ok h
    cases compatibleState_eq (Prod.mk.inj (exec_pure h)).1
  rename_i hlegacyAbsent
  have hretained := classifyAbsent_candidate h
  constructor
  · refine ⟨nonce, output, presence, hobserved, hparse, fun id hid => ?_⟩
    have hids : id = legacyPackageId ∨ id = packageId := by
      simpa [probedPackageIds] using hid
    rcases hids with rfl | rfl
    · exact presence_cases hparse hid (exec_ofExcept hlegacy).1 hlegacyAbsent
    · exact presence_cases hparse hid (exec_ofExcept hcurrent).1 hcurrentAbsent
  · refine hretained.mono ?_
    intro e he
    simp only [List.mem_append]
    exact .inr (.inr (.inr (.inr he)))

theorem failedState_ne (offered connected : Bool) (e : ProbeFailure) :
    failedState offered connected e ≠ .ok .installCandidate := by
  cases e <;> cases offered <;> cases connected <;> simp [failedState]

/-- **An install candidate is a panel whose two frames proved both ids absent.** -/
theorem asyncProbeInstallTarget_candidate {authorize : Bool} {probe : InstallTargetProbe}
    (h : Exec step (asyncProbeInstallTarget P authorize) s trace (.ok probe) s')
    (hstate : probe.state = .installCandidate) : PresenceAbsent trace ∧ RetainedAbsent trace := by
  obtain ⟨reply, trace₁, trace₂, s₁, rfl, -, h⟩ := exec_bind_ok h
  obtain ⟨outcome, trace₃, trace₄, s₂, rfl, hattempt, h⟩ := exec_bind_ok h
  obtain ⟨_, trace₅, trace₆, s₃, rfl, -, h⟩ := exec_bind_ok h
  obtain ⟨outcome', houtcome, hbody⟩ := exec_attempt hattempt
  obtain rfl : outcome = outcome' := Except.ok.inj houtcome
  have hsub : trace₃ ⊆ trace₁ ++ (trace₃ ++ (trace₅ ++ trace₆)) :=
    List.subset_append_of_subset_right trace₁ (List.subset_append_left _ _)
  cases outcome with
  | ok result =>
    obtain ⟨state, facts⟩ := result
    obtain rfl := exec_pure h
    obtain rfl : state = .installCandidate := hstate
    obtain ⟨connected, trace₇, trace₈, s₄, rfl, -, hbody⟩ := exec_bind_ok hbody
    split at hbody
    · obtain ⟨hpresence, hretained⟩ := classifyTarget_candidate hbody
      have hsub' := List.Subset.trans (List.subset_append_right trace₇ trace₈) hsub
      exact ⟨hpresence.mono hsub', hretained.mono hsub'⟩
    · cases exec_pure hbody
  | error e =>
    obtain ⟨state, trace₇, trace₈, s₄, rfl, hfailed, h⟩ := exec_bind_ok h
    obtain rfl := exec_pure h
    obtain rfl : state = .installCandidate := hstate
    exact absurd (exec_ofExcept hfailed).1 (failedState_ne _ _ e)

end

/-! ## What the probe frames say -/

/-- A result is read off one frame: its non-empty lines are the begin marker, for each id its own
lines and a status marker that proves them, the lines and the marker of the liveness segment, and
the end marker. What stands in the segment of one id, without the nonce, does not change the answer
of another one, and an install candidate is a panel whose two frames proved both ids absent. -/
theorem package_probe_exact (nonce : Word) :
    (∀ (output : String) (presence : Dict String PackagePresence),
      parsePackagePresence output nonce = some presence ↔ ∃ targets live,
        Framed presenceReader nonce output targets live ∧ (∀ seg ∈ targets, seg.ProvesPresence) ∧
          presence = Dict.ofList (probedPackageIds.zip (targets.map Segment.presence))) ∧
    (∀ (output : String) (retained : Dict String RetainedPackageData),
      parseRetainedPackageData output nonce = some retained ↔ ∃ targets live,
        Framed retainedReader nonce output targets live ∧ (∀ seg ∈ targets, seg.status.value = 0) ∧
          retained = Dict.ofList (probedPackageIds.zip (targets.map Segment.retained))) ∧
    (∀ (targets : List Segment) (i : ℕ) (id : String) (seg : Segment), targets.length = count →
      probedPackageIds[i]? = some id → targets[i]? = some seg →
      (Dict.ofList (probedPackageIds.zip (targets.map Segment.presence))).get? id =
          some (if seg.lines = [] then .absent else .present) ∧
        (Dict.ofList (probedPackageIds.zip (targets.map Segment.retained))).get? id =
          some (if seg.lines = [] then .absent else .retained)) ∧
    (∀ (i : ℕ) (before inside inside' after after' : String) (rest : List String), i < count →
      (Within presenceReader nonce i before inside after rest →
        Within presenceReader nonce i before inside' after' rest → ∀ presence presence',
        parsePackagePresence (before ++ inside ++ after) nonce = some presence →
        parsePackagePresence (before ++ inside' ++ after') nonce = some presence' →
        ∀ j ≠ i, ∀ id, probedPackageIds[j]? = some id → presence.get? id = presence'.get? id) ∧
      (Within retainedReader nonce i before inside after rest →
        Within retainedReader nonce i before inside' after' rest → ∀ retained retained',
        parseRetainedPackageData (before ++ inside ++ after) nonce = some retained →
        parseRetainedPackageData (before ++ inside' ++ after') nonce = some retained' →
        ∀ j ≠ i, ∀ id, probedPackageIds[j]? = some id → retained.get? id = retained'.get? id)) ∧
    ∀ (P : Platform) (authorize : Bool) (σ : Type) (step : σ → (c : ProbeCall) → c.Reply → σ → Prop)
      (s s' : σ) (trace : List ((c : ProbeCall) × c.Reply)) (probe : InstallTargetProbe),
      Exec step (asyncProbeInstallTarget P authorize) s trace (.ok probe) s' →
      probe.state = .installCandidate → PresenceAbsent trace ∧ RetainedAbsent trace := by
  refine ⟨fun output presence => parsePackagePresence_eq_some,
    fun output retained => parseRetainedPackageData_eq_some, ?_, ?_,
    fun P authorize σ step s s' trace probe => asyncProbeInstallTarget_candidate⟩
  · intro targets i id seg hlength hid hseg
    have hvalue : ∀ {α : Type} (f : Segment → α), (targets.map f)[i]? = some (f seg) := by
      intro α f
      rw [List.getElem?_map, hseg]
      rfl
    have hlengths : ∀ {α : Type} (f : Segment → α),
      (targets.map f).length = probedPackageIds.length := by
      intro α f
      rw [List.length_map, hlength]
      rfl
    exact ⟨(get?_answers (hlengths _)).mpr ⟨i, hid, hvalue _⟩,
      (get?_answers (hlengths _)).mpr ⟨i, hid, hvalue _⟩⟩
  · intro i before inside inside' after after' rest hi
    exact ⟨fun h h' _ _ hparse hparse' j hne id hid =>
      presence_replaced hi h h' hparse hparse' hne hid,
      fun h h' _ _ hparse hparse' j hne id hid => retained_replaced hi h h' hparse hparse' hne hid⟩

/-- A token of `token_hex(16)`. -/
def sampleNonce : Word := ⟨"00112233445566778899aabbccddeeff", by decide⟩

def failedStatus : StatusText := ⟨"1", by decide⟩

def okStatus : StatusText := ⟨"0", by decide⟩

/-- The segments of an answer in which `pm path` printed a path and failed. -/
def pathAndFailure : List Segment :=
  [⟨["package:/data/app/base.apk"], failedStatus⟩, ⟨[], failedStatus⟩]

def liveSegment : Segment := ⟨["package:/system/framework/framework-res.apk"], okStatus⟩

def pathAndFailureLines : List String :=
  presenceReader.frame sampleNonce (pathAndFailure ++ [liveSegment])

def pathAndFailureOutput : String :=
  String.ofList (terminate (pathAndFailureLines.map String.toList))

/-- The frame is as it should be, and its status markers are markers; but a path with a status that
is not 0 proves nothing, and there is no result. -/
theorem path_and_failure_unread :
    Framed presenceReader sampleNonce pathAndFailureOutput pathAndFailure liveSegment ∧
      parsePackagePresence pathAndFailureOutput sampleNonce = none := by
  have hlines : ∀ line ∈ pathAndFailureLines,
      line ≠ "" ∧ line.toList.all (fun c => !isBreak c) = true := by
    decide
  have hframed : Framed presenceReader sampleNonce pathAndFailureOutput
    pathAndFailure liveSegment := by
    refine ⟨rfl, ?_, ?_, by decide, by decide, by decide⟩
    · rw [pathAndFailureOutput, outputLines_terminate fun line hline =>
        unbroken_of_all (hlines line hline).2]
      exact List.filter_eq_self.mpr fun line hline => decide_eq_true (hlines line hline).1
    · intro i seg hseg line hline
      have hall : ∀ seg ∈ pathAndFailure, ∀ line ∈ seg.lines, isPackagePath line = true := by
        decide
      exact hall seg (List.mem_of_getElem? hseg) line hline
  exact ⟨hframed, parsePackagePresence_eq_none hframed List.mem_cons_self (by decide)⟩

end PanelAssistant.Adb
