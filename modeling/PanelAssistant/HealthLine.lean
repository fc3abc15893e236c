import PanelAssistant.Library.Dict
import PanelAssistant.Library.Except
import PanelAssistant.Updates.Versions

/-!
# The health line

`parse_health_response` of `client.py`. The line is two words and then `key=value` tokens. The
first value of a key counts, and a second one is refused for the keys of a list kept by hand
(`knownHealthFields`). That list has to hold every key the parser looks up afterwards
(`readHealthFields`) for the order of the tokens not to matter, and two of them are not in it:
`health_meaning_kept_iff` says for which bodies the order matters.
-/

namespace PanelAssistant.HealthLine

open Library Library.Text

/-! ## The parser -/

inductive HaPaneldError where
  | invalidResponse
  deriving DecidableEq

/-- `MAX_HEALTH_RESPONSE_BYTES` -/
def maxHealthResponseBytes : ℕ := 1024

/-- `MAX_ANDROID_INTEGER` -/
def maxAndroidInteger : ℕ := 2 ^ 31 - 1

/-- A word of the line, its key or its value. -/
abbrev Token := List Char

/-- `_KNOWN_HEALTH_FIELDS` -/
def knownHealthFields : List Token :=
  ["panel".toList, "build".toList, "cfg".toList, "did".toList, "identity".toList,
    "legacy_did".toList, "pkg".toList, "vc".toList, "proto".toList, "ha".toList, "ha_net".toList,
    "ha_resp".toList, "ha_net_p95".toList, "ha_net_n".toList, "ha_net_miss".toList,
    "ha_net_age".toList, "pa_restarting".toList]

/-- `_LIFECYCLE_STATES` -/
def lifecycleStates : List Token :=
  ["normal".toList, "shutting_down".toList, "starting".toList, "back_online".toList,
    "connection_lost".toList]

/-- `PanelHealth` -/
structure PanelHealth where
  version : String
  panelId : String
  build : String
  configHash : String
  haState : Option String
  discoveryId : Option String
  legacyDiscoveryId : Option String
  installationIdentity : Bool
  package : Option String
  versionCode : Option ℕ
  setupComplete : Bool
  homePending : Bool
  protocol : Option (ℕ × ℕ)
  restart : Option (String × String × ℕ)
  deriving DecidableEq

/-- `" " <= character <= "~"` -/
def isPlainAscii (c : Char) : Bool := ' ' ≤ c && c ≤ '~'

/-- The body without the newline at its end. -/
def healthLine (body : String) : List Char := (before? ['\n'] body.toList).getD body.toList

/-- `line.split(" ")` -/
def healthTokens (body : String) : List Token := (healthLine body).splitOn ' '

/-- `_HEALTH_FIELD_KEY_PATTERN` -/
def isHealthFieldKey : Token → Bool
  | [] => false
  | c :: rest => isLower c && rest.all fun x => isLower x || isDigit x || x == '_'

/-- `_PANEL_ID_PATTERN` -/
def isPanelId (cs : Token) : Bool :=
  cs.all (fun c => isLower c || isDigit c || c == '_') &&
    cs.head?.any (· ≠ '_') && cs.getLast?.any (· ≠ '_')

/-- `_INSTALL_TIME_PATTERN` and the bound on the number it spells. -/
def isInstallTime (cs : Token) : Bool :=
  isNumeral cs && decide (cs.length ≤ 19) && decide (decimal cs ≤ 2 ^ 63 - 1)

def isBuild (cs : Token) : Bool :=
  decide (cs.length ≤ maxVersionLength) && (isVersion cs || isInstallTime cs)

/-- `_CONFIG_HASH_PATTERN` -/
def isConfigHash (cs : Token) : Bool := repeats isHex 8 8 cs

/-- `is_valid_discovery_id` -/
def isValidDiscoveryId (cs : Token) : Bool := repeats isHex 64 64 cs

/-- One name between the dots of `_PACKAGE_NAME_PATTERN`. -/
def isPackagePart : Token → Bool
  | [] => false
  | c :: rest => (isLower c || isUpper c) && rest.all fun x => isAlnum x || x == '_'

/-- `_PACKAGE_NAME_PATTERN` -/
def isPackageName (cs : Token) : Bool :=
  decide (2 ≤ (cs.splitOn '.').length) && (cs.splitOn '.').all isPackagePart

/-- `_VERSION_CODE_PATTERN` and the bound on the number. -/
def readVersionCode (cs : Token) : Option ℕ :=
  if isPositiveNumeral cs && decide (cs.length ≤ 10) && decide (decimal cs ≤ maxAndroidInteger) then
    some (decimal cs)
  else none

/-- `[1-9][0-9]{0,2}` -/
def isProtocolNumber (cs : Token) : Bool := isPositiveNumeral cs && decide (cs.length ≤ 3)

/-- `_PROTOCOL_RANGE_PATTERN` and the order of the two numbers. -/
def readProtocol (cs : Token) : Option (ℕ × ℕ) :=
  match cs.splitOn '-' with
  | [low, high] =>
    if isProtocolNumber low && isProtocolNumber high && decide (decimal low ≤ decimal high) then
      some (decimal low, decimal high)
    else none
  | _ => none

def restartKinds : List Token := ["app".toList, "panel".toList]

def restartReasons : List Token :=
  ["update".toList, "settings".toList, "recovery".toList, "reboot".toList]

/-- `_RESTART_PATTERN` and the bound on the number. -/
def readRestart (cs : Token) : Option (String × String × ℕ) :=
  match cs.splitOn ',' with
  | [kind, reason, time] =>
    if restartKinds.contains kind && restartReasons.contains reason && isPositiveNumeral time &&
        decide (time.length ≤ 6) && decide (decimal time ≤ 300000) then
      some (String.ofList kind, String.ofList reason, decimal time)
    else none
  | _ => none

/-- The fields of the tokens, each with its first value. -/
def readFields : List Token → Dict Token Token → Except HaPaneldError (Dict Token Token)
  | [], fields => .ok fields
  | token :: tokens, fields =>
    let (key, value) := partition '=' token
    if value.isEmpty || !isHealthFieldKey key ||
        knownHealthFields.contains key && fields.contains key then
      .error .invalidResponse
    else readFields tokens (fields.setDefault key value)

/-- What the parser makes of the fields, which it only looks up. -/
def panelHealth (version : Token) (get : Token → Option Token) :
    Except HaPaneldError PanelHealth := do
  let some panelId := get "panel".toList | throw .invalidResponse
  check .invalidResponse (isPanelId panelId)
  let some build := get "build".toList | throw .invalidResponse
  check .invalidResponse (isBuild build)
  let some configHash := get "cfg".toList | throw .invalidResponse
  check .invalidResponse (isConfigHash configHash)
  let haState := (get "ha".toList).filter lifecycleStates.contains
  let discoveryId := get "did".toList
  check .invalidResponse (discoveryId.all isValidDiscoveryId)
  let identity := get "identity".toList
  check .invalidResponse (identity.all (· == "install".toList))
  check .invalidResponse (identity != some "install".toList || discoveryId.isSome)
  let legacyDiscoveryId := get "legacy_did".toList
  check .invalidResponse (legacyDiscoveryId.all isValidDiscoveryId)
  let package := get "pkg".toList
  check .invalidResponse (package.all isPackageName)
  return {
    version := String.ofList version
    panelId := String.ofList panelId
    build := String.ofList build
    configHash := String.ofList configHash
    haState := haState.map String.ofList
    discoveryId := discoveryId.map String.ofList
    legacyDiscoveryId := legacyDiscoveryId.map String.ofList
    installationIdentity := identity == some "install".toList
    package := package.map String.ofList
    versionCode := (get "vc".toList).bind readVersionCode
    setupComplete := get "setup_complete".toList == some ['1']
    homePending := get "home_pending".toList == some ['1']
    protocol := (get "proto".toList).bind readProtocol
    restart := (get "pa_restarting".toList).bind readRestart }

/-- `parse_health_response` -/
def parseHealthResponse (body : String) : Except HaPaneldError PanelHealth := do
  check .invalidResponse (decide (body.length ≤ maxHealthResponseBytes))
  check .invalidResponse ((healthLine body).all isPlainAscii)
  match healthTokens body with
  | name :: version :: tokens =>
    check .invalidResponse (decide (3 ≤ tokens.length) && name == "ha-paneld".toList &&
      isValidPanelVersion (String.ofList version))
    let fields ← readFields tokens ∅
    panelHealth version fields.get?
  | _ => throw .invalidResponse

/-! ## What is accepted -/

/-- `key=value` as the parser asks for it. -/
def isFieldToken (token : Token) : Bool :=
  !(partition '=' token).2.isEmpty && isHealthFieldKey (partition '=' token).1

/-- How many tokens have the key. -/
def timesIn (key : Token) (tokens : List Token) : ℕ :=
  tokens.countP fun token => decide ((partition '=' token).1 = key)

/-- The value a key first stands with. -/
def firstValue (tokens : List Token) (key : Token) : Option Token :=
  Dict.lookup key (tokens.map (partition '='))

theorem timesIn_cons (key token : Token) (tokens : List Token) : timesIn key (token :: tokens) =
    timesIn key tokens + if (partition '=' token).1 = key then 1 else 0 := by
  simp only [timesIn, List.countP_cons, decide_eq_true_eq]

theorem contains_setDefault {fields : Dict Token Token} {key key' value : Token} :
    (fields.setDefault key value).contains key' =
      (fields.contains key' || decide (key = key')) := by
  rw [Dict.contains, Dict.get?_setDefault, Option.isSome_or, Dict.contains]
  by_cases h : key' = key
  · rw [if_pos h, decide_eq_true h.symm]
    rfl
  · rw [if_neg h, decide_eq_false (Ne.symm h)]
    rfl

theorem get?_foldl_setDefault_empty (tokens : List Token) :
    Dict.get? ((tokens.map (partition '=')).foldl (fun d e => Dict.setDefault d e.1 e.2) ∅) =
      firstValue tokens := by
  funext key
  rw [Dict.get?_foldl_setDefault, Dict.get?_empty, Option.none_or]
  rfl

/-- The loop accepts well formed tokens of which no known key is there twice. -/
theorem readFields_eq_ok {tokens : List Token} {fields fields' : Dict Token Token} :
    readFields tokens fields = .ok fields' ↔
      (∀ token ∈ tokens, isFieldToken token = true) ∧
        (∀ key ∈ knownHealthFields,
          timesIn key tokens + (if fields.contains key then 1 else 0) ≤ 1) ∧
        (tokens.map (partition '=')).foldl (fun d e => d.setDefault e.1 e.2) fields = fields' := by
  induction tokens generalizing fields with
  | nil =>
    have hnone : ∀ key ∈ knownHealthFields,
        timesIn key [] + (if fields.contains key then 1 else 0) ≤ 1 := by
      intro key _
      rw [timesIn, List.countP_nil]
      split <;> omega
    have hempty : ∀ token ∈ ([] : List Token), isFieldToken token = true := fun _ ht => by cases ht
    rw [readFields, Except.ok.injEq, List.map_nil, List.foldl_nil]
    exact ⟨fun h => ⟨hempty, hnone, h⟩, fun h => h.2.2⟩
  | cons token tokens ih =>
    have hstep : ∀ key, timesIn key (token :: tokens) + (if fields.contains key then 1 else 0) ≤ 1 ↔
        timesIn key tokens + (if (fields.setDefault (partition '=' token).1
            (partition '=' token).2).contains key then 1 else 0) ≤ 1 ∧
          ¬(fields.contains key = true ∧ (partition '=' token).1 = key) := by
      intro key
      rw [timesIn_cons, contains_setDefault]
      by_cases hkey : (partition '=' token).1 = key <;> cases fields.contains key <;>
        simp [hkey]
    rw [readFields, List.forall_mem_cons, List.map_cons, List.foldl_cons]
    generalize hpair : partition '=' token = pair at hstep ⊢
    obtain ⟨key, value⟩ := pair
    simp only at hstep ⊢
    split
    · rename_i hbad
      refine iff_of_false (by simp) ?_
      rintro ⟨⟨htoken, -⟩, htimes, -⟩
      rw [isFieldToken, hpair, Bool.and_eq_true, Bool.not_eq_true'] at htoken
      rw [htoken.1, htoken.2, Bool.not_true, Bool.false_or, Bool.false_or, Bool.and_eq_true,
        List.contains_iff_mem] at hbad
      exact ((hstep key).mp (htimes key hbad.1)).2 ⟨hbad.2, rfl⟩
    · rename_i hgood
      rw [Bool.not_eq_true, Bool.or_eq_false_iff, Bool.or_eq_false_iff, Bool.not_eq_false'] at hgood
      have htoken : isFieldToken token = true := by
        rw [isFieldToken, hpair, hgood.1.1, hgood.1.2]
        rfl
      rw [ih]
      constructor
      · rintro ⟨htokens, htimes, hfields⟩
        refine ⟨⟨htoken, htokens⟩,
          fun key' hkey' => (hstep key').mpr ⟨htimes key' hkey', ?_⟩, hfields⟩
        rintro ⟨hthere, rfl⟩
        rw [hthere, Bool.and_true] at hgood
        have hlisted := List.contains_iff_mem.mpr hkey'
        rw [hgood.2] at hlisted
        cases hlisted
      · rintro ⟨⟨-, htokens⟩, htimes, hfields⟩
        exact ⟨htokens, fun key' hkey' => ((hstep key').mp (htimes key' hkey')).1, hfields⟩

/-- What is required of a body apart from its fields: its size, its first word and its version. -/
structure Framed (body : String) (version : Token) (tokens : List Token) : Prop where
  size : body.length ≤ maxHealthResponseBytes
  words : healthTokens body = "ha-paneld".toList :: version :: tokens
  enough : 3 ≤ tokens.length
  version : isValidPanelVersion (String.ofList version) = true

/-- An accepted body, and what is read from it. -/
theorem parseHealthResponse_eq_ok {body : String} {health : PanelHealth} :
    parseHealthResponse body = .ok health ↔
      ∃ version tokens, Framed body version tokens ∧
        (∀ token ∈ healthTokens body, token.all isPlainAscii = true) ∧
        (∀ token ∈ tokens, isFieldToken token = true) ∧
        (∀ key ∈ knownHealthFields, timesIn key tokens ≤ 1) ∧
        panelHealth version (firstValue tokens) = .ok health := by
  have hplain : (∀ token ∈ healthTokens body, token.all isPlainAscii = true) ↔
      (healthLine body).all isPlainAscii = true := all_splitOn (by decide)
  have hempty : ∀ key, (∅ : Dict Token Token).contains key = false := fun _ => rfl
  rw [hplain]
  simp only [parseHealthResponse, bind_eq_ok, check_eq_ok, decide_eq_true_eq]
  constructor
  · rintro ⟨_, hsize, _, hline, h⟩
    split at h
    · rename_i name version tokens htokens
      simp only [bind_eq_ok, check_eq_ok, Bool.and_eq_true, decide_eq_true_eq, beq_iff_eq,
        readFields_eq_ok, hempty] at h
      obtain ⟨_, ⟨⟨henough, rfl⟩, hversion⟩, fields, ⟨hfields, htimes, rfl⟩, h⟩ := h
      refine ⟨version, tokens, ⟨hsize, htokens, henough, hversion⟩, hline, hfields,
        fun key hkey => htimes key hkey, ?_⟩
      rw [get?_foldl_setDefault_empty] at h
      exact h
    · cases h
  · rintro ⟨version, tokens, ⟨hsize, htokens, henough, hversion⟩, hline, hfields, htimes, h⟩
    refine ⟨(), hsize, (), hline, ?_⟩
    have hread : readFields tokens ∅ = .ok _ := readFields_eq_ok.mpr ⟨hfields, fun key hkey => by
      rw [hempty]
      exact htimes key hkey, rfl⟩
    simp only [htokens, check, henough, hversion, beq_self_eq_true, decide_true, Bool.and_self,
      if_true, ok_bind, hread]
    rw [get?_foldl_setDefault_empty]
    exact h

/-! ## Order and repetition -/

/-- The keys `fields.get` is asked for. -/
def readHealthFields : List Token :=
  ["panel".toList, "build".toList, "cfg".toList, "ha".toList, "did".toList, "identity".toList,
    "legacy_did".toList, "pkg".toList, "vc".toList, "proto".toList, "pa_restarting".toList,
    "setup_complete".toList, "home_pending".toList]

/-- Only the values of these keys count. -/
theorem panelHealth_congr (version : Token) {get get' : Token → Option Token}
    (h : ∀ key ∈ readHealthFields, get key = get' key) :
    panelHealth version get = panelHealth version get' := by
  simp only [readHealthFields, List.forall_mem_cons] at h
  obtain ⟨hpanel, hbuild, hcfg, hha, hdid, hidentity, hlegacy, hpkg, hvc, hproto, hrestart, hsetup,
    hhome, -⟩ := h
  simp only [panelHealth, hpanel, hbuild, hcfg, hha, hdid, hidentity, hlegacy, hpkg, hvc, hproto,
    hrestart, hsetup, hhome]

/-- How often a key is given in a body. -/
def timesGiven (key : Token) (body : String) : ℕ := timesIn key ((healthTokens body).drop 2)

/-- `body'` has the two words of `body` and, in any order, its fields and some well formed tokens
whose keys are not looked up. -/
structure Rearranged (body : String) (extra : List Token) (body' : String) : Prop where
  size : body'.length ≤ maxHealthResponseBytes
  start : (healthTokens body').take 2 = (healthTokens body).take 2
  fields : ((healthTokens body').drop 2).Perm ((healthTokens body).drop 2 ++ extra)
  wellFormed : ∀ token ∈ extra, isFieldToken token = true ∧ token.all isPlainAscii = true
  unread : ∀ token ∈ extra, (partition '=' token).1 ∉ readHealthFields

theorem firstValue_perm {tokens tokens' : List Token} {key : Token} (h : tokens.Perm tokens')
    (htimes : timesIn key tokens ≤ 1) : firstValue tokens key = firstValue tokens' key := by
  refine Dict.lookup_perm (h.map _) ?_
  rw [List.countP_map]
  exact htimes

theorem timesIn_append (key : Token) (tokens tokens' : List Token) :
    timesIn key (tokens ++ tokens') = timesIn key tokens + timesIn key tokens' :=
  List.countP_append

theorem timesIn_eq_zero {tokens : List Token} {key : Token}
    (h : ∀ token ∈ tokens, (partition '=' token).1 ≠ key) : timesIn key tokens = 0 :=
  List.countP_eq_zero.mpr fun token ht => by simpa using h token ht

theorem firstValue_append_of_unread {tokens extra : List Token} {key : Token}
    (h : ∀ token ∈ extra, (partition '=' token).1 ≠ key) :
    firstValue (tokens ++ extra) key = firstValue tokens key := by
  have hnone : Dict.lookup key (extra.map (partition '=')) = none := by
    rw [← Option.not_isSome_iff_eq_none, Dict.lookup_isSome, List.map_map]
    rintro hmem
    obtain ⟨token, htoken, heq⟩ := List.mem_map.mp hmem
    exact h token htoken heq
  rw [firstValue, List.map_append, Dict.lookup_append, hnone, Option.or_none]
  rfl

section

variable {body body' : String} {extra : List Token} {health : PanelHealth}

/-- A key that is looked up is listed, or one of two. -/
theorem known_of_read {key : Token} (h : key ∈ readHealthFields) :
    key ∈ knownHealthFields ∨ key = "setup_complete".toList ∨ key = "home_pending".toList := by
  simp only [readHealthFields, List.mem_cons, List.not_mem_nil, or_false] at h
  rcases h with rfl | rfl | rfl | rfl | rfl | rfl | rfl | rfl | rfl | rfl | rfl | rfl | rfl
  case inr.inr.inr.inr.inr.inr.inr.inr.inr.inr.inr.inl => exact .inr (.inl rfl)
  case inr.inr.inr.inr.inr.inr.inr.inr.inr.inr.inr.inr => exact .inr (.inr rfl)
  all_goals exact .inl (by simp only [knownHealthFields, List.mem_cons, true_or, or_true])

theorem Rearranged.words (h : Rearranged body extra body') {version : Token} {tokens : List Token}
    (hwords : healthTokens body = "ha-paneld".toList :: version :: tokens) :
    healthTokens body' = "ha-paneld".toList :: version :: (healthTokens body').drop 2 := by
  have hstart := h.start
  rw [hwords] at hstart
  calc healthTokens body' = (healthTokens body').take 2 ++ (healthTokens body').drop 2 :=
        (List.take_append_drop 2 _).symm
    _ = _ := by rw [hstart]; rfl

/-- For an accepted body: every rearrangement within the size bound is accepted with the same
meaning and no key that is looked up is given twice, exactly if neither of the two keys that are
not listed is given twice and the rearrangement repeats no listed key. -/
theorem health_meaning_kept_iff (haccepted : parseHealthResponse body = .ok health)
    (h : Rearranged body extra body') :
    (parseHealthResponse body' = .ok health ∧ ∀ key ∈ readHealthFields, timesGiven key body ≤ 1) ↔
      timesGiven "setup_complete".toList body ≤ 1 ∧ timesGiven "home_pending".toList body ≤ 1 ∧
        ∀ key ∈ knownHealthFields, timesGiven key body' ≤ 1 := by
  obtain ⟨version, tokens, hframed, hplain, hfields, htimes, hhealth⟩ :=
    parseHealthResponse_eq_ok.mp haccepted
  have hdrop : (healthTokens body).drop 2 = tokens := by rw [hframed.words]; rfl
  have hwords := h.words hframed.words
  have hperm := h.fields
  rw [hdrop] at hperm
  have hunread : ∀ key ∈ readHealthFields, ∀ token ∈ extra, (partition '=' token).1 ≠ key :=
    fun key hkey token ht heq => h.unread token ht (heq ▸ hkey)
  constructor
  · rintro ⟨hkept, honce⟩
    obtain ⟨version', tokens', hframed', -, -, htimes', -⟩ := parseHealthResponse_eq_ok.mp hkept
    refine ⟨honce _ (by simp [readHealthFields]), honce _ (by simp [readHealthFields]), ?_⟩
    intro key hkey
    rw [timesGiven, hframed'.words]
    exact htimes' key hkey
  · rintro ⟨hsetup, hhome, hlisted⟩
    have honce : ∀ key ∈ readHealthFields, timesGiven key body ≤ 1 := by
      intro key hkey
      rcases known_of_read hkey with hknown | rfl | rfl
      · rw [timesGiven, hdrop]
        exact htimes key hknown
      · exact hsetup
      · exact hhome
    refine ⟨parseHealthResponse_eq_ok.mpr
      ⟨version, _, ⟨h.size, hwords, ?_, hframed.version⟩, ?_, ?_,
      hlisted, ?_⟩, honce⟩
    · rw [hperm.length_eq, List.length_append]
      have := hframed.enough
      omega
    · intro token ht
      rw [hwords, List.mem_cons, List.mem_cons] at ht
      have hin : ∀ word ∈ ["ha-paneld".toList, version] ++ tokens,
        word.all isPlainAscii = true := by
        intro word hword
        exact hplain word (by rw [hframed.words]; exact hword)
      rcases ht with rfl | rfl | ht
      · exact hin _ (by simp)
      · exact hin _ (by simp)
      · rcases List.mem_append.mp (hperm.mem_iff.mp ht) with ht | ht
        · exact hin token (List.mem_append_right _ ht)
        · exact (h.wellFormed token ht).2
    · intro token ht
      rcases List.mem_append.mp (hperm.mem_iff.mp ht) with ht | ht
      · exact hfields token ht
      · exact (h.wellFormed token ht).1
    · rw [← hhealth]
      refine panelHealth_congr version fun key hkey => ?_
      have hzero : timesIn key extra = 0 := timesIn_eq_zero (hunread key hkey)
      have htwice : timesIn key (tokens ++ extra) ≤ 1 := by
        have hkeyOnce := honce key hkey
        rw [timesGiven, hdrop] at hkeyOnce
        rw [timesIn_append]
        omega
      rw [← firstValue_perm hperm.symm htwice, firstValue_append_of_unread (hunread key hkey)]

end

/-! ### Two lines -/

/-- Setup is complete, and then it is not. -/
def setupDone : String :=
  "ha-paneld 1.2.3 panel=a build=1 cfg=0123abcd setup_complete=1 setup_complete=0"

/-- The same tokens, the last two exchanged. -/
def setupOpen : String :=
  "ha-paneld 1.2.3 panel=a build=1 cfg=0123abcd setup_complete=0 setup_complete=1"

theorem rearranged_setup : Rearranged setupDone [] setupOpen where
  size := by decide
  start := by decide
  fields := by decide
  wellFormed _ h := by cases h
  unread _ h := by cases h

/-- Both lines are accepted, and they mean different things. -/
theorem setup_order_matters : ∃ health, parseHealthResponse setupDone = .ok health ∧
    Rearranged setupDone [] setupOpen ∧ parseHealthResponse setupOpen ≠ .ok health ∧
      timesGiven "setup_complete".toList setupDone = 2 := by
  have hdone : (parseHealthResponse setupDone).toOption.map (·.setupComplete) = some true := by
    decide
  have hopen : (parseHealthResponse setupOpen).toOption.map (·.setupComplete) = some false := by
    decide
  have htwice : timesGiven "setup_complete".toList setupDone = 2 := by decide
  cases hparse : parseHealthResponse setupDone with
  | error e =>
    rw [hparse] at hdone
    cases hdone
  | ok health =>
    refine ⟨health, rfl, rearranged_setup, fun heq => ?_, htwice⟩
    rw [hparse] at hdone
    rw [heq] at hopen
    exact absurd (hdone.symm.trans hopen) (by decide)

/-- A line, and the same line in another order with a further token. -/
def shortLine : String := "ha-paneld 1.2.3 panel=a build=1 cfg=0123abcd"

def longLine : String := "ha-paneld 1.2.3 cfg=0123abcd ha_src=native build=1 panel=a"

theorem rearranged_longLine : Rearranged shortLine ["ha_src=native".toList] longLine where
  size := by decide
  start := by decide
  fields := by decide
  wellFormed := by decide
  unread := by decide

theorem longLine_meaning_kept : ∃ health, parseHealthResponse shortLine = .ok health ∧
    ((parseHealthResponse longLine = .ok health ∧
        ∀ key ∈ readHealthFields, timesGiven key shortLine ≤ 1) ↔
      timesGiven "setup_complete".toList shortLine ≤ 1 ∧
        timesGiven "home_pending".toList shortLine ≤ 1 ∧
          ∀ key ∈ knownHealthFields, timesGiven key longLine ≤ 1) := by
  have haccepted : (parseHealthResponse shortLine).toOption.isSome = true := by decide
  cases hparse : parseHealthResponse shortLine with
  | error e =>
    rw [hparse] at haccepted
    cases haccepted
  | ok health => exact ⟨health, rfl, health_meaning_kept_iff hparse rearranged_longLine⟩

end PanelAssistant.HealthLine
