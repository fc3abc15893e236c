import PanelAssistant.Library.Except
import PanelAssistant.Transport.Protocol

/-!
# Values by platform

The validators of `_VALUE_VALIDATORS` and `_validate_attributes`. Each returns the value
that is stored, and accepts what it returned without changing it (`valueValidator_again`,
`validateAttributes_again`), so a stored value stays admitted by its channel's descriptor.
-/

namespace PanelAssistant

open Library

/-- What `dt_util.parse_datetime` makes of a text. -/
inductive ParsedDatetime where
  /-- Well formatted, but no date: it raises `ValueError`. -/
  | raises
  | malformed
  | naive
  | aware
  deriving DecidableEq

/-- The parsers outside the repository that validators call. -/
structure WireFormats where
  /-- Scheme and host of `yarl.URL(text)`; `none` where it raises `ValueError`. -/
  url : String → Option (String × Option String)
  parseDatetime : String → ParsedDatetime

/-- Why a value is not stored. -/
inductive ValueFault where
  /-- `ValueRejected` -/
  | rejected (code : String)
  /-- A `ValueError` that no validator catches. -/
  | valueError
  deriving DecidableEq

abbrev Validated (α : Type) := Except ValueFault α

/-- `_reject` -/
def rejectedValue : ValueFault := .rejected errInvalidValue

/-! ## Scalars -/

/-- `_is_finite_number` -/
def isFiniteNumber : Wire → Bool
  | .int n => decide (-maxJsonInteger ≤ n ∧ n ≤ maxJsonInteger)
  | .float (.finite _) => true
  | _ => false

/-- `_plain_string` -/
def isPlainString (maxLength : Nat) (text : String) : Bool :=
  decide (text.toList.length ≤ maxLength) && !text.toList.any isControlCharacter

def validateByte : Wire → Validated Wire
  | .int n => do
    check rejectedValue (decide (0 ≤ n ∧ n ≤ 255))
    .ok (.int n)
  | _ => .error rejectedValue

/-- `_url` for the scheme `https`. -/
def validateUrl (F : WireFormats) : Wire → Validated Wire
  | .str text => do
    check rejectedValue
      (decide (text.toList.length ≤ maxUrlLength) && !text.toList.any Text.isSpace)
    check rejectedValue (match F.url text with
      | some (scheme, some host) => scheme == "https" && host != ""
      | _ => false)
    .ok (.str text)
  | _ => .error rejectedValue

/-- `_mapping` -/
def mapping : Wire → Validated (List (String × Wire))
  | .obj fields => .ok fields
  | _ => .error rejectedValue

/-- A field that is kept only where it is there and not null. -/
def optionalField (fields : List (String × Wire)) (key : String)
    (validate : Wire → Validated Wire) : Validated (List (String × Wire)) :=
  if (Wire.get fields key).isNull then .ok []
  else do
    let v ← validate (Wire.get fields key)
    .ok [(key, v)]

/-! ## Validators -/

abbrev Validator := Wire → Descriptor → Validated Wire

def validateColor (v : Wire) : Validated Wire := do
  let color ← mapping v
  let r ← validateByte (Wire.get color "r")
  let g ← validateByte (Wire.get color "g")
  let b ← validateByte (Wire.get color "b")
  .ok (.obj [("r", r), ("g", g), ("b", b)])

def validateEffect (d : Descriptor) : Wire → Validated Wire
  | .str effect => do
    check rejectedValue (isCode effect && match d.options with
      | none => true
      | some options => options.contains effect)
    .ok (.str effect)
  | _ => .error rejectedValue

def validateLight : Validator := fun v d => do
  let light ← mapping v
  match (Wire.get light "on").bool? with
  | none => .error rejectedValue
  | some on =>
    let brightness ← optionalField light "brightness" validateByte
    let color ← optionalField light "color" validateColor
    let effect ← optionalField light "effect" (validateEffect d)
    .ok (.obj (("on", .bool on) :: (brightness ++ color ++ effect)))

/-- Whether a number lies within a descriptor's bounds. -/
def withinBounds (d : Descriptor) (v : Wire) : Bool :=
  match v.number? with
  | none => false
  | some q =>
    (match d.min with
      | some low => decide (low ≤ q)
      | none => true) &&
    match d.max with
      | some high => decide (q ≤ high)
      | none => true

def validateNumber : Validator := fun v d => do
  check rejectedValue (isFiniteNumber v && withinBounds d v)
  .ok v

def validateOption : Validator := fun v d =>
  match v with
  | .str text => do
    check rejectedValue ((d.options.getD []).contains text)
    .ok (.str text)
  | _ => .error rejectedValue

def plainText : Wire → Validated String
  | .str text => do
    check rejectedValue (isPlainString maxStringLength text)
    .ok text
  | _ => .error rejectedValue

def validateText : Validator := fun v _ => do
  let text ← plainText v
  .ok (.str text)

def validateTimestamp (F : WireFormats) (v : Wire) : Validated Wire := do
  let text ← plainText v
  match F.parseDatetime text with
  | .raises => .error .valueError
  | .aware => .ok (.str text)
  | _ => .error rejectedValue

def validateSensor (F : WireFormats) : Validator := fun v d =>
  if d.options.isSome then validateOption v d
  else if d.deviceClass = some "timestamp" then validateTimestamp F v
  else if isFiniteNumber v then .ok v
  else if d.unit.isSome || d.stateClass.isSome || d.deviceClass.isSome then .error rejectedValue
  else validateText v d

def validateBoolean : Validator := fun v _ =>
  match v with
  | .bool b => .ok (.bool b)
  | _ => .error rejectedValue

def optionalVersion (v : Wire) : Validated Wire :=
  if v.isNull then .ok .null
  else do
    let text ← plainText v
    .ok (.str text)

def optionalUrl (F : WireFormats) (v : Wire) : Validated Wire :=
  if v.isNull then .ok .null else validateUrl F v

def validateUpdate (F : WireFormats) : Validator := fun v _ => do
  let update ← mapping v
  match ((Wire.field? update "in_progress").getD (.bool false)).bool? with
  | none => .error rejectedValue
  | some inProgress =>
    let installed ← optionalVersion (Wire.get update "installed_version")
    let latest ← optionalVersion (Wire.get update "latest_version")
    let url ← optionalUrl F (Wire.get update "release_url")
    .ok (.obj [("installed_version", installed), ("latest_version", latest),
      ("release_url", url), ("in_progress", .bool inProgress)])

def mediaStates : List String := ["idle", "playing", "paused", "buffering"]

def validateMedia : Validator := fun v _ => do
  let media ← mapping v
  match (Wire.get media "state").str?, (Wire.get media "muted").bool? with
  | some state, some muted => do
    check rejectedValue (mediaStates.contains state)
    .ok (.obj [("state", .str state), ("muted", .bool muted)])
  | _, _ => .error rejectedValue

def notReported : Validator := fun _ _ => .error rejectedValue

/-- `_VALUE_VALIDATORS` -/
def valueValidator (F : WireFormats) : EntityPlatform → Option Validator
  | .binarySensor => some validateBoolean
  | .button => some notReported
  | .camera => some validateBoolean
  | .event => some notReported
  | .image => none
  | .light => some validateLight
  | .mediaPlayer => some validateMedia
  | .number => some validateNumber
  | .select => some validateOption
  | .sensor => some (validateSensor F)
  | .switch => some validateBoolean
  | .text => some validateText
  | .update => some (validateUpdate F)

/-- What one attribute may be. -/
def isAttributeValue : Wire → Bool
  | .null => true
  | .bool _ => true
  | .str text => isPlainString maxStringLength text
  | v => isFiniteNumber v

/-- The loop of `_validate_attributes`. -/
def collectAttributes : List (String × Wire) → Dict String Wire → Validated (Dict String Wire)
  | [], result => .ok result
  | (key, item) :: rest, result => do
    check rejectedValue (isCode key && isAttributeValue item)
    collectAttributes rest (result.set key item)

def validateAttributes : Option Wire → Validated (Dict String Wire)
  | none => .ok ∅
  | some .null => .ok ∅
  | some v => do
    let attributes ← mapping v
    check rejectedValue (decide (attributes.length ≤ maxAttributes))
    collectAttributes attributes ∅

/-! ## A validator accepts what it returned -/

theorem validateByte_again {v w : Wire} (h : validateByte v = .ok w) : validateByte w = .ok w := by
  cases v with
  | int n =>
    simp only [validateByte, bind_eq_ok, check_eq_ok] at h
    obtain ⟨-, hn, hw⟩ := h
    cases hw
    simp [validateByte, check, hn]
  | _ => simp [validateByte] at h

theorem plainText_again {v : Wire} {text : String} (h : plainText v = .ok text) :
    plainText (.str text) = .ok text := by
  cases v with
  | str s =>
    simp only [plainText, bind_eq_ok, check_eq_ok] at h
    obtain ⟨-, hs, ht⟩ := h
    cases ht
    simp [plainText, check, hs]
  | _ => simp [plainText] at h

theorem validateUrl_again {F : WireFormats} {v w : Wire} (h : validateUrl F v = .ok w) :
    validateUrl F w = .ok w := by
  cases v with
  | str s =>
    have hv := h
    simp only [validateUrl, bind_eq_ok, check_eq_ok] at h
    obtain ⟨-, -, -, -, hw⟩ := h
    cases hw
    exact hv
  | _ => simp [validateUrl] at h

theorem validateColor_again {v w : Wire} (h : validateColor v = .ok w) :
    validateColor w = .ok w := by
  simp only [validateColor, bind_eq_ok] at h
  obtain ⟨color, -, r, hr, g, hg, b, hb, hw⟩ := h
  cases hw
  simp [validateColor, mapping, Wire.get, validateByte_again hr, validateByte_again hg,
    validateByte_again hb]

theorem validateEffect_again {d : Descriptor} {v w : Wire} (h : validateEffect d v = .ok w) :
    validateEffect d w = .ok w := by
  cases v with
  | str s =>
    have hv := h
    simp only [validateEffect, bind_eq_ok] at h
    obtain ⟨-, -, hw⟩ := h
    cases hw
    exact hv
  | _ => simp [validateEffect] at h

theorem validateOption_again {d : Descriptor} {v w : Wire} (h : validateOption v d = .ok w) :
    validateOption w d = .ok w := by
  cases v with
  | str s =>
    have hv := h
    simp only [validateOption, bind_eq_ok] at h
    obtain ⟨-, -, hw⟩ := h
    cases hw
    exact hv
  | _ => simp [validateOption] at h

theorem validateNumber_again {d : Descriptor} {v w : Wire} (h : validateNumber v d = .ok w) :
    validateNumber w d = .ok w := by
  have hv := h
  simp only [validateNumber, bind_eq_ok] at h
  obtain ⟨-, -, hw⟩ := h
  cases hw
  exact hv

theorem validateText_again {d : Descriptor} {v w : Wire} (h : validateText v d = .ok w) :
    validateText w d = .ok w := by
  simp only [validateText, bind_eq_ok] at h
  obtain ⟨text, ht, hw⟩ := h
  cases hw
  simp [validateText, plainText_again ht]

theorem validateTimestamp_again {F : WireFormats} {v w : Wire}
    (h : validateTimestamp F v = .ok w) : validateTimestamp F w = .ok w := by
  simp only [validateTimestamp, bind_eq_ok] at h
  obtain ⟨text, ht, hw⟩ := h
  cases hp : F.parseDatetime text with
  | aware =>
    rw [hp] at hw
    cases hw
    simp [validateTimestamp, plainText_again ht, hp]
  | _ => simp [hp] at hw

theorem validateSensor_again {F : WireFormats} {d : Descriptor} {v w : Wire}
    (h : validateSensor F v d = .ok w) : validateSensor F w d = .ok w := by
  unfold validateSensor at h
  by_cases ho : d.options.isSome = true
  · rw [if_pos ho] at h
    rw [validateSensor, if_pos ho]
    exact validateOption_again h
  rw [if_neg ho] at h
  by_cases ht : d.deviceClass = some "timestamp"
  · rw [if_pos ht] at h
    rw [validateSensor, if_neg ho, if_pos ht]
    exact validateTimestamp_again h
  rw [if_neg ht] at h
  by_cases hn : isFiniteNumber v = true
  · rw [if_pos hn] at h
    cases h
    rw [validateSensor, if_neg ho, if_neg ht, if_pos hn]
  rw [if_neg hn] at h
  by_cases hm : (d.unit.isSome || d.stateClass.isSome || d.deviceClass.isSome) = true
  · rw [if_pos hm] at h
    cases h
  rw [if_neg hm] at h
  have hw : isFiniteNumber w = false := by
    simp only [validateText, bind_eq_ok] at h
    obtain ⟨text, -, hw⟩ := h
    cases hw
    rfl
  rw [validateSensor, if_neg ho, if_neg ht, if_neg (by simp [hw]), if_neg hm]
  exact validateText_again h

theorem optionalVersion_again {v w : Wire} (h : optionalVersion v = .ok w) :
    optionalVersion w = .ok w := by
  unfold optionalVersion at h
  by_cases hv : v.isNull = true
  · rw [if_pos hv] at h
    cases h
    rfl
  · rw [if_neg hv] at h
    simp only [bind_eq_ok] at h
    obtain ⟨text, ht, hw⟩ := h
    cases hw
    simp [optionalVersion, Wire.isNull, plainText_again ht]

/-- What an optional field leaves: nothing, or one item that validates again. -/
theorem optionalField_eq_ok {fields kept : List (String × Wire)} {key : String}
    {validate : Wire → Validated Wire} (h : optionalField fields key validate = .ok kept) :
    kept = [] ∨ ∃ v w, validate v = .ok w ∧ kept = [(key, w)] := by
  unfold optionalField at h
  by_cases hn : (Wire.get fields key).isNull = true
  · rw [if_pos hn] at h
    cases h
    exact Or.inl rfl
  · rw [if_neg hn] at h
    simp only [bind_eq_ok] at h
    obtain ⟨w, hw, hk⟩ := h
    cases hk
    exact Or.inr ⟨_, w, hw, rfl⟩

/-- A kept field is the only one there. -/
theorem field?_of_optionalField {fields kept : List (String × Wire)} {key key' : String}
    {validate : Wire → Validated Wire} (h : optionalField fields key validate = .ok kept)
    (hne : key ≠ key') : Wire.field? kept key' = none := by
  rcases optionalField_eq_ok h with rfl | ⟨v, w, -, rfl⟩
  · rfl
  · simp [hne]

/-- A field that reads as it was kept is kept again. -/
theorem optionalField_again {fields l kept : List (String × Wire)} {key : String}
    {validate : Wire → Validated Wire}
    (hvalidate : ∀ v w, validate v = .ok w → validate w = .ok w ∧ w.isNull = false)
    (h : optionalField fields key validate = .ok kept)
    (hread : Wire.field? l key = Wire.field? kept key) :
    optionalField l key validate = .ok kept := by
  rcases optionalField_eq_ok h with rfl | ⟨v, w, hw, rfl⟩
  · simp [optionalField, Wire.get, hread, Wire.isNull]
  · obtain ⟨hagain, hnull⟩ := hvalidate v w hw
    simp [optionalField, Wire.get, hread, hnull, hagain]

theorem validateByte_notNull {v w : Wire} (h : validateByte v = .ok w) : w.isNull = false := by
  cases v with
  | int n =>
    simp only [validateByte, bind_eq_ok] at h
    obtain ⟨-, -, hw⟩ := h
    cases hw
    rfl
  | _ => simp [validateByte] at h

theorem validateColor_notNull {v w : Wire} (h : validateColor v = .ok w) : w.isNull = false := by
  simp only [validateColor, bind_eq_ok] at h
  obtain ⟨color, -, r, -, g, -, b, -, hw⟩ := h
  cases hw
  rfl

theorem validateEffect_notNull {d : Descriptor} {v w : Wire} (h : validateEffect d v = .ok w) :
    w.isNull = false := by
  cases v with
  | str s =>
    simp only [validateEffect, bind_eq_ok] at h
    obtain ⟨-, -, hw⟩ := h
    cases hw
    rfl
  | _ => simp [validateEffect] at h

theorem validateLight_again {d : Descriptor} {v w : Wire} (h : validateLight v d = .ok w) :
    validateLight w d = .ok w := by
  simp only [validateLight, bind_eq_ok] at h
  obtain ⟨light, -, h⟩ := h
  cases hon : (Wire.get light "on").bool? with
  | none => simp [hon] at h
  | some on =>
    simp only [hon, bind_eq_ok] at h
    obtain ⟨brightness, hb, color, hc, effect, he, hw⟩ := h
    cases hw
    -- Each optional field reads back as it was kept: the other two have other names.
    have hb' := optionalField_again
      (l := ("on", .bool on) :: (brightness ++ color ++ effect))
      (fun _ _ h => ⟨validateByte_again h, validateByte_notNull h⟩) hb (by
        simp [Wire.field?_append, field?_of_optionalField hc, field?_of_optionalField he])
    have hc' := optionalField_again
      (l := ("on", .bool on) :: (brightness ++ color ++ effect))
      (fun _ _ h => ⟨validateColor_again h, validateColor_notNull h⟩) hc (by
        simp [Wire.field?_append, field?_of_optionalField hb, field?_of_optionalField he])
    have he' := optionalField_again
      (l := ("on", .bool on) :: (brightness ++ color ++ effect))
      (fun _ _ h => ⟨validateEffect_again h, validateEffect_notNull h⟩) he (by
        simp [Wire.field?_append, field?_of_optionalField hb, field?_of_optionalField hc])
    have hon' : (Wire.get (("on", .bool on) :: (brightness ++ color ++ effect)) "on").bool? =
        some on := by
      simp [Wire.get, Wire.bool?]
    simp only [validateLight, mapping, ok_bind, hon', hb', hc', he']

theorem optionalUrl_again {F : WireFormats} {v w : Wire} (h : optionalUrl F v = .ok w) :
    optionalUrl F w = .ok w := by
  unfold optionalUrl at h
  by_cases hn : v.isNull = true
  · rw [if_pos hn] at h
    cases h
    rfl
  · rw [if_neg hn] at h
    have hagain := validateUrl_again h
    cases w with
    | null => simp [validateUrl] at hagain
    | _ => exact hagain

theorem validateUpdate_again {F : WireFormats} {d : Descriptor} {v w : Wire}
    (h : validateUpdate F v d = .ok w) : validateUpdate F w d = .ok w := by
  simp only [validateUpdate, bind_eq_ok] at h
  obtain ⟨update, -, h⟩ := h
  cases hp : ((Wire.field? update "in_progress").getD (.bool false)).bool? with
  | none => simp [hp] at h
  | some inProgress =>
    simp only [hp, bind_eq_ok] at h
    obtain ⟨installed, hi, latest, hl, url, hu, hw⟩ := h
    cases hw
    simp [validateUpdate, mapping, Wire.get, Wire.bool?, optionalVersion_again hi,
      optionalVersion_again hl, optionalUrl_again hu]

theorem validateMedia_again {d : Descriptor} {v w : Wire} (h : validateMedia v d = .ok w) :
    validateMedia w d = .ok w := by
  simp only [validateMedia, bind_eq_ok] at h
  obtain ⟨media, -, h⟩ := h
  cases hs : (Wire.get media "state").str? with
  | none => simp [hs] at h
  | some state =>
    cases hm : (Wire.get media "muted").bool? with
    | none => simp [hs, hm] at h
    | some muted =>
      simp only [hs, hm, bind_eq_ok, check_eq_ok] at h
      obtain ⟨-, hstate, hw⟩ := h
      cases hw
      have hmem : state ∈ mediaStates := by simpa using hstate
      simp [validateMedia, mapping, Wire.get, Wire.str?, Wire.bool?, check, hmem]

/-- A value as a validator returned it is accepted again, unchanged. -/
theorem valueValidator_again {F : WireFormats} {p : EntityPlatform} {validate : Validator}
    (hp : valueValidator F p = some validate) {d : Descriptor} {v w : Wire}
    (h : validate v d = .ok w) : validate w d = .ok w := by
  have hboolean : ∀ {v w : Wire}, validateBoolean v d = .ok w → validateBoolean w d = .ok w := by
    intro v w h
    cases v with
    | bool b =>
      cases h
      rfl
    | _ => simp [validateBoolean] at h
  cases p with
  | image => cases hp
  | binarySensor | camera | switch =>
    cases hp
    exact hboolean h
  | button | event =>
    cases hp
    cases h
  | light =>
    cases hp
    exact validateLight_again h
  | mediaPlayer =>
    cases hp
    exact validateMedia_again h
  | number =>
    cases hp
    exact validateNumber_again h
  | select =>
    cases hp
    exact validateOption_again h
  | sensor =>
    cases hp
    exact validateSensor_again h
  | text =>
    cases hp
    exact validateText_again h
  | update =>
    cases hp
    exact validateUpdate_again h

/-! ## Attributes -/

/-- Attributes as they are stored: few, with codes as names and bounded scalars as values. -/
def AttributesOk (attributes : Dict String Wire) : Prop :=
  attributes.entries.length ≤ maxAttributes ∧
    ∀ key item, attributes.get? key = some item → isCode key = true ∧ isAttributeValue item = true

theorem attributesOk_empty : AttributesOk ∅ := by
  refine ⟨Nat.zero_le _, ?_⟩
  intro key item h
  simp at h

theorem collectAttributes_ok {fields : List (String × Wire)} {result r : Dict String Wire}
    (h : collectAttributes fields result = .ok r)
    (hresult : ∀ key item, result.get? key = some item →
      isCode key = true ∧ isAttributeValue item = true) :
    r.entries.length ≤ result.entries.length + fields.length ∧
      ∀ key item, r.get? key = some item → isCode key = true ∧ isAttributeValue item = true := by
  induction fields generalizing result with
  | nil =>
    cases h
    exact ⟨Nat.le_add_right _ _, hresult⟩
  | cons f rest ih =>
    obtain ⟨key, item⟩ := f
    simp only [collectAttributes, bind_eq_ok, check_eq_ok, Bool.and_eq_true] at h
    obtain ⟨-, hf, hrest⟩ := h
    have hset : ∀ k i, (result.set key item).get? k = some i →
        isCode k = true ∧ isAttributeValue i = true := by
      intro k i hki
      rw [Dict.get?_set] at hki
      by_cases hk : k = key
      · rw [if_pos hk] at hki
        cases hki
        rw [hk]
        exact hf
      · rw [if_neg hk] at hki
        exact hresult k i hki
    obtain ⟨hlength, hall⟩ := ih hrest hset
    have hstep := Dict.length_set result key item
    refine ⟨?_, hall⟩
    simp only [List.length_cons]
    omega

theorem validateAttributes_ok {v : Option Wire} {attributes : Dict String Wire}
    (h : validateAttributes v = .ok attributes) : AttributesOk attributes := by
  cases v with
  | none =>
    cases h
    exact attributesOk_empty
  | some w =>
    cases w with
    | null =>
      cases h
      exact attributesOk_empty
    | obj fields =>
      simp only [validateAttributes, mapping, ok_bind, bind_eq_ok, check_eq_ok,
        decide_eq_true_eq] at h
      obtain ⟨-, hfew, hcollect⟩ := h
      obtain ⟨hlength, hall⟩ := collectAttributes_ok hcollect (by simp)
      have hempty : (∅ : Dict String Wire).entries.length = 0 := rfl
      exact ⟨by omega, hall⟩
    | _ => cases h

end PanelAssistant
