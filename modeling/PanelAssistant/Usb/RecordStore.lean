import PanelAssistant.Usb.RecordTexts

/-!
# The store of USB jobs

The transactions of `job-store.mjs` on the one object store of its database, which maps the keys of
devices to texts. Whatever was in the store before, the record that `create`, `adopt` or `advance`
last returned for a device is the one the store holds for it (`Ledger.Sound`): it loads, and moves
along every edge while its revision is a safe integer.
-/

namespace PanelAssistant.Usb.Records

open Library Library.Text Library.JsonTree

abbrev Store := Dict String Raw

variable (U : UnicodeTables) (T : NumberTexts) (sha256 : Sha256)

/-- `fail()` where there is nothing. -/
def orMalformed {α : Type} (value : Option α) : Except Code α :=
  match value with
  | some a => .ok a
  | none => .error .jobMalformed

/-! ## Transactions -/

def load (store : Store) (deviceKey : String) : Except Code (Option Record) :=
  if isSha256 deviceKey then
    match store.get? deviceKey with
    | none => .ok none
    | some raw => do
      let receipt ← orMalformed (decode U T raw deviceKey)
      if keyFor T sha256 receipt.target = deviceKey then .ok (some receipt)
      else .error .jobMalformed
  else .error .jobMalformed

/-- `store.put(JSON.stringify(receipt), deviceKey)` -/
def put (store : Store) (deviceKey : String) (receipt : Record) : Store :=
  store.set deviceKey (rawOf (stringify T receipt))

def create (store : Store) (target artifact : Value) (phase : Phase) (nonce : Fin 16 → UInt8) :
    Except Code (Record × Store) :=
  if phase = .prepared ∨ phase = .installed then do
    let snapshot ← orMalformed (targetSnapshot U target)
    let descriptor ← orMalformed (artifactSnapshot T artifact snapshot)
    let receipt ← orMalformed (validate U T (valueOf (recordTree
      ⟨hex (List.ofFn nonce), keyFor T sha256 snapshot, 0, phase, snapshot, descriptor⟩)))
    if store.contains receipt.deviceKey then .error .jobConflict
    else .ok (receipt, put T store receipt.deviceKey receipt)
  else .error .jobTransitionInvalid

/-- The transaction of `advance`, after it loaded `snapshot`. -/
def replace (store : Store) (deviceKey : String) (expectedRevision : ℕ) (nextPhase : String)
    (snapshot : Record) : Except Code (Record × Store) :=
  match store.get? deviceKey with
  | none | some .undefined => .error .jobConflict
  | some raw => do
    let current ← orMalformed (decode U T raw deviceKey)
    if current.revision ≠ expectedRevision ∨ stringify T current ≠ stringify T snapshot then
      .error .jobConflict
    else
      match phase? nextPhase with
      | none => .error .jobTransitionInvalid
      | some phase =>
        if phase ∈ edges current.phase then do
          let updated ← orMalformed (validate U T (valueOf (recordTree
            { current with revision := current.revision + 1, phase })))
          .ok (updated, put T store deviceKey updated)
        else .error .jobTransitionInvalid

def advance (store : Store) (deviceKey : String) (expectedRevision : ℕ) (nextPhase : String) :
    Except Code (Record × Store) :=
  if isSha256 deviceKey ∧ expectedRevision ≤ Binary64.maxSafeInteger then do
    match ← load U T sha256 store deviceKey with
    | none => .error .jobConflict
    | some snapshot =>
      if snapshot.revision ≠ expectedRevision then .error .jobConflict
      else replace U T store deviceKey expectedRevision nextPhase snapshot
  else .error .jobMalformed

/-- `discard` never removes a finished job, `retire` no other. -/
def refuses : Removal → Phase → Bool
  | .discard, phase => phase == .healthy
  | .retire, phase => phase != .healthy

/-- `discard` and `retire` -/
def erase (store : Store) (deviceKey : String) (expectedRevision : ℕ) (removal : Removal) :
    Except Code Store :=
  if isSha256 deviceKey ∧ expectedRevision ≤ Binary64.maxSafeInteger then
    match store.get? deviceKey with
    | none | some .undefined => .error .jobConflict
    | some raw => do
      let current ← orMalformed (decode U T raw deviceKey)
      if current.revision ≠ expectedRevision then .error .jobConflict
      else if refuses removal current.phase then .error .jobTransitionInvalid
      else .ok (store.pop deviceKey)
  else .error .jobMalformed

/-- One `advance` for each phase, each at the revision the one before returned. -/
def advanceAlong (deviceKey : String) : List Phase → Record × Store → Except Code (Record × Store)
  | [], s => .ok s
  | phase :: path, (r, store) => do
    let s ← advance U T sha256 store deviceKey r.revision (phaseText phase)
    advanceAlong deviceKey path s

/-! ## Runs -/

/-- The store, and what was last returned for each device. -/
structure Ledger where
  store : Store
  last : String → Option Record

/-- A transaction that completes. The snapshot of an `advance` was loaded for the device at any time
before, from whatever the store was then. -/
inductive Step : Ledger → Ledger → Prop where
  | create {l : Ledger} {target artifact phase nonce r store}
      (h : create U T sha256 l.store target artifact phase nonce = .ok (r, store)) :
      Step l ⟨store, Function.update l.last r.deviceKey (some r)⟩
  | replace {l : Ledger} {earlier deviceKey expectedRevision nextPhase snapshot r store}
      (loaded : load U T sha256 earlier deviceKey = .ok (some snapshot))
      (h : replace U T l.store deviceKey expectedRevision nextPhase snapshot = .ok (r, store)) :
      Step l ⟨store, Function.update l.last deviceKey (some r)⟩
  | erase {l : Ledger} {deviceKey expectedRevision removal store}
      (h : erase U T l.store deviceKey expectedRevision removal = .ok store) :
      Step l ⟨store, Function.update l.last deviceKey none⟩

variable {U T sha256}

/-! ## Keys -/

theorem isHex_hexDigit {n : ℕ} (h : n < 16) : isHex (Json.hexDigit n) = true := by
  interval_cases n <;> decide

theorem hex_repeats {bytes : List UInt8} {k : ℕ} (h : 2 * bytes.length = k) :
    repeats isHex k k (hex bytes).toList = true := by
  have hlength : (hex bytes).toList.length = k := by
    rw [hex, String.toList_ofList, List.length_flatMap]
    simp [← h, Nat.mul_comm]
  have hall : (hex bytes).toList.all isHex = true := by
    rw [hex, String.toList_ofList, List.all_eq_true]
    intro c hc
    obtain ⟨byte, -, hc⟩ := List.mem_flatMap.mp hc
    have hlt : byte.toNat < 256 := byte.toNat_lt
    simp only [List.mem_cons, List.not_mem_nil, or_false] at hc
    rcases hc with rfl | rfl
    · exact isHex_hexDigit (by omega)
    · exact isHex_hexDigit (by omega)
  simp only [repeats, hlength, hall, le_refl, decide_true, Bool.and_self]

theorem isSha256_keyFor (t : Target) : isSha256 (keyFor T sha256 t) = true := by
  rw [isSha256, keyFor]
  exact hex_repeats (by rw [List.length_ofFn])

theorem isHex32_nonce (nonce : Fin 16 → UInt8) : isHex32 (hex (List.ofFn nonce)) = true := by
  rw [isHex32]
  exact hex_repeats (by rw [List.length_ofFn])

/-! ## Transactions that complete -/

theorem orMalformed_eq_ok {α : Type} {value : Option α} {a : α} :
    orMalformed value = .ok a ↔ value = some a := by
  cases value with
  | none => simp [orMalformed]
  | some b => simp [orMalformed]

/-- The store holds a record for the device of its target. -/
structure Stored (U : UnicodeTables) (T : NumberTexts) (sha256 : Sha256) (store : Store)
    (r : Record) : Prop where
  valid : r.Valid U T
  deviceKey : keyFor T sha256 r.target = r.deviceKey
  raw : store.get? r.deviceKey = some (rawOf (stringify T r))

theorem stored_put {store : Store} {r : Record} (hvalid : r.Valid U T)
    (hkey : keyFor T sha256 r.target = r.deviceKey) :
    Stored U T sha256 (put T store r.deviceKey r) r :=
  ⟨hvalid, hkey, Dict.get?_set_self _ _ _⟩

namespace Stored

variable {store : Store} {r : Record}

theorem decode (h : Stored U T sha256 store r) :
    Records.decode U T (rawOf (stringify T r)) r.deviceKey = some r := decode_stringify h.valid

theorem load (h : Stored U T sha256 store r) :
    Records.load U T sha256 store r.deviceKey = .ok (some r) := by
  rw [Records.load, if_pos h.valid.deviceKey, h.raw]
  simp only [h.decode, orMalformed, ok_bind, h.deviceKey, if_true]

/-- A record moves along every edge while its revision is a safe integer. -/
theorem advance (h : Stored U T sha256 store r) {next : Phase} (hedge : next ∈ edges r.phase)
    (hrevision : r.revision + 1 ≤ Binary64.maxSafeInteger) :
    Records.advance U T sha256 store r.deviceKey r.revision (phaseText next) =
      .ok ({ r with revision := r.revision + 1, phase := next },
        put T store r.deviceKey { r with revision := r.revision + 1, phase := next }) := by
  have hvalid := validate_tree (h.valid.moved hrevision next)
  have hdecode := h.decode
  rw [Records.advance, if_pos ⟨h.valid.deviceKey, h.valid.revision⟩, h.load]
  simp only [rawOf] at hdecode
  simp only [ok_bind, ne_eq, not_true_eq_false, if_false, Records.replace, h.raw, rawOf, hdecode,
    orMalformed, or_self, phase?_text, hedge, if_true, hvalid]

theorem moved (h : Stored U T sha256 store r) {revision : ℕ}
    (hrevision : revision ≤ Binary64.maxSafeInteger) (phase : Phase) :
    Stored U T sha256 (put T store r.deviceKey { r with revision, phase })
      { r with revision, phase } :=
  stored_put (r := { r with revision, phase }) (h.valid.moved hrevision phase) h.deviceKey

end Stored

theorem create_ok {store store' : Store} {target artifact : Value} {phase : Phase}
    {nonce : Fin 16 → UInt8} {r : Record}
    (h : create U T sha256 store target artifact phase nonce = .ok (r, store')) :
    Stored U T sha256 store' r ∧ store' = put T store r.deviceKey r ∧
      store.get? r.deviceKey = none ∧
      r.revision = 0 ∧ r.phase = phase ∧ targetSnapshot U target = some r.target ∧
      artifactSnapshot T artifact r.target = some r.artifact := by
  unfold create at h
  split at h
  · obtain ⟨snapshot, hsnapshot, h⟩ := bind_eq_ok.mp h
    obtain ⟨descriptor, hdescriptor, h⟩ := bind_eq_ok.mp h
    obtain ⟨receipt, hreceipt, h⟩ := bind_eq_ok.mp h
    rw [orMalformed_eq_ok] at hsnapshot hdescriptor hreceipt
    have hvalid : Record.Valid U T
        ⟨hex (List.ofFn nonce), keyFor T sha256 snapshot, 0, phase, snapshot, descriptor⟩ :=
      ⟨isHex32_nonce nonce, isSha256_keyFor snapshot, Nat.zero_le _, targetSnapshot_some hsnapshot,
        artifactSnapshot_some hdescriptor⟩
    rw [validate_tree hvalid] at hreceipt
    cases hreceipt
    split at h
    · cases h
    · rename_i hnew
      cases h
      have hnone : store.get? (keyFor T sha256 snapshot) = none := by
        rw [← Option.not_isSome_iff_eq_none]
        exact hnew
      exact ⟨stored_put hvalid rfl, rfl, hnone, rfl, rfl, hsnapshot, hdescriptor⟩
  · cases h

/-- What `create` admits it stores: neither the bound on a text nor a check of a record is left to
fail. -/
theorem create_of_admitted {store : Store} {target artifact : Value} {t : Target}
    {d : InstallDescriptor} (htarget : targetSnapshot U target = some t)
    (hartifact : artifactSnapshot T artifact t = some d)
    (hnew : store.get? (keyFor T sha256 t) = none) {phase : Phase}
    (hphase : phase = .prepared ∨ phase = .installed) (nonce : Fin 16 → UInt8) :
    ∃ r store', create U T sha256 store target artifact phase nonce = .ok (r, store') ∧
      r.target = t ∧ r.artifact = d := by
  have hvalid : Record.Valid U T ⟨hex (List.ofFn nonce), keyFor T sha256 t, 0, phase, t, d⟩ :=
    ⟨isHex32_nonce nonce, isSha256_keyFor t, Nat.zero_le _, targetSnapshot_some htarget,
      artifactSnapshot_some hartifact⟩
  have hcontains : store.contains (keyFor T sha256 t) = false := by
    rw [Dict.contains, hnew]
    rfl
  let r : Record := ⟨hex (List.ofFn nonce), keyFor T sha256 t, 0, phase, t, d⟩
  refine ⟨r, put T store r.deviceKey r, ?_, rfl, rfl⟩
  rw [create, if_pos hphase, htarget]
  simp only [orMalformed, ok_bind, hartifact, validate_tree hvalid, hcontains, Bool.false_eq_true,
    if_false]
  rfl

theorem load_ok {store : Store} {deviceKey : String} {r : Record}
    (h : load U T sha256 store deviceKey = .ok (some r)) :
    r.deviceKey = deviceKey ∧ Stored U T sha256 store r := by
  unfold load at h
  split at h
  · split at h
    · cases h
    · rename_i raw hraw
      obtain ⟨receipt, hreceipt, hcheck⟩ := bind_eq_ok.mp h
      rw [orMalformed_eq_ok] at hreceipt
      split at hcheck
      · rename_i hkey
        cases hcheck
        obtain ⟨hvalid, rfl, rfl⟩ := decode_some hreceipt
        exact ⟨rfl, hvalid, hkey, hraw⟩
      · cases hcheck
  · cases h

theorem replace_ok {earlier store store' : Store} {deviceKey nextPhase : String}
    {expectedRevision : ℕ} {snapshot r : Record}
    (hloaded : load U T sha256 earlier deviceKey = .ok (some snapshot))
    (h : replace U T store deviceKey expectedRevision nextPhase snapshot = .ok (r, store')) :
    r.deviceKey = deviceKey ∧ Stored U T sha256 store' r ∧ store' = put T store deviceKey r ∧
      Stored U T sha256 store snapshot ∧ snapshot.revision = expectedRevision ∧
      r.phase ∈ edges snapshot.phase ∧ r = { snapshot with
        revision := expectedRevision + 1, phase := r.phase } := by
  obtain ⟨hdevice, hstored⟩ := load_ok hloaded
  unfold replace at h
  split at h
  · cases h
  · cases h
  · rename_i raw _ hraw
    obtain ⟨current, hcurrent, hmove⟩ := bind_eq_ok.mp h
    rw [orMalformed_eq_ok] at hcurrent
    split at hmove
    · cases hmove
    · rename_i hsame
      obtain ⟨hrevision, htext⟩ := not_or.mp hsame
      have hrevision := not_not.mp hrevision
      have htext := not_not.mp htext
      have heq : current = snapshot := by
        have hdecode := hstored.decode
        obtain ⟨-, -, rfl⟩ := decode_some hcurrent
        rw [← htext, hdevice, hcurrent] at hdecode
        exact Option.some.inj hdecode
      obtain ⟨-, -, rfl⟩ := decode_some hcurrent
      subst heq
      split at hmove
      · cases hmove
      · rename_i phase _
        split at hmove
        · rename_i hedge
          obtain ⟨updated, hupdated, hput⟩ := bind_eq_ok.mp hmove
          rw [orMalformed_eq_ok] at hupdated
          cases hput
          have hrevision' := revision_of_validate hupdated
          have hvalid := hstored.valid.moved hrevision' phase
          rw [validate_tree hvalid, Option.some.injEq] at hupdated
          subst hupdated hrevision hdevice
          have hnow : Stored U T sha256 store current := ⟨hstored.valid, hstored.deviceKey, hraw⟩
          exact ⟨rfl, hnow.moved hrevision' phase, rfl, hnow, rfl, hedge, rfl⟩
        · cases hmove

theorem erase_ok {store store' : Store} {deviceKey : String} {expectedRevision : ℕ}
    {removal : Removal} (h : erase U T store deviceKey expectedRevision removal = .ok store') :
    store' = store.pop deviceKey := by
  unfold erase at h
  split at h
  · split at h
    · cases h
    · cases h
    · obtain ⟨current, -, hcheck⟩ := bind_eq_ok.mp h
      split at hcheck
      · cases hcheck
      · split at hcheck
        · cases hcheck
        · cases hcheck
          rfl
  · cases h

/-! ## Runs -/

/-- What was last returned for a device is stored for it. -/
def Ledger.Sound (U : UnicodeTables) (T : NumberTexts) (sha256 : Sha256) (l : Ledger) : Prop :=
  ∀ deviceKey r, l.last deviceKey = some r →
    r.deviceKey = deviceKey ∧ Stored U T sha256 l.store r

/-- The text of one device does not touch the others. -/
theorem Stored.set_ne {store : Store} {r : Record} (h : Stored U T sha256 store r)
    {deviceKey : String} (hne : r.deviceKey ≠ deviceKey) (raw : Raw) :
    Stored U T sha256 (store.set deviceKey raw) r := by
  refine ⟨h.valid, h.deviceKey, ?_⟩
  rw [Dict.get?_set_ne _ _ hne]
  exact h.raw

theorem Stored.pop_ne {store : Store} {r : Record} (h : Stored U T sha256 store r)
    {deviceKey : String} (hne : r.deviceKey ≠ deviceKey) :
    Stored U T sha256 (store.pop deviceKey) r := by
  refine ⟨h.valid, h.deviceKey, ?_⟩
  rw [Dict.pop, Dict.get?_filter, h.raw]
  simp [hne]

theorem Step.sound {l l' : Ledger} (h : Step U T sha256 l l') (hl : l.Sound U T sha256) :
    l'.Sound U T sha256 := by
  -- the device of the transaction has what it stored, every other one what it had
  have hset : ∀ {r : Record} {store : Store}, Stored U T sha256 store r →
      store = put T l.store r.deviceKey r →
      Ledger.Sound U T sha256 ⟨store, Function.update l.last r.deviceKey (some r)⟩ := by
    rintro r store hstored rfl deviceKey r' hr'
    change Function.update l.last r.deviceKey (some r) deviceKey = some r' at hr'
    by_cases hkey : deviceKey = r.deviceKey
    · subst hkey
      rw [Function.update_self] at hr'
      cases hr'
      exact ⟨rfl, hstored⟩
    · rw [Function.update_of_ne hkey] at hr'
      obtain ⟨rfl, hbefore⟩ := hl deviceKey r' hr'
      exact ⟨rfl, hbefore.set_ne hkey _⟩
  cases h with
  | create h =>
    obtain ⟨hstored, hput, -⟩ := create_ok h
    exact hset hstored hput
  | replace hloaded h =>
    obtain ⟨rfl, hstored, hput, -⟩ := replace_ok hloaded h
    exact hset hstored hput
  | erase h =>
    rename_i erased expectedRevision removal store
    obtain rfl := erase_ok h
    intro deviceKey r hr
    change Function.update l.last erased none deviceKey = some r at hr
    by_cases hkey : deviceKey = erased
    · subst hkey
      rw [Function.update_self] at hr
      cases hr
    · rw [Function.update_of_ne hkey] at hr
      obtain ⟨rfl, hbefore⟩ := hl deviceKey r hr
      exact ⟨rfl, hbefore.pop_ne hkey⟩

theorem sound_of_run {store : Store} {l : Ledger}
    (h : Relation.ReflTransGen (Step U T sha256) ⟨store, fun _ => none⟩ l) :
    l.Sound U T sha256 := by
  induction h with
  | refl =>
    intro deviceKey r hr
    cases hr
  | tail _ hstep ih => exact hstep.sound ih

/-- A record moves along every path of edges that its revisions have room for. -/
theorem advanceAlong_ok {path : List Phase} {store : Store} {r : Record}
    (h : Stored U T sha256 store r) (hpath : (r.phase :: path).IsChain fun p q => q ∈ edges p)
    (hroom : r.revision + path.length ≤ Binary64.maxSafeInteger) :
    ∃ r' store', advanceAlong U T sha256 r.deviceKey path (r, store) = .ok (r', store') ∧
      Stored U T sha256 store' r' ∧ r'.revision = r.revision + path.length ∧
      r'.target = r.target ∧ r'.artifact = r.artifact := by
  induction path generalizing r store with
  | nil => exact ⟨r, store, rfl, h, rfl, rfl, rfl⟩
  | cons next path ih =>
    rw [List.isChain_cons_cons] at hpath
    rw [List.length_cons] at hroom
    have hrevision : r.revision + 1 ≤ Binary64.maxSafeInteger := by omega
    have hadvance := h.advance hpath.1 hrevision
    obtain ⟨r', store', hrun, hstored, hcount, htarget, hartifact⟩ :=
      ih (h.moved hrevision next) hpath.2 (by simp only; omega)
    refine ⟨r', store', ?_, hstored, ?_, htarget, hartifact⟩
    · rw [advanceAlong, hadvance]
      exact hrun
    · change r'.revision = r.revision + 1 + path.length at hcount
      rw [hcount, List.length_cons]
      omega

/-- Job records always read back. From any store, after any transactions, the record last returned
for a device is what the store holds for it, loads as that record and moves along every path of
edges; what `create` admits it stores; and only the text of a record decodes. -/
theorem job_records_read_back (U : UnicodeTables) (T : NumberTexts) (sha256 : Sha256) :
    (∀ (store : Store) (l : Ledger),
      Relation.ReflTransGen (Step U T sha256) ⟨store, fun _ => none⟩ l →
      ∀ deviceKey r, l.last deviceKey = some r →
        l.store.get? deviceKey = some (rawOf (stringify T r)) ∧
        decode U T (rawOf (stringify T r)) deviceKey = some r ∧
        load U T sha256 l.store deviceKey = .ok (some r) ∧
        ∀ path : List Phase, ((r.phase :: path).IsChain fun p q => q ∈ edges p) →
          r.revision + path.length ≤ Binary64.maxSafeInteger →
          ∃ r' store', advanceAlong U T sha256 deviceKey path (r, l.store) = .ok (r', store') ∧
            load U T sha256 store' deviceKey = .ok (some r') ∧
            r'.revision = r.revision + path.length ∧ r'.target = r.target ∧
            r'.artifact = r.artifact) ∧
    (∀ (store : Store) (target artifact : Value) (t : Target) (d : InstallDescriptor)
      (phase : Phase)
        (nonce : Fin 16 → UInt8), targetSnapshot U target = some t →
      artifactSnapshot T artifact t = some d → (phase = .prepared ∨ phase = .installed) →
      store.get? (keyFor T sha256 t) = none →
      ∃ r store', create U T sha256 store target artifact phase nonce = .ok (r, store') ∧
        load U T sha256 store' (keyFor T sha256 t) = .ok (some r) ∧ r.target = t ∧ r.artifact = d) ∧
    ∀ (raw : Raw) (deviceKey : String) (r : Record), decode U T raw deviceKey = some r →
      raw = rawOf (stringify T r) ∧ r.deviceKey = deviceKey ∧
        validate U T (valueOf (recordTree r)) = some r := by
  refine ⟨fun store l hrun deviceKey r hr => ?_,
    fun store target artifact t d phase nonce htarget hartifact hphase hnew => ?_,
    fun raw deviceKey r h => ?_⟩
  · obtain ⟨rfl, hstored⟩ := sound_of_run hrun deviceKey r hr
    refine ⟨hstored.raw, hstored.decode, hstored.load, fun path hpath hroom => ?_⟩
    obtain ⟨r', store', hrun', hstored', hcount, htarget, hartifact⟩ :=
      advanceAlong_ok hstored hpath hroom
    refine ⟨r', store', hrun', ?_, hcount, htarget, hartifact⟩
    have hload := hstored'.load
    rwa [← hstored'.deviceKey, htarget, hstored.deviceKey] at hload
  · obtain ⟨r, store', hcreate, rfl, rfl⟩ :=
      create_of_admitted htarget hartifact hnew hphase nonce
    obtain ⟨hstored, -⟩ := create_ok hcreate
    refine ⟨r, store', hcreate, ?_, rfl, rfl⟩
    rw [hstored.deviceKey]
    exact hstored.load
  · obtain ⟨hvalid, hkey, hraw⟩ := decode_some h
    exact ⟨hraw, hkey, validate_tree hvalid⟩

/-! ### The job of a release -/

def wallPanel : Target where
  model := "Panel"
  serial := "0123456789ABCDEF"
  primaryAbi := "arm64-v8a"
  androidSdk := 30
  rootMode := "root_adbd"
  usbVendorId := 9025
  usbProductId := 24577
  usbSerial := "0123456789ABCDEF"

/-- The digest of `[9025,24577,"0123456789ABCDEF","0123456789ABCDEF"]`. -/
def wallDigest : List UInt8 :=
  [0xb1, 0xc8, 0x2f, 0x13, 0x46, 0x76, 0xac, 0xb6, 0x6d, 0xdd, 0xaf, 0x40, 0x66, 0xcc, 0x00, 0x88,
    0xac, 0xb6, 0x3e, 0x25, 0xb0, 0x76, 0x89, 0x75, 0xc6, 0xe8, 0xff, 0x18, 0xeb, 0x7e, 0xf8, 0xee]

def wallSha256 : Sha256 := fun _ i => wallDigest.getD i 0

theorem valid_wallPanel : wallPanel.Valid asciiTables := by
  constructor <;> decide

theorem accepts_release : Accepts ⟨id, id⟩ releaseDescriptor wallPanel := by
  have hdescribed : Described releaseDescriptor := ⟨by decide, by decide, by decide, rfl⟩
  have hplain : ∀ s ∈ releaseDescriptor.texts, plain s = true := by decide
  obtain ⟨body, hbody⟩ := exists_encodeAscii (ascii_descriptorText releaseDescriptor)
  have hsize : body.length ≤ 4096 := by
    rw [length_of_encodeAscii hbody]
    exact length_descriptorText hdescribed hplain (by decide)
  have hwritten : 0 < body.length := by
    rw [length_of_encodeAscii hbody, descriptorText, List.length_append, List.length_singleton]
    omega
  rw [← descriptorText_eq hplain hdescribed.supportedAbis] at hbody
  refine ⟨?_, by decide, by decide⟩
  rw [encodeUtf8_of_ascii hbody]
  refine Browser.parseUnauthenticatedDescriptor_iff.mpr ⟨?_, hdescribed, hbody, by decide⟩
  rw [Browser.admits, Bool.and_eq_true, decide_eq_true_eq]
  exact ⟨by decide, hwritten, hsize⟩

/-- The job of a release is created, loads, and moves to its end. -/
theorem job_records_read_back_release : ∃ r store' r' store'',
    create asciiTables ⟨id, id⟩ wallSha256 ∅ (valueOf (targetTree wallPanel))
        (valueOf (descriptorTree releaseDescriptor)) .prepared (fun _ => 7) = .ok (r, store') ∧
      load asciiTables ⟨id, id⟩ wallSha256 store' r.deviceKey = .ok (some r) ∧
      advanceAlong asciiTables ⟨id, id⟩ wallSha256 r.deviceKey
        [.staging, .staged, .installing, .installed, .launching, .healthy] (r, store') =
          .ok (r', store'') ∧
      load asciiTables ⟨id, id⟩ wallSha256 store'' r.deviceKey = .ok (some r') ∧
        r'.revision = 6 := by
  obtain ⟨hread, hcreates, -⟩ := job_records_read_back asciiTables ⟨id, id⟩ wallSha256
  obtain ⟨r, store', hcreate, -, -, -⟩ := hcreates ∅ _ _ wallPanel releaseDescriptor .prepared
    (fun _ => 7) (targetSnapshot_tree valid_wallPanel) (artifactSnapshot_tree accepts_release)
    (.inl rfl) rfl
  obtain ⟨-, -, -, hrevision, hphase, -⟩ := create_ok hcreate
  obtain ⟨-, -, hload, hmoves⟩ := hread ∅ _ (.single (.create hcreate)) r.deviceKey r
    (Function.update_self _ _ _)
  obtain ⟨r', store'', hmoved, hagain, hcount, -⟩ :=
    hmoves [.staging, .staged, .installing, .installed, .launching, .healthy]
      (by rw [hphase]; decide) (by rw [hrevision]; decide)
  rw [hrevision] at hcount
  exact ⟨r, store', r', store'', hcreate, hload, hmoved, hagain, hcount⟩

end PanelAssistant.Usb.Records
