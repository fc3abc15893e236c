import PanelAssistant.InstallJobs.Invariant
import PanelAssistant.Library.Ranking

/-!
# Which terminal receipts are kept

Retention sorts the terminal receipts by `(updated_at, job_id)` and keeps the last 32; it does not
know which receipt was just written. So a call that ends a job answers its receipt exactly while
fewer than 32 terminal receipts stand above the one it writes (`terminal_receipt_kept_iff`). Else
the receipt is dropped before it is saved, and the lookup after the save fails.
-/

namespace PanelAssistant

open Library Library.Text Library.Json

/-! ## Pruning -/

/-- Whether a receipt stands above `(updated_at, job_id)`. -/
def newerThan (updatedAt jobId : String) (other : InstallJobReceipt) : Bool :=
  decide (updatedAt < other.updatedAt ∨ updatedAt = other.updatedAt ∧ jobId < other.jobId)

/-- How many terminal receipts of the table stand above `(updated_at, job_id)`. -/
def newerTerminal (jobs : Jobs) (updatedAt jobId : String) : ℕ :=
  jobs.values.countP fun other => other.isTerminal && newerThan updatedAt jobId other

theorem updatedOrder_total (a b : InstallJobReceipt) : updatedOrder a b ∨ updatedOrder b a := by
  rcases lt_trichotomy a.updatedAt b.updatedAt with h | h | h
  · exact .inr (.inl h)
  · rcases le_total a.jobId b.jobId with hid | hid
    · exact .inr (.inr ⟨h.symm, hid⟩)
    · exact .inl (.inr ⟨h, hid⟩)
  · exact .inl (.inl h)

theorem updatedOrder_trans {a b c : InstallJobReceipt} (h : updatedOrder a b)
    (h' : updatedOrder b c) : updatedOrder a c := by
  rcases h with h | ⟨h, hid⟩ <;> rcases h' with h' | ⟨h', hid'⟩
  · exact .inl (lt_trans h' h)
  · exact .inl (h' ▸ h)
  · exact .inl (h ▸ h')
  · exact .inr ⟨h.trans h', le_trans hid' hid⟩

instance : Std.Total updatedOrder := ⟨updatedOrder_total⟩

instance : IsTrans InstallJobReceipt updatedOrder := ⟨fun _ _ _ => updatedOrder_trans⟩

theorem newerThan_self (r : InstallJobReceipt) : newerThan r.updatedAt r.jobId r = false := by
  simp [newerThan]

theorem newerThan_of_updatedOrder {r other : InstallJobReceipt} (h : updatedOrder r other) :
    newerThan r.updatedAt r.jobId other = false := by
  rw [newerThan, decide_eq_false_iff_not]
  rcases h with h | ⟨h, hid⟩
  · rintro (hlt | ⟨heq, -⟩)
    · exact lt_asymm h hlt
    · exact absurd h (heq ▸ lt_irrefl _)
  · rintro (hlt | ⟨-, hlt⟩)
    · exact absurd hlt (h ▸ lt_irrefl _)
    · exact absurd hlt (not_lt.mpr hid)

theorem newerThan_of_ne {r other : InstallJobReceipt} (h : updatedOrder other r)
    (hne : other.jobId ≠ r.jobId) : newerThan r.updatedAt r.jobId other = true := by
  rw [newerThan, decide_eq_true_eq]
  rcases h with h | ⟨h, hid⟩
  · exact .inl h
  · exact .inr ⟨h.symm, lt_of_le_of_ne hid (Ne.symm hne)⟩

section

variable {jobs kept : Jobs} {jobId : String} {r : InstallJobReceipt}

/-- What pruning makes of a terminal receipt of the present second. -/
theorem prune_get? (hkeyed : Keyed jobs) (hget : jobs.get? jobId = some r)
    (hterminal : r.isTerminal = true) (h : prune jobs r.updatedAt = .ok kept) :
    kept.get? jobId =
      if newerTerminal jobs r.updatedAt r.jobId < maxTerminalJobs then some r else none := by
  have hmem : r ∈ terminalOf jobs.values := mem_terminalOf.mpr ⟨jobId, hget, hterminal⟩
  have hid : r.jobId = jobId := hkeyed jobId r hget
  have hsorted : ((terminalOf jobs.values).insertionSort updatedOrder).Pairwise updatedOrder :=
    List.pairwise_insertionSort _ _
  have hunique : ∀ other ∈ terminalOf jobs.values, other.jobId = r.jobId → other = r := by
    intro other hother heq
    obtain ⟨key, hkey, -⟩ := mem_terminalOf.mp hother
    have hsame : key = jobId := (hkeyed key other hkey).symm.trans (heq.trans hid)
    rw [hsame, hget] at hkey
    exact (Option.some.inj hkey).symm
  have hplace : ∀ k, r ∈ ((terminalOf jobs.values).insertionSort updatedOrder).take k ↔
      ((terminalOf jobs.values).insertionSort updatedOrder).countP
        (newerThan r.updatedAt r.jobId) < k := by
    refine Ranking.mem_take_iff_countP hsorted ((List.mem_insertionSort _).mpr hmem)
      (newerThan_self r) (fun _ _ => newerThan_of_updatedOrder) fun other hother hne horder => ?_
    refine newerThan_of_ne horder fun heq => hne (hunique other ?_ heq)
    exact (List.mem_insertionSort _).mp hother
  have hcount : ((terminalOf jobs.values).insertionSort updatedOrder).countP
    (newerThan r.updatedAt r.jobId) =
      newerTerminal jobs r.updatedAt r.jobId := by
    rw [(List.perm_insertionSort updatedOrder _).countP_eq, terminalOf, List.countP_filter,
      newerTerminal]
    exact List.countP_congr fun other _ => by rw [Bool.and_comm]
  unfold prune at h
  split at h
  · rename_i instant hinstant
    simp only [bind_eq_ok, check_eq_ok, pure_eq_ok] at h
    obtain ⟨_, -, rfl⟩ := h
    rw [Dict.get?_filter, hget, Option.filter, hterminal, Bool.not_true, Bool.false_or]
    have hretained : (((((terminalOf jobs.values).insertionSort updatedOrder).take
        maxTerminalJobs).filter fun r => (fromIsoFormat r.updatedAt).any fun updated =>
          decide (instant - terminalRetention ≤ updated)).map (·.jobId)).contains jobId = true ↔
        newerTerminal jobs r.updatedAt r.jobId < maxTerminalJobs := by
      rw [List.contains_iff_mem, List.mem_map, ← hcount, ← hplace]
      constructor
      · rintro ⟨other, hother, hsame⟩
        obtain ⟨htake, -⟩ := List.mem_filter.mp hother
        have hin := (List.mem_insertionSort _).mp (List.mem_of_mem_take htake)
        rwa [hunique other hin (hsame.trans hid.symm)] at htake
      · intro htake
        refine ⟨r, List.mem_filter.mpr ⟨htake, ?_⟩, hid⟩
        rw [hinstant, Option.any_some, decide_eq_true_eq, terminalRetention]
        omega
    simp only [hretained]
  · cases h

/-- Counting in a table where one receipt is replaced by one that counts the same. -/
theorem countP_set {p : InstallJobReceipt → Bool} {r' : InstallJobReceipt}
    (hget : jobs.get? jobId = some r') (hp : p r = p r') :
    (jobs.set jobId r).values.countP p = jobs.values.countP p := by
  have hassign : ∀ entries : List (String × InstallJobReceipt),
    Dict.lookup jobId entries = some r' →
      ((Dict.assign jobId r entries).map Prod.snd).countP p = (entries.map Prod.snd).countP p := by
    intro entries
    induction entries with
    | nil =>
      intro h
      cases h
    | cons e entries ih =>
      intro h
      obtain ⟨key, old⟩ := e
      rw [Dict.lookup] at h
      rw [Dict.assign]
      split
      · rename_i hkey
        rw [if_pos hkey, Option.some.injEq] at h
        subst h
        rw [List.map_cons, List.map_cons, List.countP_cons, List.countP_cons, hp]
      · rename_i hkey
        rw [if_neg hkey] at h
        rw [List.map_cons, List.map_cons, List.countP_cons, List.countP_cons, ih h]
  exact hassign jobs.entries hget

end

/-! ## Calls that end a job -/

/-- The two calls that may write a terminal receipt. -/
inductive Ending where
  | claim (cleanupConfirmedRevision : Option Int)
  | transition (a : TransitionArgs)

namespace Ending

variable (P : Platform)

/-- The checks made before the lock is taken. -/
def checked : Ending → Bool
  | claim _ => true
  | transition a => checkedTransition P a

def decide (jobId : String) (expectedRevision : Int) (now : String) (jobs : Jobs)
    (claimed : Dict String Int) : Ending → Except InstallJobError Plan
  | claim confirmed => PanelAssistant.claim jobId expectedRevision confirmed now jobs claimed
  | transition a => PanelAssistant.transition P jobId expectedRevision a now jobs claimed

/-- The receipt the call puts into the table before it prunes. -/
def receipt (jobId : String) (expectedRevision : Int) (now : String) (jobs : Jobs)
    (claimed : Dict String Int) : Ending → Except InstallJobError InstallJobReceipt
  | claim _ => do
    let current ← checkedCurrent jobs jobId expectedRevision
    let updatedAt ← timestamp (.str now)
    return claimedReceipt current updatedAt
  | transition a => do
    let current ← checkedCurrent jobs jobId expectedRevision
    advanceReceipt P current (claimed.get? jobId) a now

def perform (m : Manager) (io : OpIo) (jobId : String) (expectedRevision : Int) :
    Ending → Manager × Except InstallJobError Reply
  | claim confirmed => m.asyncClaim P io jobId expectedRevision confirmed
  | transition a => m.asyncTransition P io jobId expectedRevision a

end Ending

section

variable {P : Platform} {jobs candidate : Jobs} {claimed : Dict String Int}
  {jobId id now : String} {revision : Int} {updated : InstallJobReceipt}

/-- What is saved by a call that ends a job. -/
theorem Ending.decide_eq_ok {call : Ending} (hjobs : Storable P jobs)
    (hchecked : call.checked P = true)
    (hreceipt : call.receipt P jobId revision now jobs claimed = .ok updated)
    (h : call.decide P jobId revision now jobs claimed = .ok (.save candidate id)) :
    id = jobId ∧ ∃ current, jobs.get? jobId = some current ∧ current.isTerminal = false ∧
      Keyed (jobs.set jobId updated) ∧
      prune (jobs.set jobId updated) updated.updatedAt = .ok candidate := by
  cases call with
  | claim confirmed =>
    simp only [Ending.receipt, bind_eq_ok, pure_eq_ok] at hreceipt
    obtain ⟨current, hcurrent, updatedAt, htime, rfl⟩ := hreceipt
    simp only [Ending.decide, PanelAssistant.claim, hcurrent, ok_bind, bind_eq_ok,
      check_eq_ok, Bool.and_eq_true, Bool.not_eq_true', decide_eq_true_eq] at h
    obtain ⟨-, hget, -⟩ := checkedCurrent_eq_ok.mp hcurrent
    obtain ⟨_, ⟨hactive, hopen⟩, _, -, h⟩ := h
    split at h
    · simp at h
    · simp only [htime, bind_eq_ok, ok_bind, pure_eq_ok, Plan.save.injEq] at h
      obtain ⟨_, -, kept, hkept, rfl, rfl⟩ := h
      have hnow := Json.str.inj (timestamp_eq_ok htime)
      have hrewrite : CheckedRewrite P current (claimedReceipt current updatedAt) :=
        hnow ▸ .claim now (hnow ▸ htime) hactive hopen
      have hupdated : (claimedReceipt current updatedAt).updatedAt = updatedAt := by
        unfold claimedReceipt
        split
        · rfl
        · split <;> rfl
      exact ⟨rfl, current, hget, hactive, keyed_set_rewrite hjobs hget hrewrite,
        hupdated.symm ▸ hkept⟩
  | transition a =>
    simp only [Ending.receipt, bind_eq_ok] at hreceipt
    obtain ⟨current, hcurrent, hadvance⟩ := hreceipt
    simp only [Ending.decide, PanelAssistant.transition, hcurrent, hadvance, ok_bind,
      bind_eq_ok, pure_eq_ok, Plan.save.injEq] at h
    obtain ⟨-, hget, -⟩ := checkedCurrent_eq_ok.mp hcurrent
    obtain ⟨kept, hkept, rfl, rfl⟩ := h
    obtain ⟨hallowed, ⟨time, htime, rfl⟩, hvalid⟩ := advanceReceipt_eq_ok P hadvance
    have hnow := Json.str.inj (timestamp_eq_ok htime)
    have hedge := (Allowed.of_transitionAllowed hallowed).edge
    have hrewrite : CheckedRewrite P current (transitionedReceipt current a time) :=
      hnow ▸ .transition a now (hnow ▸ htime) hchecked hedge (hnow ▸ hvalid)
    have hactive : current.isTerminal = false := by
      rw [InstallJobReceipt.isTerminal, decide_eq_false_iff_not]
      exact not_mem_terminal_of_nextPhase hedge
    exact ⟨rfl, current, hget, hactive, keyed_set_rewrite hjobs hget hrewrite, hkept⟩

/-- A call writes its receipt at the present second. -/
theorem Ending.updatedAt_eq {call : Ending}
    (hreceipt : call.receipt P jobId revision now jobs claimed = .ok updated) :
    updated.updatedAt = now := by
  cases call with
  | claim confirmed =>
    simp only [Ending.receipt, bind_eq_ok, pure_eq_ok] at hreceipt
    obtain ⟨current, hcurrent, updatedAt, htime, rfl⟩ := hreceipt
    obtain rfl := Json.str.inj (timestamp_eq_ok htime)
    unfold claimedReceipt
    split
    · rfl
    · split <;> rfl
  | transition a =>
    simp only [Ending.receipt, bind_eq_ok] at hreceipt
    obtain ⟨current, -, hadvance⟩ := hreceipt
    obtain ⟨-, ⟨time, htime, rfl⟩, -⟩ := advanceReceipt_eq_ok P hadvance
    exact (Json.str.inj (timestamp_eq_ok htime)).symm

/-- The receipt of such a call survives the pruning exactly while the table has room for it. -/
theorem Ending.candidate_get? {call : Ending} (hjobs : Storable P jobs)
    (hchecked : call.checked P = true)
    (hreceipt : call.receipt P jobId revision now jobs claimed = .ok updated)
    (h : call.decide P jobId revision now jobs claimed = .ok (.save candidate id))
    (hterminal : updated.isTerminal = true) :
    candidate.get? jobId =
      if newerTerminal jobs now jobId < maxTerminalJobs then some updated else none := by
  obtain ⟨-, current, hget, hactive, hkeyed, hprune⟩ :=
    Ending.decide_eq_ok hjobs hchecked hreceipt h
  have hself : updated.jobId = jobId := hkeyed jobId updated (Dict.get?_set_self _ _ _)
  have hcount : newerTerminal (jobs.set jobId updated) updated.updatedAt updated.jobId =
      newerTerminal jobs updated.updatedAt updated.jobId :=
    countP_set hget (by rw [newerThan_self, hactive, Bool.and_false, Bool.false_and])
  rw [prune_get? hkeyed (Dict.get?_set_self _ _ _) hterminal hprune, hcount, hself,
    Ending.updatedAt_eq hreceipt]

/-- A call whose receipt was saved answers it. -/
theorem Ending.perform_of_saved {call : Ending} {m m₁ m₂ : Manager} {io : OpIo} {saved : Jobs}
    (hchecked : call.checked P = true) (hload : m.loadLocked P io.load true = (m₁, .ok jobs))
    (hdecide : call.decide P jobId revision io.now jobs m₁.claimedJobs =
      .ok (.save candidate jobId))
    (hsave : m₁.saveLocked P io.save candidate = (m₂, .ok saved))
    (hget : saved.get? jobId = some updated) :
    (call.perform P m io jobId revision).2 = .ok ⟨updated, true⟩ := by
  cases call with
  | claim confirmed =>
    have hperform : m.perform P io (PanelAssistant.claim jobId revision confirmed io.now) =
        (m₂, .ok ⟨updated, true⟩) := PanelAssistant.perform_of_saved hload hdecide hsave hget
    rw [Ending.perform, Manager.asyncClaim, hperform]
  | transition a =>
    have hargs : checkedTransition P a = true := hchecked
    rw [Ending.perform, Manager.asyncTransition, if_pos hargs]
    exact congrArg Prod.snd (PanelAssistant.perform_of_saved hload hdecide hsave hget)

theorem get?_of_saveLocked {m m₂ : Manager} {io : SaveIo} {saved : Jobs}
    (h : m.saveLocked P io candidate = (m₂, .ok saved)) : saved.Same candidate := by
  have hends := saveLocked_ends P m io candidate
  rw [h] at hends
  cases hends with
  | verified plan hplan k hk jobs hsame => exact hsame

end

/-- The call ends its job: under the lock it decides to save this terminal receipt. -/
structure Ends (P : Platform) (m : Manager) (io : OpIo) (jobId : String) (revision : Int)
    (call : Ending) (m₁ : Manager) (loaded : Jobs) (updated : InstallJobReceipt)
    (candidate : Jobs) : Prop where
  checked : call.checked P = true
  load : m.loadLocked P io.load true = (m₁, .ok loaded)
  receipt : call.receipt P jobId revision io.now loaded m₁.claimedJobs = .ok updated
  decision : call.decide P jobId revision io.now loaded m₁.claimedJobs = .ok (.save candidate jobId)
  terminal : updated.isTerminal = true

/-- The receipt that ends a job survives the pruning of its own call, and once the save has
succeeded the call answers it. -/
def TerminalKept (P : Platform) (m : Manager) (io : OpIo) (jobId : String) (revision : Int)
    (call : Ending) : Prop :=
  ∀ m₁ loaded updated candidate, Ends P m io jobId revision call m₁ loaded updated candidate →
    candidate.get? jobId = some updated ∧
      ∀ m₂ saved, m₁.saveLocked P io.save candidate = (m₂, .ok saved) →
        saved.get? jobId = some updated ∧
        (call.perform P m io jobId revision).2 = .ok ⟨updated, true⟩

/-- Of the terminal receipts of the store fewer than it retains stand above this second and this
job. -/
def RoomLeft (P : Platform) (m : Manager) (io : OpIo) (jobId : String) (revision : Int)
    (call : Ending) : Prop :=
  ∀ m₁ loaded updated candidate, Ends P m io jobId revision call m₁ loaded updated candidate →
    newerTerminal loaded io.now jobId < maxTerminalJobs

theorem Ends.candidate_get? {P : Platform} {m m₁ : Manager} {io : OpIo} {jobId : String}
    {revision : Int} {call : Ending} {loaded candidate : Jobs} {updated : InstallJobReceipt}
    (h : Ends P m io jobId revision call m₁ loaded updated candidate) :
    candidate.get? jobId =
      if newerTerminal loaded io.now jobId < maxTerminalJobs then some updated else none :=
  Ending.candidate_get? (storable_of_loadDurable P (loadLocked_refreshed h.load).2) h.checked
    h.receipt h.decision h.terminal

theorem terminal_receipt_kept_iff (P : Platform) (m : Manager) (io : OpIo) (jobId : String)
    (revision : Int) (call : Ending) :
    TerminalKept P m io jobId revision call ↔ RoomLeft P m io jobId revision call := by
  constructor
  · intro h m₁ loaded updated candidate hends
    obtain ⟨hkept, -⟩ := h m₁ loaded updated candidate hends
    rw [hends.candidate_get?] at hkept
    by_contra hfull
    rw [if_neg hfull] at hkept
    cases hkept
  · intro h m₁ loaded updated candidate hends
    have hkept : candidate.get? jobId = some updated := by
      rw [hends.candidate_get?, if_pos (h m₁ loaded updated candidate hends)]
    refine ⟨hkept, fun m₂ saved hsave => ?_⟩
    have hget : saved.get? jobId = some updated := (get?_of_saveLocked hsave jobId).trans hkept
    exact ⟨hget, Ending.perform_of_saved hends.checked hends.load hends.decision hsave hget⟩

/-! ## A crowded store

A job whose attempts are used up, and 32 jobs that were cancelled in the second in which a new
process takes it over. Their ids are the greater ones, so the receipt of the takeover is dropped.
-/

namespace Crowded

open SmallRun

def crowdDigits (i : ℕ) : List Char :=
  List.replicate 30 'f' ++ [Nat.digitChar (i / 16), Nat.digitChar (i % 16)]

def crowdId (i : ℕ) : String := String.ofList (crowdDigits i)

/-- A job cancelled before anything was done. -/
def ended (i : ℕ) : InstallJobReceipt :=
  { created with
    jobId := crowdId i
    revision := 1
    updatedAt := cancelIo.now
    phase := .cancelled
    cancelRequested := true
    resultCode := some .cancelledByUser }

/-- A job that 32 processes have taken over. -/
def exhausted : InstallJobReceipt :=
  { created with
    revision := 32
    executorGeneration := 32
    attempt := 32 }

def receipts : List InstallJobReceipt := exhausted :: (List.range 32).map ended

theorem nodup_digits : ((List.range 32).map crowdDigits).Nodup := by
  decide +kernel

theorem nodup_receipts : (receipts.map (·.jobId)).Nodup := by
  have hids : ((List.range 32).map crowdId).Nodup := by
    have hinjective : Function.Injective String.ofList := fun cs cs' h => String.ofList_injective h
    rw [show (List.range 32).map crowdId = ((List.range 32).map crowdDigits).map String.ofList from
      (List.map_map ..).symm]
    exact nodup_digits.map hinjective
  rw [receipts, List.map_cons, List.map_map, List.nodup_cons]
  refine ⟨?_, hids⟩
  intro hmem
  obtain ⟨i, -, hid⟩ := List.mem_map.mp hmem
  have hdigits : crowdDigits i = "0123456789abcdef0123456789abcdef".toList := by
    rw [← String.toList_ofList (l := crowdDigits i)]
    exact congrArg String.toList hid
  rw [String.toList_ofList] at hdigits
  exact absurd (List.cons.inj hdigits).1 (by decide)

/-- The store. -/
def table : Jobs where
  entries := receipts.map fun r => (r.jobId, r)
  nodup := by
    rw [List.map_map]
    exact nodup_receipts

def disk : Disk := ⟨some (wrapDocument storeKey (serializeDocument table)), none⟩

/-- The process that has just started. -/
def manager : Manager := ⟨disk, none, ∅⟩

def claimIo : OpIo := ⟨loadIo, saveIo, cancelIo.now⟩

def takeover : Ending := .claim (some 32)

theorem timestamp_cancelIo : timestamp (.str cancelIo.now) = .ok cancelIo.now := rfl

theorem fields_created : FieldsOk platform created :=
  storable_created.fields jobId created (Dict.get?_set_self _ _ _)

theorem valid_created : PrimaryValid platform created :=
  ((validate_ok_iff platform).mp
    (storable_created.valid jobId created (Dict.get?_set_self _ _ _))).2

theorem isHex_crowdId {i : ℕ} (h : i < 32) : isHex32 (crowdId i) = true := by
  have hall : ∀ i < 32, repeats isHex 32 32 (crowdDigits i) = true := by decide +kernel
  rw [isHex32, crowdId, String.toList_ofList]
  exact hall i h

theorem fields_ended {i : ℕ} (hi : i < 32) : FieldsOk platform (ended i) := by
  have h := fields_created
  have hhex := isHex_crowdId hi
  have hids := h.ids
  rw [Bool.and_eq_true, Bool.and_eq_true] at hids
  refine ⟨safeText_of_hex (by decide) le_rfl hhex, h.planSha256, h.adbCredentialId, ?_, h.rootMode,
    h.actual, h.health, h.entry, rfl, h.generation, h.createdAt, timestamp_cancelIo,
      h.attempt, h.target, h.artifact⟩
  rw [Bool.and_eq_true, Bool.and_eq_true]
  exact ⟨⟨hhex, hids.1.2⟩, hids.2⟩

theorem created_before_ended : created.createdAt ≤ cancelIo.now := by
  decide +kernel

theorem valid_ended (i : ℕ) : PrimaryValid platform (ended i) := by
  have h := valid_created
  refine ⟨created_before_ended, h.size, planBound_of_created rfl rfl rfl rfl, h.abi, h.sdk,
    h.attempt, ?_, fun _ => rfl,
    fun hp => ?_, fun hp => ?_, fun _ _ => rfl, rfl, fun hp => ?_, fun _ => rfl,
      fun _ hx => by cases hx⟩
  · show (0 : Int) ≤ 1
    decide
  all_goals exact absurd hp (by simp only [ended]; decide)

theorem fields_exhausted : FieldsOk platform exhausted := by
  have h := fields_created
  exact ⟨h.jobId, h.planSha256, h.adbCredentialId, h.ids, h.rootMode, h.actual,
    h.health, h.entry, rfl, rfl, h.createdAt, h.updatedAt, rfl, h.target, h.artifact⟩

theorem valid_exhausted : PrimaryValid platform exhausted := by
  have h := valid_created
  exact ⟨h.clock, h.size, planBound_of_created rfl rfl rfl rfl, h.abi, h.sdk, rfl, le_rfl,
    h.noRootMode, h.rootMode, h.measured, h.unmeasured, h.outcome, h.healthy, h.unhealthy, h.health⟩

/-! ### Tables of these jobs -/

/-- A table with no other receipts. -/
def Crowd (jobs : Jobs) : Prop :=
  ∀ id r, jobs.get? id = some r → r.jobId = id ∧ r ∈ receipts

theorem crowd_table : Crowd table := by
  intro id r hget
  obtain ⟨r', hr', heq⟩ := List.mem_map.mp (Dict.get?_eq_some.mp hget)
  cases heq
  exact ⟨rfl, hr'⟩

theorem of_mem_receipts {r : InstallJobReceipt} (h : r ∈ receipts) :
    FieldsOk platform r ∧ validateReceiptInvariants platform r = .ok () ∧ r.failureStage = none ∧
      r.target.model = "Panel" ∧ r.updatedAt ≤ cancelIo.now := by
  rcases List.mem_cons.mp h with rfl | h
  · exact ⟨fields_exhausted, (validate_ok_iff platform).mpr ⟨rfl, valid_exhausted⟩, rfl, rfl,
      created_before_ended⟩
  · obtain ⟨i, hi, rfl⟩ := List.mem_map.mp h
    exact ⟨fields_ended (List.mem_range.mp hi), (validate_ok_iff platform).mpr ⟨rfl, valid_ended i⟩,
      rfl, rfl, le_rfl⟩

section

variable {jobs : Jobs}

theorem Crowd.keyed (h : Crowd jobs) : Keyed jobs := fun id r hget => (h id r hget).1

theorem Crowd.mem_receipts (h : Crowd jobs) {r : InstallJobReceipt} (hr : r ∈ jobs.values) :
    r ∈ receipts := by
  obtain ⟨id, hget⟩ := Dict.mem_values.mp hr
  exact (h id r hget).2

theorem terminal_of_mem_receipts {r : InstallJobReceipt} (h : r ∈ receipts) :
    r = exhausted ∧ r.isTerminal = false ∨ r ∈ (List.range 32).map ended ∧ r.isTerminal = true := by
  rcases List.mem_cons.mp h with rfl | h
  · exact .inl ⟨rfl, by decide⟩
  · refine .inr ⟨h, ?_⟩
    obtain ⟨i, -, rfl⟩ := List.mem_map.mp h
    exact (by decide : Decidable.decide (InstallPhase.cancelled ∈ terminalPhases) = true)

theorem Crowd.storable (h : Crowd jobs) : Storable platform jobs := by
  have hids := h.keyed.nodup_ids
  have hactive : (activeOf jobs.values).length ≤ 1 := by
    have hone : ∀ r ∈ activeOf jobs.values, ∃ r' ∈ [exhausted], r'.jobId = r.jobId := by
      intro r hr
      obtain ⟨hin, hrun⟩ := List.mem_filter.mp hr
      rcases terminal_of_mem_receipts (h.mem_receipts hin) with ⟨rfl, -⟩ | ⟨-, hend⟩
      · exact ⟨exhausted, List.mem_singleton_self _, rfl⟩
      · rw [hend] at hrun
        cases hrun
    exact length_le_of_ids (hids.sublist (List.filter_sublist.map _)) hone
  have hterminal : (terminalOf jobs.values).length ≤ ((List.range 32).map ended).length := by
    refine length_le_of_ids (hids.sublist (List.filter_sublist.map _)) fun r hr => ?_
    obtain ⟨hin, hend⟩ := List.mem_filter.mp hr
    rcases terminal_of_mem_receipts (h.mem_receipts hin) with ⟨-, hrun⟩ | ⟨hmem, -⟩
    · rw [hrun] at hend
      cases hend
    · exact ⟨r, hmem, rfl⟩
  refine ⟨h.keyed, fun id r hget => (of_mem_receipts (h id r hget).2).1,
    fun id r hget => (of_mem_receipts (h id r hget).2).2.1, h.keyed.admissible ?_
      (hactive.trans (by decide)) (hterminal.trans_eq (by simp [maxTerminalJobs]))⟩
  intro id id' r r' hget hget' hrun hrun' _
  have hone : ∀ {id : String} {r : InstallJobReceipt}, jobs.get? id = some r →
    r.isTerminal = false →
      id = jobId := by
    intro id r hget hrun
    rcases terminal_of_mem_receipts (h id r hget).2 with ⟨rfl, -⟩ | ⟨-, hend⟩
    · exact (h id exhausted hget).1.symm
    · rw [hend] at hrun
      cases hrun
  rw [hone hget hrun, hone hget' hrun']

theorem Crowd.size (h : Crowd jobs) :
    sizeAllowed (wrapDocument storeKey (serializeDocument jobs)) = true := by
  have hlength : jobs.values.length ≤ receipts.length :=
    length_le_of_ids h.keyed.nodup_ids fun r hr => ⟨r, h.mem_receipts hr, rfl⟩
  have hwidth : width "Panel" = 7 := width_ofList (by decide)
  have hmodels : modelWidths jobs = 7 * jobs.values.length := by
    have hmap : jobs.values.map (fun r => width r.target.model) = jobs.values.map fun _ => 7 := by
      refine List.map_congr_left fun r hr => ?_
      rw [(of_mem_receipts (h.mem_receipts hr)).2.2.2.1, hwidth]
    rw [modelWidths, hmap, List.map_const', List.sum_replicate, nsmul_eq_mul,
      Nat.cast_id, Nat.mul_comm]
  refine sizeAllowed_of_models plainTexts_platform h.storable.parsed ?_
  have hcount : receipts.length = 33 := rfl
  rw [hmodels, maxStoreBytes]
  omega

theorem Crowd.detailless (h : Crowd jobs) : Detailless jobs :=
  fun id r hget => (of_mem_receipts (h id r hget).2).2.2.1

end

theorem table_values : table.values = receipts := by
  rw [Dict.values, table, List.map_map]
  exact List.map_id _

/-- All 33 receipts of the store are written. -/
theorem counts_bound_crowded : table.values.length = 33 ∧
    validatedDocumentForSave platform table = .ok (serializeDocument table) := by
  have hstorable : Storable platform table := crowd_table.storable
  have hbound := counts_bound_store_size platform plainTexts_platform table
    hstorable.admissible.active hstorable.admissible.terminal (fun r hr => ?_)
    (.inr fun r hr => ?_)
  · exact ⟨by rw [table_values]; rfl, hbound.2 hstorable⟩
  · obtain ⟨jobId, hget⟩ := Dict.mem_values.mp hr
    exact ⟨_, parseReceipt_serializeReceipt platform (hstorable.fields jobId r hget)
      (hstorable.valid jobId r hget)⟩
  · rw [(of_mem_receipts (crowd_table.mem_receipts hr)).2.2.2.1]
    exact basic_panel

/-! ### The takeover -/

/-- The receipt of the takeover. -/
def quarantined : InstallJobReceipt := claimedReceipt exhausted claimIo.now

theorem jobId_lt (i : ℕ) : jobId < crowdId i := by
  rw [String.lt_iff_toList_lt, crowdId, String.toList_ofList, jobId, String.toList_ofList]
  exact List.Lex.rel (by decide)

theorem newer_ended (i : ℕ) : newerThan claimIo.now jobId (ended i) = true :=
  decide_eq_true (.inr ⟨rfl, jobId_lt i⟩)

theorem load_manager : ∃ loaded, loaded.Same table ∧
    manager.loadLocked platform claimIo.load true = (⟨disk, some loaded, ∅⟩, .ok loaded) := by
  have hload : ∃ loaded, loadDurable platform disk = .ok loaded ∧ loaded.Same table :=
    loadDurable_saved crowd_table.storable crowd_table.detailless crowd_table.size rfl rfl
  obtain ⟨loaded, hload, hsame⟩ := hload
  exact ⟨loaded, hsame, loadLocked_fine hload rfl⟩

/-- What the pruning leaves is of the store that was loaded. -/
theorem get?_of_candidate {loaded candidate : Jobs} {id : String} {r : InstallJobReceipt}
    (hprune : prune (loaded.set jobId quarantined) claimIo.now = .ok candidate)
    (hnone : candidate.get? jobId = none) (hget : candidate.get? id = some r) :
    loaded.get? id = some r := by
  have hne : id ≠ jobId := by
    rintro rfl
    rw [hnone] at hget
    cases hget
  rcases prune_pruned hprune id with hkept | ⟨hlost, -⟩
  · rw [hget, Dict.get?_set_ne _ _ hne] at hkept
    exact hkept.symm
  · rw [hlost] at hget
    cases hget

section

variable {loaded : Jobs} (hsame : loaded.Same table)
include hsame

theorem crowd_loaded : Crowd loaded := fun id r hget => crowd_table id r (hsame id ▸ hget)

theorem loaded_get? : loaded.get? jobId = some exhausted := (hsame jobId).trans rfl

/-- All the others stand above the job. -/
theorem newerTerminal_loaded : newerTerminal loaded claimIo.now jobId = 32 := by
  have hall : ∀ r ∈ (List.range 32).map ended,
      (r.isTerminal && newerThan claimIo.now jobId r) = true := by
    intro r hr
    obtain ⟨i, -, rfl⟩ := List.mem_map.mp hr
    rw [newer_ended, Bool.and_true]
    exact (by decide : Decidable.decide (InstallPhase.cancelled ∈ terminalPhases) = true)
  have hrun : exhausted.isTerminal = false := by decide
  rw [newerTerminal, hsame.values_perm.countP_eq, table_values, receipts, List.countP_cons,
    List.countP_eq_length.mpr hall, hrun]
  simp

theorem takeover_decided : ∃ candidate,
    prune (loaded.set jobId quarantined) claimIo.now = .ok candidate ∧
      takeover.decide platform jobId 32 claimIo.now loaded ∅ = .ok (.save candidate jobId) := by
  have hcurrent : checkedCurrent loaded jobId 32 = .ok exhausted :=
    checkedCurrent_eq_ok.mpr ⟨by decide +kernel, loaded_get? hsame, rfl⟩
  have hnow : (fromIsoFormat claimIo.now).any
      (fun instant => decide (0 ≤ instant - terminalRetention)) = true := by decide +kernel
  obtain ⟨instant, hinstant, hcutoff⟩ := any_eq_true_iff.mp hnow
  have hprune : ∃ candidate, prune (loaded.set jobId quarantined) claimIo.now = .ok candidate := by
    simp only [prune, hinstant, hcutoff, check, if_true, ok_bind]
    exact ⟨_, rfl⟩
  obtain ⟨candidate, hprune⟩ := hprune
  refine ⟨candidate, hprune, ?_⟩
  have hactive : (!exhausted.isTerminal && decide (exhausted.phase ≠ .healthyUnclaimed)) =
    true := by
    decide
  have hquarantined : claimedReceipt exhausted claimIo.now = quarantined := rfl
  have htime : timestamp (.str claimIo.now) = .ok claimIo.now := timestamp_cancelIo
  have hconfirmed : ((some 32).all fun revision => revision == exhausted.revision) =
    true := by decide
  have hunclaimed : (∅ : Dict String Int).get? jobId ≠ some exhausted.executorGeneration :=
    fun h => by cases h
  rw [takeover, Ending.decide, PanelAssistant.claim, hcurrent, ok_bind]
  simp only [hactive, hconfirmed, hunclaimed, htime, hquarantined, hprune, check, if_true, if_false,
    ok_bind, Option.isSome_some, Bool.or_true]
  rfl

theorem ends_takeover {candidate : Jobs}
    (hload : manager.loadLocked platform claimIo.load true = (⟨disk, some loaded, ∅⟩, .ok loaded))
    (hdecide : takeover.decide platform jobId 32 claimIo.now loaded ∅ =
      .ok (.save candidate jobId)) :
    Ends platform manager claimIo jobId 32 takeover ⟨disk, some loaded, ∅⟩ loaded quarantined
      candidate := by
  have hcurrent : checkedCurrent loaded jobId 32 = .ok exhausted :=
    checkedCurrent_eq_ok.mpr ⟨by decide +kernel, loaded_get? hsame, rfl⟩
  have htime : timestamp (.str claimIo.now) = .ok claimIo.now := timestamp_cancelIo
  refine ⟨rfl, hload, ?_, hdecide, by decide⟩
  rw [takeover, Ending.receipt, hcurrent, ok_bind, htime]
  rfl

/-- The receipt is lost in its own call. -/
theorem candidate_get?_none {candidate : Jobs}
    (hends : Ends platform manager claimIo jobId 32 takeover ⟨disk, some loaded, ∅⟩ loaded
      quarantined candidate) : candidate.get? jobId = none := by
  rw [hends.candidate_get?, newerTerminal_loaded hsame]
  rfl

/-- The store without the job is saved. -/
theorem takeover_saved {candidate : Jobs}
    (hprune : prune (loaded.set jobId quarantined) claimIo.now = .ok candidate)
    (hnone : candidate.get? jobId = none) :
    ∃ m saved, saved.Same candidate ∧
      Manager.saveLocked platform ⟨disk, some loaded, ∅⟩ claimIo.save candidate =
        (m, .ok saved) := by
  have hcrowd : Crowd candidate := fun id r hget =>
    crowd_loaded hsame id r (get?_of_candidate hprune hnone hget)
  have hclock : clockReversed loaded candidate = false := by
    rw [clockReversed, List.any_eq_false]
    intro e he
    rw [Bool.not_eq_true, any_eq_false_iff]
    intro r hr
    have hold := get?_of_candidate hprune hnone hr
    rw [Dict.get?_eq_some.mpr he, Option.some.injEq] at hold
    rw [decide_eq_false_iff_not, hold]
    exact lt_irrefl _
  obtain ⟨saved, hsaved, hsave⟩ := saveLocked_fine (P := platform)
    (m := ⟨disk, some loaded, ∅⟩) fine_saveIo rfl (crowd_loaded hsame).detailless hcrowd.storable
    hcrowd.detailless hcrowd.size hclock rfl
  exact ⟨_, saved, hsaved, hsave⟩

end

/-- The takeover of the job is saved without its receipt, and the caller gets a `KeyError`. -/
theorem takeover_lost :
    (manager.asyncClaim platform claimIo jobId 32 (some 32)).2 = .error .key ∧
      ¬TerminalKept platform manager claimIo jobId 32 takeover := by
  obtain ⟨loaded, hsame, hload⟩ := load_manager
  obtain ⟨candidate, hprune, hdecide⟩ := takeover_decided hsame
  have hends := ends_takeover hsame hload hdecide
  have hnone := candidate_get?_none hsame hends
  obtain ⟨m, saved, hsaved, hsave⟩ := takeover_saved hsame hprune hnone
  constructor
  · have hmissing : saved.get? jobId = none := (hsaved jobId).trans hnone
    have hclaim : PanelAssistant.claim jobId 32 (some 32) claimIo.now loaded ∅ =
        .ok (.save candidate jobId) := hdecide
    rw [Manager.asyncClaim, Manager.perform, hload]
    simp only [hclaim, hsave, hmissing]
  · intro hkept
    obtain ⟨hget, -⟩ := hkept _ loaded quarantined candidate hends
    rw [hnone] at hget
    cases hget

end Crowded

end PanelAssistant
