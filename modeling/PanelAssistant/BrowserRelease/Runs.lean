import PanelAssistant.BrowserRelease.Holder
import PanelAssistant.Library.Tally
import Mathlib.Data.List.Dedup

/-!
# Every interleaving of the requests

The tasks that run account for the admitted requests, and those in the body of a lease for the
leases of their entry (`Inv.requests`, `Inv.leases`). A step of a task that does not hold `_busy`
keeps what the holder relies on (`Held`), since it changes leases only and takes `_busy` only when
it is free. -/

namespace PanelAssistant.BrowserRelease

open Library Library.Tasks

/-- What a task is when it is not in the part that holds `_busy`. -/
def Task.Apt (t : Task) : Prop :=
  match t.stage with
  | .listing => t.purpose = .list
  | .reading => ∃ user tag, t.purpose = .prepare user tag
  | .body _ => t.purpose = .lease
  | .drain => t.purpose = .stop
  | _ => True

/-- What a step of a task does to the accounts of the cache. -/
structure Stepped (c : Cache) (t : Task) (c' : Cache) (t' : Task) : Prop where
  leases : ∀ id, (t.leasing id = true → 0 < c.leases id) →
    c'.leases id + (t.leasing id).toNat = c.leases id + (t'.leasing id).toNat
  requests : (t.running = true → 0 < c.requests) →
    c'.requests + t.running.toNat = c.requests + t'.running.toNat
  closes : c'.closed = true → c.closed = true ∨ t.purpose = .stop ∧ c.requests = 0
  closed : c.closed = true → c'.closed = true
  stopped : c'.stopped = c.stopped
  purpose : t'.purpose = t.purpose
  apt : t'.Apt
  grown : t.running = false → ∀ id, c.entries.get? id = none → c'.entries.get? id = none
  swept : t'.purpose = .stop → t'.stage = .done true → c'.closed = true ∧
    ∀ id, c'.entries.get? id = none

variable {c c' : Cache} {t t' : Task} {op : Option Task}

theorem apt_of_later (h : t.busy = true ∨ t.stage.over = true) : t.Apt := by
  unfold Task.busy at h
  unfold Task.Apt
  cases hstage : t.stage with
  | listing => rw [hstage] at h; simp [Stage.busy, Stage.over] at h
  | reading => rw [hstage] at h; simp [Stage.busy, Stage.over] at h
  | body id => rw [hstage] at h; simp [Stage.busy, Stage.over] at h
  | drain => rw [hstage] at h; simp [Stage.busy, Stage.over] at h
  | _ => trivial

theorem leasing_of_later (h : t.busy = true ∨ t.stage.over = true) (id : String) :
    t.leasing id = false := by
  unfold Task.busy at h
  unfold Task.leasing
  cases hstage : t.stage with
  | body _ => rw [hstage] at h; simp [Stage.busy, Stage.over] at h
  | _ => rfl

theorem Went.stepped (h : Went c t c' t') (hheld : Held c (some t)) (ht : t.busy = true) :
    Stepped c t c' t' where
  leases := by
    intro id _
    rw [h.leases id, leasing_of_later h.later, leasing_of_later (.inl ht)]
  requests := h.requests
  closes := fun hclosed => .inl (h.closed ▸ hclosed)
  closed := fun hclosed => h.closed.trans hclosed
  stopped := h.stopped
  purpose := h.purpose
  apt := apt_of_later h.later
  grown := h.grown
  swept := fun hstop hdone =>
    ⟨h.closed.trans ((hheld.prepared t rfl).closed (h.purpose ▸ hstop)).1, h.swept hstop hdone⟩

/-! ## What the other tasks leave to the holder -/

namespace Held

theorem congr (h : Held c op) (hentries : c'.entries = c.entries) (hfiles : c'.files = c.files)
    (hinitialized : c'.initialized = c.initialized) (hfailed : c'.failed = c.failed)
    (hbusy : c'.busy = c.busy)
    (hclosed : c'.closed = c.closed) : Held c' op := by
  obtain ⟨sound, busy, prepared⟩ := h
  obtain ⟨entries, initialized, busy, closed, failed, stopped, requests, files, now, prereleases⟩ :=
    c
  obtain ⟨entries', initialized', busy', closed', failed', stopped', requests', files',
    now', prereleases'⟩ := c'
  cases hentries
  cases hfiles
  cases hinitialized
  cases hfailed
  cases hbusy
  cases hclosed
  refine ⟨⟨sound.retiring, sound.retired, sound.present, sound.size, sound.unused,
    sound.owned, sound.empty⟩, busy, fun t ht => ?_⟩
  have hprepared := prepared t ht
  exact ⟨hprepared.reconcile, hprepared.initialized, hprepared.preparing, hprepared.closed⟩

theorem dismiss (h : Held c op) (purpose : Purpose) : Held (c.dismiss purpose) op := by
  rw [dismiss_eq]
  exact h.congr rfl rfl rfl rfl rfl rfl

/-- The leases of an entry are changed. -/
theorem update (h : Held c op) {id : String} {e : Entry} {f : Entry → Entry}
    (hget : c.entries.get? id = some e)
    (he : e.retiring = false) (hf : (f e).retiring = false) : Held (c.update id f) op := by
  refine ⟨h.sound.update hget he hf, ?_, fun t ht => ?_⟩
  · rw [update_eq hget]
    exact h.busy
  · have hprepared := h.prepared t ht
    rw [update_eq hget]
    refine ⟨hprepared.reconcile, hprepared.initialized, hprepared.preparing, fun hstop => ?_⟩
    obtain ⟨hclosed, hcover⟩ := hprepared.closed hstop
    refine ⟨hclosed, fun id' rest hstage id'' e' hget' => ?_⟩
    rcases get?_set_some hget' with ⟨hid, -⟩ | ⟨-, hold⟩
    · exact hcover id' rest hstage id'' e (hid ▸ hget)
    · exact hcover id' rest hstage id'' e' hold

/-- A task takes `_busy`. -/
theorem take (h : Held c none) (hcleaning : t.stage.cleaning = none)
    (hreserved : t.stage.reserved = none)
    (hprepared : Prepared c t) : Held { c with busy := true } (some t) := by
  have hsound : Sound c none none := h.sound
  refine ⟨?_, rfl, fun u hu => ?_⟩
  · rw [Option.bind_some, Option.bind_some, hcleaning, hreserved]
    exact ⟨hsound.retiring, hsound.retired, hsound.present, hsound.size, hsound.unused,
      hsound.owned, hsound.empty⟩
  · cases hu
    exact ⟨hprepared.reconcile, hprepared.initialized, hprepared.preparing, hprepared.closed⟩

theorem eq_none (h : Held c op) (hbusy : c.busy = false) : op = none := by
  have hnone := h.busy
  rw [hbusy] at hnone
  exact Option.not_isSome_iff_eq_none.mp (by rw [← hnone]; exact Bool.false_ne_true)

end Held

theorem leases_update {id id' : String} {e : Entry} {f : Entry → Entry}
    (hget : c.entries.get? id = some e) :
    (c.update id f).leases id' = if id' = id then (f e).leases else c.leases id' := by
  rw [update_eq hget, Cache.leases, Dict.get?_set]
  split
  · rfl
  · rfl

/-- A request that waits for nothing of the cache is over. -/
theorem stepped_dismiss (hrequest : t.purpose.request = true) (hover : t.stage.over = false)
    (hleasing : ∀ id, t.leasing id = false) (ok : Bool) :
    Stepped c t (c.dismiss t.purpose) { t with stage := .done ok } := by
  have hrunning : t.running = true := by rw [Task.running, hrequest, hover]; rfl
  have hdone : Task.running { t with stage := .done ok } = false := by
    rw [Task.running]
    exact Bool.and_false _
  rw [dismiss_eq, hrequest]
  refine ⟨fun id _ => ?_, fun hrequests => ?_, .inl, id, rfl, rfl, trivial,
    fun hnot => ?_, fun hstop => ?_⟩
  · rw [hleasing id]
    rfl
  · have := hrequests hrunning
    rw [hrunning, hdone]
    show c.requests - 1 + 1 = c.requests + 0
    omega
  · rw [hrunning] at hnot
    cases hnot
  · have hstop : t.purpose = .stop := hstop
    rw [hstop] at hrequest
    cases hrequest

/-- How the others leave the holder, or become it. -/
def Handed (op : Option Task) (c' : Cache) (t' : Task) : Prop :=
  t'.busy = false ∧ Held c' op ∨ op = none ∧ t'.busy = true ∧ Held c' (some t')

/-- A step after which the task holds `_busy`. -/
theorem stepped_take {stage : Stage} (hover : t.stage.over = false)
    (hleasing : ∀ id, t.leasing id = false)
    (hstage : stage.busy = true) : Stepped c t { c with busy := true } { t with stage } := by
  have hrunning : Task.running { t with stage } = t.running := by
    rw [running_of_busy (t := { t with stage }) hstage, Task.running, hover,
      Bool.not_false, Bool.and_true]
  refine ⟨fun id _ => ?_, fun _ => by rw [hrunning], .inl, id, rfl, rfl, apt_of_later (.inl hstage),
    fun _ _ hnone => hnone, fun _ hdone => ?_⟩
  · rw [hleasing id, leasing_of_later (t := { t with stage }) (.inl hstage)]
    rfl
  · have hdone : stage = .done true := hdone
    rw [hdone] at hstage
    cases hstage

theorem prepared_step (h : Held c op) {user : String} {tag : Option String}
    (hpurpose : t.purpose = .prepare user tag)
    (hstage : t.stage = .reading) (hprepare : c.asyncPrepare t user tag = (c', t')) :
    Stepped c t c' t' ∧ Handed op c' t' := by
  have hrequest : t.purpose.request = true := by rw [hpurpose]; rfl
  have hover : t.stage.over = false := by rw [hstage]; rfl
  have hleasing : ∀ id, t.leasing id = false := fun id => by rw [Task.leasing, hstage]; rfl
  have hdismiss : ∀ ok, Stepped c t (c.dismiss t.purpose) { t with stage := .done ok } ∧
      Handed op (c.dismiss t.purpose) { t with stage := .done ok } :=
    fun ok => ⟨stepped_dismiss hrequest hover hleasing ok, .inl ⟨rfl, h.dismiss _⟩⟩
  unfold Cache.asyncPrepare at hprepare
  split at hprepare
  · cases hprepare
    exact hdismiss false
  · split at hprepare
    · cases hprepare
      exact hdismiss true
    · split at hprepare
      · cases hprepare
        exact hdismiss false
      · rename_i hfree
        have hnone := h.eq_none (Bool.not_eq_true _ ▸ hfree)
        subst hnone
        by_cases hinitialized : c.initialized = true
        · rw [if_pos hinitialized] at hprepare
          cases hprepare
          exact ⟨stepped_take hover hleasing rfl, .inr ⟨rfl, rfl, h.take rfl rfl
            (.of_prepare hpurpose (fun heq => by cases heq) hinitialized)⟩⟩
        · rw [if_neg hinitialized] at hprepare
          cases hprepare
          refine ⟨stepped_take hover hleasing rfl, .inr ⟨rfl, rfl, h.take rfl rfl ?_⟩⟩
          refine ⟨fun _ => Bool.not_eq_true _ ▸ hinitialized, fun _ _ _ hnot => absurd rfl hnot,
            fun _ => ⟨user, tag, hpurpose⟩, fun hstop => ?_⟩
          have hstop : t.purpose = .stop := hstop
          rw [hpurpose] at hstop
          cases hstop

/-- The leases of an entry that is leased. -/
theorem exists_of_leased {id : String} (h : Held c op) (hleases : 0 < c.leases id) :
    ∃ e, c.entries.get? id = some e ∧ 0 < e.leases ∧ e.retiring = false := by
  unfold Cache.leases at hleases
  cases hget : c.entries.get? id with
  | none =>
    rw [hget] at hleases
    exact absurd hleases (Nat.lt_irrefl 0)
  | some e =>
    rw [hget] at hleases
    have hpos : 0 < e.leases := hleases
    refine ⟨e, rfl, hpos, ?_⟩
    by_contra hretiring
    have := (h.sound.retiring id e hget (Bool.not_eq_false _ ▸ hretiring)).1
    omega

/-- The end of a lease, with the first part of its reaping. -/
theorem lease_ended {id : String} {cancelled cancelled' : Bool} (h : Held c op)
    (hleased : 0 < c.leases id)
    (hend : c.endLease ⟨.lease, .body id, cancelled'⟩ id = (c', t')) :
    Stepped c ⟨.lease, .body id, cancelled⟩ c' t' ∧ Handed op c' t' := by
  obtain ⟨e, hget, hpos, hkept⟩ := exists_of_leased h hleased
  have hheld : Held (c.update id fun entry => { entry with leases := entry.leases - 1 }) op :=
    h.update hget hkept hkept
  have hleases : ∀ id',
    (c.update id fun entry => { entry with leases := entry.leases - 1 }).leases id' =
      if id' = id then e.leases - 1 else c.leases id' := fun id' => leases_update hget
  have haccount : ∀ id',
    (c.update id fun entry => { entry with leases := entry.leases - 1 }).leases id' +
      (Task.leasing ⟨.lease, .body id, cancelled⟩ id').toNat = c.leases id' := by
    intro id'
    rw [hleases, Task.leasing]
    split
    · rename_i hid
      rw [hid, beq_self_eq_true, Cache.leases, hget]
      show e.leases - 1 + 1 = e.leases
      omega
    · rename_i hid
      rw [beq_eq_false_iff_ne.mpr fun heq => hid (by cases heq; rfl)]
      rfl
  rw [update_eq hget] at hheld haccount
  unfold Cache.endLease at hend
  rw [update_eq hget] at hend
  split at hend
  · cases hend
    refine ⟨⟨fun id' _ => haccount id', fun hrequests => ?_, .inl, fun hclosed => hclosed,
      rfl, rfl, trivial,
      fun hover => (by cases hover), fun hstop => (by cases hstop)⟩, .inl ⟨rfl, hheld.dismiss _⟩⟩
    have := hrequests rfl
    show c.requests - 1 + 1 = c.requests + 0
    omega
  · rename_i hfree
    have hnone := h.eq_none (Bool.not_eq_true _ ▸ hfree)
    subst hnone
    cases hend
    refine ⟨⟨fun id' _ => haccount id', fun _ => rfl, .inl, fun hclosed => hclosed,
      rfl, rfl, trivial, fun hover => (by cases hover), fun hstop => (by cases hstop)⟩,
        .inr ⟨rfl, rfl, hheld.take rfl rfl ?_⟩⟩
    exact ⟨fun heq => (by cases heq), fun _ _ hprepare => (by cases hprepare),
      fun heq => (by cases heq), fun hstop => (by cases hstop)⟩

/-- The close of the custody takes `_busy` for the last sweep. -/
theorem close_begun {cancelled : Bool} (h : Held c op) (hrequests : c.requests = 0)
    (hclose : c.asyncClose ⟨.stop, .drain, cancelled⟩ = (c', t')) :
    Stepped c ⟨.stop, .drain, cancelled⟩ c' t' ∧ Handed op c' t' := by
  unfold Cache.asyncClose at hclose
  split at hclose
  · cases hclose
    exact ⟨⟨fun _ _ => rfl, fun _ => rfl, .inl, fun hclosed => hclosed, rfl, rfl, trivial,
      fun _ _ hnone => hnone, fun _ hdone => (by cases hdone)⟩, .inl ⟨rfl, h⟩⟩
  · rename_i hfree
    have hnone := h.eq_none (Bool.not_eq_true _ ▸ hfree)
    subst hnone
    cases hclose
    have hsound : Sound c none none := h.sound
    refine ⟨⟨fun _ _ => rfl, fun _ => rfl, fun _ => .inr ⟨rfl, hrequests⟩,
      fun _ => rfl, rfl, rfl, trivial,
      fun _ _ hnone => hnone, fun _ hdone => (by cases hdone)⟩, .inr ⟨rfl, rfl, ?_⟩⟩
    refine ⟨⟨hsound.retiring, hsound.retired, hsound.present, hsound.size,
      hsound.unused, hsound.owned, hsound.empty⟩, rfl, fun u hu => ?_⟩
    cases hu
    exact ⟨fun heq => (by cases heq), fun _ _ hprepare => (by cases hprepare),
      fun heq => (by cases heq), fun _ => ⟨rfl, fun _ _ heq => (by cases heq)⟩⟩

/-- A task that does not hold `_busy` goes on to its next await. -/
theorem other_wake {event : Event} (h : Held c op) (ht : t.busy = false) (hapt : t.Apt)
    (hleased : ∀ id, t.leasing id = true → 0 < c.leases id)
    (hwake : c.wake t event = some (c', t')) :
    Stepped c t c' t' ∧ Handed op c' t' := by
  obtain ⟨purpose, stage, cancelled⟩ := t
  cases stage with
  | listing =>
    have hpurpose : purpose = .list := hapt
    subst hpurpose
    have hdismiss : ∀ ok, Stepped c ⟨.list, .listing, cancelled⟩ (c.dismiss .list)
      ⟨.list, .done ok, cancelled⟩ ∧
        Handed op (c.dismiss .list) ⟨.list, .done ok, cancelled⟩ :=
      fun ok => ⟨stepped_dismiss rfl rfl (fun _ => rfl) ok, .inl ⟨rfl, h.dismiss _⟩⟩
    cases event with
    | cancelled =>
      cases hwake
      exact hdismiss false
    | turn token =>
      cases hwake
      exact hdismiss true
    | _ => cases hwake
  | reading =>
    obtain ⟨user, tag, hpurpose⟩ := hapt
    cases hpurpose
    cases event with
    | cancelled =>
      cases hwake
      exact ⟨stepped_dismiss rfl rfl (fun _ => rfl) false, .inl ⟨rfl, h.dismiss _⟩⟩
    | turn token => exact prepared_step h rfl rfl (Option.some.inj hwake)
    | _ => cases hwake
  | body id =>
    have hpurpose : purpose = .lease := hapt
    subst hpurpose
    have hpos := hleased id (by simp [Task.leasing])
    cases event with
    | cancelled => exact lease_ended h hpos (Option.some.inj hwake)
    | turn token => exact lease_ended h hpos (Option.some.inj hwake)
    | _ => cases hwake
  | drain =>
    have hpurpose : purpose = .stop := hapt
    subst hpurpose
    cases event with
    | cancelled =>
      cases hwake
      exact ⟨⟨fun _ _ => rfl, fun _ => rfl, .inl, fun hclosed => hclosed, rfl, rfl, trivial,
        fun _ _ hnone => hnone, fun _ hdone => (by cases hdone)⟩, .inl ⟨rfl, h⟩⟩
    | turn token =>
      by_cases hrequests : c.requests = 0
      · simp only [Cache.wake, if_pos hrequests] at hwake
        exact close_begun h hrequests (Option.some.inj hwake)
      · simp only [Cache.wake, if_neg hrequests] at hwake
        cases hwake
    | _ => cases hwake
  | done ok => cases event <;> cases hwake
  | _ => cases ht

/-! ## Calls -/

/-- What a call does to the accounts of the cache. -/
structure Started (c c' : Cache) (t : Task) : Prop where
  quiet : t.busy = false
  leases : ∀ id, c'.leases id = c.leases id + (t.leasing id).toNat
  requests : c'.requests = c.requests + t.running.toNat
  bound : c.requests ≤ maxRequests → c'.requests ≤ maxRequests
  admitted : t.running = true → c.stopped = false
  closed : c'.closed = c.closed
  stopped : c.stopped = true → c'.stopped = true
  stops : t.purpose = .stop → c'.stopped = true
  apt : t.Apt
  grown : ∀ id, c.entries.get? id = none → c'.entries.get? id = none
  swept : t.purpose = .stop → t.stage ≠ .done true

theorem admit_started (purpose : Purpose) (stage : Stage) (h : Held c op)
    (hrequest : purpose.request = true)
    (hbusy : stage.busy = false) (hover : stage.over = false)
    (hleasing : ∀ id, Task.leasing ⟨purpose, stage, false⟩ id = false)
    (hapt : Task.Apt ⟨purpose, stage, false⟩)
    (hcall : c.asyncAdmit purpose stage = (c', t)) : Started c c' t ∧ Held c' op := by
  have hnot : ∀ {P : Prop}, purpose = .stop → P := fun hstop => by
    rw [hstop] at hrequest
    cases hrequest
  unfold Cache.asyncAdmit at hcall
  split at hcall
  · rename_i hadmits
    simp only [Cache.admits, Bool.and_eq_true, Bool.not_eq_true', decide_eq_true_eq] at hadmits
    cases hcall
    refine ⟨⟨hbusy, fun id => ?_, ?_, fun _ => hadmits.2, fun _ => hadmits.1, rfl, id, hnot, hapt,
      fun _ hnone => hnone, hnot⟩, h.congr rfl rfl rfl rfl rfl rfl⟩
    · rw [hleasing id]
      rfl
    · rw [Task.running, hrequest, hover]
      rfl
  · cases hcall
    refine ⟨⟨rfl, fun _ => rfl, ?_, id, fun hrunning => ?_, rfl, id, hnot, trivial,
      fun _ hnone => hnone, hnot⟩, h⟩
    · rw [Task.running]
      simp only [Stage.over, Bool.not_true, Bool.and_false, Bool.toNat_false, Nat.add_zero]
    · rw [Task.running] at hrunning
      simp [Stage.over] at hrunning

theorem lease_started {userId bundleId : String} (h : Held c op)
    (hlease : c.asyncLease userId bundleId = (c', t)) :
    Started c c' t ∧ Held c' op := by
  unfold Cache.asyncLease at hlease
  split at hlease
  · rename_i hcond
    simp only [Bool.and_eq_true, Cache.admits, Bool.not_eq_true', decide_eq_true_eq] at hcond
    obtain ⟨⟨⟨hopen, hroom⟩, -⟩, hoffers⟩ := hcond
    obtain ⟨e, hget, hoffer⟩ := (Option.any_eq_true _ _).mp hoffers
    have hkept : e.retiring = false := by
      simp only [Cache.offers, Bool.and_eq_true, Bool.not_eq_true'] at hoffer
      exact hoffer.1.1.2
    have hget' : (Cache.entries { c with requests := c.requests + 1 }).get? bundleId = some e :=
      hget
    have hheld : Held { c with requests := c.requests + 1 } op := h.congr rfl rfl rfl rfl rfl rfl
    have hupdated :=
      hheld.update (f := fun e => { e with leases := e.leases + 1, served := true })
        hget' hkept hkept
    rw [update_eq hget'] at hlease hupdated
    cases hlease
    refine ⟨⟨rfl, fun id' => ?_, rfl, fun _ => hroom, fun _ => hopen, rfl, id,
      fun hstop => (by cases hstop), rfl,
      fun id' hnone => ?_, fun hstop => (by cases hstop)⟩, hupdated⟩
    · rw [Task.leasing, Cache.leases, Cache.leases, Dict.get?_set]
      split
      · rename_i hid
        rw [hid, beq_self_eq_true, hget]
        rfl
      · rename_i hid
        rw [beq_eq_false_iff_ne.mpr fun heq => hid (by cases heq; rfl)]
        rfl
    · have hne : id' ≠ bundleId := fun heq => by
        rw [heq, hget] at hnone
        cases hnone
      exact (Dict.get?_set_ne _ _ hne).trans hnone
  · cases hlease
    exact ⟨⟨rfl, fun _ => rfl, rfl, id, fun hrunning => (by cases hrunning), rfl, id,
      fun hstop => (by cases hstop),
      trivial, fun _ hnone => hnone, fun hstop => (by cases hstop)⟩, h⟩

theorem call_started {call : Call} (h : Held c op) (hstart : c.start call = (c', t)) :
    Started c c' t ∧ Held c' op := by
  cases call with
  | list => exact admit_started .list .listing h rfl rfl rfl (fun _ => rfl) rfl hstart
  | prepare userId rcTag =>
    exact admit_started (.prepare userId rcTag) .reading h rfl rfl rfl (fun _ => rfl)
      ⟨userId, rcTag, rfl⟩ hstart
  | lease userId id => exact lease_started h hstart
  | stop =>
    cases hstart
    exact ⟨⟨rfl, fun _ => rfl, rfl, id, fun hrunning => (by cases hrunning), rfl,
      fun _ => rfl, fun _ => rfl, rfl,
      fun _ hnone => hnone, fun _ hdone => (by cases hdone)⟩, h.congr rfl rfl rfl rfl rfl rfl⟩
  | tick seconds =>
    cases hstart
    exact ⟨⟨rfl, fun _ => rfl, rfl, id, fun hrunning => (by cases hrunning), rfl, id,
      fun hstop => (by cases hstop), trivial, fun _ hnone => hnone, fun hstop => (by cases hstop)⟩,
        h.congr rfl rfl rfl rfl rfl rfl⟩
  | policy prereleases =>
    cases hstart
    exact ⟨⟨rfl, fun _ => rfl, rfl, id, fun hrunning => (by cases hrunning), rfl, id,
      fun hstop => (by cases hstop), trivial, fun _ hnone => hnone, fun hstop => (by cases hstop)⟩,
        h.congr rfl rfl rfl rfl rfl rfl⟩

/-! ## The pool -/

theorem wake_over {event : Event} (h : t.stage.over = true) : c.wake t event = none := by
  obtain ⟨purpose, stage, cancelled⟩ := t
  cases stage with
  | done ok => cases event <;> rfl
  | _ => cases h

structure Inv (p : Pool Cache Task) : Prop where
  held : ∃ op : Option Task, p.tasks.filter Task.busy = op.toList ∧ Held p.shared op
  leases : ∀ id, p.tasks.countP (·.leasing id) = p.shared.leases id
  requests : p.tasks.countP Task.running = p.shared.requests
  bound : p.shared.requests ≤ maxRequests
  closed : p.shared.closed = true → p.shared.stopped = true ∧ p.shared.requests = 0
  stops : ∀ t ∈ p.tasks, t.purpose = .stop → p.shared.stopped = true
  apt : ∀ t ∈ p.tasks, t.Apt
  swept : ∀ t ∈ p.tasks, t.purpose = .stop → t.stage = .done true →
    p.shared.closed = true ∧ ∀ id, p.shared.entries.get? id = none

theorem inv_initial : Inv ⟨Cache.initial, []⟩ where
  held := ⟨none, rfl, ⟨.of_empty (fun _ => rfl) (.inl rfl), rfl, fun _ hnone => by cases hnone⟩⟩
  leases := fun _ => rfl
  requests := rfl
  bound := Nat.zero_le _
  closed := fun hclosed => by cases hclosed
  stops := fun _ hnil => by cases hnil
  apt := fun _ hnil => by cases hnil
  swept := fun _ hnil => by cases hnil

variable {p : Pool Cache Task}

namespace Inv

theorem started {call : Call} (h : Inv p) (hstart : p.shared.start call = (c', t)) :
    Inv ⟨c', p.tasks ++ [t]⟩ := by
  obtain ⟨op, hop, hheld⟩ := h.held
  obtain ⟨hstarted, hheld'⟩ := call_started hheld hstart
  refine ⟨⟨op, ?_, hheld'⟩, fun id => ?_, ?_, hstarted.bound h.bound, fun hclosed => ?_,
    fun u hu hstop => ?_, fun u hu => ?_, fun u hu hstop hdone => ?_⟩
  · rw [List.filter_append, hop, List.filter_singleton, hstarted.quiet]
    simp
  · rw [List.countP_append, h.leases id, hstarted.leases id, List.countP_singleton]
    cases t.leasing id <;> rfl
  · rw [List.countP_append, h.requests, hstarted.requests, List.countP_singleton]
    cases t.running <;> rfl
  · have hclosed : p.shared.closed = true := hstarted.closed ▸ hclosed
    obtain ⟨hstopped, hrequests⟩ := h.closed hclosed
    refine ⟨hstarted.stopped hstopped, ?_⟩
    show c'.requests = 0
    have hnot : t.running = false := by
      by_contra hrunning
      have := hstarted.admitted (Bool.not_eq_false _ ▸ hrunning)
      rw [hstopped] at this
      cases this
    rw [hstarted.requests, hrequests, hnot]
    rfl
  · rcases List.mem_append.mp hu with hu | hu
    · exact hstarted.stopped (h.stops u hu hstop)
    · cases List.mem_singleton.mp hu
      exact hstarted.stops hstop
  · rcases List.mem_append.mp hu with hu | hu
    · exact h.apt u hu
    · cases List.mem_singleton.mp hu
      exact hstarted.apt
  · rcases List.mem_append.mp hu with hu | hu
    · obtain ⟨hclosed, hnone⟩ := h.swept u hu hstop hdone
      exact ⟨hstarted.closed.trans hclosed, fun id => hstarted.grown id (hnone id)⟩
    · cases List.mem_singleton.mp hu
      exact absurd hdone (hstarted.swept hstop)

theorem leased {id : String} (h : Inv p) (ht : t ∈ p.tasks) (hleasing : t.leasing id = true) :
    0 < p.shared.leases id := by
  rw [← h.leases id]
  exact List.countP_pos_iff.mpr ⟨t, ht, hleasing⟩

/-- After the close no entry is leased. -/
theorem no_leases (h : Inv p) (hclosed : p.shared.closed = true) (id : String) (e : Entry)
    (hget : p.shared.entries.get? id = some e) : e.leases = 0 := by
  have hnone : p.tasks.countP Task.running = 0 := h.requests.trans (h.closed hclosed).2
  have hzero : p.tasks.countP (·.leasing id) = 0 := by
    rw [List.countP_eq_zero] at hnone ⊢
    intro t ht hleasing
    have hstage : t.stage = .body id := eq_of_beq hleasing
    have hapt := h.apt t ht
    rw [Task.Apt, hstage] at hapt
    have hapt : t.purpose = .lease := hapt
    exact hnone t ht (by rw [Task.running, hapt, hstage]; rfl)
  rw [h.leases id, Cache.leases, hget] at hzero
  exact hzero

/-- The holder of `_busy` and the others, when one of the tasks goes on. -/
theorem woken_held {event : Event} {l₁ l₂ : List Task} (h : Inv p)
    (htasks : p.tasks = l₁ ++ t :: l₂)
    (hwake : p.shared.wake t event = some (c', t')) :
    Stepped p.shared t c' t' ∧
      ∃ op, (l₁ ++ t' :: l₂).filter Task.busy = op.toList ∧ Held c' op := by
  obtain ⟨op, hop, hheld⟩ := h.held
  rw [htasks, List.filter_append, List.filter_cons] at hop
  have hmem : t ∈ p.tasks := by
    rw [htasks]
    exact List.mem_append_right _ List.mem_cons_self
  rw [List.filter_append, List.filter_cons]
  cases ht : t.busy with
  | true =>
    rw [if_pos ht] at hop
    -- the holder is the only one
    obtain ⟨holder, rfl⟩ : ∃ holder, op = some holder := by
      cases op with
      | none => simp at hop
      | some holder => exact ⟨holder, rfl⟩
    have hone : l₁.filter Task.busy = [] ∧ t = holder ∧ l₂.filter Task.busy = [] := by
      cases hl : l₁.filter Task.busy with
      | nil =>
        rw [hl] at hop
        simpa using hop
      | cons head rest =>
        rw [hl] at hop
        simp at hop
    obtain ⟨hl₁, rfl, hl₂⟩ := hone
    have hwent := went_wake hheld ht h.no_leases hwake
    refine ⟨hwent.stepped hheld ht, t'.holding, ?_, hwent.held⟩
    rw [hl₁, hl₂, Task.holding]
    split <;> rfl
  | false =>
    rw [if_neg (by rw [ht]; exact Bool.false_ne_true)] at hop
    obtain ⟨hstepped, hhanded⟩ := other_wake hheld ht (h.apt t hmem) (fun _ => h.leased hmem) hwake
    refine ⟨hstepped, ?_⟩
    rcases hhanded with ⟨hquiet, hheld'⟩ | ⟨hnone, hbusy, hheld'⟩
    · refine ⟨op, ?_, hheld'⟩
      rw [if_neg (by rw [hquiet]; exact Bool.false_ne_true)]
      exact hop
    · rw [hnone, Option.toList_none, List.append_eq_nil_iff] at hop
      refine ⟨some t', ?_, hheld'⟩
      rw [hop.1, hop.2, if_pos hbusy]
      rfl

theorem woken {event : Event} {l₁ l₂ : List Task} (h : Inv p) (htasks : p.tasks = l₁ ++ t :: l₂)
    (hwake : p.shared.wake t event = some (c', t')) : Inv ⟨c', l₁ ++ t' :: l₂⟩ := by
  obtain ⟨hstepped, hheld⟩ := h.woken_held htasks hwake
  have hmem : t ∈ p.tasks := by
    rw [htasks]
    exact List.mem_append_right _ List.mem_cons_self
  have hold : ∀ u ∈ l₁ ++ t' :: l₂, u = t' ∨ u ∈ p.tasks := by
    intro u hu
    rw [htasks, List.mem_append, List.mem_cons]
    rcases List.mem_append.mp hu with hu | hu
    · exact .inr (.inl hu)
    · exact (List.mem_cons.mp hu).imp_right fun hu => .inr (.inr hu)
  have hrunning : t.running = true → 0 < p.shared.requests := by
    intro hrunning
    rw [← h.requests]
    exact List.countP_pos_iff.mpr ⟨t, hmem, hrunning⟩
  have hrequests := hstepped.requests hrunning
  have hbefore := h.requests
  rw [htasks, List.countP_append, List.countP_cons] at hbefore
  -- a task that ended does not run again
  have hquiet : t.running = false → t'.running = false := by
    intro hover
    cases hend : t.stage.over with
    | true =>
      rw [wake_over hend] at hwake
      cases hwake
    | false =>
      rw [Task.running, hend, Bool.not_false, Bool.and_true] at hover
      rw [Task.running, hstepped.purpose, hover, Bool.false_and]
  have hle : c'.requests ≤ p.shared.requests := by
    cases hover : t.running with
    | true =>
      rw [hover] at hrequests
      have := Bool.toNat_le t'.running
      simp only [Bool.toNat_true] at hrequests
      omega
    | false =>
      rw [hover, hquiet hover] at hrequests
      exact Nat.le_of_eq hrequests
  refine ⟨hheld, fun id => ?_, ?_, hle.trans h.bound, fun hclosed => ?_,
    fun u hu hstop => ?_, fun u hu => ?_, fun u hu hstop hdone => ?_⟩
  · have hleases := hstepped.leases id (h.leased hmem)
    have hbefore := h.leases id
    rw [htasks, List.countP_append, List.countP_cons] at hbefore
    rw [List.countP_append, List.countP_cons]
    show _ = c'.leases id
    cases hlt : t.leasing id <;> cases hlt' : t'.leasing id <;> simp [hlt, hlt']
      at hleases hbefore ⊢ <;> omega
  · rw [List.countP_append, List.countP_cons]
    show _ = c'.requests
    cases hrt : t.running <;> cases hrt' : t'.running <;> simp [hrt, hrt']
      at hrequests hbefore ⊢ <;> omega
  · have hwas : p.shared.stopped = true ∧ p.shared.requests = 0 := by
      rcases hstepped.closes hclosed with hclosed | ⟨hstop, hzero⟩
      · exact h.closed hclosed
      · exact ⟨h.stops t hmem hstop, hzero⟩
    exact ⟨hstepped.stopped.trans hwas.1, Nat.le_zero.mp (hle.trans (Nat.le_of_eq hwas.2))⟩
  · show c'.stopped = true
    rw [hstepped.stopped]
    rcases hold u hu with rfl | hu
    · exact h.stops t hmem (hstepped.purpose ▸ hstop)
    · exact h.stops u hu hstop
  · rcases hold u hu with rfl | hu
    · exact hstepped.apt
    · exact h.apt u hu
  · rcases hold u hu with rfl | hu
    · exact hstepped.swept hstop hdone
    · obtain ⟨hclosed, hnone⟩ := h.swept u hu hstop hdone
      refine ⟨hstepped.closed hclosed, fun id => hstepped.grown ?_ id (hnone id)⟩
      by_contra hrun
      have := hrunning (Bool.not_eq_false _ ▸ hrun)
      rw [(h.closed hclosed).2] at this
      exact Nat.lt_irrefl 0 this

theorem step (h : Inv p) (move : Move Call Event) : Inv (Cache.program.step p move) := by
  have hmoved := Cache.program.step_moved p move
  generalize Cache.program.step p move = p' at hmoved ⊢
  cases hmoved with
  | idle => exact h
  | started call c t hstart => exact h.started hstart
  | woken i event t c t' ht hwake =>
    obtain ⟨l₁, l₂, htasks, hset⟩ := Tally.exists_around ht
    rw [hset]
    exact h.woken htasks hwake

/-- The files of the custody belong to an entry, or to the one reservation. -/
theorem files_le (h : Inv p) (hinitialized : p.shared.initialized = true)
    (hfailed : p.shared.failed = false) :
    p.shared.files.dedup.length ≤ capacity := by
  obtain ⟨op, -, hheld⟩ := h.held
  have hsound := hheld.sound
  generalize (op.bind fun t => t.stage.reserved) = reserved at hsound
  have hsubset : p.shared.files.dedup ⊆ p.shared.entries.keys ++ reserved.toList := by
    intro id hid
    rw [List.mem_append]
    refine (hsound.owned hinitialized hfailed id (List.mem_dedup.mp hid)).imp Dict.mem_keys.mpr ?_
    intro hreserved
    rw [hreserved]
    exact List.mem_singleton_self id
  have hlength := List.Nodup.length_le_of_subset (List.nodup_dedup _) hsubset
  rw [List.length_append, Dict.keys, List.length_map] at hlength
  have hsize := hsound.size
  cases reserved with
  | none => exact hlength.trans hsize
  | some id => exact hlength.trans hsize

end Inv

theorem inv_after (moves : List (Move Call Event)) : Inv (Cache.after moves) :=
  Runs.run_inv Inv (fun _ move h => h.step move) inv_initial moves

/-- A task that is over stays as it is. -/
theorem over_step {i : ℕ} (ht : p.tasks[i]? = some t) (hover : t.stage.over = true)
    (move : Move Call Event) :
    (Cache.program.step p move).tasks[i]? = some t := by
  have hmoved := Cache.program.step_moved p move
  generalize Cache.program.step p move = p' at hmoved ⊢
  cases hmoved with
  | idle => exact ht
  | started call c u hstart =>
    exact (List.getElem?_append_left (List.getElem?_eq_some_iff.mp ht).1).trans ht
  | woken j event u c u' hu hwake =>
    have hne : j ≠ i := by
      intro heq
      rw [heq, ht, Option.some.injEq] at hu
      rw [← hu] at hwake
      have hnone : p.shared.wake t event = none := wake_over hover
      exact Option.some_ne_none _ (hwake.symm.trans hnone)
    exact (List.getElem?_set_ne hne).trans ht

/-! ## The custody of every run -/

/-- In every run at most one task holds `_busy`, and the flag says so; two requests at most are
admitted; the bundle of a lease is neither being removed nor without its file; and after the first
reconcile, unless a cleanup failed, the files of two bundles at most are kept, each of an entry or
of the reservation of a preparation that is on its way. -/
theorem release_custody (moves : List (Move Call Event)) :
    (Cache.after moves).tasks.countP Task.busy = (Cache.after moves).shared.busy.toNat ∧
      (Cache.after moves).tasks.countP Task.running ≤ maxRequests ∧
      (∀ t ∈ (Cache.after moves).tasks, ∀ id, t.stage = .body id →
        ∃ e, (Cache.after moves).shared.entries.get? id = some e ∧ e.retiring = false ∧
          id ∈ (Cache.after moves).shared.files ∧
            e.leases = (Cache.after moves).tasks.countP (·.leasing id)) ∧
      ((Cache.after moves).shared.initialized = true → (Cache.after moves).shared.failed = false →
        (Cache.after moves).shared.files.dedup.length ≤ capacity ∧
          ∀ id ∈ (Cache.after moves).shared.files,
            (∃ e, (Cache.after moves).shared.entries.get? id = some e) ∨
            ∃ t ∈ (Cache.after moves).tasks, t.stage.reserved = some id) := by
  have h := inv_after moves
  generalize Cache.after moves = p at h
  obtain ⟨op, hop, hheld⟩ := h.held
  refine ⟨?_, h.requests ▸ h.bound, fun t ht id hbody => ?_,
    fun hinitialized hfailed => ⟨h.files_le hinitialized hfailed, fun id hid => ?_⟩⟩
  · rw [List.countP_eq_length_filter, hop, hheld.busy]
    cases op <;> rfl
  · have hleased : 0 < p.shared.leases id :=
      h.leased ht (by rw [Task.leasing, hbody]; exact beq_self_eq_true _)
    obtain ⟨e, hget, -, hkept⟩ := exists_of_leased hheld hleased
    refine ⟨e, hget, hkept, hheld.sound.present id e hget hkept, ?_⟩
    rw [h.leases id, Cache.leases, hget]
    rfl
  · refine (hheld.sound.owned hinitialized hfailed id hid).imp_right fun hreserved => ?_
    obtain ⟨t, rfl, hstage⟩ := Option.bind_eq_some_iff.mp hreserved
    have hmem : t ∈ p.tasks.filter Task.busy := by
      rw [hop]
      exact List.mem_singleton_self t
    exact ⟨t, (List.mem_filter.mp hmem).1, hstage⟩

/-- Once a stop came to its end without an error, no bundle and no request is left, and nothing
changes that later: no file is left either, unless a cleanup failed or the files of an earlier run
were never reconciled. -/
theorem custody_stopped (moves more : List (Move Call Event)) (t : Task)
    (ht : t ∈ (Cache.after moves).tasks)
    (hstop : t.purpose = .stop) (hdone : t.stage = .done true) :
    (Cache.after (moves ++ more)).shared.entries = ∅ ∧
      (∀ u ∈ (Cache.after (moves ++ more)).tasks, u.running = false) ∧
      ((Cache.after (moves ++ more)).shared.initialized = true →
        (Cache.after (moves ++ more)).shared.failed = false →
        (Cache.after (moves ++ more)).shared.files = []) := by
  have hstays : t ∈ (Cache.after (moves ++ more)).tasks := by
    obtain ⟨i, hi⟩ := List.mem_iff_getElem?.mp ht
    have hover : t.stage.over = true := by rw [hdone]; rfl
    rw [Cache.after, Program.run, Runs.run_append]
    exact List.mem_of_getElem? (Runs.run_inv (fun p : Pool Cache Task => p.tasks[i]? = some t)
      (fun _ move h => over_step h hover move) hi more)
  have h := inv_after (moves ++ more)
  generalize Cache.after (moves ++ more) = p at h hstays
  obtain ⟨hclosed, hnone⟩ := h.swept t hstays hstop hdone
  have hidle : ∀ u ∈ p.tasks, u.running = false := by
    have hcount := h.requests.trans (h.closed hclosed).2
    rw [List.countP_eq_zero] at hcount
    exact fun u hu => Bool.not_eq_true _ ▸ hcount u hu
  refine ⟨Dict.eq_empty_of_get? hnone, hidle, fun hinitialized hfailed =>
    List.eq_nil_iff_forall_not_mem.mpr ?_⟩
  intro id hid
  obtain ⟨op, hop, hheld⟩ := h.held
  rcases hheld.sound.owned hinitialized hfailed id hid with ⟨e, hget⟩ | hreserved
  · rw [hnone id] at hget
    cases hget
  · -- only a preparation has a reservation, and it would be a request that runs
    obtain ⟨u, rfl, hstage⟩ := Option.bind_eq_some_iff.mp hreserved
    have hmem : u ∈ p.tasks.filter Task.busy := by
      rw [hop]
      exact List.mem_singleton_self u
    obtain ⟨hu, hbusy⟩ := List.mem_filter.mp hmem
    obtain ⟨user, tag, hpurpose⟩ := (hheld.prepared u rfl).preparing (by
      cases hcase : u.stage <;> rw [hcase] at hstage <;> first | rfl | cases hstage)
    have := hidle u hu
    rw [running_of_busy hbusy, hpurpose] at this
    cases this

/-- A preparation is cancelled by the stop, which waits for its cleanup. -/
theorem custody_stopped_preparing :
    (Cache.after ([.start (.prepare "admin" none), .wake 0 (.turn ""),
      .wake 0 (.reconciled true []), .wake 0 (.turn "a1"), .start .stop, .wake 0 .cancelled,
      .wake 0 (.cleaned true true ""), .wake 1 (.turn ""), .wake 1 (.turn "")] ++
      [.start .list])).shared.entries = ∅ :=
  (custody_stopped
    [.start (.prepare "admin" none), .wake 0 (.turn ""),
      .wake 0 (.reconciled true []), .wake 0 (.turn "a1"), .start .stop, .wake 0 .cancelled,
      .wake 0 (.cleaned true true ""), .wake 1 (.turn ""), .wake 1 (.turn "")]
    [.start .list] ⟨.stop, .done true, false⟩ (List.mem_of_getElem? (i := 1) rfl) rfl rfl).1

end PanelAssistant.BrowserRelease
