import PanelAssistant.BrowserRelease.Custody

/-!
# Steps of the task that holds `_busy`

One lemma for each await of the part of a request that holds `_busy`, and `went_wake` for all of
them. -/

namespace PanelAssistant.BrowserRelease

open Library

variable {c c' : Cache} {t t' : Task} {token : String}

/-! ## Steps of the holder -/

/-- The end of the part that holds `_busy`. -/
theorem went_leave (h : Sound c none none) (hbusy : t.busy = true) (ok : Bool)
    (hswept : t.purpose = .stop → ok = true → ∀ id, c.entries.get? id = none) :
    Went c t (c.leave t ok).1 (c.leave t ok).2 := by
  have hleave : c.leave t ok =
      ({ c with busy := false, requests := c.requests - t.purpose.request.toNat },
        { t with stage := .done ok }) := by
    rw [Cache.leave, dismiss_eq]
  rw [hleave]
  refine ⟨⟨⟨h.retiring, h.retired, h.present, h.size, h.unused, h.owned, h.empty⟩, rfl,
    fun _ hnone => (by cases hnone)⟩,
    fun _ => rfl, fun hrunning => ?_, rfl, rfl, rfl, .inr rfl, fun _ _ hnone => hnone,
      fun hstop hdone => ?_⟩
  · rw [running_of_busy hbusy] at hrunning ⊢
    cases hrequest : t.purpose.request with
    | false => simp [Task.running, Stage.over]
    | true =>
      have := hrunning hrequest
      simp only [Task.running, Stage.over, Bool.toNat_true, Bool.not_true,
        Bool.and_false, Bool.toNat_false]
      omega
  · cases hdone
    exact hswept hstop rfl

/-- A step of the holder that leaves the cache as it is, to a stage in which it holds `_busy`
still. -/
theorem went_stage {stage : Stage} (h : Sound c stage.cleaning stage.reserved)
    (hbusy : c.busy = true)
    (ht : t.busy = true) (hstage : stage.busy = true) (hprepared : Prepared c { t with stage }) :
    Went c t c { t with stage } := by
  have hholding : Task.holding { t with stage } = some { t with stage } := if_pos hstage
  have hrunning : Task.running { t with stage } = t.running :=
    (running_of_busy (t := { t with stage }) hstage).trans (running_of_busy ht).symm
  refine ⟨?_, fun _ => rfl,
    fun _ => by rw [hrunning], rfl, rfl, rfl, .inl hstage, fun _ _ hnone => hnone,
    fun _ hdone => ?_⟩
  · rw [hholding]
    refine ⟨h, hbusy, fun u hu => ?_⟩
    cases hu
    exact hprepared
  · have hdone' : stage = .done true := hdone
    rw [hdone'] at hstage
    cases hstage

/-- A reservation is drawn. -/
theorem went_reserve (h : Sound c none none) (hsize : ¬ capacity ≤ c.entries.size)
    (hbusy : c.busy = true)
    (ht : t.busy = true) (hinitialized : c.initialized = true) {user : String} {tag : Option String}
    (hpurpose : t.purpose = .prepare user tag) (hreserve : c.reserve t token = some (c', t')) :
    Went c t c' t' := by
  unfold Cache.reserve at hreserve
  split at hreserve
  · cases hreserve
  · rename_i hunused
    cases hreserve
    refine went_stage ?_ hbusy ht rfl (.of_prepare hpurpose (fun heq => by cases heq) hinitialized)
    refine ⟨h.retiring, h.retired, h.present, ?_, fun id hid => ?_,
      fun hinit hfailed file hfile => ?_, h.empty⟩
    · show c.entries.size + 1 ≤ capacity
      omega
    · cases hid
      exact Option.not_isSome_iff_eq_none.mp hunused
    · exact .inl ((h.owned hinit hfailed file hfile).resolve_right fun hnone => by cases hnone)

theorem went_evicted (h : Sound c none none) (hbusy : c.busy = true) (ht : t.busy = true)
    (hinitialized : c.initialized = true) {user : String} {tag : Option String}
    (hpurpose : t.purpose = .prepare user tag) (hevicted : c.evicted t token = some (c', t')) :
    Went c t c' t' := by
  unfold Cache.evicted at hevicted
  split at hevicted
  · cases hevicted
    exact went_leave h ht false fun _ hfalse => by cases hfalse
  · rename_i hcond
    rw [Bool.or_eq_true, decide_eq_true_eq, not_or] at hcond
    exact went_reserve h hcond.2 hbusy ht hinitialized hpurpose hevicted

theorem went_reaped (h : Sound c none none) (hbusy : c.busy = true) (ht : t.busy = true)
    (hprepared : ∀ user tag, t.purpose = .prepare user tag → c.initialized = true)
    (hswept : t.purpose = .stop → ∀ id, c.entries.get? id = none)
    (hreaped : c.reaped t token = some (c', t')) : Went c t c' t' := by
  unfold Cache.reaped at hreaped
  split at hreaped
  · cases hreaped
    exact went_leave h ht false fun _ hfalse => by cases hfalse
  · split at hreaped
    · rename_i user tag hpurpose
      have hinitialized := hprepared user tag hpurpose
      split at hreaped
      · cases hreaped
        exact went_stage h hbusy ht rfl
          (.of_prepare hpurpose (fun heq => by cases heq) hinitialized)
      · rename_i hsize
        exact went_reserve h hsize hbusy ht hinitialized hpurpose hreaped
    · cases hreaped
      exact went_leave h ht true fun hstop _ => hswept hstop
    · cases hreaped
      exact went_leave h ht true fun hstop _ => hswept hstop
    · cases hreaped
      exact went_leave h ht true fun hstop _ => hswept hstop

theorem due_of_next_none {ids : List String} (h : c.next ids = none) :
    ∀ id ∈ ids, c.due id = false := by
  induction ids with
  | nil => exact fun _ hnil => by cases hnil
  | cons head ids ih =>
    unfold Cache.next at h
    split at h
    · cases h
    · rename_i hdue
      intro id hid
      rcases List.mem_cons.mp hid with rfl | hid
      · exact Bool.not_eq_true _ ▸ hdue
      · exact ih h id hid

/-- What is cleaned next is an entry without leases, and what is skipped is not due. -/
theorem next_some {ids : List String} {id : String} {rest : List String}
    (h : c.next ids = some (id, rest)) :
    (∃ e, c.entries.get? id = some e ∧ e.leases = 0) ∧
      ∀ id' ∈ ids, id' = id ∨ id' ∈ rest ∨ c.due id' = false := by
  induction ids with
  | nil => cases h
  | cons head ids ih =>
    unfold Cache.next at h
    split at h
    · rename_i hdue
      cases h
      refine ⟨?_, fun id' hid' => (List.mem_cons.mp hid').imp_right .inl⟩
      obtain ⟨e, he, hcond⟩ := (Option.any_eq_true _ _).mp hdue
      rw [Bool.and_eq_true] at hcond
      exact ⟨e, he, of_decide_eq_true hcond.1⟩
    · rename_i hdue
      refine ⟨(ih h).1, fun id' hid' => ?_⟩
      rcases List.mem_cons.mp hid' with rfl | hid'
      · exact .inr (.inr (Bool.not_eq_true _ ▸ hdue))
      · exact (ih h).2 id' hid'

/-- An entry that is not due after the close has a lease. -/
theorem due_of_closed (hclosed : c.closed = true) {id : String} {e : Entry}
    (hget : c.entries.get? id = some e)
    (hleases : e.leases = 0) : c.due id = true := by
  simp only [Cache.due, hget, Option.any_some, hleases, hclosed, decide_true,
    Bool.true_or, Bool.true_and]

theorem went_reapFrom {ids : List String} (h : Sound c none none) (hbusy : c.busy = true)
    (ht : t.busy = true)
    (hprepared : ∀ user tag, t.purpose = .prepare user tag → c.initialized = true)
    (hstop : t.purpose = .stop → c.closed = true ∧
      (∀ id e, c.entries.get? id = some e → e.leases = 0) ∧
      ∀ id e, c.entries.get? id = some e → id ∈ ids)
    (hreap : c.reapFrom t ids token = some (c', t')) : Went c t c' t' := by
  unfold Cache.reapFrom at hreap
  split at hreap
  · rename_i id rest hnext
    obtain ⟨⟨e, hget, hleases⟩, hcover⟩ := next_some hnext
    cases hreap
    have halike := retire_alike hget
    refine halike.went (went_stage (h.retire hget hleases) (halike.busy.trans hbusy) ht rfl
      ⟨?_, ?_, ?_, ?_⟩)
    · intro hstage
      cases hstage
    · intro user tag hpurpose _
      exact halike.initialized.trans (hprepared user tag hpurpose)
    · intro hstage
      cases hstage
    · intro hpurpose
      obtain ⟨hclosed, hzero, hids⟩ := hstop hpurpose
      refine ⟨halike.closed.trans hclosed, fun id' rest' hstage id'' e'' hget'' => ?_⟩
      cases hstage
      -- an entry that is left is either the one that is cleaned or one of the rest
      have hold : ∃ old, c.entries.get? id'' = some old := by
        by_contra hne
        have hnone := halike.grown id'' (by
          cases hold : c.entries.get? id'' with
          | none => rfl
          | some old => exact absurd ⟨old, hold⟩ hne)
        rw [hnone] at hget''
        cases hget''
      obtain ⟨old, hold⟩ := hold
      rcases hcover id'' (hids id'' old hold) with hid | hid | hdue
      · exact .inl hid
      · exact .inr hid
      · rw [due_of_closed hclosed hold (hzero id'' old hold)] at hdue
        cases hdue
  · rename_i hnext
    refine went_reaped h hbusy ht hprepared (fun hpurpose id => ?_) hreap
    obtain ⟨hclosed, hzero, hids⟩ := hstop hpurpose
    cases hget : c.entries.get? id with
    | none => rfl
    | some e =>
      have hdue := due_of_next_none hnext id (hids id e hget)
      rw [due_of_closed hclosed hget (hzero id e hget)] at hdue
      cases hdue

/-- What `_evict` removes has no lease. -/
theorem leases_of_evictee {id : String} (h : c.evictee = some id) :
    ∃ e, c.entries.get? id = some e ∧ e.leases = 0 := by
  unfold Cache.evictee at h
  obtain ⟨r, hmin, hr⟩ := Option.map_eq_some_iff.mp h
  obtain ⟨item, hitem, rfl⟩ := List.mem_map.mp (List.min?_mem hmin)
  obtain ⟨hmem, hcond⟩ := List.mem_filter.mp hitem
  rw [Bool.and_eq_true] at hcond
  cases hr
  exact ⟨item.2, Dict.get?_eq_some.mpr hmem, of_decide_eq_true hcond.1⟩

/-! ## Every step of the holder -/

theorem went_cancel (h : Held c (some t)) (ht : t.busy = true) :
    Went c t c { t with cancelled := true } := by
  have hholding : Task.holding { t with cancelled := true } = some { t with cancelled := true } :=
    if_pos ht
  have hprepared := h.prepared t rfl
  refine ⟨?_, fun _ => rfl, fun _ => rfl, rfl, rfl, rfl, .inl ht, fun _ _ hnone => hnone,
    fun _ hdone => ?_⟩
  · rw [hholding]
    refine ⟨h.sound, h.busy, fun u hu => ?_⟩
    cases hu
    exact ⟨hprepared.reconcile, hprepared.initialized, hprepared.preparing, hprepared.closed⟩
  · have hdone' : t.stage = .done true := hdone
    rw [Task.busy, hdone'] at ht
    cases ht


/-- The first reconcile, which leaves no file. -/
theorem went_reconciled {user : String} {tag : Option String}
    (hnone : ∀ id, c.entries.get? id = none)
    (hbusy : c.busy = true) (ht : t.busy = true) (hpurpose : t.purpose = .prepare user tag) :
    Went c t { c with files := [], initialized := true } { t with stage := .reap } := by
  have hsound : Sound { c with files := [], initialized := true } none none :=
    .of_empty hnone (.inl rfl)
  have hstage : Went { c with files := [], initialized := true } t _ { t with stage := .reap } :=
    went_stage hsound hbusy ht rfl (.of_prepare hpurpose (fun heq => by cases heq) rfl)
  exact ⟨hstage.held, hstage.leases, hstage.requests, rfl, rfl, rfl, hstage.later,
    fun _ _ hnone => hnone, hstage.swept⟩

/-- The files are removed, or what is left of them is out of custody. -/
theorem went_reconcile_left (files : List String) (failed : Bool)
    (hfiles : files = [] ∨ failed = true)
    (hnone : ∀ id, c.entries.get? id = none) (ht : t.busy = true) :
    Went c t ({ c with files, failed }.leave t false).1
      ({ c with files, failed }.leave t false).2 := by
  have halike : Alike c { c with files, failed } :=
    ⟨fun _ => rfl, rfl, rfl, rfl, rfl, rfl, fun _ hnone => hnone⟩
  exact halike.went (went_leave (c := { c with files, failed }) (.of_empty hnone hfiles) ht false
    fun _ hfalse => by cases hfalse)

/-- A cleanup that failed. -/
theorem went_uncleaned {id : String} {cleaning reserved : Option String} {removed : Bool}
    (h : Sound c cleaning reserved)
    (hid : cleaning = some id ∧ reserved = none ∨ cleaning = none ∧ reserved = some id)
    (ht : t.busy = true) :
    Went c t ((c.cleaned id false removed).leave t false).1
      ((c.cleaned id false removed).leave t false).2 := by
  have halike : Alike c (c.cleaned id false removed) :=
    ⟨fun _ => rfl, rfl, rfl, rfl, rfl, rfl, fun _ hnone => hnone⟩
  exact halike.went (went_leave (h.cleaned hid false removed) ht false
    fun _ hfalse => by cases hfalse)

theorem went_cleanup {id : String} {rest : List String} {removed : Bool}
    (h : Sound c (some id) none)
    (hbusy : c.busy = true) (ht : t.busy = true) (hstage : t.stage = .cleanup id rest)
    (hprepared : Prepared c t)
    (hquiet : c.closed = true → ∀ id e, c.entries.get? id = some e → e.leases = 0)
    (hwake : (c.cleaned id true removed).reapFrom t rest token = some (c', t')) :
    Went c t c' t' := by
  have halike := cleaned_alike h.leases_of_cleaning true removed
  refine halike.went (went_reapFrom (h.cleaned (.inl ⟨rfl, rfl⟩) true removed)
    (halike.busy.trans hbusy) ht ?_ ?_ hwake)
  · intro user tag hpurpose
    refine halike.initialized.trans (hprepared.initialized user tag hpurpose ?_)
    rw [hstage]
    intro heq
    cases heq
  · intro hstop
    obtain ⟨hclosed, hcover⟩ := hprepared.closed hstop
    refine ⟨halike.closed.trans hclosed, fun id' e hget => ?_, fun id' e hget => ?_⟩
    · exact hquiet hclosed id' e (get?_pop_some hget).2
    · obtain ⟨hne, hold⟩ := get?_pop_some hget
      exact (hcover id rest hstage id' e hold).resolve_left hne

/-- The bundle becomes an entry without leases. -/
theorem went_stored {reservation user : String} {tag : Option String} {e : Entry}
    (h : Sound c none (some reservation))
    (hinitialized : c.initialized = true) (ht : t.busy = true)
    (hpurpose : t.purpose = .prepare user tag)
    (hretiring : e.retiring = false) (hleases : e.leases = 0) :
    Went c t
      ({ c with
        files := reservation :: c.files
        entries := c.entries.set reservation e }.leave t true).1
      ({ c with
        files := reservation :: c.files
        entries := c.entries.set reservation e }.leave t true).2 := by
  have hleave := went_leave (t := t) (h.stored hinitialized hretiring) ht true fun hstop => by
    rw [hpurpose] at hstop
    cases hstop
  refine ⟨hleave.held, fun id => (hleave.leases id).trans ?_, hleave.requests,
    hleave.closed, hleave.stopped, hleave.purpose, hleave.later, fun hrunning => ?_, hleave.swept⟩
  · unfold Cache.leases
    rw [Dict.get?_set]
    split
    · rename_i hid
      rw [hid, h.unused reservation rfl]
      exact hleases
    · rfl
  · rw [running_of_busy ht, hpurpose] at hrunning
    cases hrunning

/-- The reservation is cleaned up, with or without success. -/
theorem went_withdrawn {reservation : String} {ok removed : Bool}
    (h : Sound c none (some reservation))
    (ht : t.busy = true) :
    Went c t ((c.cleaned reservation ok removed).leave t false).1
      ((c.cleaned reservation ok removed).leave t false).2 := by
  have hnone : ∀ e, c.entries.get? reservation = some e → e.leases = 0 := fun e hget => by
    rw [h.unused reservation rfl] at hget
    cases hget
  have halike := cleaned_alike hnone ok removed
  exact halike.went (went_leave (h.cleaned (.inr ⟨rfl, rfl⟩) ok removed) ht false
    fun _ hfalse => by cases hfalse)

/-- The reservation is kept until its cleanup. -/
theorem went_withdraw {reservation user : String} {tag : Option String}
    (h : Sound c none (some reservation))
    (hbusy : c.busy = true) (ht : t.busy = true) (hinitialized : c.initialized = true)
    (hpurpose : t.purpose = .prepare user tag) :
    Went c t c { t with stage := .withdraw reservation } :=
  went_stage h hbusy ht rfl (.of_prepare hpurpose (fun heq => by cases heq) hinitialized)

/-- Behind the first await of a preparation the cache is initialized. -/
theorem Held.prepare (h : Held c (some t)) (hpreparing : t.stage.preparing = true)
    (hstage : t.stage ≠ .reconcile) :
    ∃ user tag, t.purpose = .prepare user tag ∧ c.initialized = true := by
  have hprepared := h.prepared t rfl
  obtain ⟨user, tag, hpurpose⟩ := hprepared.preparing hpreparing
  exact ⟨user, tag, hpurpose, hprepared.initialized user tag hpurpose hstage⟩

section

variable {purpose : Purpose} {cancelled : Bool} {event : Event} {id reservation : String}

theorem wake_reconcile (h : Held c (some ⟨purpose, .reconcile, cancelled⟩))
    (hwake : c.wake ⟨purpose, .reconcile, cancelled⟩ event = some (c', t')) :
    Went c ⟨purpose, .reconcile, cancelled⟩ c' t' := by
  have hprepared := h.prepared _ rfl
  have hnone := h.sound.empty (hprepared.reconcile rfl)
  obtain ⟨user, tag, hpurpose⟩ := hprepared.preparing rfl
  cases event with
  | cancelled =>
    cases hwake
    exact went_cancel h rfl
  | reconciled ok left =>
    cases ok with
    | true =>
      cases cancelled with
      | true =>
        cases hwake
        exact went_reconcile_left [] c.failed (.inl rfl) hnone rfl
      | false =>
        cases hwake
        exact went_reconciled hnone h.busy rfl hpurpose
    | false =>
      cases hwake
      exact went_reconcile_left (c.files.filter left.contains) true (.inr rfl) hnone rfl
  | _ => cases hwake

theorem wake_reap (h : Held c (some ⟨purpose, .reap, cancelled⟩))
    (hquiet : c.closed = true → ∀ id e, c.entries.get? id = some e → e.leases = 0)
    (hwake : c.wake ⟨purpose, .reap, cancelled⟩ event = some (c', t')) :
    Went c ⟨purpose, .reap, cancelled⟩ c' t' := by
  have hprepared := h.prepared _ rfl
  cases event with
  | cancelled =>
    cases hwake
    exact went_cancel h rfl
  | turn token =>
    refine went_reapFrom h.sound h.busy rfl (fun user tag hpurpose => ?_) (fun hstop => ?_) hwake
    · exact hprepared.initialized user tag hpurpose fun heq => by cases heq
    · have hclosed := (hprepared.closed hstop).1
      exact ⟨hclosed, hquiet hclosed, fun id e hget => Dict.mem_keys.mpr ⟨e, hget⟩⟩
  | _ => cases hwake

theorem wake_cleanup {rest : List String} (h : Held c (some ⟨purpose, .cleanup id rest, cancelled⟩))
    (hquiet : c.closed = true → ∀ id e, c.entries.get? id = some e → e.leases = 0)
    (hwake : c.wake ⟨purpose, .cleanup id rest, cancelled⟩ event = some (c', t')) :
    Went c ⟨purpose, .cleanup id rest, cancelled⟩ c' t' := by
  cases event with
  | cancelled =>
    cases hwake
    exact went_cancel h rfl
  | cleaned ok removed token =>
    cases ok with
    | true => exact went_cleanup h.sound h.busy rfl rfl (h.prepared _ rfl) hquiet hwake
    | false =>
      cases hwake
      exact went_uncleaned h.sound (.inl ⟨rfl, rfl⟩) rfl
  | _ => cases hwake

theorem wake_evict (h : Held c (some ⟨purpose, .evict, cancelled⟩))
    (hwake : c.wake ⟨purpose, .evict, cancelled⟩ event = some (c', t')) :
    Went c ⟨purpose, .evict, cancelled⟩ c' t' := by
  obtain ⟨user, tag, hpurpose, hinitialized⟩ := h.prepare rfl fun heq => by cases heq
  cases event with
  | cancelled =>
    cases hwake
    exact went_cancel h rfl
  | turn token =>
    cases hevictee : c.evictee with
    | some id =>
      simp only [Cache.wake, hevictee] at hwake
      cases hwake
      obtain ⟨e, hget, hleases⟩ := leases_of_evictee hevictee
      have halike := retire_alike hget
      have hprepared : Prepared (c.retire id) ⟨purpose, .evicting id, cancelled⟩ :=
        .of_prepare hpurpose (fun heq => by cases heq) (halike.initialized.trans hinitialized)
      exact halike.went (went_stage (h.sound.retire hget hleases) (halike.busy.trans h.busy) rfl rfl
        hprepared)
    | none =>
      simp only [Cache.wake, hevictee] at hwake
      exact went_evicted h.sound h.busy rfl hinitialized hpurpose hwake
  | _ => cases hwake

theorem wake_evicting (h : Held c (some ⟨purpose, .evicting id, cancelled⟩))
    (hwake : c.wake ⟨purpose, .evicting id, cancelled⟩ event = some (c', t')) :
    Went c ⟨purpose, .evicting id, cancelled⟩ c' t' := by
  obtain ⟨user, tag, hpurpose, hinitialized⟩ := h.prepare rfl fun heq => by cases heq
  have hsound : Sound c (some id) none := h.sound
  cases event with
  | cancelled =>
    cases hwake
    exact went_cancel h rfl
  | cleaned ok removed token =>
    cases ok with
    | true =>
      have halike := cleaned_alike hsound.leases_of_cleaning true removed
      have hcleaned := hsound.cleaned (.inl ⟨rfl, rfl⟩) true removed
      exact halike.went (went_evicted hcleaned (halike.busy.trans h.busy) rfl
        (halike.initialized.trans hinitialized) hpurpose hwake)
    | false =>
      cases hwake
      exact went_uncleaned hsound (.inl ⟨rfl, rfl⟩) rfl
  | _ => cases hwake

theorem wake_resolve (h : Held c (some ⟨purpose, .resolve reservation, cancelled⟩))
    (hwake : c.wake ⟨purpose, .resolve reservation, cancelled⟩ event = some (c', t')) :
    Went c ⟨purpose, .resolve reservation, cancelled⟩ c' t' := by
  obtain ⟨user, tag, hpurpose, hinitialized⟩ := h.prepare rfl fun heq => by cases heq
  cases event with
  | cancelled =>
    cases hwake
    exact went_withdraw h.sound h.busy rfl hinitialized hpurpose
  | resolved artifact =>
    cases hbundle : artifact.filter Cache.fits with
    | some bundle =>
      simp only [Cache.wake, hbundle] at hwake
      cases hwake
      exact went_stage h.sound h.busy rfl rfl
        (.of_prepare hpurpose (fun heq => by cases heq) hinitialized)
    | none =>
      simp only [Cache.wake, hbundle] at hwake
      cases hwake
      exact went_withdraw h.sound h.busy rfl hinitialized hpurpose
  | _ => cases hwake

theorem wake_download {artifact : ReleaseArtifact}
    (h : Held c (some ⟨purpose, .download reservation artifact, cancelled⟩))
    (hwake : c.wake ⟨purpose, .download reservation artifact, cancelled⟩ event = some (c', t')) :
    Went c ⟨purpose, .download reservation artifact, cancelled⟩ c' t' := by
  obtain ⟨user, tag, hpurpose, hinitialized⟩ := h.prepare rfl fun heq => by cases heq
  have hsound : Sound c none (some reservation) := h.sound
  cases event with
  | cancelled =>
    cases hwake
    exact went_withdraw hsound h.busy rfl hinitialized hpurpose
  | written =>
    cases hwake
    have halike : Alike c { c with files := reservation :: c.files } :=
      ⟨fun _ => rfl, rfl, rfl, rfl, rfl, rfl, fun _ hnone => hnone⟩
    have hdownload : Prepared { c with files := reservation :: c.files }
        ⟨purpose, .download reservation artifact, cancelled⟩ :=
      .of_prepare hpurpose (fun heq => by cases heq) hinitialized
    exact halike.went (went_stage hsound.written h.busy rfl rfl hdownload)
  | downloaded ok =>
    cases ok with
    | true =>
      cases hpurpose
      cases hwake
      exact went_stored hsound hinitialized rfl rfl rfl rfl
    | false =>
      cases hwake
      exact went_withdraw hsound h.busy rfl hinitialized hpurpose
  | _ => cases hwake

theorem wake_withdraw (h : Held c (some ⟨purpose, .withdraw reservation, cancelled⟩))
    (hwake : c.wake ⟨purpose, .withdraw reservation, cancelled⟩ event = some (c', t')) :
    Went c ⟨purpose, .withdraw reservation, cancelled⟩ c' t' := by
  cases event with
  | cancelled =>
    cases hwake
    exact went_cancel h rfl
  | cleaned ok removed token =>
    cases hwake
    exact went_withdrawn h.sound rfl
  | _ => cases hwake

end

/-- A task that holds `_busy` goes on to its next await. -/
theorem went_wake {event : Event} (h : Held c (some t)) (ht : t.busy = true)
    (hquiet : c.closed = true → ∀ id e, c.entries.get? id = some e → e.leases = 0)
    (hwake : c.wake t event = some (c', t')) : Went c t c' t' := by
  obtain ⟨purpose, stage, cancelled⟩ := t
  cases stage with
  | reconcile => exact wake_reconcile h hwake
  | reap => exact wake_reap h hquiet hwake
  | cleanup => exact wake_cleanup h hquiet hwake
  | evict => exact wake_evict h hwake
  | evicting => exact wake_evicting h hwake
  | resolve => exact wake_resolve h hwake
  | download => exact wake_download h hwake
  | withdraw => exact wake_withdraw h hwake
  | _ => cases ht

end PanelAssistant.BrowserRelease
