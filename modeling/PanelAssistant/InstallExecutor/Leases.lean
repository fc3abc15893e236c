import PanelAssistant.InstallExecutor.Finalizer

/-!
# What a call does to the leases

`LeaseStep` says what a task can do to the leases between two awaits: nothing, reserve a
lease for a verification, grant one, ask for a release, or end a verification. `start_step`
and `wake_step` are the only places where the calls are unfolded.
-/

namespace PanelAssistant

open Library InstallPhase Finalizers

/-! ## Reading the leases -/

/-- Every reference is to a record, and no two jobs share one. -/
structure Finalizers.WellFormed (x : Finalizers) : Prop where
  range : ∀ j l, x.finalizers.get? j = some l → l < x.leases.length
  injective : ∀ j k l, x.finalizers.get? j = some l → x.finalizers.get? k = some l → j = k

section

variable {x x' : Finalizers} {j o : String} {l : Nat} {lease : FinalizerLease}

theorem leaseOf_eq_some :
    x.leaseOf j = some (l, lease) ↔ x.finalizers.get? j = some l ∧ x.leases[l]? = some lease := by
  simp only [leaseOf, Option.bind_eq_some_iff, Option.map_eq_some_iff, Prod.mk.injEq]
  constructor
  · rintro ⟨ref, href, found, hfound, rfl, rfl⟩
    exact ⟨href, hfound⟩
  · rintro ⟨href, hfound⟩
    exact ⟨l, href, lease, hfound, rfl, rfl⟩

theorem Finalizers.WellFormed.leaseOf_eq_none (h : x.WellFormed) :
    x.leaseOf j = none ↔ x.finalizers.get? j = none := by
  constructor
  · intro hnone
    by_contra hsome
    obtain ⟨ref, href⟩ := Option.ne_none_iff_exists'.mp hsome
    have hlt := h.range j ref href
    have hfound : x.leaseOf j = some (ref, x.leases[ref]) :=
      leaseOf_eq_some.mpr ⟨href, List.getElem?_eq_getElem hlt⟩
    rw [hnone] at hfound
    cases hfound
  · intro hnone
    simp [leaseOf, hnone]

@[simp] theorem leaseOf_note (n : FinalizerNote) (k : String) :
    (x.note j o n).leaseOf k = x.leaseOf k := rfl

@[simp] theorem leaseOf_setLocked (locked : Bool) (k : String) :
    (x.setLocked locked).leaseOf k = x.leaseOf k := rfl

/-- What a change does to the lease of one job; the others stay. -/
structure Touch (x x' : Finalizers) (j : String) (now : Option (Nat × FinalizerLease)) : Prop where
  wellFormed : x'.WellFormed
  self : x'.leaseOf j = now
  other : ∀ k, k ≠ j → x'.leaseOf k = x.leaseOf k

theorem Finalizers.WellFormed.newLease (h : x.WellFormed) :
    Touch x (x.newLease j lease) j (some (x.leases.length, lease)) := by
  have hget : ∀ k l, (x.newLease j lease).finalizers.get? k = some l →
      k = j ∧ l = x.leases.length ∨ k ≠ j ∧ x.finalizers.get? k = some l := by
    intro k l hk
    simp only [Finalizers.newLease, Dict.get?_set] at hk
    split at hk
    · rename_i heq
      cases hk
      exact Or.inl ⟨heq, rfl⟩
    · rename_i hne
      exact Or.inr ⟨hne, hk⟩
  refine ⟨⟨fun k l hk => ?_, fun k k' l hk hk' => ?_⟩, ?_, fun k hk => ?_⟩
  · simp only [Finalizers.newLease, List.length_append, List.length_singleton]
    rcases hget k l hk with ⟨-, rfl⟩ | ⟨-, hold⟩
    · omega
    · have := h.range k l hold
      omega
  · rcases hget k l hk with ⟨rfl, rfl⟩ | ⟨hne, hold⟩ <;>
      rcases hget k' _ hk' with ⟨rfl, hl⟩ | ⟨hne', hold'⟩
    · rfl
    · exact absurd (h.range k' _ hold') (by omega)
    · exact absurd (h.range k _ hold) (by omega)
    · exact h.injective k k' l hold hold'
  · refine leaseOf_eq_some.mpr ⟨?_, ?_⟩
    · simp [Finalizers.newLease]
    · simp [Finalizers.newLease]
  · simp only [leaseOf, Finalizers.newLease, Dict.get?_set, if_neg hk]
    cases hold : x.finalizers.get? k with
    | none => rfl
    | some ref =>
      have hlt := h.range k ref hold
      simp only [Option.bind_some]
      rw [List.getElem?_append_left hlt]

theorem Finalizers.WellFormed.setLease (h : x.WellFormed) {old : FinalizerLease}
    (hold : x.leaseOf j = some (l, old)) : Touch x (x.setLease l lease) j (some (l, lease)) := by
  obtain ⟨href, hfound⟩ := leaseOf_eq_some.mp hold
  refine ⟨⟨fun k l' hk => ?_, h.injective⟩, ?_, fun k hk => ?_⟩
  · simpa [Finalizers.setLease] using h.range k l' hk
  · refine leaseOf_eq_some.mpr ⟨href, ?_⟩
    simp only [Finalizers.setLease]
    exact List.getElem?_set_self (h.range j l href)
  · simp only [leaseOf, Finalizers.setLease]
    cases hother : x.finalizers.get? k with
    | none => rfl
    | some ref =>
      have hne : l ≠ ref := fun heq => hk (h.injective k j ref hother (heq ▸ href))
      simp only [Option.bind_some]
      rw [List.getElem?_set_ne hne]

theorem Finalizers.WellFormed.popLease (h : x.WellFormed) : Touch x (x.popLease j) j none := by
  have hget : ∀ k,
      (x.popLease j).finalizers.get? k = if k = j then none else x.finalizers.get? k := by
    intro k
    simp [Finalizers.popLease]
  have hkept : ∀ k l, (x.popLease j).finalizers.get? k = some l → x.finalizers.get? k = some l := by
    intro k l hk
    rw [hget] at hk
    split at hk
    · cases hk
    · exact hk
  refine ⟨⟨fun k l hk => h.range k l (hkept k l hk),
    fun k k' l hk hk' => h.injective k k' l (hkept k l hk) (hkept k' l hk')⟩, ?_, fun k hk => ?_⟩
  · simp [leaseOf, hget]
  · simp only [leaseOf, hget, if_neg hk]
    rfl

theorem Touch.same (h : x.WellFormed) (j : String) : Touch x x j (x.leaseOf j) :=
  ⟨h, rfl, fun _ _ => rfl⟩

theorem Touch.trans {x'' : Finalizers} {now now' : Option (Nat × FinalizerLease)}
    (h : Touch x x' j now) (h' : Touch x' x'' j now') : Touch x x'' j now' :=
  ⟨h'.wellFormed, h'.self, fun k hk => (h'.other k hk).trans (h.other k hk)⟩

/-! ## Releases -/

/-- What a release makes of a lease. -/
def afterRelease (o : String) : Option (Nat × FinalizerLease) → Option (Nat × FinalizerLease)
  | none => none
  | some (ref, lease) =>
    if lease.owner ≠ o then some (ref, lease)
    else if lease.verifying then some (ref, { lease with releaseRequested := true })
    else none

theorem releaseFinalizer_touch (h : x.WellFormed) (j o : String) :
    Touch x (releaseFinalizer x j o) j (afterRelease o (x.leaseOf j)) := by
  have hsame := Touch.same h j
  unfold releaseFinalizer
  cases hlease : x.leaseOf j with
  | none =>
    rw [hlease] at hsame
    exact hsame
  | some found =>
    obtain ⟨ref, lease⟩ := found
    rw [hlease] at hsame
    simp only [afterRelease]
    split
    · exact hsame
    · split
      · exact h.setLease hlease
      · exact h.popLease

theorem log_releaseFinalizer : (releaseFinalizer x j o).log = x.log := by
  unfold releaseFinalizer
  split
  · rfl
  · split
    · rfl
    · split <;> rfl

theorem Finalizers.WellFormed.note (h : x.WellFormed) (n : FinalizerNote) :
    (x.note j o n).WellFormed :=
  ⟨h.range, h.injective⟩

theorem Finalizers.WellFormed.setLocked (h : x.WellFormed) (locked : Bool) :
    (x.setLocked locked).WellFormed :=
  ⟨h.range, h.injective⟩

theorem askRelease_touch (h : x.WellFormed) :
    Touch x (askRelease x j o) j (afterRelease o (x.leaseOf j)) := by
  have hnoted : (x.note j o .released).WellFormed := h.note .released
  have hrelease := releaseFinalizer_touch hnoted j o
  exact ⟨hrelease.wellFormed, hrelease.self, hrelease.other⟩

theorem log_askRelease : (askRelease x j o).log = (j, o, .released) :: x.log :=
  log_releaseFinalizer

end

/-! ## Steps -/

/-- The job, the owner and the lease of a running verification. -/
def FinalizerTask.verifies : FinalizerTask → Option (String × String × Nat)
  | .verifyReading jobId owner lease => some (jobId, owner, lease)
  | .verifyChecking jobId owner lease _ => some (jobId, owner, lease)
  | .verifyRejecting jobId owner lease _ => some (jobId, owner, lease)
  | _ => none

/-- The job and the owner of a call that will release their lease when it ends. -/
def FinalizerTask.settles : FinalizerTask → Option (String × String)
  | .acquiring jobId owner _ => some (jobId, owner)
  | .reading jobId owner _ => some (jobId, owner)
  | .moving jobId owner _ _ => some (jobId, owner)
  | _ => none

/-- Only a lease whose verification runs has a release requested. -/
structure LeasesOk (x : Finalizers) : Prop where
  wellFormed : x.WellFormed
  quiet : ∀ j l lease, x.leaseOf j = some (l, lease) → lease.verifying = false →
    lease.releaseRequested = false

/-- A running verification holds its job's lease. -/
def HoldsLease (x : Finalizers) (t : FinalizerTask) : Prop :=
  ∀ j o l, t.verifies = some (j, o, l) → ∃ requested, x.leaseOf j = some (l, ⟨o, true, requested⟩)

/-- Two tasks do not verify one job. -/
def Apart (t u : FinalizerTask) : Prop :=
  ∀ j o l o' l', t.verifies = some (j, o, l) → u.verifies ≠ some (j, o', l')

/-- The owner that a task acts for. -/
def FinalizerTask.owner : FinalizerTask → Option String
  | .verifyReading _ owner _ => some owner
  | .verifyChecking _ owner _ _ => some owner
  | .verifyRejecting _ owner _ _ => some owner
  | .listing entryId _ _ => some ("setup_" ++ entryId)
  | .acquiring _ owner _ => some owner
  | .reading _ owner _ => some owner
  | .moving _ owner _ _ => some owner
  | _ => none

/-- The owner that a call names. -/
def FinalizerCall.owner : FinalizerCall → Option String
  | .verify _ owner => some owner
  | .release _ owner => some owner
  | .consume _ owner _ => some owner
  | .reconcile entryId _ _ => some ("setup_" ++ entryId)
  | .ensureJob => none

/-- What a task that acts for `who` and goes from `t` to `t'` does to the leases. -/
inductive LeaseStep (who : Option String) (x : Finalizers) (t : FinalizerTask) (x' : Finalizers)
    (t' : FinalizerTask) : Prop
  | moved (hwell : x'.WellFormed) (hleases : ∀ j, x'.leaseOf j = x.leaseOf j)
      (hlog : x'.log = x.log) (hverifies : t'.verifies = t.verifies)
      (hsettles : ∀ p, t.settles = some p → t'.settles = some p)
  | reserved (j o : String) (l : Nat) (hverifies : t.verifies = none) (hsettles : t.settles = none)
      (hverifies' : t'.verifies = some (j, o, l))
      (hfree : x.leaseOf j = none ∨ x.leaseOf j = some (l, ⟨o, false, false⟩))
      (htouch : Touch x x' j (some (l, ⟨o, true, false⟩))) (hlog : x'.log = x.log)
  | granted (j o : String) (l : Nat) (hverifies : t.verifies = none)
      (hsettles : t.settles = some (j, o)) (hverifies' : t'.verifies = none)
      (hsettles' : t'.settles = some (j, o)) (hfree : x.leaseOf j = none)
      (htouch : Touch x x' j (some (l, ⟨o, false, false⟩))) (hlog : x'.log = x.log)
  | asked (j o : String) (hwho : who = some o) (hverifies : t.verifies = none)
      (hsettles : ∀ p, t.settles = some p → p = (j, o)) (hverifies' : t'.verifies = none)
      (htouch : Touch x x' j (afterRelease o (x.leaseOf j)))
      (hlog : x'.log = (j, o, .released) :: x.log)
  | finished (j o : String) (l : Nat) (requested : Bool) (outcome : Option FinalizationOutcome)
      (hwho : who = some o) (hverifies : t.verifies = some (j, o, l))
      (hreturned : t' = .returned outcome)
      (hlease : x.leaseOf j = some (l, ⟨o, true, requested⟩))
      (htouch : Touch x x' j
        (if outcome = some .verified ∧
          requested = false then some (l, ⟨o, false, false⟩) else none))
      (hlog : x'.log = (j, o, if outcome = some .verified then .verified else .lapsed) :: x.log)

section

variable {who : Option String} {x x' : Finalizers} {t t' : FinalizerTask}

theorem finishVerification_step (h : LeasesOk x) {j o : String} {l : Nat} (hwho : who = some o)
    (hverifies : t.verifies = some (j, o, l)) (hholds : HoldsLease x t)
    (outcome : Option FinalizationOutcome) :
    LeaseStep who x t (finishVerification x j o l outcome) (.returned outcome) := by
  obtain ⟨requested, hlease⟩ := hholds j o l hverifies
  obtain ⟨-, hfound⟩ := leaseOf_eq_some.mp hlease
  let n : FinalizerNote := if outcome = some .verified then .verified else .lapsed
  let x₁ := (x.note j o n).setLease l ⟨o, false, requested⟩
  have hset : Touch x x₁ j (some (l, ⟨o, false, requested⟩)) := by
    have hnoted : (x.note j o n).WellFormed := h.wellFormed.note n
    have htouch : Touch (x.note j o n) x₁ j (some (l, ⟨o, false, requested⟩)) :=
      hnoted.setLease hlease
    exact ⟨htouch.wellFormed, htouch.self, htouch.other⟩
  have hrelease : Touch x (releaseFinalizer x₁ j o) j none := by
    have htouch := releaseFinalizer_touch hset.wellFormed j o
    rw [hset.self] at htouch
    simpa [afterRelease] using hset.trans htouch
  have hfinish : finishVerification x j o l outcome =
      if outcome = some .verified ∧ requested = false then x₁ else releaseFinalizer x₁ j o := by
    have hfound' : (x.note j o n).leases[l]? = some ⟨o, true, requested⟩ := hfound
    by_cases hkeep : outcome = some .verified
    · have hn : n = .verified := if_pos hkeep
      cases requested <;> simp [finishVerification, hkeep, ← hn, hfound', x₁]
    · have hn : n = .lapsed := if_neg hkeep
      simp [finishVerification, hkeep, ← hn, hfound', x₁]
  refine .finished j o l requested outcome hwho hverifies rfl hlease ?_ ?_
  · rw [hfinish]
    by_cases hkeep : outcome = some .verified ∧ requested = false
    · rw [if_pos hkeep, if_pos hkeep]
      rw [hkeep.2] at hset
      exact hkeep.2 ▸ hset
    · rw [if_neg hkeep, if_neg hkeep]
      exact hrelease
  · rw [hfinish]
    split
    · rfl
    · exact log_releaseFinalizer

theorem startVerification_step (h : LeasesOk x) {j o : String}
    (hstart : startVerification x j o = (x', t')) : LeaseStep who x (.returned none) x' t' := by
  unfold startVerification at hstart
  split at hstart
  · cases hstart
    exact .moved h.wellFormed (fun _ => rfl) rfl rfl (fun _ hp => by cases hp)
  · split at hstart
    · rename_i hnone
      cases hstart
      exact .reserved j o _ rfl rfl rfl (Or.inl hnone) h.wellFormed.newLease rfl
    · rename_i ref lease hlease
      split at hstart
      · cases hstart
        exact .moved h.wellFormed (fun _ => rfl) rfl rfl (fun _ hp => by cases hp)
      · rename_i hmine
        cases hstart
        simp only [not_or, ne_eq, Decidable.not_not, Bool.not_eq_true] at hmine
        obtain ⟨rfl, hidle⟩ := hmine
        -- A lease without a running verification has no release requested.
        have hquiet := h.quiet j ref lease hlease hidle
        have hfree : lease = ⟨lease.owner, false, false⟩ := by
          cases lease
          simp_all
        have hreserved : ({ lease with verifying := true } : FinalizerLease) =
            ⟨lease.owner, true, false⟩ := by
          cases lease
          simp_all
        rw [hreserved]
        refine .reserved j lease.owner ref rfl rfl rfl (Or.inr ?_)
          (h.wellFormed.setLease hlease) rfl
        rw [hlease, ← hfree]

theorem startSettling_step (h : LeasesOk x) {j o : String} {settlement : Settlement}
    (hwho : who = some o) (hverifies : t.verifies = none) (hsettles : t.settles = none)
    (hstart : startSettling x j o settlement = (x', t')) : LeaseStep who x t x' t' := by
  unfold startSettling at hstart
  split at hstart
  · cases hstart
    exact .moved h.wellFormed (fun _ => rfl) rfl hverifies.symm
      (fun p hp => by rw [hsettles] at hp; cases hp)
  · cases hstart
    exact .asked j o hwho hverifies (fun p hp => by rw [hsettles] at hp; cases hp) rfl
      (askRelease_touch h.wellFormed) log_askRelease

theorem start_step (h : LeasesOk x) {call : FinalizerCall} (hstart : call.start x = (x', t')) :
    LeaseStep call.owner x (.returned none) x' t' := by
  cases call with
  | verify j o => exact startVerification_step h hstart
  | release j o =>
    cases hstart
    exact .asked j o rfl rfl (fun _ hp => by cases hp) rfl
      (askRelease_touch h.wellFormed) log_askRelease
  | consume j o entryId => exact startSettling_step h rfl rfl rfl hstart
  | reconcile entryId address health =>
    cases hstart
    exact .moved h.wellFormed (fun _ => rfl) rfl rfl (fun _ hp => by cases hp)
  | ensureJob =>
    cases hstart
    exact .moved h.wellFormed (fun _ => rfl) rfl rfl (fun _ hp => by cases hp)

theorem endSettling_step (h : LeasesOk x) {j o : String} (hwho : who = some o)
    (hverifies : t.verifies = none)
    (hsettles : t.settles = some (j, o)) (hend : endSettling x j o = (x', t')) :
    LeaseStep who x t x' t' := by
  cases hend
  refine .asked j o hwho hverifies (fun p hp => ?_) rfl
    (askRelease_touch h.wellFormed) log_askRelease
  rw [hsettles] at hp
  cases hp
  rfl

theorem LeasesOk.setLocked (h : LeasesOk x) (locked : Bool) : LeasesOk (x.setLocked locked) :=
  ⟨h.wellFormed.setLocked locked, h.quiet⟩

/-- The lock is no lease. -/
theorem LeaseStep.of_setLocked {locked : Bool} (h : LeaseStep who (x.setLocked locked) t x' t') :
    LeaseStep who x t x' t' := by
  cases h with
  | moved hwell hleases hlog hverifies hsettles =>
    exact .moved hwell hleases hlog hverifies hsettles
  | reserved j o l hverifies hsettles hverifies' hfree htouch hlog =>
    exact .reserved j o l hverifies hsettles hverifies' hfree
      ⟨htouch.wellFormed, htouch.self, htouch.other⟩ hlog
  | granted j o l hverifies hsettles hverifies' hsettles' hfree htouch hlog =>
    exact .granted j o l hverifies hsettles hverifies' hsettles' hfree
      ⟨htouch.wellFormed, htouch.self, htouch.other⟩ hlog
  | asked j o hwho hverifies hsettles hverifies' htouch hlog =>
    exact .asked j o hwho hverifies hsettles hverifies'
      ⟨htouch.wellFormed, htouch.self, htouch.other⟩ hlog
  | finished j o l requested outcome hwho hverifies hreturned hlease htouch hlog =>
    exact .finished j o l requested outcome hwho hverifies hreturned hlease
      ⟨htouch.wellFormed, htouch.self, htouch.other⟩ hlog

/-- A receipt that is read under the lock is granted, or the call ends. -/
theorem grantFinalizer_step (h : LeasesOk x) {j o : String} (settlement : Settlement)
    (hverifies : t.verifies = none) (hsettles : t.settles = some (j, o)) (r : InstallJobReceipt) :
    (∀ y, grantFinalizer x j o r.phase = (y, true) →
      LeaseStep who x t y (.moving j o r.revision (settlement.arguments r))) ∧
    ∀ y, grantFinalizer x j o r.phase = (y, false) → y = x := by
  have hkept : LeaseStep who x t x (.moving j o r.revision (settlement.arguments r)) :=
    .moved h.wellFormed (fun _ => rfl) rfl hverifies.symm (fun p hp => by rw [← hp, hsettles]; rfl)
  unfold grantFinalizer
  split
  · exact ⟨fun y hy => (by cases hy), fun y hy => (by cases hy; rfl)⟩
  · split
    · rename_i hnone
      refine ⟨fun y hy => ?_, fun y hy => by cases hy⟩
      cases hy
      exact .granted j o _ hverifies hsettles rfl rfl hnone h.wellFormed.newLease rfl
    · refine ⟨fun y hy => ?_, fun y hy => ?_⟩
      · obtain ⟨rfl, -⟩ := Prod.mk.inj hy
        exact hkept
      · exact (Prod.mk.inj hy).1.symm

theorem wake_step (h : LeasesOk x) (hholds : HoldsLease x t) {event : FinalizerEvent}
    (hwake : t.wake x event = some (x', t')) : LeaseStep t.owner x t x' t' := by
  have hidle : ∀ b, (x.setLocked b).WellFormed := fun b => h.wellFormed.setLocked b
  have hunlocked := h.setLocked false
  cases t with
  | verifyReading j o l =>
    cases event with
    | receipt r =>
      simp only [FinalizerTask.wake] at hwake
      split at hwake
      · cases hwake
        exact finishVerification_step h rfl rfl hholds _
      · cases hwake
        exact .moved h.wellFormed (fun _ => rfl) rfl rfl (fun _ hp => by cases hp)
    | jobError | exception | cancelled =>
      cases hwake
      exact finishVerification_step h rfl rfl hholds _
    | _ => cases hwake
  | verifyChecking j o l r =>
    cases event with
    | checked io =>
      simp only [FinalizerTask.wake] at hwake
      split at hwake
      · cases hwake
        exact finishVerification_step h rfl rfl hholds _
      · cases hwake
        exact .moved h.wellFormed (fun _ => rfl) rfl rfl (fun _ hp => by cases hp)
    | jobError | exception | cancelled =>
      cases hwake
      exact finishVerification_step h rfl rfl hholds _
    | _ => cases hwake
  | verifyRejecting j o l subcode =>
    cases event with
    | moved | jobError | exception | cancelled =>
      cases hwake
      exact finishVerification_step h rfl rfl hholds _
    | _ => cases hwake
  | listing entryId address health =>
    cases event with
    | receipts rs =>
      simp only [FinalizerTask.wake] at hwake
      split at hwake
      · cases hwake
        exact .moved h.wellFormed (fun _ => rfl) rfl rfl (fun _ hp => by cases hp)
      · exact startSettling_step h rfl rfl rfl (Option.some.inj hwake)
    | jobError | exception | cancelled =>
      cases hwake
      exact .moved h.wellFormed (fun _ => rfl) rfl rfl (fun _ hp => by cases hp)
    | _ => cases hwake
  | acquiring j o settlement =>
    cases event with
    | entered =>
      simp only [FinalizerTask.wake] at hwake
      split at hwake
      · cases hwake
      · cases hwake
        exact .moved (hidle true) (fun _ => rfl) rfl rfl (fun _ hp => hp)
    | cancelled => exact endSettling_step h rfl rfl rfl (Option.some.inj hwake)
    | _ => cases hwake
  | reading j o settlement =>
    cases event with
    | receipt r =>
      have hverifies : (FinalizerTask.reading j o settlement).verifies = none := rfl
      obtain ⟨hgranted, hrefused⟩ := grantFinalizer_step hunlocked settlement hverifies rfl r
      simp only [FinalizerTask.wake] at hwake
      split at hwake
      · rename_i y hgrant
        cases hwake
        exact (hgranted _ hgrant).of_setLocked
      · rename_i y hgrant
        have hy := hrefused _ hgrant
        subst hy
        exact (endSettling_step hunlocked rfl rfl rfl (Option.some.inj hwake)).of_setLocked
    | jobError | exception | cancelled =>
      exact (endSettling_step hunlocked rfl rfl rfl (Option.some.inj hwake)).of_setLocked
    | _ => cases hwake
  | moving j o revision a =>
    cases event with
    | moved | jobError | exception | cancelled =>
      exact endSettling_step h rfl rfl rfl (Option.some.inj hwake)
    | _ => cases hwake
  | ensuring =>
    cases event with
    | entered =>
      simp only [FinalizerTask.wake] at hwake
      split at hwake
      · cases hwake
      · cases hwake
        exact .moved (hidle true) (fun _ => rfl) rfl rfl (fun _ hp => by cases hp)
    | cancelled =>
      cases hwake
      exact .moved h.wellFormed (fun _ => rfl) rfl rfl (fun _ hp => by cases hp)
    | _ => cases hwake
  | ensured =>
    cases event with
    | receipt _ | jobError | exception | cancelled =>
      cases hwake
      exact .moved (hidle false) (fun _ => rfl) rfl rfl (fun _ hp => by cases hp)
    | _ => cases hwake
  | returned outcome => cases event <;> cases hwake

end

end PanelAssistant
