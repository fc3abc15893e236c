import PanelAssistant.InstallExecutor.Leases

/-!
# One finalizer at a time

Derived from `LeaseStep` alone: a running verification holds its job's lease, so two of them
never run side by side; a lease is removed by its owner's calls only; a verified owner keeps
its lease unless it asked for a release; and no lease outlives its calls but one of a
verified owner.
-/

namespace PanelAssistant

open Library Finalizers

section

variable {who : Option String} {x x' : Finalizers} {t t' : FinalizerTask}

/-! ## Interference -/

theorem verifies_settles {j o : String} {l : Nat} (h : t.verifies = some (j, o, l)) :
    t.settles = none := by
  cases t <;> first | rfl | cases h

/-- A lease that is verified by another task stays; a release that its owner asks for is
recorded in it. -/
theorem LeaseStep.verified_elsewhere (h : LeaseStep who x t x' t') {j o : String} {l : Nat}
    {requested : Bool} (hlease : x.leaseOf j = some (l, ⟨o, true, requested⟩))
    (hother : ∀ o' l', t.verifies ≠ some (j, o', l')) :
    ∃ requested', x'.leaseOf j = some (l, ⟨o, true, requested'⟩) ∧
      (requested' = true → requested = true ∨ x'.log = (j, o, .released) :: x.log) := by
  cases h with
  | moved _ hleases =>
    exact ⟨requested, (hleases j).trans hlease, Or.inl⟩
  | reserved k o' l' _ _ _ hfree htouch =>
    by_cases hk : j = k
    · subst hk
      rcases hfree with hfree | hfree <;> rw [hlease] at hfree <;> cases hfree
    · exact ⟨requested, (htouch.other j hk).trans hlease, Or.inl⟩
  | granted k o' l' _ _ _ _ hfree htouch =>
    by_cases hk : j = k
    · subst hk
      rw [hlease] at hfree
      cases hfree
    · exact ⟨requested, (htouch.other j hk).trans hlease, Or.inl⟩
  | asked k o' _ _ _ _ htouch hlog =>
    by_cases hk : j = k
    · subst hk
      have hself := htouch.self
      rw [hlease] at hself
      by_cases ho : o = o'
      · subst ho
        exact ⟨true, by simpa [afterRelease] using hself, fun _ => Or.inr hlog⟩
      · exact ⟨requested, by simpa [afterRelease, ho] using hself, Or.inl⟩
    · exact ⟨requested, (htouch.other j hk).trans hlease, Or.inl⟩
  | finished k o' l' _ _ _ hverifies _ _ htouch =>
    by_cases hk : j = k
    · subst hk
      exact absurd hverifies (hother o' l')
    · exact ⟨requested, (htouch.other j hk).trans hlease, Or.inl⟩

/-- A step keeps the invariants of the leases, of its own task and of every other task. -/
theorem LeaseStep.keeps (h : LeaseStep who x t x' t') (hok : LeasesOk x) (hholds : HoldsLease x t) :
    LeasesOk x' ∧ HoldsLease x' t' ∧
      ∀ u, HoldsLease x u → Apart t u → HoldsLease x' u ∧ Apart t' u := by
  have hothers : ∀ u, HoldsLease x u → Apart t u → HoldsLease x' u := by
    intro u hu hapart j o l hverifies
    obtain ⟨requested, hlease⟩ := hu j o l hverifies
    obtain ⟨requested', hlease', -⟩ := h.verified_elsewhere hlease
      fun o' l' ht => hapart j o' l' o l ht hverifies
    exact ⟨requested', hlease'⟩
  have hidle : t'.verifies = none → HoldsLease x' t' ∧ ∀ u, Apart t' u := by
    intro hnone
    refine ⟨fun j o l hverifies => ?_, fun u j o l o' l' hverifies => ?_⟩ <;>
      rw [hnone] at hverifies <;> cases hverifies
  cases h with
  | moved hwell hleases hlog hverifies hsettles =>
    refine ⟨⟨hwell, fun j l lease hlease => hok.quiet j l lease ((hleases j).symm.trans hlease)⟩,
      fun j o l ht' => ?_, fun u hu hapart => ⟨hothers u hu hapart, fun j o l o' l' ht' => ?_⟩⟩
    · rw [hleases]
      exact hholds j o l (hverifies.symm.trans ht')
    · exact hapart j o l o' l' (hverifies.symm.trans ht')
  | reserved j o l hverifies hsettles hverifies' hfree htouch hlog =>
    refine ⟨⟨htouch.wellFormed, fun k l' lease hlease hidle => ?_⟩, fun k o' l' ht' => ?_,
      fun u hu hapart => ⟨hothers u hu hapart, fun k o₁ l₁ o₂ l₂ ht' hu' => ?_⟩⟩
    · by_cases hk : k = j
      · rw [hk, htouch.self] at hlease
        cases hlease
        cases hidle
      · rw [htouch.other k hk] at hlease
        exact hok.quiet k l' lease hlease hidle
    · rw [hverifies'] at ht'
      cases ht'
      exact ⟨false, htouch.self⟩
    · -- The other task would hold the lease that was free.
      rw [hverifies'] at ht'
      cases ht'
      obtain ⟨requested, hlease⟩ := hu j o₂ l₂ hu'
      rcases hfree with hfree | hfree <;> rw [hfree] at hlease <;> cases hlease
  | granted j o l hverifies hsettles hverifies' hsettles' hfree htouch hlog =>
    obtain ⟨hmine, hapart'⟩ := hidle hverifies'
    refine ⟨⟨htouch.wellFormed, fun k l' lease hlease hquiet => ?_⟩, hmine,
      fun u hu hapart => ⟨hothers u hu hapart, hapart' u⟩⟩
    by_cases hk : k = j
    · rw [hk, htouch.self] at hlease
      cases hlease
      rfl
    · rw [htouch.other k hk] at hlease
      exact hok.quiet k l' lease hlease hquiet
  | asked j o hwho hverifies hsettles hverifies' htouch hlog =>
    obtain ⟨hmine, hapart'⟩ := hidle hverifies'
    refine ⟨⟨htouch.wellFormed, fun k l' lease hlease hquiet => ?_⟩, hmine,
      fun u hu hapart => ⟨hothers u hu hapart, hapart' u⟩⟩
    by_cases hk : k = j
    · subst hk
      rw [htouch.self] at hlease
      cases hold : x.leaseOf k with
      | none =>
        rw [hold] at hlease
        cases hlease
      | some found =>
        obtain ⟨ref, old⟩ := found
        rw [hold] at hlease
        simp only [afterRelease] at hlease
        split at hlease
        · cases hlease
          exact hok.quiet k l' lease hold hquiet
        · split at hlease
          · rename_i hverifying
            cases hlease
            rw [hverifying] at hquiet
            cases hquiet
          · cases hlease
    · rw [htouch.other k hk] at hlease
      exact hok.quiet k l' lease hlease hquiet
  | finished j o l requested outcome hwho hverifies hreturned hlease₀ htouch hlog =>
    obtain ⟨hmine, hapart'⟩ := hidle (by rw [hreturned]; rfl)
    refine ⟨⟨htouch.wellFormed, fun k l' lease hlease hquiet => ?_⟩, hmine,
      fun u hu hapart => ⟨hothers u hu hapart, hapart' u⟩⟩
    by_cases hk : k = j
    · rw [hk, htouch.self] at hlease
      split at hlease <;> cases hlease
      rfl
    · rw [htouch.other k hk] at hlease
      exact hok.quiet k l' lease hlease hquiet

end

/-! ## Runs -/

/-- The finalizers and their calls after any moves. -/
def afterMoves (moves : List (Tasks.Move FinalizerCall FinalizerEvent)) :
    Tasks.Pool Finalizers FinalizerTask :=
  finalizerProgram.run ⟨Finalizers.initial, []⟩ moves

/-- The owner that a move acts for. -/
def mover (p : Tasks.Pool Finalizers FinalizerTask) :
    Tasks.Move FinalizerCall FinalizerEvent → Option String
  | .start call => call.owner
  | .wake i _ => (p.tasks[i]?).bind FinalizerTask.owner

theorem leasesOk_initial : LeasesOk Finalizers.initial :=
  ⟨⟨(fun _ _ h => by cases h), (fun _ _ _ h => by cases h)⟩, fun _ _ _ h => by cases h⟩

/-- The invariant of every pool of finalizer calls. -/
def LeasesInv (p : Tasks.Pool Finalizers FinalizerTask) : Prop :=
  Tasks.Inv LeasesOk HoldsLease Apart p

theorem LeasesInv.step {p : Tasks.Pool Finalizers FinalizerTask} (h : LeasesInv p)
    (move : Tasks.Move FinalizerCall FinalizerEvent) :
    LeasesInv (finalizerProgram.step p move) := by
  refine Tasks.Inv.step finalizerProgram (fun t u h j o l o' l' ht hu => h j o' l' o l hu ht)
    (fun x call x' t' hok hstart => ?_) (fun x t event x' t' hok hholds hwake => ?_) h move
  · obtain ⟨hok', hmine, hothers⟩ := (start_step hok hstart).keeps hok fun _ _ _ h => by cases h
    exact ⟨hok', hmine, fun u hu => hothers u hu fun _ _ _ _ _ h => by cases h⟩
  · exact (wake_step hok hholds hwake).keeps hok hholds

theorem leasesInv_initial : LeasesInv ⟨Finalizers.initial, []⟩ :=
  ⟨leasesOk_initial, by simp, by simp⟩

theorem leases_inv (moves : List (Tasks.Move FinalizerCall FinalizerEvent)) :
    LeasesInv (afterMoves moves) :=
  Runs.run_inv LeasesInv (fun _ move h => h.step move) leasesInv_initial moves

/-! ## No lease is left -/

/-- The last thing that calls of this owner did is to verify. -/
def Outstanding (log : List (String × String × FinalizerNote)) (j o : String) : Prop :=
  (log.find? fun n => n.1 = j && n.2.1 = o).map (·.2.2) = some .verified

theorem outstanding_verified (log : List (String × String × FinalizerNote)) (j o : String) :
    Outstanding ((j, o, .verified) :: log) j o := by
  simp [Outstanding]

theorem outstanding_cons {log : List (String × String × FinalizerNote)} {j j' o o' : String}
    (n : FinalizerNote) (hne : j' = j → o' ≠ o) (h : Outstanding log j o) :
    Outstanding ((j', o', n) :: log) j o := by
  have hskip : ¬(j' = j ∧ o' = o) := fun heq => hne heq.1 heq.2
  simpa [Outstanding, hskip] using h

/-- The call that will end or release a lease. -/
def Supports (j : String) (lease : FinalizerLease) (t : FinalizerTask) : Prop :=
  if lease.verifying then ∃ l, t.verifies = some (j, lease.owner, l)
  else t.settles = some (j, lease.owner)

/-- Every lease has a running call of its owner, or a verified owner. -/
def Supported (p : Tasks.Pool Finalizers FinalizerTask) : Prop :=
  ∀ j l lease, p.shared.leaseOf j = some (l, lease) →
    (∃ t ∈ p.tasks, Supports j lease t) ∨
      lease.verifying = false ∧ Outstanding p.shared.log j lease.owner

theorem LeaseStep.supported {who : Option String} {x x' : Finalizers} {t t' : FinalizerTask}
    {tasks tasks' : List FinalizerTask} (h : LeaseStep who x t x' t')
    (hothers : ∀ u ∈ tasks, u = t ∨ u ∈ tasks') (hmine : t' ∈ tasks')
    (hsupported : Supported ⟨x, tasks⟩) : Supported ⟨x', tasks'⟩ := by
  intro k l lease hlease
  -- A lease that stays keeps its support, unless the task that moved gave it up.
  have hkept : (x.leaseOf k = some (l, lease)) → (Supports k lease t → Supports k lease t') →
      (Outstanding x.log k lease.owner → Outstanding x'.log k lease.owner) →
      (∃ u ∈ tasks', Supports k lease u) ∨
        lease.verifying = false ∧ Outstanding x'.log k lease.owner := by
    intro hold hpass hlog
    rcases hsupported k l lease hold with ⟨u, hu, hsupports⟩ | ⟨hidle, hout⟩
    · rcases hothers u hu with rfl | hu'
      · exact Or.inl ⟨t', hmine, hpass hsupports⟩
      · exact Or.inl ⟨u, hu', hsupports⟩
    · exact Or.inr ⟨hidle, hlog hout⟩
  have hnot : ∀ j o, t.verifies = none → (∀ p, t.settles = some p → p = (j, o)) →
      (k = j → lease.owner ≠ o) → ¬Supports k lease t := by
    intro j o hverifies hsettles hne hsupports
    unfold Supports at hsupports
    split at hsupports
    · obtain ⟨l', ht⟩ := hsupports
      rw [hverifies] at ht
      cases ht
    · obtain ⟨rfl, rfl⟩ := Prod.mk.inj (hsettles _ hsupports)
      exact hne rfl rfl
  cases h with
  | moved hwell hleases hlog hverifies hsettles =>
    refine hkept ((hleases k).symm.trans hlease) (fun hsupports => ?_) (fun hout => hlog ▸ hout)
    unfold Supports at hsupports ⊢
    split at hsupports
    · rename_i hverifying
      rw [if_pos hverifying, hverifies]
      exact hsupports
    · rename_i hidle
      rw [if_neg hidle]
      exact hsettles _ hsupports
  | reserved j o l' hverifies hsettles hverifies' hfree htouch hlog =>
    by_cases hk : k = j
    · subst hk
      have hself := hlease.symm.trans htouch.self
      cases hself
      exact Or.inl ⟨t', hmine, l, hverifies'⟩
    · refine hkept ((htouch.other k hk).symm.trans hlease) (fun hsupports => ?_)
        (fun hout => hlog ▸ hout)
      exact absurd hsupports (hnot j o hverifies (fun p hp => by rw [hsettles] at hp; cases hp)
        fun heq => absurd heq hk)
  | granted j o l' hverifies hsettles hverifies' hsettles' hfree htouch hlog =>
    by_cases hk : k = j
    · subst hk
      have hself := hlease.symm.trans htouch.self
      cases hself
      exact Or.inl ⟨t', hmine, by simpa [Supports] using hsettles'⟩
    · refine hkept ((htouch.other k hk).symm.trans hlease) (fun hsupports => ?_)
        (fun hout => hlog ▸ hout)
      refine absurd hsupports (hnot j o hverifies (fun p hp => ?_) fun heq => absurd heq hk)
      rw [hsettles] at hp
      exact (Option.some.inj hp).symm
  | asked j o hwho hverifies hsettles hverifies' htouch hlog =>
    by_cases hk : k = j
    · subst hk
      have hself := hlease.symm.trans htouch.self
      cases hold : x.leaseOf k with
      | none =>
        rw [hold] at hself
        cases hself
      | some found =>
        obtain ⟨ref, old⟩ := found
        rw [hold] at hself
        simp only [afterRelease] at hself
        split at hself
        · rename_i hne
          obtain ⟨rfl, rfl⟩ := Prod.mk.inj (Option.some.inj hself)
          refine hkept hold (fun hsupports => absurd hsupports (hnot k o hverifies hsettles
            fun _ => hne)) (fun hout => ?_)
          rw [hlog]
          exact outstanding_cons _ (fun _ heq => hne heq.symm) hout
        · rename_i howner
          split at hself
          · -- The running verification goes on, with the request recorded.
            rename_i hverifying
            obtain ⟨rfl, rfl⟩ := Prod.mk.inj (Option.some.inj hself)
            rcases hsupported k _ old hold with ⟨u, hu, hsupports⟩ | ⟨hidle, -⟩
            · have hu' : Supports k { old with releaseRequested := true } u := hsupports
              rcases hothers u hu with rfl | hmem
              · simp only [Supports, hverifying, if_true, hverifies] at hsupports
                obtain ⟨_, hnone⟩ := hsupports
                cases hnone
              · exact Or.inl ⟨u, hmem, hu'⟩
            · rw [hverifying] at hidle
              cases hidle
          · cases hself
    · refine hkept ((htouch.other k hk).symm.trans hlease) (fun hsupports => absurd hsupports
        (hnot j o hverifies hsettles fun heq => absurd heq hk)) (fun hout => ?_)
      rw [hlog]
      exact outstanding_cons _ (fun heq => absurd heq.symm hk) hout
  | finished j o l' requested outcome hwho hverifies hreturned hlease₀ htouch hlog =>
    by_cases hk : k = j
    · subst hk
      have hself := hlease.symm.trans htouch.self
      split at hself
      · rename_i hkeep
        cases hself
        right
        refine ⟨rfl, ?_⟩
        show Outstanding x'.log k o
        rw [hlog, if_pos hkeep.1]
        exact outstanding_verified _ _ _
      · cases hself
    · refine hkept ((htouch.other k hk).symm.trans hlease) (fun hsupports => ?_) (fun hout => ?_)
      · unfold Supports at hsupports
        split at hsupports
        · obtain ⟨l₂, ht⟩ := hsupports
          rw [hverifies] at ht
          cases ht
          exact absurd rfl hk
        · rw [verifies_settles hverifies] at hsupports
          cases hsupports
      · rw [hlog]
        exact outstanding_cons _ (fun heq => absurd heq.symm hk) hout

/-- What a move does, as a step of the leases. -/
theorem LeasesInv.leaseStep {p p' : Tasks.Pool Finalizers FinalizerTask}
    {move : Tasks.Move FinalizerCall FinalizerEvent} (hinv : LeasesInv p)
    (h : finalizerProgram.Moved p move p') :
    p' = p ∨ ∃ t t', LeaseStep (mover p move) p.shared t p'.shared t' ∧ t' ∈ p'.tasks ∧
      (∀ u ∈ p.tasks, u = t ∨ u ∈ p'.tasks) ∧ (t ∈ p.tasks ∨ t = .returned none) := by
  cases h with
  | idle => exact Or.inl rfl
  | started call x t hstart =>
    refine Or.inr ⟨.returned none, t, start_step hinv.shared hstart, by simp, fun u hu => ?_,
      Or.inr rfl⟩
    exact Or.inr (List.mem_append_left _ hu)
  | woken i event t x t' ht hwake =>
    refine Or.inr ⟨t, t', ?_, Tasks.mem_set_self ht, fun u hu => Tasks.mem_set_of_ne ht hu,
      Or.inl (List.mem_of_getElem? ht)⟩
    have hstep := wake_step hinv.shared (hinv.task i t ht) hwake
    simpa [mover, ht] using hstep

theorem supported_run (moves : List (Tasks.Move FinalizerCall FinalizerEvent)) :
    Supported (afterMoves moves) := by
  refine (Runs.run_inv (fun p => LeasesInv p ∧ Supported p) (fun p move h => ?_)
    ⟨leasesInv_initial, fun _ _ _ hlease => by cases hlease⟩ moves).2
  refine ⟨h.1.step move, ?_⟩
  rcases h.1.leaseStep (finalizerProgram.step_moved p move)
    with hsame | ⟨t, t', hstep, hmine, hothers, -⟩
  · rw [hsame]
    exact h.2
  · exact hstep.supported hothers hmine h.2

/-! ## Removal -/

/-- A lease stays with its owner until a call that acts for its owner removes it. -/
theorem LeaseStep.removed {who : Option String} {x x' : Finalizers} {t t' : FinalizerTask}
    (h : LeaseStep who x t x' t') {j : String} {l : Nat} {lease : FinalizerLease}
    (hlease : x.leaseOf j = some (l, lease)) :
    (∃ lease', x'.leaseOf j = some (l, lease') ∧ lease'.owner = lease.owner) ∨
      x'.leaseOf j = none ∧ who = some lease.owner := by
  cases h with
  | moved _ hleases => exact Or.inl ⟨lease, (hleases j).trans hlease, rfl⟩
  | reserved k o l' _ _ _ hfree htouch =>
    by_cases hk : j = k
    · subst hk
      rcases hfree with hfree | hfree <;> rw [hlease] at hfree <;> cases hfree
      exact Or.inl ⟨_, htouch.self, rfl⟩
    · exact Or.inl ⟨lease, (htouch.other j hk).trans hlease, rfl⟩
  | granted k o l' _ _ _ _ hfree htouch =>
    by_cases hk : j = k
    · subst hk
      rw [hlease] at hfree
      cases hfree
    · exact Or.inl ⟨lease, (htouch.other j hk).trans hlease, rfl⟩
  | asked k o hwho _ _ _ htouch =>
    by_cases hk : j = k
    · subst hk
      have hself := htouch.self
      rw [hlease] at hself
      simp only [afterRelease] at hself
      split at hself
      · exact Or.inl ⟨lease, hself, rfl⟩
      · rename_i howner
        rw [ne_eq, Decidable.not_not] at howner
        split at hself
        · exact Or.inl ⟨_, hself, rfl⟩
        · exact Or.inr ⟨hself, howner ▸ hwho⟩
    · exact Or.inl ⟨lease, (htouch.other j hk).trans hlease, rfl⟩
  | finished k o l' requested outcome hwho _ _ hlease₀ htouch =>
    by_cases hk : j = k
    · subst hk
      rw [hlease] at hlease₀
      cases hlease₀
      have hself := htouch.self
      split at hself
      · exact Or.inl ⟨_, hself, rfl⟩
      · exact Or.inr ⟨hself, hwho⟩
    · exact Or.inl ⟨lease, (htouch.other j hk).trans hlease, rfl⟩

/-! ## A verified owner -/

theorem LeaseStep.log {who : Option String} {x x' : Finalizers} {t t' : FinalizerTask}
    (h : LeaseStep who x t x' t') : ∃ new, x'.log = new ++ x.log := by
  cases h with
  | moved _ _ hlog => exact ⟨[], hlog⟩
  | reserved _ _ _ _ _ _ _ _ hlog => exact ⟨[], hlog⟩
  | granted _ _ _ _ _ _ _ _ _ hlog => exact ⟨[], hlog⟩
  | asked j o _ _ _ _ _ hlog => exact ⟨[(j, o, .released)], hlog⟩
  | finished _ _ _ _ _ _ _ _ _ _ hlog => exact ⟨[_], hlog⟩

/-- A verification of this job and owner since the log was `old`: it runs, with a request for
its release recorded in the lease only if the owner asked for one, or it has returned. -/
def Watched (i : Nat) (j o : String) (old : List (String × String × FinalizerNote))
    (p : Tasks.Pool Finalizers FinalizerTask) : Prop :=
  ∃ new, p.shared.log = new ++ old ∧ ∃ t, p.tasks[i]? = some t ∧
    ((∃ outcome, t = .returned outcome) ∨
      ∃ l requested, t.verifies = some (j, o, l) ∧
        p.shared.leaseOf j = some (l, ⟨o, true, requested⟩) ∧
        (requested = true → (j, o, .released) ∈ new))

/-- A task that another call's step leaves where it is stays watched. -/
theorem LeaseStep.watched {who : Option String} {x x' : Finalizers} {t t' u : FinalizerTask}
    {j o : String} {old new : List (String × String × FinalizerNote)} (h : LeaseStep who x t x' t')
    (hnew : x.log = new ++ old)
    (hu : (∃ outcome, u = .returned outcome) ∨
      ∃ l requested, u.verifies = some (j, o, l) ∧ x.leaseOf j = some (l, ⟨o, true, requested⟩) ∧
        (requested = true → (j, o, .released) ∈ new))
    (hapart : Apart t u) :
    ∃ new', x'.log = new' ++ old ∧ ((∃ outcome, u = .returned outcome) ∨
      ∃ l requested, u.verifies = some (j, o, l) ∧ x'.leaseOf j = some (l, ⟨o, true, requested⟩) ∧
        (requested = true → (j, o, .released) ∈ new')) := by
  obtain ⟨more, hmore⟩ := h.log
  refine ⟨more ++ new, by rw [hmore, hnew, List.append_assoc], ?_⟩
  rcases hu with hreturned | ⟨l, requested, hverifies, hlease, hasked⟩
  · exact Or.inl hreturned
  · obtain ⟨requested', hlease', hrecorded⟩ := h.verified_elsewhere hlease
      fun o' l' ht => hapart j o' l' o l ht hverifies
    refine Or.inr ⟨l, requested', hverifies, hlease', fun hyes => ?_⟩
    rcases hrecorded hyes with hbefore | hlog
    · exact List.mem_append_right _ (hasked hbefore)
    · have hhead : more = [(j, o, .released)] :=
        List.append_cancel_right (hmore.symm.trans hlog)
      rw [hhead]
      exact List.mem_append_left _ (List.mem_singleton.mpr rfl)

theorem Watched.step {i : Nat} {j o : String} {old : List (String × String × FinalizerNote)}
    {p : Tasks.Pool Finalizers FinalizerTask} (hinv : LeasesInv p) (h : Watched i j o old p)
    (move : Tasks.Move FinalizerCall FinalizerEvent) :
    Watched i j o old (finalizerProgram.step p move) := by
  have hmoved := finalizerProgram.step_moved p move
  generalize finalizerProgram.step p move = p' at hmoved ⊢
  obtain ⟨new, hnew, u, hu, hwatched⟩ := h
  cases hmoved with
  | idle => exact ⟨new, hnew, u, hu, hwatched⟩
  | started call x t hstart =>
    obtain ⟨new', hnew', hwatched'⟩ := (start_step hinv.shared hstart).watched hnew hwatched
      fun _ _ _ _ _ h => by cases h
    refine ⟨new', hnew', u, ?_, hwatched'⟩
    show (p.tasks ++ [t])[i]? = some u
    rw [List.getElem?_append_left (List.getElem?_eq_some_iff.mp hu).1]
    exact hu
  | woken k event t x t' ht hwake =>
    have hstep := wake_step hinv.shared (hinv.task k t ht) hwake
    by_cases hk : k = i
    · -- The watched task itself goes on, or ends its verification.
      subst hk
      rw [ht, Option.some.injEq] at hu
      subst hu
      obtain ⟨more, hmore⟩ := hstep.log
      refine ⟨more ++ new, by rw [hmore, hnew, List.append_assoc], t', ?_, ?_⟩
      · exact List.getElem?_set_self (List.getElem?_eq_some_iff.mp ht).1
      · rcases hwatched with ⟨outcome, rfl⟩ | ⟨l, requested, hverifies, hlease, hasked⟩
        · cases event <;> cases hwake
        · cases hstep with
          | moved hwell hleases hlog hverifies' _ =>
            exact Or.inr ⟨l, requested, hverifies'.trans hverifies, (hleases j).trans hlease,
              fun hyes => List.mem_append_right _ (hasked hyes)⟩
          | reserved _ _ _ hnone => rw [hverifies] at hnone; cases hnone
          | granted _ _ _ hnone => rw [hverifies] at hnone; cases hnone
          | asked _ _ _ hnone => rw [hverifies] at hnone; cases hnone
          | finished _ _ _ _ outcome _ _ hreturned => exact Or.inl ⟨outcome, hreturned⟩
    · obtain ⟨new', hnew', hwatched'⟩ := hstep.watched hnew hwatched
        (hinv.pair k i t u ht hu hk)
      refine ⟨new', hnew', u, ?_, hwatched'⟩
      show (p.tasks.set k t')[i]? = some u
      rw [List.getElem?_set_ne hk]
      exact hu

/-- A verification that was just started is watched. -/
theorem watched_start {x x' : Finalizers} {t : FinalizerTask} {j o : String}
    {tasks : List FinalizerTask} (hok : LeasesOk x)
    (hstart : FinalizerCall.start x (.verify j o) = (x', t)) :
    Watched tasks.length j o x.log ⟨x', tasks ++ [t]⟩ := by
  have hlast : (tasks ++ [t])[tasks.length]? = some t := List.getElem?_concat_length
  have hstep : LeaseStep (some o) x (.returned none) x' t := start_step hok hstart
  have hshape : (∃ outcome, t = .returned outcome) ∨ ∃ l, t.verifies = some (j, o, l) := by
    simp only [FinalizerCall.start, startVerification] at hstart
    split at hstart
    · cases hstart
      exact Or.inl ⟨_, rfl⟩
    · split at hstart
      · cases hstart
        exact Or.inr ⟨_, rfl⟩
      · split at hstart
        · cases hstart
          exact Or.inl ⟨_, rfl⟩
        · cases hstart
          exact Or.inr ⟨_, rfl⟩
  rcases hshape with hreturned | ⟨l, hverifies⟩
  · obtain ⟨new, hnew⟩ := hstep.log
    exact ⟨new, hnew, t, hlast, Or.inl hreturned⟩
  · cases hstep with
    | moved _ _ _ hnone =>
      rw [hverifies] at hnone
      cases hnone
    | reserved j' o' l' _ _ hverifies' _ htouch hlog =>
      rw [hverifies] at hverifies'
      cases hverifies'
      exact ⟨[], hlog, t, hlast, Or.inr ⟨l, false, hverifies, htouch.self, nofun⟩⟩
    | granted _ _ _ _ hnone => cases hnone
    | asked _ _ _ _ _ hnone =>
      rw [hverifies] at hnone
      cases hnone
    | finished _ _ _ _ _ _ hnone => cases hnone

/-- When a watched verification returns VERIFIED, its owner holds the lease or has asked for
its release. -/
theorem Watched.verified {i : Nat} {j o : String} {old : List (String × String × FinalizerNote)}
    {p : Tasks.Pool Finalizers FinalizerTask} (hinv : LeasesInv p) (h : Watched i j o old p)
    {event : FinalizerEvent} {t : FinalizerTask} (ht : p.tasks[i]? = some t)
    (hrunning : t.verifies.isSome)
    (hdone : (finalizerProgram.step p (.wake i event)).tasks[i]? =
      some (.returned (some .verified))) :
    ∃ new, p.shared.log = new ++ old ∧ ((j, o, .released) ∈ new ∨
      ∃ l, (finalizerProgram.step p (.wake i event)).shared.leaseOf j =
        some (l, ⟨o, false, false⟩)) := by
  have hmoved := finalizerProgram.step_moved p (.wake i event)
  generalize finalizerProgram.step p (.wake i event) = p' at hmoved hdone ⊢
  obtain ⟨new, hnew, u, hu, hwatched⟩ := h
  refine ⟨new, hnew, ?_⟩
  rw [ht, Option.some.injEq] at hu
  subst hu
  cases hmoved with
  | idle =>
    rw [ht, Option.some.injEq] at hdone
    rw [hdone] at hrunning
    cases hrunning
  | woken k event t' x t'' ht' hwake =>
    rw [ht, Option.some.injEq] at ht'
    subst ht'
    have hdone' : t'' = .returned (some .verified) := by
      rw [List.getElem?_set_self (List.getElem?_eq_some_iff.mp ht).1] at hdone
      exact Option.some.inj hdone
    have hstep := wake_step hinv.shared (hinv.task i t ht) hwake
    rcases hwatched with ⟨outcome, rfl⟩ | ⟨l, requested, hverifies, hlease, hasked⟩
    · cases hrunning
    · cases hstep with
      | moved _ _ _ hsame =>
        rw [hdone', hverifies] at hsame
        cases hsame
      | reserved _ _ _ hnone => rw [hverifies] at hnone; cases hnone
      | granted _ _ _ hnone => rw [hverifies] at hnone; cases hnone
      | asked _ _ _ hnone => rw [hverifies] at hnone; cases hnone
      | finished j' o' l' requested' outcome _ hverifies' hreturned hlease' htouch =>
        rw [hverifies, Option.some.injEq] at hverifies'
        cases hverifies'
        rw [hlease] at hlease'
        cases hlease'
        rw [hdone', FinalizerTask.returned.injEq] at hreturned
        cases requested with
        | true => exact Or.inl (hasked rfl)
        | false =>
          right
          refine ⟨l, ?_⟩
          rw [htouch.self, if_pos ⟨hreturned.symm, rfl⟩]

/-! ## The lease -/

/-- Over any calls of any owners, switched at any await: a running verification holds its
job's lease and no other one of the job runs; a lease is removed by its owner's calls only,
and then no verification of the job runs; once every call has returned, only the lease of a
verified owner is left; and a verification that returns VERIFIED leaves its owner the lease,
unless the owner asked for its release while it ran. -/
theorem finalizer_lease_exclusive (moves : List (Tasks.Move FinalizerCall FinalizerEvent)) :
    let p := afterMoves moves
    (∀ (i : Nat) t j o l, p.tasks[i]? = some t → t.verifies = some (j, o, l) →
      (∃ requested, p.shared.leaseOf j = some (l, ⟨o, true, requested⟩)) ∧
      ∀ (k : Nat) u o' l', p.tasks[k]? = some u → u.verifies = some (j, o', l') → k = i) ∧
    (∀ move j l lease, p.shared.leaseOf j = some (l, lease) →
      let p' := finalizerProgram.step p move
      (∃ lease', p'.shared.leaseOf j = some (l, lease') ∧ lease'.owner = lease.owner) ∨
      p'.shared.finalizers.get? j = none ∧ mover p move = some lease.owner ∧
        ∀ t ∈ p'.tasks, ∀ o l', t.verifies ≠ some (j, o, l')) ∧
    (∀ j, (∀ t ∈ p.tasks, ∃ outcome, t = .returned outcome) →
      (∀ o, ¬Outstanding p.shared.log j o) → p.shared.finalizers.get? j = none) ∧
    ∀ j o later event t,
      let q := finalizerProgram.run (finalizerProgram.step p (.start (.verify j o))) later
      let q' := finalizerProgram.step q (.wake p.tasks.length event)
      q.tasks[p.tasks.length]? = some t → t.verifies.isSome →
      q'.tasks[p.tasks.length]? = some (.returned (some .verified)) →
      ∃ new, q.shared.log = new ++ p.shared.log ∧
        ((j, o, .released) ∈ new ∨ ∃ l, q'.shared.leaseOf j = some (l, ⟨o, false, false⟩)) := by
  have hinv := leases_inv moves
  refine ⟨fun i t j o l ht hverifies => ⟨hinv.task i t ht j o l hverifies,
      fun k u o' l' hu hu' => ?_⟩, fun move j l lease hlease => ?_, fun j hdone hout => ?_,
    fun j o later event t ht hrunning hdone => ?_⟩
  · by_contra hne
    exact hinv.pair i k t u ht hu (Ne.symm hne) j o l o' l' hverifies hu'
  · have hinv' := hinv.step move
    rcases hinv.leaseStep (finalizerProgram.step_moved _ move) with hsame | ⟨t, t', hstep, -⟩
    · left
      rw [hsame]
      exact ⟨lease, hlease, rfl⟩
    · rcases hstep.removed hlease with hkept | ⟨hnone, hwho⟩
      · exact Or.inl hkept
      · refine Or.inr ⟨hinv'.shared.wellFormed.leaseOf_eq_none.mp hnone, hwho,
          fun u hu o l' hv => ?_⟩
        obtain ⟨k, hk⟩ := List.mem_iff_getElem?.mp hu
        obtain ⟨requested, hheld⟩ := hinv'.task k u hk j o l' hv
        rw [hnone] at hheld
        cases hheld
  · refine hinv.shared.wellFormed.leaseOf_eq_none.mp ?_
    by_contra hsome
    obtain ⟨⟨l, lease⟩, hlease⟩ := Option.ne_none_iff_exists'.mp hsome
    rcases supported_run moves j l lease hlease with ⟨t, ht, hsupports⟩ | ⟨-, hverified⟩
    · obtain ⟨outcome, rfl⟩ := hdone t ht
      unfold Supports at hsupports
      split at hsupports
      · obtain ⟨_, hsupports⟩ := hsupports
        cases hsupports
      · cases hsupports
    · exact hout _ hverified
  · have hstarted : Watched (afterMoves moves).tasks.length j o (afterMoves moves).shared.log
        (finalizerProgram.step (afterMoves moves) (.start (.verify j o))) :=
      watched_start hinv.shared rfl
    have hboth := Runs.run_inv
      (fun p' => LeasesInv p' ∧ Watched (afterMoves moves).tasks.length j o
        (afterMoves moves).shared.log p')
      (fun p' move h => ⟨h.1.step move, h.2.step h.1 move⟩)
      ⟨hinv.step (.start (.verify j o)), hstarted⟩ later
    exact hboth.2.verified hboth.1 ht hrunning hdone

end PanelAssistant
