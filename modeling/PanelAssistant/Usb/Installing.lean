import PanelAssistant.Usb.Previewing

/-!
# An installation works on one job

An installation lets go of the one record its preview set aside, creates or resumes one job, and
from then on works on that job. `expectedJobId` is what `owned` reads from the log.
-/

namespace PanelAssistant.Usb

open Library

variable {Target Artifact : Type} {log : Log Target Artifact}

/-- Any end of a part of an operation that holds no lock. -/
def Anything {α : Type} (_ : α) (_ : Log Target Artifact) : Prop := True

/-- A call of an installation outside of a hold. -/
theorem free_ask {c : Call Target Artifact}
    {post : Except Failure (Answer c) → Log Target Artifact → Prop}
    (hallowed : Allowed log c)
    (hinner : ∀ reply saved, (Entry.performed c reply saved : Entry Target Artifact).inner)
    (hafter : ∀ reply saved, ((hold log).after (.performed c reply saved)).Free)
    (hpost : ∀ reply log', Extends log log' → (hold log').Free → post reply log') :
    Safe post (ask c) log := by
  apply safe_ask hallowed
  intro reply saved _
  exact hpost reply _ (.cons (hinner reply saved) .refl) (hafter reply saved)

theorem free_guard {post : Except Failure Unit → Log Target Artifact → Prop}
    (hfree : (hold log).Free)
    (hpost : ∀ reply log', Extends log log' → (hold log').Free → post reply log') :
    Safe post guard log :=
  free_ask trivial (fun _ _ => trivial) (fun _ _ => hfree) hpost

theorem free_load {post : Except Failure (Option (Receipt Target Artifact)) →
    Log Target Artifact → Prop}
    (hfree : (hold log).Free)
    (hpost : ∀ reply log', Extends log log' → (hold log').Free →
      (∀ r, reply = .ok (some r) → Reads r.id log') → post reply log') :
    Safe post (ask .load) log := by
  apply safe_ask (show Allowed log .load from trivial)
  intro reply saved _
  refine hpost reply (.performed .load reply saved :: log) (.cons trivial .refl) ?_ ?_
  · cases reply with
    | error e => exact hfree
    | ok r =>
      have hafter : (hold log).after (.performed .load (.ok r) saved) = hold log := by
        simp [Hold.after, hfree.site]
      rw [hold_cons, hafter]
      exact hfree
  · rintro r rfl
    exact ⟨_, List.mem_cons_self, rfl⟩

/-- Only the job that the preview set aside is let go of, at the revision it saw. -/
theorem letGo_safe {selected : Preview Target Artifact} {job : SetAside}
    {release : Release Artifact}
    (hfree : (hold log).Free) (hcurrent : current log = some (.install selected))
    (howned : owned log = none) (haside : selected.setAside = some job) :
    Safe (Returns log Anything) (letGo selected job release) log := by
  apply locked_safe (R := Anything) hfree
  · intro log0 hat0
    have hend : ∀ h log', At log h log' → h.site = some .setAside →
        Safe (Ends .setAside log Anything)
          (guard >>= fun _ => ask (.removeSetAside job.jobId selected.target release)) log' := by
      intro h log' hat hsite
      apply safe_bind
      apply guard_safe hat
      intro reply log2 hat2
      cases reply with
      | error e => exact hat2.ends_error hsite e
      | ok _ =>
        apply ask_safe hat2
          (show Allowed log2 (.removeSetAside job.jobId selected.target release) from trivial)
          (fun _ _ => trivial) fun _ _ => rfl
        intro reply log3 hat3
        exact ⟨hat3.extend, by rw [hat3.hold, hsite], fun _ _ => trivial⟩
    apply safe_bind
    apply guard_safe hat0
    intro reply log1 hat1
    cases reply with
    | error e => exact hat1.ends_error rfl e
    | ok _ =>
      apply safe_bind
      apply load_safe hat1 rfl
      · rintro (- | saved) log2 hat2 _
        · exact hend _ log2 hat2 rfl
        · have hat2 : At log ⟨some .setAside, some saved, some saved, none, none, false⟩ log2 :=
            hat2
          dsimp only
          split
          · exact hat2.ends_error rfl _
          · rename_i hid
            rw [not_not] at hid
            have hremove : ∀ removal : Removal, (removal = .retire ↔ job.phase = .healthy) →
                Safe (Ends .setAside log Anything) (ask (.remove removal job.revision) >>= fun _ =>
                  guard >>= fun _ =>
                    ask (.removeSetAside job.jobId selected.target release)) log2 := by
              intro removal hremoval
              apply safe_bind
              apply safe_ask
              · refine ⟨by rw [hat2.hold]; rfl,
                  hat2.extend.owned.trans howned, selected, job, saved,
                  hat2.extend.current.trans hcurrent, haside, by rw [hat2.hold], hid, rfl, hremoval⟩
              · intro reply saved3 hpossible
                cases reply with
                | error e => exact (hat2.keep hpossible trivial rfl).ends_error rfl e
                | ok _ =>
                  have hat3 := hat2.cons hpossible trivial nofun
                  exact hend _ _ hat3 rfl
            split
            · rename_i hphase
              exact hremove .retire (iff_of_true rfl hphase)
            · rename_i hphase
              exact hremove .discard (iff_of_false nofun hphase)
      · intro e log2 hat2
        exact hat2.ends_error rfl e
  · exact fun _ _ _ _ _ => trivial

/-- The job of an installation is the saved one, or it is created once the place is free. -/
theorem jobFor_safe {selected : Preview Target Artifact} {release : Release Artifact}
    (hfree : (hold log).Free) (hcurrent : current log = some (.install selected))
    (howned : owned log = none) (hpreview : PreviewOf log selected)
    (hrelease : release.descriptor = selected.descriptor) :
    Safe (Returns log fun r log' => Reads r.id log') (jobFor selected release) log := by
  have hcreate : ∀ log', Extends log log' → (hold log').Free →
      Safe (Returns log fun r log' => Reads r.id log') (ask (.add selected.target release.descriptor
        (if selected.adopt then .installed else .prepared))) log' := by
    intro log' hext hfree'
    apply safe_ask
    · cases hadopt : selected.adopt with
      | false => exact .inl rfl
      | true =>
        obtain ⟨state, hseen, hinstalled⟩ := hpreview.adopt hadopt
        refine .inr ⟨rfl, state, ?_, hinstalled⟩
        rw [hext.duringPreview (by rw [hcurrent]; nofun), hseen, hrelease]
    · intro reply saved _
      refine ⟨.cons trivial hext, hfree', ?_⟩
      rintro r rfl
      exact ⟨_, List.mem_cons_self, rfl⟩
  apply safe_bind
  apply free_load hfree
  intro reply log1 hext1 hfree1 hreads
  cases reply with
  | error e => exact ⟨hext1, hfree1, nofun⟩
  | ok saved =>
    dsimp only
    split
    · rename_i receipt hsaved
      have hreads : Reads receipt.id log1 :=
        hreads receipt (congrArg Except.ok (Option.eq_some_of_filter_eq_some hsaved))
      split
      · refine ⟨hext1, hfree1, ?_⟩
        rintro r hr
        obtain rfl := Except.ok.inj hr
        exact hreads
      · exact ⟨hext1, hfree1, nofun⟩
    · split
      · exact ⟨hext1, hfree1, nofun⟩
      · split
        · rename_i job haside
          apply safe_bind
          apply Coop.safe_mono _ (letGo_safe hfree1 (hext1.current.trans hcurrent)
            (hext1.owned.trans howned) haside)
          intro o log2 hreturns
          have hext2 := hext1.trans hreturns.extend
          cases o with
          | error e => exact ⟨hext2, hreturns.free, nofun⟩
          | ok outcome =>
            apply safe_bind
            apply free_guard hreturns.free
            intro reply log3 hext3 hfree3
            cases reply with
            | error e => exact ⟨hext2.trans hext3, hfree3, nofun⟩
            | ok _ =>
              apply safe_bind
              apply free_ask (show Allowed log3
                (.onSetAside job.jobId job.phase outcome) from trivial)
                (fun _ _ => trivial) fun _ _ => hfree3
              intro reply log4 hext4 hfree4
              cases reply with
              | error e => exact ⟨(hext2.trans hext3).trans hext4, hfree4, nofun⟩
              | ok _ => exact hcreate log4 ((hext2.trans hext3).trans hext4) hfree4
        · exact hcreate log1 hext1 hfree1

variable [DecidableEq Target] [DecidableEq Artifact]

/-- The job an installation owns was there at every await. -/
def Kept {α : Type} (_ : α) (log : Log Target Artifact) : Prop :=
  ∀ job, owned log = some job → ¬ Gone job log

omit [DecidableEq Target] in
/-- Permissions are granted under the lock, from the healthy job that is owned. -/
theorem grantPermissions_safe {selected : Preview Target Artifact} {id : JobId}
    (hfree : (hold log).Free) (howned : owned log = some id) :
    Safe (Returns log Kept) (grantPermissions selected id) log := by
  apply locked_safe (R := fun (_ : Bool) log' => ∃ r, (hold log').known = some r ∧ r.id = id ∧
    owned log' = some id ∧ ¬ Gone id log') hfree
  · intro log0 hat0
    apply safe_bind
    apply guard_safe hat0
    intro reply log1 hat1
    cases reply with
    | error e => exact hat1.ends_error rfl e
    | ok _ =>
      apply safe_bind
      apply load_safe hat1 rfl
      · rintro (- | receipt) log2 hat2 _
        · exact hat2.ends_error rfl _
        · have hat2 : At log ⟨some .permissions, some receipt, some receipt,
            none, none, false⟩ log2 :=
            hat2
          dsimp only
          split
          · exact hat2.ends_error rfl _
          · rename_i hhealthy
            rw [not_or, not_not, not_not] at hhealthy
            split
            · exact hat2.ends_error rfl _
            · rename_i hid
              rw [not_not] at hid
              have hown : Own log receipt := by
                intro _ job hjob
                rw [howned, Option.some.injEq] at hjob
                exact hid.trans hjob
              apply safe_bind
              apply authenticated_safe hat2
              · intro release _ log3 _ hat3 _
                apply safe_bind
                apply ask_safe hat3
                  (show Allowed log3 (.removeSetAside receipt.id receipt.target release)
                    from trivial)
                  (fun _ _ => trivial) fun _ _ => rfl
                intro reply log4 hat4
                cases reply with
                | error e => exact hat4.ends_error rfl e
                | ok outcome =>
                  apply safe_bind
                  apply guard_safe hat4
                  intro reply log5 hat5
                  cases reply with
                  | error e => exact hat5.ends_error rfl e
                  | ok _ =>
                    apply safe_bind
                    apply ask_safe hat5
                      (show Allowed log5 (.onStagedCopy receipt.id outcome) from trivial)
                      (fun _ _ => trivial) fun _ _ => rfl
                    intro reply log6 hat6
                    cases reply with
                    | error e => exact hat6.ends_error rfl e
                    | ok _ =>
                      have hallowed : Allowed log6 (.commissionPermissions receipt release) :=
                        ⟨by rw [hat6.hold]; rfl, by rw [hat6.hold], hhealthy.1, hat6.owns rfl hown⟩
                      apply safe_bind
                      apply ask_safe hat6 hallowed (fun _ _ => trivial) fun _ _ => rfl
                      intro reply log7 hat7
                      cases reply with
                      | error e => exact hat7.ends_error rfl e
                      | ok granted =>
                        apply safe_bind
                        apply guard_safe hat7
                        intro reply log8 hat8
                        cases reply with
                        | error e => exact hat8.ends_error rfl e
                        | ok _ =>
                          have howned8 : owned log8 = some id := hat8.extend.owned.trans howned
                          exact ⟨hat8.extend, by rw [hat8.hold], fun _ _ =>
                            ⟨receipt, by rw [hat8.hold], hid, howned8,
                              hat8.mine receipt id rfl howned8 hid⟩⟩
              · intro e log3 hat3
                exact hat3.ends_error rfl e
      · intro e log2 hat2
        exact hat2.ends_error rfl e
  · rintro granted log' saved ⟨r, hknown, hid, howned', hgone⟩ hpossible job hjob
    have hjob' : owned log' = some job := hjob
    rw [howned', Option.some.injEq] at hjob'
    subst hjob'
    have hinner : (Entry.performed .release (.ok ()) saved : Entry Target Artifact).inner := trivial
    rw [gone_inner hinner, not_or, not_not]
    exact ⟨⟨r, hpossible.known r hknown, hid⟩, hgone⟩

/-- Every step of an installation is a transaction on its own job. -/
theorem steps_safe {id : JobId} (n : ℕ) {receipt : Receipt Target Artifact}
    (hfree : (hold log).Free) (howned : owned log = some id) (hown : Own log receipt) :
    Safe (Returns log Keeps) (steps id n receipt) log := by
  induction n generalizing log receipt with
  | zero =>
    refine ⟨.refl, hfree, ?_⟩
    rintro r hr
    obtain rfl := Except.ok.inj hr
    exact hown
  | succ n ih =>
    rw [steps]
    split
    · refine ⟨.refl, hfree, ?_⟩
      rintro r hr
      obtain rfl := Except.ok.inj hr
      exact hown
    · apply safe_bind
      apply free_guard hfree
      intro reply log1 hext1 hfree1
      cases reply with
      | error e => exact ⟨hext1, hfree1, nofun⟩
      | ok _ =>
        have howned1 : owned log1 = some id := hext1.owned.trans howned
        have hnext : ∀ (next : Receipt Target Artifact) (log2 : Log Target Artifact),
            Extends log log2 → (hold log2).Free → Own log2 next → Safe (Returns log Keeps)
              (do
                guard
                ask (.onReceipt next)
                steps id n next) log2 := by
          intro next log2 hext2 hfree2 hown2
          apply safe_bind
          apply free_guard hfree2
          intro reply log3 hext3 hfree3
          cases reply with
          | error e => exact ⟨hext2.trans hext3, hfree3, nofun⟩
          | ok _ =>
            have hallowed : Allowed log3 (.onReceipt next) := hown2.extend hext3
            apply safe_bind
            apply free_ask hallowed (fun _ _ => trivial) fun _ _ => hfree3
            intro reply log4 hext4 hfree4
            have hext := (hext2.trans hext3).trans hext4
            cases reply with
            | error e => exact ⟨hext, hfree4, nofun⟩
            | ok _ =>
              apply Coop.safe_mono fun o log' (h : Returns log4 Keeps o log') => h.trans hext
              exact ih hfree4 (hext.owned.trans howned) ((hown2.extend hext3).extend hext4)
        have hsettle : ∀ p : Prog Target Artifact (Receipt Target Artifact),
            Safe (Returns log1 Keeps) p log1 → Safe (Returns log Keeps)
              (do
                let next ← p
                guard
                ask (.onReceipt next)
                steps id n next) log1 := by
          intro p hp
          apply safe_bind
          apply Coop.safe_mono _ hp
          intro o log2 hreturns
          cases o with
          | error e => exact ⟨hext1.trans hreturns.extend, hreturns.free, nofun⟩
          | ok next =>
            exact hnext next log2 (hext1.trans hreturns.extend) hreturns.free
              (hreturns.result next rfl)
        dsimp only
        split
        · apply hsettle
          apply recoverTransaction_safe hfree1
          intro job hjob
          rw [howned1, Option.some.injEq] at hjob
          exact hjob
        · apply hsettle
          exact advanceTransaction_safe hfree1

/-- What an installation promises: a job that was there at every await since it was owned. -/
structure Installed (selected : Preview Target Artifact)
    (o : Except Failure (Receipt Target Artifact × Bool)) (log : Log Target Artifact) : Prop where
  free : (hold log).Free
  current : Usb.current log = some (.install selected)
  result : ∀ r, o = .ok r → ∃ id, owned log = some id ∧ ¬ Gone id log ∧ Own log r.1

omit [DecidableEq Target] [DecidableEq Artifact] in
theorem Installed.of_extends {selected : Preview Target Artifact} {log' : Log Target Artifact}
    (hext : Extends log log') (hfree : (hold log').Free)
    (hcurrent : Usb.current log = some (.install selected)) (e : Failure) :
    Installed selected (.error e) log' :=
  ⟨hfree, hext.current.trans hcurrent, nofun⟩

theorem install_safe {selected : Preview Target Artifact} (hfree : (hold log).Free)
    (hcurrent : current log = some (.install selected)) (howned : owned log = none)
    (hpreview : PreviewOf log selected) :
    Safe (Installed selected) (install selected) log := by
  apply safe_bind
  apply free_guard hfree
  intro reply log1 hext1 hfree1
  cases reply with
  | error e => exact .of_extends hext1 hfree1 hcurrent e
  | ok _ =>
    apply safe_bind
    apply free_ask (show Allowed log1 .authenticate from trivial)
      (fun _ _ => trivial) fun _ _ => hfree1
    intro reply log2 hext2 hfree2
    have hext2 := hext1.trans hext2
    cases reply with
    | error e => exact .of_extends hext2 hfree2 hcurrent e
    | ok release =>
      apply safe_bind
      apply free_guard hfree2
      intro reply log3 hext3 hfree3
      have hext3 := hext2.trans hext3
      cases reply with
      | error e => exact .of_extends hext3 hfree3 hcurrent e
      | ok _ =>
        dsimp only
        split
        · exact .of_extends hext3 hfree3 hcurrent _
        · rename_i hrelease
          rw [not_or, not_not] at hrelease
          have hcurrent3 := hext3.current.trans hcurrent
          have hpreview3 : PreviewOf log3 selected := by
            have hduring := hext3.duringPreview (by rw [hcurrent]; nofun)
            exact ⟨by rw [hduring]; exact hpreview.setAside, by rw [hduring]; exact hpreview.adopt⟩
          apply safe_bind
          apply Coop.safe_mono _ (jobFor_safe hfree3 hcurrent3 (hext3.owned.trans howned) hpreview3
            hrelease.2)
          intro o log4 hreturns
          have hext4 := hext3.trans hreturns.extend
          cases o with
          | error e => exact .of_extends hext4 hreturns.free hcurrent e
          | ok receipt =>
            -- from here on this operation owns exactly this job
            apply safe_bind
            apply safe_ask (show Allowed log4 (.own receipt.id) from hreturns.result receipt rfl)
            intro reply saved hpossible
            cases reply with
            | error e => exact absurd hpossible.answers id
            | ok _ =>
              have hcurrent5 : current (.performed (.own receipt.id) (.ok ()) saved :: log4) =
                  some (.install selected) := hext4.current.trans hcurrent
              have hown5 : Own (.performed (.own receipt.id) (.ok ()) saved :: log4) receipt :=
                fun _ job hjob => Option.some.inj hjob
              have hallowed : Allowed (.performed (.own receipt.id) (.ok ()) saved :: log4)
                  (.onReceipt receipt) := hown5
              apply safe_bind
              apply free_ask hallowed (fun _ _ => trivial) fun _ _ => hreturns.free
              intro reply log6 hext6 hfree6
              cases reply with
              | error e => exact .of_extends hext6 hfree6 hcurrent5 e
              | ok _ =>
                apply safe_bind
                apply Coop.safe_mono _ (steps_safe maxSteps hfree6 hext6.owned (hown5.extend hext6))
                intro o log7 hreturns7
                have hext7 := hext6.trans hreturns7.extend
                cases o with
                | error e => exact .of_extends hext7 hreturns7.free hcurrent5 e
                | ok settled =>
                  dsimp only
                  split
                  · exact .of_extends hext7 hreturns7.free hcurrent5 _
                  · apply safe_bind
                    apply Coop.safe_mono _ (grantPermissions_safe hreturns7.free hext7.owned)
                    intro o log8 hreturns8
                    have hext8 := hext7.trans hreturns8.extend
                    cases o with
                    | error e => exact .of_extends hext8 hreturns8.free hcurrent5 e
                    | ok granted =>
                      dsimp only
                      split
                      · exact .of_extends hext8 hreturns8.free hcurrent5 _
                      · refine ⟨hreturns8.free, hext8.current.trans hcurrent5, ?_⟩
                        rintro r hr
                        obtain rfl := Except.ok.inj hr
                        have howned8 : owned log8 = some receipt.id := hext8.owned
                        exact ⟨receipt.id, howned8, hreturns8.result granted rfl receipt.id howned8,
                          (hreturns7.result settled rfl).extend hreturns8.extend⟩

omit [DecidableEq Target] in
theorem completeSetup_safe {selected : Preview Target Artifact} {id : Option JobId}
    (hfree : (hold log).Free) : Safe (Returns log Anything) (completeSetup selected id) log := by
  apply locked_safe (R := Anything) hfree
  · intro log0 hat0
    apply safe_bind
    apply guard_safe hat0
    intro reply log1 hat1
    cases reply with
    | error e => exact hat1.ends_error rfl e
    | ok _ =>
      apply safe_bind
      apply load_safe hat1 rfl
      · rintro (- | receipt) log2 hat2 _
        · exact hat2.ends_error rfl _
        · dsimp only
          split
          · exact hat2.ends_error rfl _
          · split
            · exact hat2.ends_error rfl _
            · apply safe_bind
              apply authenticated_safe hat2
              · intro release _ log3 _ hat3 _
                apply safe_bind
                apply ask_safe hat3 (show Allowed log3
                  (.completeSetup receipt release) from trivial)
                  (fun _ _ => trivial) fun _ _ => rfl
                intro reply log4 hat4
                cases reply with
                | error e => exact hat4.ends_error rfl e
                | ok _ =>
                  apply guard_safe hat4
                  intro reply log5 hat5
                  exact ⟨hat5.extend, by rw [hat5.hold]; rfl, fun _ _ => trivial⟩
              · intro e log3 hat3
                exact hat3.ends_error rfl e
      · intro e log2 hat2
        exact hat2.ends_error rfl e
  · exact fun _ _ _ _ _ => trivial

end PanelAssistant.Usb
