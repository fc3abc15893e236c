import PanelAssistant.Usb.Discipline

/-!
# Transactions keep to the discipline

A transaction loads the record, inspects the panel, and then either writes what the inspection
shows or writes its intent, acts, inspects again and writes what that shows.
-/

namespace PanelAssistant.Usb

open Library

variable {Target Artifact : Type} [DecidableEq Target] [DecidableEq Artifact]
  {base log : Log Target Artifact} {h : Hold Target Artifact} {receipt : Receipt Target Artifact}

/-- The latest inspection of a hold proves a phase for a job. -/
def Shows (h : Hold Target Artifact) (receipt : Receipt Target Artifact) (next : Phase) : Prop :=
  ∃ recovery subject state, h.seen = some (recovery, .saved subject, state) ∧
    subject.id = receipt.id ∧ subject.target = receipt.target ∧
    state.target = some receipt.target ∧ proves next state = true

/-- The hold after a transition. -/
def Hold.wrote (h : Hold Target Artifact) (receipt : Receipt Target Artifact) (next : Phase) :
    Hold Target Artifact :=
  { h with
    known := some (receipt.moved next)
    intent := if next.pending then some (receipt.moved next) else h.intent }

omit [DecidableEq Target] [DecidableEq Artifact] in
/-- A transition is one step of the record that the hold knows. -/
theorem advance_safe {post : Except Failure (Receipt Target Artifact) → Log Target Artifact → Prop}
    {recovery : Bool} {next : Phase} (hat : At base h log) (hsite : h.site.isSome)
    (hfound : h.found.isSome) (hknown : h.known = some receipt) (hown : Own base receipt)
    (hshows : next.outcome = true → Shows h receipt next)
    (hok : ∀ log', At base (h.wrote receipt next) log' → post (.ok (receipt.moved next)) log')
    (herror : ∀ e h' log', At base h' log' → h'.site = h.site → post (.error e) log') :
    Safe post (advance recovery receipt next) log := by
  apply safe_bind
  apply guard_safe hat
  intro reply log1 hat1
  cases reply with
  | error e => exact herror e h log1 hat1 rfl
  | ok _ =>
    apply safe_bind
    apply safe_bind
    apply safe_ask (show Allowed log1 .load from trivial)
    intro reply saved hpossible
    cases reply with
    | error e => exact herror e h _ (hat1.keep hpossible trivial rfl) rfl
    | ok r =>
      -- under the lock the record is the one the transaction knows
      have hr : r = some receipt := by
        rw [show r = saved from hpossible.answers]
        exact hpossible.known receipt (by rw [hat1.hold, hknown])
      subst hr
      have hafter : h.after (.performed .load (.ok (some receipt)) saved) = h := by
        obtain ⟨f, hf⟩ := Option.isSome_iff_exists.mp hfound
        obtain ⟨s, hs⟩ := Option.isSome_iff_exists.mp hsite
        cases h
        simp_all [Hold.after]
      have hat2 := hat1.keep hpossible trivial hafter
      change Safe _ (if receipt.revision = receipt.revision then
        ask (.put receipt receipt.revision next) else fail .jobConflict) _
      rw [if_pos rfl]
      apply safe_ask
      · refine ⟨by rw [hat2.hold]; exact hsite, by rw [hat2.hold, hknown], rfl, ?_,
          hat2.owns hknown hown⟩
        intro houtcome
        rw [Proven, hat2.hold]
        exact hshows houtcome
      · intro reply saved' hpossible'
        cases reply with
        | error e => exact herror e h _ (hat2.keep hpossible' trivial rfl) rfl
        | ok moved =>
          obtain ⟨hsaved, -, rfl⟩ := hpossible'.answers
          have hat3 : At base (h.wrote receipt next) (.performed
              (.put receipt receipt.revision next) (.ok (receipt.moved next)) saved' ::
                .performed .load (.ok (some receipt)) saved :: log1) := by
            apply hat2.cons hpossible' trivial
            intro r hr
            obtain rfl := Option.some.inj hr
            exact ⟨receipt, hsaved, rfl⟩
          cases recovery with
          | false => exact hok _ hat3
          | true =>
            apply safe_bind
            apply guard_safe hat3
            intro reply log4 hat4
            cases reply with
            | error e => exact herror e _ log4 hat4 rfl
            | ok _ => exact hok log4 hat4

/-- The job that a transaction returns is the job it found. -/
def Keeps (r : Receipt Target Artifact) (log : Log Target Artifact) : Prop := Own log r

omit [DecidableEq Artifact] in
/-- Intent, mutation, inspection, outcome. -/
theorem mutate_safe {site : Site} {recovery : Bool} {actuator : Actuator}
    {release : Release Artifact}
    {state : Observation Target}
    (hat : At base ⟨some site, some receipt, some receipt, some (recovery, .saved receipt, state),
      none, false⟩ log)
    (hown : Own base receipt) (hsource : receipt.phase = actuator.source)
    (htarget : state.target = some receipt.target) (hadmits : actuator.admits state = true) :
    Safe (Ends site base Keeps) (mutate recovery actuator receipt release) log := by
  have hpending : actuator.pending.pending = true ∧ actuator.pending.outcome = false := by
    cases actuator <;> exact ⟨rfl, rfl⟩
  apply safe_bind
  apply advance_safe hat rfl rfl rfl hown
  · intro houtcome
    rw [hpending.2] at houtcome
    cases houtcome
  · intro log1 hat1
    apply safe_bind
    apply guard_safe hat1
    intro reply log2 hat2
    cases reply with
    | error e => exact hat2.ends_error rfl e
    | ok _ =>
      have hintent : Own base (receipt.moved actuator.pending) := hown
      have hholds : hold log2 = ⟨some site, some receipt, some (receipt.moved actuator.pending),
          some (recovery, .saved receipt, state),
            some (receipt.moved actuator.pending), false⟩ := by
        rw [hat2.hold, Hold.wrote, if_pos hpending.1]
      apply safe_bind
      apply safe_ask
      · refine ⟨⟨?_, ?_, ?_, ?_⟩,
          ⟨receipt, recovery, state, ?_, ?_, hsource, rfl, htarget, hadmits⟩, hat2.owns rfl hintent⟩
        all_goals
          rw [hholds]
          try rfl
      · intro reply saved hpossible
        have hacted : At base ⟨some site, some receipt, some (receipt.moved actuator.pending), none,
            some (receipt.moved actuator.pending), true⟩
            (.performed (.actuate actuator (receipt.moved actuator.pending) release) reply saved ::
              log2) := by
          have hcons := hat2.cons hpossible trivial fun r hr =>
            ⟨r, hpossible.known r (by rw [hat2.hold]; exact hr), rfl⟩
          rw [← hat2.hold, hholds] at hcons
          exact hcons
        cases reply with
        | error e => exact hacted.ends_error rfl e
        | ok _ =>
          apply safe_bind
          apply observe_safe hacted
          · intro after log3 hat3 hafter hclean
            apply advance_safe hat3 rfl rfl rfl hintent
            · intro houtcome
              refine ⟨recovery, _, after, rfl, rfl, rfl, hafter, ?_⟩
              split
              · assumption
              · rename_i hproves
                rw [if_neg hproves] at houtcome
                cases houtcome
            · intro log4 hat4
              refine ⟨hat4.extend, by rw [hat4.hold]; rfl, ?_⟩
              rintro r hr
              obtain rfl := Except.ok.inj hr
              exact hown.extend hat4.extend
            · intro e h' log4 hat4 hsite
              exact hat4.ends_error hsite e
          · intro e h' log3 hat3 hsite
            exact hat3.ends_error hsite e
  · intro e h' log1 hat1 hsite
    exact hat1.ends_error hsite e

omit [DecidableEq Target] in
/-- Verified bytes are bytes of the release that the job is about. -/
theorem authenticated_safe {post : Except Failure (Release Artifact) → Log Target Artifact → Prop}
    (hat : At base h log)
    (hok : ∀ release saved log',
      Extends (.performed .authenticate (.ok release) saved :: log) log' →
      At base h log' → release.genuine = true ∧ receipt.artifact = release.descriptor →
      post (.ok release) log')
    (herror : ∀ e log', At base h log' → post (.error e) log') :
    Safe post (authenticated receipt) log := by
  apply safe_bind
  apply safe_ask (show Allowed log .authenticate from trivial)
  intro reply saved hpossible
  cases reply with
  | error e => exact herror e _ (hat.keep hpossible trivial rfl)
  | ok release =>
    have hat1 := hat.keep hpossible trivial rfl
    apply safe_bind
    apply guard_safe hat1.restart
    intro reply log2 hat2
    have hat2' : At base h log2 := ⟨hat1.extend.trans hat2.extend, hat2.hold, hat2.mine⟩
    cases reply with
    | error e => exact herror e log2 hat2'
    | ok _ =>
      change Safe post (if release.genuine = true ∧ receipt.artifact = release.descriptor then
        pure release else fail .artifactChanged) log2
      split
      · rename_i hsame
        exact hok release saved log2 hat2.extend hat2' hsame
      · exact herror _ log2 hat2'

/-- Whoever runs a transaction, it acts only on a job that it found, proved and wrote, and where an
installation runs it, on its own. -/
theorem advanceTransaction_safe (hfree : (hold log).Free) :
    Safe (Returns log Keeps) (advanceTransaction : Prog Target Artifact _) log := by
  apply locked_safe (R := Keeps) hfree
  · intro log0 hat0
    apply safe_bind
    apply guard_safe hat0
    intro reply log1 hat1
    cases reply with
    | error e => exact hat1.ends_error rfl e
    | ok _ =>
      apply safe_bind
      apply load_safe hat1 rfl
      · rintro (- | receipt) log2 hat2 hload
        · exact hat2.ends_error rfl _
        · have hat2 : At log ⟨some .advance, some receipt, some receipt, none, none, false⟩ log2 :=
            hat2
          have hold1 : hold log1 = .begin .advance := hat1.hold
          change Safe _ (if receipt.phase = .healthy ∨ receipt.phase = .recoveryRequired then _
            else _) log2
          split
          · rename_i hfinal
            refine ⟨hat2.extend, by rw [hat2.hold], ?_⟩
            rintro r hr hfaithful job hjob
            obtain rfl := Except.ok.inj hr
            rw [hload] at hfaithful hjob
            by_contra hne
            have htaken := hfaithful.2 job hjob (by rw [hold1]; rfl) (by rw [hold1]; rfl) hne
            rcases hfinal with hphase | hphase
            · exact htaken.1 hphase
            · exact htaken.2 hphase
          · apply safe_bind
            apply authenticated_safe hat2
            · intro release saved log3 hext hat3 hsame
              have hown : Own log3 receipt := by
                intro hfaithful job hjob
                by_contra hne
                have hauth := hext.faithful hfaithful
                rw [hext.owned] at hjob
                exact hauth.2 job receipt hjob (by rw [hat2.hold]) (by rw [hat2.hold]) hne hsame
              apply Coop.safe_mono fun o log' (hends : Ends .advance log3 Keeps o log') =>
                hends.trans hat3.extend
              apply safe_bind
              apply observe_safe hat3.restart
              · intro state log4 hat4 htarget _
                have hown4 : Own log3 receipt := hown
                have hwrite : ∀ next : Phase, (next.outcome = true → proves next state = true) →
                    Safe (Ends .advance log3 Keeps) (advance false receipt next) log4 := by
                  intro next hnext
                  apply advance_safe hat4 rfl rfl rfl hown4
                  · intro houtcome
                    exact ⟨false, receipt, state, rfl, rfl, rfl, htarget, hnext houtcome⟩
                  · intro log5 hat5
                    refine ⟨hat5.extend, by rw [hat5.hold]; rfl, ?_⟩
                    rintro r hr
                    obtain rfl := Except.ok.inj hr
                    exact hown4.extend hat5.extend
                  · intro e h' log5 hat5 hsite
                    exact hat5.ends_error hsite e
                have hproved : ∀ next : Phase, Safe (Ends .advance log3 Keeps)
                    (advance false receipt (if proves next state then next else .recoveryRequired))
                      log4 := by
                  intro next
                  apply hwrite
                  split
                  · exact fun _ => by assumption
                  · intro houtcome
                    cases houtcome
                have hact : ∀ actuator : Actuator, receipt.phase = actuator.source →
                    Safe (Ends .advance log3 Keeps) (if actuator.admits state then
                      mutate false actuator receipt release
                      else advance false receipt .recoveryRequired) log4 := by
                  intro actuator hsource
                  split
                  · rename_i hadmits
                    exact mutate_safe hat4 hown4 hsource htarget hadmits
                  · exact hwrite _ nofun
                dsimp only
                split
                · exact hproved .staged
                · exact hproved .installed
                · exact hproved .healthy
                · rename_i hphase
                  exact hact .stage hphase
                · rename_i hphase
                  exact hact .install hphase
                · rename_i hphase
                  exact hact .launch hphase
                · exact hat4.ends_error rfl _
              · intro e h' log4 hat4 hsite
                exact hat4.ends_error hsite e
            · intro e log3 hat3
              exact hat3.ends_error rfl e
      · intro e log2 hat2
        exact hat2.ends_error rfl e
  · intro r log' saved hkeeps _
    exact hkeeps.extend (.cons trivial .refl)

theorem recoverTransaction_safe {expectedJobId : JobId} {confirmed : Bool}
    (hfree : (hold log).Free) (howned : ∀ job, owned log = some job → expectedJobId = job) :
    Safe (Returns log Keeps)
      (recoverTransaction expectedJobId confirmed : Prog Target Artifact _) log := by
  unfold recoverTransaction
  split
  · exact ⟨.refl, hfree, nofun⟩
  · apply locked_safe (R := Keeps) hfree
    · intro log0 hat0
      apply safe_bind
      apply guard_safe hat0
      intro reply log1 hat1
      cases reply with
      | error e => exact hat1.ends_error rfl e
      | ok _ =>
        apply safe_bind
        apply load_safe hat1 rfl
        · intro loaded log2 hat2 _
          apply safe_bind
          apply guard_safe hat2
          intro reply log3 hat3
          cases reply with
          | error e => exact hat3.ends_error rfl e
          | ok _ =>
            cases loaded with
            | none => exact hat3.ends_error rfl _
            | some receipt =>
              have hat3 : At log ⟨some .recover, some receipt, some receipt, none, none, false⟩
                log3 := hat3
              change Safe _ (if receipt.id ≠ expectedJobId then _
                else if (!receipt.phase.recovering) = true then _ else _) log3
              split
              · exact hat3.ends_error rfl _
              · rename_i hid
                rw [not_not] at hid
                split
                · exact hat3.ends_error rfl _
                · rename_i hrecovering
                  have hown : Own log receipt := fun _ job hjob => hid.trans (howned job hjob)
                  apply safe_bind
                  apply authenticated_safe hat3
                  · intro release saved log4 _ hat4 _
                    apply safe_bind
                    apply observe_safe hat4
                    · intro state log5 hat5 htarget hclean
                      have hwrite : ∀ next : Phase,
                          (next.outcome = true → proves next state = true) →
                          Safe (Ends .recover log Keeps) (advance true receipt next) log5 := by
                        intro next hnext
                        apply advance_safe hat5 rfl rfl rfl hown
                        · intro houtcome
                          exact ⟨true, receipt, state, rfl, rfl, rfl, htarget, hnext houtcome⟩
                        · intro log6 hat6
                          refine ⟨hat6.extend, by rw [hat6.hold]; rfl, ?_⟩
                          rintro r hr
                          obtain rfl := Except.ok.inj hr
                          exact hown.extend hat6.extend
                        · intro e h' log6 hat6 hsite
                          exact hat6.ends_error hsite e
                      have habsent : state.absent = true → proves .prepared state = true := by
                        intro h
                        rw [proves, hclean rfl, h]
                        rfl
                      dsimp only
                      split
                      · apply hwrite
                        split
                        · exact fun _ => habsent (by assumption)
                        · exact nofun
                      · split
                        · exact hwrite _ fun _ => habsent (by assumption)
                        · split
                          · exact hat5.ends_error rfl _
                          · rename_i hcleanup habsent' hremovable
                            have hsource : receipt.phase = Actuator.cleanup.source := by
                              simp only [Phase.recovering, Bool.not_eq_true', Bool.not_eq_false,
                                Bool.or_eq_true, beq_iff_eq] at hrecovering
                              exact hrecovering.resolve_right hcleanup
                            have hadmits : Actuator.cleanup.admits state = true := by
                              simp only [Bool.not_eq_true', Bool.not_eq_false]
                                at habsent' hremovable
                              simp [Actuator.admits, hclean, hremovable, habsent']
                            exact mutate_safe hat5 hown hsource htarget hadmits
                    · intro e h' log5 hat5 hsite
                      exact hat5.ends_error hsite e
                  · intro e log4 hat4
                    exact hat4.ends_error rfl e
        · intro e log2 hat2
          exact hat2.ends_error rfl e
    · intro r log' saved hkeeps _
      exact hkeeps.extend (.cons trivial .refl)

end PanelAssistant.Usb
