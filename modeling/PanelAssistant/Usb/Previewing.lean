import PanelAssistant.Usb.Transactions

/-!
# A preview changes nothing

A preview keeps to the discipline, holds no lock and remembers what it saw: the record it loaded
where it sets that record aside, and its latest inspection where it adopts the panel's own build.
-/

namespace PanelAssistant.Usb

open Library

variable {Target Artifact : Type} {log : Log Target Artifact} {α : Type}

/-! ## Previews -/

/-- What a preview remembers is what it loaded and saw. -/
structure PreviewOf (log : Log Target Artifact) (p : Preview Target Artifact) : Prop where
  setAside : ∀ job, p.setAside = some job →
    ∃ r, lastLoad (duringPreview log) = some r ∧ job = aside r
  adopt : p.adopt = true → ∃ state, (hold (duringPreview log)).seen =
    some (false, .proposed .installed p.target p.descriptor, state) ∧ state.installed = true

/-- An await of a preview. -/
structure Previewing (loaded : Option (Receipt Target Artifact))
    (seen : Option (Bool × Subject Target Artifact × Observation Target))
    (log : Log Target Artifact) : Prop where
  free : (hold log).Free
  previewing : ∃ target, current log = some (.preview target)
  loaded : lastLoad (duringPreview log) = loaded
  seen : (hold (duringPreview log)).seen = seen

/-- What `preview` and its parts promise. -/
structure Previewed (R : α → Log Target Artifact → Prop) (o : Except Failure α)
    (log : Log Target Artifact) : Prop where
  free : (hold log).Free
  previewing : ∃ target, current log = some (.preview target)
  result : ∀ a, o = .ok a → R a log

variable {loaded : Option (Receipt Target Artifact)}
  {seen : Option (Bool × Subject Target Artifact × Observation Target)}

theorem Previewing.fails {R : α → Log Target Artifact → Prop} (hp : Previewing loaded seen log)
    (e : Failure) : Previewed R (.error e) log :=
  ⟨hp.free, hp.previewing, nofun⟩

theorem Previewing.duringPreview_cons (hp : Previewing loaded seen log) {c : Call Target Artifact}
    {reply : Reply c} {saved : Option (Receipt Target Artifact)} :
    duringPreview (.performed c reply saved :: log) =
      .performed c reply saved :: duringPreview log := by
  obtain ⟨target, hcurrent⟩ := hp.previewing
  rw [duringPreview, hcurrent]

/-- A call that neither loads nor inspects. -/
theorem Previewing.quiet (hp : Previewing loaded seen log) {c : Call Target Artifact}
    {reply : Reply c}
    {saved : Option (Receipt Target Artifact)}
    (hafter : ∀ h : Hold Target Artifact, h.after (.performed c reply saved) = h)
    (hlast : ∀ l : Log Target Artifact, lastLoad (.performed c reply saved :: l) = lastLoad l) :
    Previewing loaded seen (.performed c reply saved :: log) := by
  refine ⟨?_, hp.previewing, ?_, ?_⟩
  · rw [hold_cons, hafter]
    exact hp.free
  · rw [hp.duringPreview_cons, hlast, hp.loaded]
  · rw [hp.duringPreview_cons, hold_cons, hafter, hp.seen]

/-- An inspection, which is the latest one where it answers. -/
theorem Previewing.inspect (hp : Previewing loaded seen log) {recovery : Bool}
    {subject : Subject Target Artifact} {release : Release Artifact} {state : Observation Target}
    {saved : Option (Receipt Target Artifact)} :
    Previewing loaded (some (recovery, subject, state))
      (.performed (.inspect recovery subject release) (.ok state) saved :: log) := by
  refine ⟨⟨hp.free.site, hp.free.known⟩, hp.previewing, ?_, ?_⟩
  · rw [hp.duringPreview_cons, ← hp.loaded]
    rfl
  · rw [hp.duringPreview_cons]
    rfl

section

variable {post : Except Failure α → Log Target Artifact → Prop}

theorem previewing_guard {post : Except Failure Unit → Log Target Artifact → Prop}
    (hp : Previewing loaded seen log)
    (h : ∀ reply log', Previewing loaded seen log' → post reply log') : Safe post guard log := by
  apply safe_ask (show Allowed log .ensureCurrent from trivial)
  intro reply saved _
  exact h reply _ (hp.quiet (fun _ => rfl) fun _ => rfl)

theorem previewing_inspect {post : Except Failure (Observation Target) → Log Target Artifact → Prop}
    {recovery : Bool} {subject : Subject Target Artifact} {release : Release Artifact}
    (hp : Previewing loaded seen log)
    (hok : ∀ state log', Previewing loaded (some (recovery, subject, state)) log' →
      post (.ok state) log')
    (herror : ∀ e log', Previewing loaded seen log' → post (.error e) log') :
    Safe post (ask (.inspect recovery subject release)) log := by
  apply safe_ask (show Allowed log (.inspect recovery subject release) from trivial)
  intro reply saved _
  cases reply with
  | error e => exact herror e _ (hp.quiet (fun _ => rfl) fun _ => rfl)
  | ok state => exact hok state _ hp.inspect

end

theorem runs_safe {post : Except Failure Bool → Log Target Artifact → Prop} {target : Target}
    {release : Release Artifact} (hp : Previewing loaded seen log)
    (hok : ∀ state log', Previewing loaded
      (some (false, .proposed .installed target release.descriptor, state)) log' →
      post (.ok state.installed) log')
    (herror : ∀ e seen' log', Previewing loaded seen' log' → post (.error e) log') :
    Safe post (runs target release) log := by
  apply safe_bind
  apply previewing_inspect hp
  · intro state log1 hp1
    apply safe_bind
    apply previewing_guard hp1
    intro reply log2 hp2
    cases reply with
    | error e => exact herror e _ log2 hp2
    | ok _ => exact hok state log2 hp2
  · intro e log1 hp1
    exact herror e _ log1 hp1

/-- A verdict is about the record that was loaded. -/
structure Verdict.About (saved : Option (Receipt Target Artifact)) (v : Verdict Target Artifact) :
    Prop where
  receipt : ∀ r, v.receipt = some r → saved = some r
  setAside : ∀ job, v.setAside = some job → ∃ r, saved = some r ∧ job = aside r

variable {saved : Option (Receipt Target Artifact)}

theorem about_aside {receipt : Receipt Target Artifact} {discarded : Option Artifact} :
    Verdict.About (some receipt) ⟨none, discarded, some (aside receipt)⟩ :=
  ⟨nofun, fun _ hjob => ⟨receipt, rfl, (Option.some.inj hjob).symm⟩⟩

theorem about_resume {receipt : Receipt Target Artifact} :
    Verdict.About (some receipt) ⟨some receipt, none, none⟩ :=
  ⟨fun _ h => h, nofun⟩

variable [DecidableEq Artifact]

theorem judgeFinished_safe {release : Release Artifact} (hp : Previewing saved seen log)
    {post : Except Failure (Verdict Target Artifact) → Log Target Artifact → Prop}
    (hok : ∀ v seen' log', Previewing saved seen' log' → v.About saved → post (.ok v) log')
    (herror : ∀ e seen' log', Previewing saved seen' log' → post (.error e) log') :
    Safe post (judgeFinished saved release) log := by
  unfold judgeFinished
  split
  · rename_i receipt
    split
    · have hjudge : ∀ (installed : Bool) (seen' : Option _) (log' : Log Target Artifact),
          Previewing (some receipt) seen' log' →
          Safe post (guard >>= fun _ =>
            if installed then pure ⟨some receipt, none, none⟩
            else pure ⟨none, none, some (aside receipt)⟩) log' := by
        intro installed seen' log' hp'
        apply safe_bind
        apply previewing_guard hp'
        intro reply log2 hp2
        cases reply with
        | error e => exact herror e _ log2 hp2
        | ok _ =>
          cases installed with
          | true => exact hok _ _ log2 hp2 about_resume
          | false => exact hok _ _ log2 hp2 about_aside
      split
      · apply safe_bind
        apply previewing_inspect hp
        · intro state log1 hp1
          exact hjudge state.installed _ log1 hp1
        · intro e log1 hp1
          exact herror e _ log1 hp1
      · exact hjudge false _ log hp
    · exact hok _ _ log hp about_resume
  · exact hok _ _ log hp ⟨nofun, nofun⟩

theorem judgeRecovering_safe {release : Release Artifact} {target : Target}
    {v : Verdict Target Artifact} (hp : Previewing saved seen log) (habout : v.About saved)
    {post : Except Failure (Verdict Target Artifact) → Log Target Artifact → Prop}
    (hok : ∀ v seen' log', Previewing saved seen' log' → v.About saved → post (.ok v) log')
    (herror : ∀ e seen' log', Previewing saved seen' log' → post (.error e) log') :
    Safe post (judgeRecovering v target release) log := by
  unfold judgeRecovering
  split
  · rename_i receipt hreceipt
    split
    · apply safe_bind
      apply runs_safe hp
      · intro state log1 hp1
        dsimp only
        split
        · obtain rfl := habout.receipt receipt hreceipt
          exact hok _ _ log1 hp1 about_aside
        · exact hok _ _ log1 hp1 habout
      · intro e seen' log1 hp1
        exact herror e seen' log1 hp1
    · exact hok _ _ log hp habout
  · exact hok _ _ log hp habout

theorem judgeRelease_about {release : Release Artifact} {v : Verdict Target Artifact}
    (habout : v.About saved) : (judgeRelease v release).About saved := by
  unfold judgeRelease
  split
  · rename_i receipt hreceipt
    split
    · obtain rfl := habout.receipt receipt hreceipt
      exact about_aside
    · exact habout
  · exact habout

omit [DecidableEq Artifact] in
/-- The end of a preview, once it is decided whether the panel's own build is adopted. -/
theorem preview_end_safe (target : Target) (release : Release Artifact) (adopt : Bool)
    (proposed : Subject Target Artifact) {v : Verdict Target Artifact}
    (hp : Previewing saved seen log) (habout : v.About saved)
    (hadopt : adopt = true → v.receipt = none ∧ ∃ state,
      seen = some (false, .proposed .installed target release.descriptor, state) ∧
        state.installed = true)
    (hproposed : v.receipt = none → adopt = true → proposed.phase = .installed) :
    Safe (Previewed fun p log' => PreviewOf log' p)
      (do
        if proposed.phase.recovering then discard (ask (.inspect true proposed release))
        else if !adopt then discard (ask (.inspect false proposed release))
        else pure ()
        guard
        pure ⟨target, release.descriptor, v.receipt, adopt, v.discarded, v.setAside⟩) log := by
  have hend : ∀ seen' log', Previewing saved seen' log' → (adopt = true → seen' = seen) →
      Safe (Previewed fun p log' => PreviewOf log' p)
        (guard >>= fun _ => pure
          ⟨target, release.descriptor, v.receipt, adopt, v.discarded, v.setAside⟩) log' := by
    intro seen' log' hp' hseen
    apply safe_bind
    apply previewing_guard hp'
    intro reply log2 hp2
    cases reply with
    | error e => exact hp2.fails e
    | ok _ =>
      refine ⟨hp2.free, hp2.previewing, ?_⟩
      rintro p hpreview
      obtain rfl := Except.ok.inj hpreview
      constructor
      · intro job hjob
        obtain ⟨r, hr, hjob⟩ := habout.setAside job hjob
        exact ⟨r, hp2.loaded.trans hr, hjob⟩
      · intro h
        obtain ⟨-, state, hstate, hinstalled⟩ := hadopt h
        exact ⟨state, by rw [hp2.seen, hseen h, hstate], hinstalled⟩
  have hinspect : ∀ recovery : Bool, adopt = false →
      Safe (Previewed fun p log' => PreviewOf log' p)
        (discard (ask (.inspect recovery proposed release)) >>= fun _ => guard >>= fun _ => pure
          ⟨target, release.descriptor, v.receipt, adopt, v.discarded, v.setAside⟩) log := by
    intro recovery hnot
    have hnever : ∀ seen' : Option (Bool × Subject Target Artifact × Observation Target),
        adopt = true → seen' = seen := by
      intro _ h
      rw [hnot] at h
      cases h
    apply safe_bind
    apply safe_bind
    apply previewing_inspect hp
    · intro state log1 hp1
      exact hend _ log1 hp1 (hnever _)
    · intro e log1 hp1
      exact hp1.fails e
  cases hcase : adopt with
  | false =>
    rw [hcase] at hinspect
    split
    · exact hinspect true rfl
    · exact hinspect false rfl
  | true =>
    have hphase := hproposed (hadopt hcase).1 hcase
    rw [hphase]
    rw [hcase] at hend
    exact hend seen log hp fun _ => rfl

omit [DecidableEq Artifact] in
/-- The rest of a preview: adopt, or inspect what would be done. -/
theorem preview_tail_safe {target : Target} {release : Release Artifact}
    {v : Verdict Target Artifact}
    (hp : Previewing saved seen log) (habout : v.About saved) :
    Safe (Previewed fun p log' => PreviewOf log' p)
      (do
        let adopt ← if v.receipt.isNone then runs target release else pure false
        let proposed : Subject Target Artifact :=
          match v.receipt with
          | some receipt => .saved receipt
          | none => .proposed (if adopt then .installed else .prepared) target release.descriptor
        if proposed.phase.recovering then discard (ask (.inspect true proposed release))
        else if !adopt then discard (ask (.inspect false proposed release))
        else pure ()
        guard
        pure ⟨target, release.descriptor, v.receipt, adopt, v.discarded, v.setAside⟩) log := by
  cases hreceipt : v.receipt with
  | some receipt =>
    have hend := preview_end_safe target release false (.saved receipt) hp habout nofun nofun
    rw [hreceipt] at hend
    exact hend
  | none =>
    apply safe_bind
    apply runs_safe hp
    · intro state log1 hp1
      have hend := preview_end_safe target release state.installed
        (.proposed (if state.installed then .installed else .prepared) target release.descriptor)
        hp1 habout (fun h => ⟨hreceipt, state, rfl, h⟩) (fun _ h => by rw [h]; rfl)
      rw [hreceipt] at hend
      exact hend
    · intro e seen' log1 hp1
      exact hp1.fails e

/-- A preview remembers the record it loaded, and adopts only what it saw last. -/
theorem preview_safe {target : Target} (hfree : (hold log).Free)
    (hbegun : log.head? = some (.begun (.preview target))) :
    Safe (Previewed fun p log' =>
      PreviewOf log' p) (preview target : Prog Target Artifact _) log := by
  have hp : Previewing none none log := by
    cases log with
    | nil => cases hbegun
    | cons e log =>
      obtain rfl := Option.some.inj hbegun
      exact ⟨hfree, ⟨target, rfl⟩, rfl, rfl⟩
  apply safe_bind
  apply previewing_guard hp
  intro reply log1 hp1
  cases reply with
  | error e => exact hp1.fails e
  | ok _ =>
    apply safe_bind
    apply safe_ask (show Allowed log1 .authenticate from trivial)
    intro reply saved1 _
    cases reply with
    | error e => exact (hp1.quiet (fun _ => rfl) fun _ => rfl).fails e
    | ok release =>
      apply safe_bind
      apply previewing_guard (hp1.quiet (fun _ => rfl) fun _ => rfl)
      intro reply log2 hp2
      cases reply with
      | error e => exact hp2.fails e
      | ok _ =>
        dsimp only
        split
        · exact hp2.fails _
        · apply safe_bind
          apply safe_ask (show Allowed log2 .load from trivial)
          intro reply saved2 _
          cases reply with
          | error e => exact (hp2.quiet (fun _ => rfl) fun _ => rfl).fails e
          | ok saved =>
            have hp3 : Previewing saved none (.performed .load (.ok saved) saved2 :: log2) := by
              have hafter : (hold log2).after (.performed .load (.ok saved) saved2) =
                hold log2 := by
                simp [Hold.after, hp2.free.site]
              refine ⟨?_, hp2.previewing, ?_, ?_⟩
              · rw [hold_cons, hafter]
                exact hp2.free
              · rw [hp2.duringPreview_cons]
                rfl
              · rw [hp2.duringPreview_cons, hold_cons, ← hp2.seen, Hold.after]
                split <;> rfl
            apply safe_bind
            apply judgeFinished_safe hp3
            · intro v4 seen4 log4 hp4 habout4
              apply safe_bind
              apply judgeRecovering_safe hp4 habout4
              · intro v5 seen5 log5 hp5 habout5
                exact preview_tail_safe hp5 (judgeRelease_about habout5)
              · intro e seen5 log5 hp5
                exact hp5.fails e
            · intro e seen4 log4 hp4
              exact hp4.fails e

end PanelAssistant.Usb
