import PanelAssistant.Usb.Preparations

/-!
# What a preview changes

A preview follows the saved job. Only a job for the chosen release that is being copied, or that
ended in recovery on a panel without the app, brings it to the preparation of the job's file.
-/

namespace PanelAssistant.Usb.Ports

open Library Library.Coop

variable {W : Surroundings} {s s' : State} {world : (c : PortCall) → PortReply c} {α β : Type}

/-! ## Served calls -/

theorem reaches_protect {action : PortProg (α × State)} :
    Reaches world IsPreparation (protect s action) ↔ Reaches world IsPreparation action := by
  rw [protect, reaches_before, reaches_attempt]
  intro reply
  split
  · exact only_pure _
  · split
    · exact only_pure _
    · exact only_perform trivial fun _ => only_pure _

theorem outcome_protect {action : PortProg (α × State)} {a : α} :
    outcome world (protect s action) = .ok (.ok a, s') ↔ outcome world action = .ok (a, s') := by
  rw [protect, outcome_bind_eq_ok, outcome_attempt]
  constructor
  · rintro ⟨reply, hreply, h⟩
    obtain rfl := Except.ok.inj hreply
    split at h
    · rename_i hsettled
      obtain ⟨rfl, rfl⟩ : _ ∧ _ := by simpa using h
      exact hsettled
    · split at h <;> cases h
  · intro h
    refine ⟨_, rfl, ?_⟩
    rw [h]
    rfl

/-- What a program of the controller settles to, over these ports. -/
abbrev Settled (W : Surroundings) (world : (c : PortCall) → PortReply c)
    (p : Prog Records.Target InstallDescriptor α) (s : State) (a : α) (s' : State) : Prop :=
  Settles (serve W) world p s a s'

/-- A program of the controller prepares a file. -/
abbrev PreparesIn (W : Surroundings) (world : (c : PortCall) → PortReply c)
    (p : Prog Records.Target InstallDescriptor α) (s : State) : Prop :=
  Sends (serve W) world IsPreparation p s

theorem settled_ask {c : UsbCall} {a : Answer c} :
    Settled W world (ask c) s a s' ↔ outcome world (serve W s c) = .ok (.ok a, s') := by
  rw [Settled, ask, settles_perform]
  constructor
  · rintro ⟨reply, s₁, hserve, h⟩
    cases reply with
    | ok found =>
      obtain ⟨rfl, rfl⟩ := settles_pure.mp h
      exact hserve
    | error e => exact absurd h settles_raise
  · exact fun h => ⟨.ok a, s', h, settles_pure.mpr ⟨rfl, rfl⟩⟩

theorem preparesIn_ask {c : UsbCall} :
    PreparesIn W world (ask c) s ↔ Reaches world IsPreparation (serve W s c) := by
  rw [PreparesIn, ask, sends_perform, or_iff_left]
  rintro ⟨reply, s₁, -, h⟩
  cases reply with
  | ok a => exact sends_pure h
  | error e => exact sends_raise h

theorem settled_guard {u : Unit} :
    Settled W world guard s u s' ↔ world (.controller .ensureCurrent) = .ok () ∧ s = s' := by
  rw [guard, settled_ask]
  change Except.ok (world (.controller .ensureCurrent), s) = Except.ok (Except.ok u, s') ↔ _
  simp only [Except.ok.injEq, Prod.mk.injEq]

theorem settled_load {saved : Option UsbReceipt} :
    Settled W world (ask .load) s saved s' ↔ world (.controller .load) = .ok saved ∧ s = s' := by
  rw [settled_ask]
  change Except.ok (world (.controller .load), s) = Except.ok (Except.ok saved, s') ↔ _
  simp only [Except.ok.injEq, Prod.mk.injEq]

theorem settled_authenticate {release : UsbRelease} :
    Settled W world (ask .authenticate) s release s' ↔ Open world s ∧
      world .authenticate = .ok release ∧ { s with authenticated := some release } = s' := by
  rw [settled_ask]
  change outcome world (protect s (portAuthenticate s)) = _ ↔ _
  simp only [outcome_protect, portAuthenticate, outcome_bind_eq_ok, outcome_perform,
    outcome_ofExcept]
  constructor
  · rintro ⟨_, hopen, found, hfound, _, -, h⟩
    obtain ⟨rfl, rfl⟩ : found = release ∧ _ = s' := by simpa using h
    exact ⟨outcome_portGuard.mp hopen, hfound, rfl⟩
  · rintro ⟨hopen, hfound, rfl⟩
    have hguard := outcome_portGuard.mpr hopen
    exact ⟨(), hguard, release, hfound, (), hguard, rfl⟩

/-- A call that is neither of the two. -/
theorem not_preparesIn_guard : ¬ PreparesIn W world guard s := by
  rw [guard, preparesIn_ask]
  exact not_reaches (only_perform rfl fun _ => only_pure _)

theorem not_preparesIn_load : ¬ PreparesIn W world (ask .load) s := by
  rw [preparesIn_ask]
  exact not_reaches (only_perform rfl fun _ => only_pure _)

theorem not_preparesIn_authenticate : ¬ PreparesIn W world (ask .authenticate) s := by
  rw [preparesIn_ask]
  change ¬ Reaches world IsPreparation (protect s (portAuthenticate s))
  rw [reaches_protect]
  exact not_reaches (only_bind only_portGuard fun _ =>
    only_bind (only_perform trivial fun reply => only_ofExcept reply) fun _ =>
      only_bind only_portGuard fun _ => only_pure _)

theorem preparesIn_inspect {recovering : Bool} {subject : UsbSubject} {release : UsbRelease} :
    PreparesIn W world (ask (.inspect recovering subject release)) s ↔
      Reaches world IsPreparation
        (if recovering then recovery W s subject release else inspect W s subject release) := by
  rw [preparesIn_ask]
  exact reaches_protect

/-- After a part that prepares nothing. -/
theorem preparesIn_after {p : Prog Records.Target InstallDescriptor α}
    {f : α → Prog Records.Target InstallDescriptor β} (hp : ¬ PreparesIn W world p s) :
    PreparesIn W world (p >>= f) s ↔
      ∃ a s₁, Settled W world p s a s₁ ∧ PreparesIn W world (f a) s₁ := by
  rw [PreparesIn, sends_bind, or_iff_right hp]

theorem preparesIn_after_guard {f : Unit → Prog Records.Target InstallDescriptor β} :
    PreparesIn W world (guard >>= f) s ↔
      world (.controller .ensureCurrent) = .ok () ∧ PreparesIn W world (f ()) s := by
  rw [preparesIn_after not_preparesIn_guard]
  constructor
  · rintro ⟨_, s₁, hguard, h⟩
    obtain ⟨hcurrent, rfl⟩ := settled_guard.mp hguard
    exact ⟨hcurrent, h⟩
  · rintro ⟨hcurrent, h⟩
    exact ⟨(), s, settled_guard.mpr ⟨hcurrent, rfl⟩, h⟩

/-- Before a part that prepares nothing. -/
theorem preparesIn_before {p : Prog Records.Target InstallDescriptor α}
    {f : α → Prog Records.Target InstallDescriptor β}
    (hf : ∀ a s₁, ¬ PreparesIn W world (f a) s₁) :
    PreparesIn W world (p >>= f) s ↔ PreparesIn W world p s := by
  rw [PreparesIn, sends_bind, or_iff_left]
  rintro ⟨a, s₁, -, h⟩
  exact hf a s₁ h

/-! ## The parts of a preview -/

theorem outcome_inspect_installed {target : Records.Target} {release : UsbRelease}
    {installed : Bool} :
    (∃ state, outcome world
        (inspect W s (.proposed .installed target release.descriptor) release) = .ok (state, s') ∧
        state.installed = installed) ↔
      s = s' ∧ Bound W world s target release ∧ Identified W world target ∧
        ReportsInstalled world release.descriptor installed := by
  have hthere : stillThere s (.proposed .installed target release.descriptor) = pure true := rfl
  have hhealth : ∀ found, inspectHealth s found (.proposed .installed target release.descriptor)
      release.descriptor = pure (false, s) := by
    intro found
    rw [inspectHealth, if_neg]
    rintro ⟨-, h⟩
    cases h
  have hphase : ∀ subject : UsbSubject, subject.phase = .installed →
      ¬(subject.phase = .prepared ∨ subject.phase = .staging ∨ subject.phase = .staged) := by
    intro subject h
    rw [h]
    decide
  simp only [inspect, hthere, hhealth, outcome_bind_eq_ok]
  constructor
  · rintro ⟨state, ⟨live, hlive, there, hthere, h⟩, hinstalled⟩
    obtain ⟨hbound, hidentified⟩ := exists_posture.mp ⟨live, hlive⟩
    obtain rfl := Except.ok.inj hthere
    rw [if_neg (by decide), if_neg (hphase _ rfl)] at h
    simp only [outcome_bind_eq_ok] at h
    obtain ⟨found, hfound, read, hread, _, -, h⟩ := h
    obtain rfl := Except.ok.inj hread
    obtain ⟨rfl, rfl⟩ : _ ∧ s = s' := by simpa using h
    exact ⟨rfl, hbound, hidentified, hinstalled ▸ (outcome_inspectInstalledApk.mp hfound).2⟩
  · rintro ⟨rfl, hbound, hidentified, hreports⟩
    obtain ⟨live, hlive⟩ := exists_posture.mpr ⟨hbound, hidentified⟩
    refine ⟨⟨some live, false, false, installed, false, false, false⟩,
      ⟨live, hlive, true, rfl, ?_⟩, rfl⟩
    rw [if_neg (by decide), if_neg (hphase _ rfl)]
    simp only [outcome_bind_eq_ok]
    exact ⟨installed, outcome_inspectInstalledApk.mpr ⟨hbound.session, hreports⟩,
      (false, s), rfl, (), outcome_binding.mpr hbound, rfl⟩

theorem not_preparesIn_runs {target : Records.Target} {release : UsbRelease} :
    ¬ PreparesIn W world (runs target release) s := by
  rw [runs, preparesIn_before, preparesIn_inspect]
  · change ¬ Reaches world IsPreparation (inspect W s _ release)
    rw [reaches_inspect]
    rintro ⟨-, -, jobId, hid, -⟩
    cases hid
  · intro state s₁ h
    rw [preparesIn_after_guard] at h
    exact sends_pure h.2

theorem settled_runs {target : Records.Target} {release : UsbRelease} {installed : Bool} :
    Settled W world (runs target release) s installed s' ↔
      s = s' ∧ Bound W world s target release ∧ Identified W world target ∧
        ReportsInstalled world release.descriptor installed ∧
        world (.controller .ensureCurrent) = .ok () := by
  have hserve : ∀ state s₁, outcome world (serve W s
        (.inspect false (.proposed .installed target release.descriptor) release)) =
          .ok (.ok state, s₁) ↔
      outcome world (inspect W s (.proposed .installed target release.descriptor) release) =
        .ok (state, s₁) := fun _ _ => outcome_protect
  rw [runs, Settled, settles_bind]
  constructor
  · rintro ⟨state, s₁, hstate, h⟩
    replace hstate := (hserve state s₁).mp (settled_ask.mp hstate)
    obtain ⟨_, s₂, hguard, h⟩ := settles_bind.mp h
    obtain ⟨hcurrent, rfl⟩ := settled_guard.mp hguard
    obtain ⟨hinstalled, rfl⟩ := settles_pure.mp h
    obtain ⟨rfl, hbound, hidentified, hreports⟩ :=
      outcome_inspect_installed.mp ⟨state, hstate, hinstalled⟩
    exact ⟨rfl, hbound, hidentified, hreports, hcurrent⟩
  · rintro ⟨rfl, hbound, hidentified, hreports, hcurrent⟩
    obtain ⟨state, hstate, hinstalled⟩ :=
      outcome_inspect_installed.mpr ⟨rfl, hbound, hidentified, hreports⟩
    refine ⟨state, s, settled_ask.mpr ((hserve state s).mpr hstate), ?_⟩
    exact settles_bind.mpr ⟨(), s, settled_guard.mpr ⟨hcurrent, rfl⟩,
      settles_pure.mpr ⟨hinstalled, rfl⟩⟩

theorem preparesIn_inspectProposed {target : Records.Target} {release : UsbRelease}
    {verdict : Verdicts} {adopt : Bool} {proposed : UsbSubject} :
    PreparesIn W world (inspectProposed target release verdict adopt proposed) s ↔
      if proposed.phase.recovering then Reaches world IsPreparation (recovery W s proposed release)
      else adopt = false ∧ Reaches world IsPreparation (inspect W s proposed release) := by
  have hend : ∀ s₁, ¬ PreparesIn W world (guard >>= fun _ => pure (⟨target, release.descriptor,
      verdict.receipt, adopt, verdict.discarded, verdict.setAside⟩ :
        Preview Records.Target InstallDescriptor)) s₁ := by
    intro s₁ h
    rw [preparesIn_after_guard] at h
    exact sends_pure h.2
  have hdiscard : ∀ recovering : Bool, PreparesIn W world
      (discard (ask (.inspect recovering proposed release))) s ↔ Reaches world IsPreparation
        (if recovering then recovery W s proposed release else inspect W s proposed release) := by
    intro recovering
    rw [← preparesIn_inspect]
    exact preparesIn_before fun _ _ => sends_pure
  unfold inspectProposed
  split
  · rw [preparesIn_before fun _ => hend, hdiscard, if_pos rfl]
  split
  · rename_i hadopt
    rw [preparesIn_before fun _ => hend, hdiscard, if_neg Bool.false_ne_true]
    simp only [Bool.not_eq_true'] at hadopt
    simp only [hadopt, true_and]
  · rename_i hadopt
    simp only [Bool.not_eq_true', Bool.not_eq_false] at hadopt
    subst hadopt
    exact iff_of_false (hend s) fun h => Bool.noConfusion h.1

theorem not_preparesIn_afterVerdict {target : Records.Target} {release : UsbRelease}
    {verdict : Verdicts} (h : verdict.receipt = none) :
    ¬ PreparesIn W world (afterVerdict target release verdict) s := by
  unfold afterVerdict
  rw [h]
  dsimp only
  rw [preparesIn_after not_preparesIn_runs]
  rintro ⟨adopt, s₁, -, hprepares⟩
  rw [preparesIn_inspectProposed] at hprepares
  cases adopt with
  | true => exact Bool.noConfusion hprepares.1
  | false =>
    obtain ⟨-, -, jobId, hid, -⟩ := reaches_inspect.mp hprepares.2
    cases hid

/-- A saved job for the chosen release is looked at as it is. -/
theorem preparesIn_afterVerdict {target : Records.Target} {release : UsbRelease}
    {verdict : Verdicts} {r : UsbReceipt} (h : verdict.receipt = some r) :
    PreparesIn W world (afterVerdict target release verdict) s ↔
      if r.phase.recovering then Reaches world IsPreparation (recovery W s (.saved r) release)
      else Reaches world IsPreparation (inspect W s (.saved r) release) := by
  unfold afterVerdict
  rw [h]
  dsimp only
  rw [preparesIn_inspectProposed]
  simp only [true_and]
  exact Iff.rfl

/-! ## The saved job -/

theorem not_preparesIn_judgeFinished {saved : Option UsbReceipt} {release : UsbRelease} :
    ¬ PreparesIn W world (judgeFinished saved release) s := by
  have hend : ∀ (receipt : UsbReceipt) (current : Bool) (s₁ : State), ¬ PreparesIn W world
      (guard >>= fun _ => if current then pure (⟨some receipt, none, none⟩ : Verdicts)
        else pure ⟨none, none, some (aside receipt)⟩) s₁ := by
    intro receipt current s₁ h
    rw [preparesIn_after_guard] at h
    cases current with
    | true => exact sends_pure h.2
    | false => exact sends_pure h.2
  unfold judgeFinished
  split
  · rename_i receipt
    split
    · rename_i hhealthy
      split
      · refine (preparesIn_before fun state s₁ => hend receipt state.installed s₁).not.mpr ?_
        rw [preparesIn_inspect, if_neg Bool.false_ne_true, reaches_inspect]
        rintro ⟨-, hphase, -⟩
        change receipt.phase = .staging ∨ receipt.phase = .staged at hphase
        rw [hhealthy] at hphase
        rcases hphase with hphase | hphase
        · cases hphase
        · cases hphase
      · exact hend receipt false s
    · exact sends_pure
  · exact sends_pure

/-- A job that is not finished stays in question; a finished one does or is set aside. -/
theorem settled_judgeFinished {r : UsbReceipt} {release : UsbRelease} {verdict : Verdicts}
    (h : Settled W world (judgeFinished (some r) release) s verdict s') :
    (verdict.receipt = some r ∧ (r.phase ≠ .healthy → s = s')) ∨
      verdict.receipt = none ∧ r.phase = .healthy := by
  have hend : ∀ (current : Bool) (s₁ : State), Settled W world
      (guard >>= fun _ => if current then pure (⟨some r, none, none⟩ : Verdicts)
        else pure ⟨none, none, some (aside r)⟩) s₁ verdict s' →
      verdict.receipt = some r ∨ verdict.receipt = none := by
    intro current s₁ h
    obtain ⟨_, s₂, -, h⟩ := settles_bind.mp h
    cases current with
    | true => exact .inl (congrArg Verdict.receipt (settles_pure.mp h).1.symm)
    | false => exact .inr (congrArg Verdict.receipt (settles_pure.mp h).1.symm)
  unfold judgeFinished at h
  dsimp only at h
  split at h
  · rename_i hhealthy
    have hverdict : verdict.receipt = some r ∨ verdict.receipt = none := by
      split at h
      · obtain ⟨state, s₁, -, h⟩ := settles_bind.mp h
        exact hend state.installed s₁ h
      · exact hend false s h
    rcases hverdict with hsome | hnone
    · exact .inl ⟨hsome, fun hnot => absurd hhealthy hnot⟩
    · exact .inr ⟨hnone, hhealthy⟩
  · obtain ⟨rfl, rfl⟩ := settles_pure.mp h
    exact .inl ⟨rfl, fun _ => rfl⟩

/-- The rest of a preview, after it judged a finished job. -/
def afterFinished (target : Records.Target) (release : UsbRelease) (finished : Verdicts) :
    Prog Records.Target InstallDescriptor (Preview Records.Target InstallDescriptor) := do
  let recovering ← judgeRecovering finished target release
  afterVerdict target release (judgeRelease recovering release)

theorem not_preparesIn_judgeRecovering {verdict : Verdicts} {target : Records.Target}
    {release : UsbRelease} : ¬ PreparesIn W world (judgeRecovering verdict target release) s := by
  unfold judgeRecovering
  split
  · split
    · refine (preparesIn_before fun installed s₁ => ?_).not.mpr not_preparesIn_runs
      cases installed with
      | true => exact sends_pure
      | false => exact sends_pure
    · exact sends_pure
  · exact sends_pure

theorem judgeRelease_none {verdict : Verdicts} {release : UsbRelease}
    (h : verdict.receipt = none) : judgeRelease verdict release = verdict := by
  unfold judgeRelease
  rw [h]

theorem not_preparesIn_afterFinished {target : Records.Target} {release : UsbRelease}
    {finished : Verdicts} (h : finished.receipt = none) :
    ¬ PreparesIn W world (afterFinished target release finished) s := by
  rw [afterFinished, preparesIn_after not_preparesIn_judgeRecovering]
  rintro ⟨recovering, s₁, hsettled, hprepares⟩
  unfold judgeRecovering at hsettled
  rw [h] at hsettled
  obtain ⟨rfl, rfl⟩ := settles_pure.mp hsettled
  rw [judgeRelease_none h] at hprepares
  exact not_preparesIn_afterVerdict h hprepares

/-- What a panel must answer before a preview looks at a saved job for the chosen release. -/
def Resumes (W : Surroundings) (world : (c : PortCall) → PortReply c) (s : State)
    (target : Records.Target) (release : UsbRelease) (r : UsbReceipt) : Prop :=
  if r.phase.recovering then
    (Bound W world s target release ∧ Identified W world target ∧
      ReportsInstalled world release.descriptor false ∧
      world (.controller .ensureCurrent) = .ok ()) ∧
    Reaches world IsPreparation (recovery W s (.saved r) release)
  else Reaches world IsPreparation (inspect W s (.saved r) release)

theorem preparesIn_afterFinished {target : Records.Target} {release : UsbRelease}
    {finished : Verdicts} {r : UsbReceipt} (h : finished.receipt = some r) :
    PreparesIn W world (afterFinished target release finished) s ↔
      r.artifact = release.descriptor ∧ Resumes W world s target release r := by
  rw [afterFinished, preparesIn_after not_preparesIn_judgeRecovering]
  unfold judgeRecovering Resumes
  rw [h]
  dsimp only
  by_cases hartifact : r.artifact = release.descriptor
  · have hkept : judgeRelease finished release = finished := by
      unfold judgeRelease
      rw [h]
      exact if_neg (not_not.mpr hartifact)
    simp only [hartifact, and_true, true_and]
    by_cases hrecovering : r.phase.recovering = true
    · rw [if_pos hrecovering, if_pos hrecovering]
      constructor
      · rintro ⟨verdict, s₂, hsettled, hprepares⟩
        obtain ⟨installed, s₁, hruns, hsettled⟩ := settles_bind.mp hsettled
        obtain ⟨rfl, hbound, hidentified, hreports, hcurrent⟩ := settled_runs.mp hruns
        cases installed with
        | true =>
          obtain ⟨rfl, rfl⟩ := settles_pure.mp hsettled
          exact absurd hprepares (not_preparesIn_afterVerdict rfl)
        | false =>
          obtain ⟨rfl, rfl⟩ := settles_pure.mp hsettled
          rw [hkept, preparesIn_afterVerdict h, if_pos hrecovering] at hprepares
          exact ⟨⟨hbound, hidentified, hreports, hcurrent⟩, hprepares⟩
      · rintro ⟨⟨hbound, hidentified, hreports, hcurrent⟩, hprepares⟩
        refine ⟨finished, s, settles_bind.mpr ⟨false, s,
          settled_runs.mpr ⟨rfl, hbound, hidentified, hreports, hcurrent⟩,
          settles_pure.mpr ⟨rfl, rfl⟩⟩, ?_⟩
        rw [hkept, preparesIn_afterVerdict h, if_pos hrecovering]
        exact hprepares
    · rw [if_neg hrecovering, if_neg hrecovering]
      constructor
      · rintro ⟨verdict, s₁, hsettled, hprepares⟩
        obtain ⟨rfl, rfl⟩ := settles_pure.mp hsettled
        rw [hkept, preparesIn_afterVerdict h, if_neg hrecovering] at hprepares
        exact hprepares
      · intro hprepares
        refine ⟨finished, s, settles_pure.mpr ⟨rfl, rfl⟩, ?_⟩
        rw [hkept, preparesIn_afterVerdict h, if_neg hrecovering]
        exact hprepares
  · simp only [hartifact, and_false, false_and, if_false, iff_false]
    rintro ⟨verdict, s₁, hsettled, hprepares⟩
    obtain ⟨rfl, rfl⟩ := settles_pure.mp hsettled
    refine not_preparesIn_afterVerdict ?_ hprepares
    unfold judgeRelease
    rw [h]
    dsimp only
    rw [if_pos hartifact]

/-- A finished job is not looked at as one that is copied. -/
theorem not_resumes_healthy {target : Records.Target} {release : UsbRelease} {r : UsbReceipt}
    (h : r.phase = .healthy) : ¬ Resumes W world s target release r := by
  rw [Resumes, h, if_neg (by decide), reaches_inspect]
  rintro ⟨-, hphase, -⟩
  change r.phase = .staging ∨ r.phase = .staged at hphase
  rw [h] at hphase
  rcases hphase with hphase | hphase
  · cases hphase
  · cases hphase

theorem preparesIn_judge {target : Records.Target} {release : UsbRelease} :
    PreparesIn W world (judge target release) s ↔ ∃ r, world (.controller .load) = .ok (some r) ∧
      r.artifact = release.descriptor ∧ Resumes W world s target release r := by
  have hjudge : judge target release = ask .load >>= fun saved =>
      judgeFinished saved release >>= afterFinished target release := rfl
  rw [hjudge, preparesIn_after not_preparesIn_load]
  constructor
  · rintro ⟨saved, s₁, hload, h⟩
    obtain ⟨hloaded, rfl⟩ := settled_load.mp hload
    rw [preparesIn_after not_preparesIn_judgeFinished] at h
    obtain ⟨verdict, s₂, hsettled, hprepares⟩ := h
    cases saved with
    | none =>
      obtain ⟨rfl, rfl⟩ := settles_pure.mp hsettled
      exact absurd hprepares (not_preparesIn_afterFinished rfl)
    | some r =>
      rcases settled_judgeFinished hsettled with ⟨hreceipt, hsame⟩ | ⟨hnone, -⟩
      · obtain ⟨hartifact, hresumes⟩ := (preparesIn_afterFinished hreceipt).mp hprepares
        have hphase : r.phase ≠ .healthy := fun hphase => not_resumes_healthy hphase hresumes
        obtain rfl := hsame hphase
        exact ⟨r, hloaded, hartifact, hresumes⟩
      · exact absurd hprepares (not_preparesIn_afterFinished hnone)
  · rintro ⟨r, hload, hartifact, hresumes⟩
    have hphase : r.phase ≠ .healthy := fun hphase => not_resumes_healthy hphase hresumes
    refine ⟨some r, s, settled_load.mpr ⟨hload, rfl⟩, ?_⟩
    rw [preparesIn_after not_preparesIn_judgeFinished]
    refine ⟨⟨some r, none, none⟩, s, ?_, (preparesIn_afterFinished rfl).mpr ⟨hartifact, hresumes⟩⟩
    unfold judgeFinished
    dsimp only
    rw [if_neg hphase]
    exact settles_pure.mpr ⟨rfl, rfl⟩

/-! ## The whole preview -/

/-- What the phase of a saved job asks of the panel before the job's file is prepared. -/
def Reached (W : Surroundings) (world : (c : PortCall) → PortReply c) (ports : State)
    (target : Records.Target) (descriptor : InstallDescriptor) (r : UsbReceipt) : Prop :=
  match r.phase with
  | .staged => True
  | .staging => ports.uploadedJob = some r.id ∨ Present world r.id
  | .recoveryRequired | .cleanupPending =>
    sameDevice W target = true ∧ Identified W world target ∧
      ReportsInstalled world descriptor false ∧ Present world r.id
  | _ => False

/-- The session goes on, the saved job is one for the chosen release, the panel is the job's and
clean, and the job's phase leads to its file. -/
structure Prepares (W : Surroundings) (world : (c : PortCall) → PortReply c) (ports : State)
    (target : Records.Target) (release : UsbRelease) (r : UsbReceipt) : Prop where
  keyed : hasKey W target = true
  session : Open world ports
  current : world (.controller .ensureCurrent) = .ok ()
  authenticated : world .authenticate = .ok release
  genuine : release.genuine = true
  loaded : world (.controller .load) = .ok (some r)
  chosen : r.artifact = release.descriptor
  job : isHex32 r.id = true
  device : sameDevice W r.target = true
  identified : Identified W world r.target
  clean : FoundClean world r.target release.descriptor
  reached : Reached W world ports target release.descriptor r

theorem bound_authenticated {ports : State} {target : Records.Target} {release : UsbRelease} :
    Bound W world { ports with authenticated := some release } target release ↔
      Open world ports ∧ release.genuine = true ∧ sameDevice W target = true :=
  ⟨fun h => ⟨⟨h.session.running, h.session.current⟩, h.genuine, h.device⟩,
    fun h => ⟨⟨h.1.running, h.1.current⟩, rfl, h.2.1, h.2.2⟩⟩

theorem lost_saved {r : UsbReceipt} (h : r.phase = .staging) :
    lost s (.saved r) = true ↔ s.uploadedJob ≠ some r.id := by
  change (r.phase == .staging && s.uploadedJob != some r.id) = true ↔ _
  rw [h, Bool.and_eq_true, bne_iff_ne]
  exact and_iff_right rfl

/-- After the release is authenticated, for a saved job that it is about. -/
theorem resumes_authenticated {ports : State} {target : Records.Target} {release : UsbRelease}
    {r : UsbReceipt} (hsession : Open world ports) (hgenuine : release.genuine = true)
    (hcurrent : world (.controller .ensureCurrent) = .ok ()) :
    Resumes W world { ports with authenticated := some release } target release r ↔
      isHex32 r.id = true ∧ sameDevice W r.target = true ∧ Identified W world r.target ∧
        FoundClean world r.target release.descriptor ∧
        Reached W world ports target release.descriptor r := by
  have hfit : Fit W world { ports with authenticated := some release } r.target release ↔
      sameDevice W r.target = true ∧ Identified W world r.target ∧
        FoundClean world r.target release.descriptor :=
    ⟨fun h => ⟨h.bound.device, h.identified, h.clean⟩,
      fun h => ⟨bound_authenticated.mpr ⟨hsession, hgenuine, h.1⟩, h.2.1, h.2.2⟩⟩
  have hid : ∀ P : JobId → Prop,
      (∃ jobId, (Subject.saved r : UsbSubject).id? = some jobId ∧ P jobId) ↔ P r.id := by
    intro P
    constructor
    · rintro ⟨jobId, hjob, h⟩
      obtain rfl := Option.some.inj hjob
      exact h
    · exact fun h => ⟨r.id, rfl, h⟩
  unfold Resumes Reached
  split
  · rename_i hrecovering
    rw [reaches_recovery, hid, bound_authenticated]
    change _ ∧ Fit W world _ r.target release ∧ _ ↔ _
    rw [hfit]
    have hreached : r.phase = .recoveryRequired ∨ r.phase = .cleanupPending := by
      simpa [Phase.recovering] using hrecovering
    rcases hreached with hphase | hphase
    · rw [hphase]
      tauto
    · rw [hphase]
      tauto
  · rename_i hrecovering
    rw [reaches_inspect, hid]
    change Fit W world _ r.target release ∧ (r.phase = .staging ∨ r.phase = .staged) ∧ _ ↔ _
    rw [hfit]
    cases hphase : r.phase
    case staging =>
      have hlost : (lost { ports with authenticated := some release } (.saved r) = true →
          Present world r.id) ↔ ports.uploadedJob = some r.id ∨ Present world r.id := by
        rw [lost_saved hphase, ← or_iff_not_imp_left]
      rw [hlost]
      simp only [true_or, true_and]
      tauto
    case staged =>
      have hlost : ¬ lost { ports with authenticated := some release } (.saved r) = true := by
        change ¬ (r.phase == .staging && _) = true
        rw [hphase, Bool.and_eq_true]
        rintro ⟨h, -⟩
        cases h
      simp only [hlost]
      tauto
    case recoveryRequired =>
      rw [hphase] at hrecovering
      exact absurd rfl hrecovering
    case cleanupPending =>
      rw [hphase] at hrecovering
      exact absurd rfl hrecovering
    all_goals simp

/-- A preview prepares a file exactly for such a saved job. -/
theorem reaches_previewOver {ports : State} {target : Records.Target} :
    Reaches world IsPreparation (previewOver W ports target) ↔
      ∃ release r, Prepares W world ports target release r := by
  change PreparesIn W world _ ports ↔ _
  split
  · rename_i hkeyed
    rw [preview_eq, preparesIn_after_guard, preparesIn_after not_preparesIn_authenticate]
    constructor
    · rintro ⟨hcurrent, release, s₁, hsettled, h⟩
      obtain ⟨hsession, hauthenticated, rfl⟩ := settled_authenticate.mp hsettled
      rw [preparesIn_after_guard] at h
      obtain ⟨-, h⟩ := h
      cases hgenuine : release.genuine with
      | false =>
        rw [hgenuine] at h
        exact absurd h sends_raise
      | true =>
        rw [hgenuine] at h
        obtain ⟨r, hloaded, hchosen, hresumes⟩ := preparesIn_judge.mp h
        obtain ⟨hjob, hdevice, hidentified, hclean, hreached⟩ :=
          (resumes_authenticated hsession hgenuine hcurrent).mp hresumes
        exact ⟨release, r, hkeyed, hsession, hcurrent, hauthenticated, hgenuine, hloaded, hchosen,
          hjob, hdevice, hidentified, hclean, hreached⟩
    · rintro ⟨release, r, h⟩
      refine ⟨h.current, release, _,
        settled_authenticate.mpr ⟨h.session, h.authenticated, rfl⟩, ?_⟩
      rw [preparesIn_after_guard]
      refine ⟨h.current, ?_⟩
      rw [h.genuine]
      exact preparesIn_judge.mpr ⟨r, h.loaded, h.chosen,
        (resumes_authenticated h.session h.genuine h.current).mpr
          ⟨h.job, h.device, h.identified, h.clean, h.reached⟩⟩
  · rename_i hkeyed
    rw [preparesIn_after_guard]
    constructor
    · rintro ⟨-, h⟩
      exact absurd h sends_raise
    · rintro ⟨release, r, h⟩
      exact absurd h.keyed hkeyed

/-- In every run a preview writes no record and sends only programs that read, but for the
preparation of a staged file; it sends that one exactly where the answers lead to it. -/
theorem preview_changes_nothing_iff (W : Surroundings) (ports : State) (target : Records.Target) :
    (∀ (σ : Type) (step : σ → (c : PortCall) → PortReply c → σ → Prop) (s s' : σ)
        (trace : List ((c : PortCall) × PortReply c))
        (o : Except Fault (Except Failure (Preview Records.Target InstallDescriptor) × State)),
      Exec step (previewOver W ports target) s trace o s' →
      ∀ e ∈ trace, e.1.ReadsOnly ∨ ∃ jobId, e.1 = .read (.stagedPreparation jobId)) ∧
    ∀ world : (c : PortCall) → PortReply c,
      (∀ c ∈ calls world (previewOver W ports target), c.ReadsOnly) ↔
        ¬ ∃ release r, Prepares W world ports target release r := by
  refine ⟨fun σ step s s' trace o hexec => only_exec hexec only_previewOver, fun world => ?_⟩
  have htame : ∀ c ∈ calls world (previewOver W ports target), Tame c :=
    only_calls only_previewOver
  rw [← reaches_previewOver]
  constructor
  · rintro hreads ⟨c, hc, hprepares⟩
    exact (readsOnly_iff (htame c hc)).mp (hreads c hc) hprepares
  · intro hnot c hc
    exact (readsOnly_iff (htame c hc)).mpr fun hprepares => hnot ⟨c, hc, hprepares⟩

/-! ## A job whose file was copied -/

namespace StagedJob

def target : Records.Target where
  model := "TPA10"
  serial := "0123456789abcdef"
  primaryAbi := "arm64-v8a"
  androidSdk := 30
  rootMode := "rootless"
  usbVendorId := 8711
  usbProductId := 6
  usbSerial := "0123456789abcdef"

def receipt : UsbReceipt where
  id := "00112233445566778899aabbccddeeff"
  revision := 2
  phase := .staged
  target := target
  artifact := releaseDescriptor

def observed : Observed where
  model := "TPA10"
  serial := "0123456789abcdef"
  primaryAbi := "arm64-v8a"
  androidSdk := 30
  rootMode := .rootless

def surroundings : Surroundings where
  usbDevice := ⟨8711, 6, some "0123456789abcdef"⟩
  unicode := ⟨fun c => c.toNat < 32 || c.toNat == 127⟩
  apk := fun _ => []
  sha256 := fun _ => releaseDescriptor.apkSha256

/-- The ports of a new session. -/
def ports : State := ⟨false, none, none, 8888⟩

/-- What the programs of a preview answer on a clean panel that holds the whole file. -/
def respond : (program : Program) → program.Response
  | .posture => .ok observed
  | .preflight => .ok (.clean observed)
  | .delegatedProof _ => .ok false
  | .pathState _ => .ok true
  | .stagedPreparation _ => .ok ()
  | .stagedObservation _ => .ok ⟨releaseDescriptor.apkSize, releaseDescriptor.apkSha256⟩
  | .installedObservation _ => .ok none
  | .appReady _ => .ok none

def panel : (c : PortCall) → PortReply c
  | .ensureCurrent => .ok ()
  | .authenticate => .ok ⟨true, releaseDescriptor⟩
  | .quarantine => ()
  | .read program => .ok (respond program)
  | .health _ _ => .error .thrown
  | .controller .ensureCurrent => .ok ()
  | .controller .load => .ok (some receipt)
  | .controller _ => .error .thrown

theorem prepares : Prepares surroundings panel ports target ⟨true, releaseDescriptor⟩ receipt where
  keyed := by decide
  session := ⟨rfl, rfl⟩
  current := rfl
  authenticated := rfl
  genuine := rfl
  loaded := rfl
  chosen := rfl
  job := by decide
  device := by decide
  identified := ⟨by decide, observed, rfl, by decide⟩
  clean := ⟨observed, ⟨by decide, rfl, rfl, by decide, by decide⟩,
    by decide, fun h => by cases h⟩
  reached := trivial

end StagedJob

/-- The mode of the file of a staged job is set by a preview of the same release. -/
theorem staged_job_prepared : ∃ c ∈ calls StagedJob.panel
    (previewOver StagedJob.surroundings StagedJob.ports StagedJob.target), ¬ c.ReadsOnly := by
  obtain ⟨c, hc, hprepares⟩ := reaches_previewOver.mpr ⟨_, _, StagedJob.prepares⟩
  exact ⟨c, hc, fun hreads => (readsOnly_iff (.inl hreads)).mp hreads hprepares⟩

end PanelAssistant.Usb.Ports
