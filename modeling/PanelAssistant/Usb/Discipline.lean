import PanelAssistant.Usb.Logs

/-!
# The discipline of an installation

What a tab may do, given its log (`Allowed`), and what its surroundings may answer (`Possible`).
Under the lock the record is the one the tab last read or wrote, because every other tab that
changes a record needs the lock, and a new record needs the place of the old one.

Every transaction keeps to the discipline (`advanceTransaction_safe`, `recoverTransaction_safe`),
whatever the ports report and wherever they throw.
-/

namespace PanelAssistant.Usb

open Library

variable {Target Artifact : Type}

/-! ## What a tab may do -/

/-- An installation works on its own job, which was there at every await. -/
def Owns (log : Log Target Artifact) (id : JobId) : Prop :=
  Faithful log → ∀ job, owned log = some job → id = job ∧ ¬ Gone job log

/-- The latest inspection of the job's panel, in this hold, proves the phase. -/
def Proven (log : Log Target Artifact) (snapshot : Receipt Target Artifact) (next : Phase) : Prop :=
  ∃ recovery subject state, (hold log).seen = some (recovery, .saved subject, state) ∧
    subject.id = snapshot.id ∧ subject.target = snapshot.target ∧
    state.target = some snapshot.target ∧ proves next state = true

/-- The phases that report an outcome. -/
def Phase.outcome : Phase → Bool
  | .staged | .installed | .healthy | .prepared => true
  | _ => false

def Allowed (log : Log Target Artifact) : Call Target Artifact → Prop
  | .put snapshot expectedRevision next =>
    (hold log).site.isSome ∧ (hold log).known = some snapshot ∧
      expectedRevision = snapshot.revision ∧ (next.outcome = true → Proven log snapshot next) ∧
      Owns log snapshot.id
  | .actuate actuator receipt _ =>
    ((hold log).site.isSome ∧ (hold log).known = some receipt ∧ (hold log).intent = some receipt ∧
        (hold log).acted = false) ∧
      (∃ found recovery state, (hold log).found = some found ∧
        (hold log).seen = some (recovery, .saved found, state) ∧ found.phase = actuator.source ∧
        receipt = found.moved actuator.pending ∧ state.target = some found.target ∧
        actuator.admits state = true) ∧ Owns log receipt.id
  | .add target artifact phase =>
    phase = .prepared ∨ phase = .installed ∧ ∃ state,
      (hold (duringPreview log)).seen = some (false, .proposed .installed target artifact, state) ∧
        state.installed = true
  | .remove removal expectedRevision =>
    (hold log).site.isSome ∧ owned log = none ∧ ∃ selected job r,
      current log = some (.install selected) ∧ selected.setAside = some job ∧
        (hold log).known = some r ∧ r.id = job.jobId ∧ expectedRevision = job.revision ∧
        (removal = .retire ↔ job.phase = .healthy)
  | .release => (hold log).site.isSome
  | .own id => Reads id log
  | .onReceipt receipt => Faithful log → ∀ job, owned log = some job → receipt.id = job
  | .commissionPermissions receipt _ =>
    (hold log).site.isSome ∧ (hold log).known = some receipt ∧ receipt.phase = .healthy ∧
      Owns log receipt.id
  | _ => True

/-! ## What the surroundings may answer -/

/-- A reply that changes or reads the record is about the record that was saved. -/
def Answers (saved : Option (Receipt Target Artifact)) :
    (c : Call Target Artifact) → Reply c → Prop
  | .load, .ok r => r = saved
  | .put snapshot _ next, .ok r =>
    saved = some snapshot ∧ next ∈ edges snapshot.phase ∧ r = snapshot.moved next
  | .add target artifact phase, .ok r =>
    saved = none ∧ ∃ id, r = ⟨id, 0, phase, target, artifact⟩
  | .remove removal expectedRevision, .ok _ =>
    ∃ r, saved = some r ∧ r.revision = expectedRevision ∧ (removal = .retire ↔ r.phase = .healthy)
  | .release, .error _ => False
  | .own _, .error _ => False
  | _, _ => True

structure Possible (log : Log Target Artifact) (c : Call Target Artifact) (reply : Reply c)
    (saved : Option (Receipt Target Artifact)) : Prop where
  /-- The record stays as the hold knows it. -/
  known : ∀ r, (hold log).known = some r → saved = some r
  /-- A job that is gone does not come back. -/
  gone : ∀ job, owned log = some job → Gone job log → ¬ IsJob job saved
  answers : Answers saved c reply

def Serves (log : Log Target Artifact) (c : Call Target Artifact) (reply : Reply c)
    (log' : Log Target Artifact) : Prop :=
  ∃ saved, Possible log c reply saved ∧ log' = .performed c reply saved :: log

/-- A program that keeps to the discipline. -/
abbrev Safe {α : Type} (post : Except Failure α → Log Target Artifact → Prop)
    (p : Prog Target Artifact α) (log : Log Target Artifact) : Prop :=
  Coop.Safe Allowed Serves post p log

variable {α β : Type}

theorem safe_ask {c : Call Target Artifact} {log : Log Target Artifact}
    {post : Except Failure (Answer c) → Log Target Artifact → Prop} (hallowed : Allowed log c)
    (h : ∀ reply saved, Possible log c reply saved →
      post reply (.performed c reply saved :: log)) : Safe post (ask c) log := by
  refine ⟨hallowed, ?_⟩
  rintro reply _ ⟨saved, hpossible, rfl⟩
  exact Coop.safe_ofExcept (h reply saved hpossible)

theorem safe_bind {p : Prog Target Artifact α} {f : α → Prog Target Artifact β}
    {log : Log Target Artifact} {post : Except Failure β → Log Target Artifact → Prop}
    (h : Safe (fun o log' => match o with
      | .ok a => Safe post (f a) log'
      | .error e => post (.error e) log') p log) : Safe post (p >>= f) log :=
  Coop.safe_bind h (fun _ _ h => h) fun _ _ h => h

/-! ## Inside a hold -/

/-- No lock is held, and no record is known. -/
structure Hold.Free (h : Hold Target Artifact) : Prop where
  site : h.site = none
  known : h.known = none

/-- What is known at an await inside a hold. -/
structure At (base : Log Target Artifact) (h : Hold Target Artifact) (log : Log Target Artifact) :
    Prop where
  extend : Extends base log
  hold : hold log = h
  /-- The job that a hold knows is not gone. -/
  mine : ∀ r job, h.known = some r → owned log = some job → r.id = job → ¬ Gone job log

/-- The job of a receipt is the one that is owned. -/
def Own (log : Log Target Artifact) (receipt : Receipt Target Artifact) : Prop :=
  Faithful log → ∀ job, owned log = some job → receipt.id = job

variable {base log : Log Target Artifact} {h : Hold Target Artifact}
  {receipt : Receipt Target Artifact}

theorem Own.extend (hown : Own base receipt) (hext : Extends base log) : Own log receipt := by
  intro hfaithful job hjob
  exact hown (hext.faithful hfaithful) job (hext.owned.symm.trans hjob)

theorem At.owns (hat : At base h log) (hknown : h.known = some receipt) (hown : Own base receipt) :
    Owns log receipt.id := by
  intro hfaithful job hjob
  have hid := hown.extend hat.extend hfaithful job hjob
  exact ⟨hid, hat.mine receipt job hknown hjob hid⟩

theorem At.cons (hat : At base h log) {c : Call Target Artifact} {reply : Reply c}
    {saved : Option (Receipt Target Artifact)} (hpossible : Possible log c reply saved)
    (hinner : (Entry.performed c reply saved : Entry Target Artifact).inner)
    (hknown : ∀ r, (h.after (.performed c reply saved)).known = some r → IsJob r.id saved) :
    At base (h.after (.performed c reply saved)) (.performed c reply saved :: log) := by
  refine ⟨.cons hinner hat.extend, by rw [hold_cons, hat.hold], ?_⟩
  intro r job hr hjob hid
  rw [owned_inner hinner] at hjob
  have hsaved : IsJob job saved := hid ▸ hknown r hr
  rw [gone_inner hinner, not_or, not_not]
  exact ⟨hsaved, fun hgone => hpossible.gone job hjob hgone hsaved⟩

/-- A call that leaves the hold as it is. -/
theorem At.keep (hat : At base h log) {c : Call Target Artifact} {reply : Reply c}
    {saved : Option (Receipt Target Artifact)} (hpossible : Possible log c reply saved)
    (hinner : (Entry.performed c reply saved : Entry Target Artifact).inner)
    (hafter : h.after (.performed c reply saved) = h) :
    At base h (.performed c reply saved :: log) := by
  have hcons := hat.cons hpossible hinner
  rw [hafter] at hcons
  apply hcons
  intro r hr
  exact ⟨r, hpossible.known r (by rw [hat.hold, hr]), rfl⟩

theorem At.restart (hat : At base h log) : At log h log := ⟨.refl, hat.hold, hat.mine⟩

/-- The end of a callback under the lock. -/
structure Ends (site : Site) (base : Log Target Artifact) (R : α → Log Target Artifact → Prop)
    (o : Except Failure α) (log : Log Target Artifact) : Prop where
  extend : Extends base log
  site : (hold log).site = some site
  result : ∀ a, o = .ok a → R a log

theorem At.ends_error (hat : At base h log) {site : Site} (hsite : h.site = some site)
    {R : α → Log Target Artifact → Prop} (e : Failure) : Ends site base R (.error e) log :=
  ⟨hat.extend, by rw [hat.hold, hsite], nofun⟩

theorem Ends.trans {site : Site} {R : α → Log Target Artifact → Prop} {o : Except Failure α}
    {log' : Log Target Artifact} (hext : Extends base log) (h : Ends site log R o log') :
    Ends site base R o log' :=
  ⟨hext.trans h.extend, h.site, h.result⟩

/-- The end of an operation, or of a part of it that holds no lock. -/
structure Returns (base : Log Target Artifact) (R : α → Log Target Artifact → Prop)
    (o : Except Failure α) (log : Log Target Artifact) : Prop where
  extend : Extends base log
  free : (hold log).Free
  result : ∀ a, o = .ok a → R a log

theorem Returns.trans {R : α → Log Target Artifact → Prop} {o : Except Failure α}
    {log' : Log Target Artifact} (hext : Extends base log) (h : Returns log R o log') :
    Returns base R o log' :=
  ⟨hext.trans h.extend, h.free, h.result⟩

theorem locked_safe {site : Site} {callback : Prog Target Artifact α}
    {R R' : α → Log Target Artifact → Prop} (hfree : (hold log).Free)
    (hcallback : ∀ log', At log (.begin site) log' →
      Safe (Ends site log R) callback log')
    (hR : ∀ a log' saved, R a log' → Possible log' .release (.ok ()) saved →
      R' a (.performed .release (.ok ()) saved :: log')) :
    Safe (Returns log R') (locked site callback) log := by
  refine ⟨trivial, ?_⟩
  rintro reply _ ⟨saved, hpossible, rfl⟩
  cases reply with
  | error e => exact ⟨.cons trivial .refl, hfree, nofun⟩
  | ok granted =>
    cases granted with
    | false => exact ⟨.cons trivial .refl, hfree, nofun⟩
    | true =>
      have hat : At log (.begin site)
          (.performed (.acquire site) (.ok true) saved :: log) :=
        ⟨.cons trivial .refl, rfl, fun r job hr => by cases hr⟩
      change Safe (Returns log R') (Coop.attempt callback >>= fun settled =>
        ask .release >>= fun _ => Coop.ofExcept settled) _
      apply safe_bind
      apply Coop.safe_attempt
      apply Coop.safe_mono _ (hcallback _ hat)
      intro o log' hends
      apply safe_bind
      apply safe_ask (show Allowed log' .release by rw [Allowed, hends.site]; rfl)
      intro reply saved' hpossible'
      cases reply with
      | error e => exact absurd hpossible'.answers id
      | ok _ =>
        apply Coop.safe_ofExcept
        exact ⟨.cons trivial hends.extend, ⟨rfl, rfl⟩,
          fun a ha => hR a log' saved' (hends.result a ha) hpossible'⟩

/-! ## Calls inside a hold -/

/-- A call that leaves the hold as it is, whatever it answers. -/
theorem ask_safe {c : Call Target Artifact}
    {post : Except Failure (Answer c) → Log Target Artifact → Prop}
    (hat : At base h log) (hallowed : Allowed log c)
    (hinner : ∀ reply saved, (Entry.performed c reply saved : Entry Target Artifact).inner)
    (hafter : ∀ reply saved, h.after (.performed c reply saved) = h)
    (hpost : ∀ reply log', At base h log' → post reply log') : Safe post (ask c) log := by
  apply safe_ask hallowed
  intro reply saved hpossible
  exact hpost reply _ (hat.keep hpossible (hinner reply saved) (hafter reply saved))

theorem guard_safe {post : Except Failure Unit → Log Target Artifact → Prop} (hat : At base h log)
    (hpost : ∀ reply log', At base h log' → post reply log') : Safe post guard log :=
  ask_safe hat trivial (fun _ _ => trivial) (fun _ _ => rfl) hpost

theorem load_safe {post : Except Failure (Option (Receipt Target Artifact)) →
    Log Target Artifact → Prop}
    (hat : At base h log) {site : Site} (hsite : h.site = some site)
    (hok : ∀ saved log', At base { h with found := h.found.or saved, known := saved } log' →
      log' = .performed .load (.ok saved) saved :: log → post (.ok saved) log')
    (herror : ∀ e log', At base h log' → post (.error e) log') : Safe post (ask .load) log := by
  apply safe_ask (show Allowed log .load from trivial)
  intro reply saved hpossible
  cases reply with
  | error e => exact herror e _ (hat.keep hpossible trivial rfl)
  | ok r =>
    have hr : r = saved := hpossible.answers
    subst hr
    have hafter : h.after (.performed .load (.ok r) r) =
        { h with found := h.found.or r, known := r } := by
      simp [Hold.after, hsite]
    have hcons := hat.cons hpossible trivial
    rw [hafter] at hcons
    exact hok r _ (hcons fun r' hr' => ⟨r', hr', rfl⟩) rfl

variable [DecidableEq Target] [DecidableEq Artifact]

omit [DecidableEq Artifact] in
theorem observe_safe {post : Except Failure (Observation Target) → Log Target Artifact → Prop}
    {recovery : Bool} {release : Release Artifact} (hat : At base h log)
    (hok : ∀ state log',
      At base { h with seen := some (recovery, .saved receipt, state) } log' →
      state.target = some receipt.target → (recovery = true → state.clean = true) →
      post (.ok state) log')
    (herror : ∀ e h' log', At base h' log' → h'.site = h.site → post (.error e) log') :
    Safe post (observe recovery receipt release) log := by
  apply safe_bind
  apply guard_safe hat
  intro reply log1 hat1
  cases reply with
  | error e => exact herror e h log1 hat1 rfl
  | ok _ =>
    apply safe_bind
    apply safe_ask (show Allowed log1 (.inspect recovery (.saved receipt) release) from trivial)
    intro reply saved hpossible
    cases reply with
    | error e => exact herror e h _ (hat1.keep hpossible trivial rfl) rfl
    | ok state =>
      have hseen : At base { h with seen := some (recovery, .saved receipt, state) }
          (.performed (.inspect recovery (.saved receipt) release) (.ok state) saved :: log1) := by
        apply hat1.cons hpossible trivial
        intro r hr
        exact ⟨r, hpossible.known r (by rw [hat1.hold]; exact hr), rfl⟩
      apply safe_bind
      apply guard_safe hseen
      intro reply log2 hat2
      cases reply with
      | error e => exact herror e _ log2 hat2 rfl
      | ok _ =>
        change Safe post (if state.target ≠ some receipt.target then fail .targetChanged
          else if recovery && !state.clean then fail .recoveryNotClean else pure state) log2
        split
        · exact herror _ _ log2 hat2 rfl
        · rename_i htarget
          split
          · exact herror _ _ log2 hat2 rfl
          · rename_i hclean
            apply hok state log2 hat2 (not_not.mp htarget)
            intro hrecovery
            cases hstate : state.clean with
            | true => rfl
            | false => simp [hrecovery, hstate] at hclean

end PanelAssistant.Usb
