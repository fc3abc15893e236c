import PanelAssistant.PanelName.Basic

/-!
# Runs of a followed name

`Inv` holds of every run: one write is waited for at most, a name is sent again on a session only
after another alias, nothing is sent once closed, and a delivery that ended has sent the alias. A
change of the alias leaves an event of the registry that is followed, and every other change leaves
the coordinator outdated, so what a delivery misses while it runs is read again when it ends.
-/

namespace PanelAssistant.PanelName

open Library Library.Runs

variable {entryId : String} {s : State}

/-! ## The registry -/

namespace Registry

variable (registry : Registry) (id : String) (name : Option String)

theorem isPanel_rename (device : DeviceEntry) :
    isPanel entryId (device.rename id name) = isPanel entryId device := by
  unfold isPanel DeviceEntry.rename
  split <;> rfl

theorem asyncGet_rename (id' : String) :
    (registry.rename id name).asyncGet id' = (registry.asyncGet id').map (·.rename id name) := by
  simp only [asyncGet, rename, List.find?_map, Function.comp_def, DeviceEntry.rename_id]

theorem getByIdentifier_rename :
    (registry.rename id name).asyncGetDeviceByIdentifier (domain, entryId) entryId =
      (registry.asyncGetDeviceByIdentifier (domain, entryId) entryId).map (·.rename id name) := by
  have hpanel : ∀ device, isPanel entryId (device.rename id name) = isPanel entryId device :=
    isPanel_rename id name
  unfold isPanel at hpanel
  simp only [asyncGetDeviceByIdentifier, rename, List.find?_map, Function.comp_def, hpanel]

variable {registry id name}

/-- The device that an identifier leads to is the one of its id. -/
theorem asyncGet_of_identifier {device : DeviceEntry}
    (h : registry.asyncGetDeviceByIdentifier (domain, entryId) entryId = some device) :
    registry.asyncGet device.id = some device ∧ isPanel entryId device = true := by
  refine ⟨?_, List.find?_some h⟩
  have hmem := List.mem_of_find?_eq_some h
  cases hget : registry.asyncGet device.id with
  | none => exact absurd (List.find?_eq_none.mp hget device hmem) (by simp)
  | some other =>
    have hid : other.id = device.id := by simpa using List.find?_some hget
    have hother := List.mem_of_find?_eq_some hget
    rw [List.inj_on_of_nodup_map registry.nodup hother hmem hid]

/-- Only the panel's own device changes the alias. -/
theorem rename_follows
    (h : (registry.rename id name).nameByUser entryId ≠ registry.nameByUser entryId) :
    ((registry.rename id name).asyncGet id).any (isPanel entryId) = true := by
  rw [nameByUser, nameByUser, getByIdentifier_rename] at h
  cases hdevice : registry.asyncGetDeviceByIdentifier (domain, entryId) entryId with
  | none =>
    rw [hdevice] at h
    exact absurd rfl h
  | some device =>
    obtain ⟨hget, hpanel⟩ := asyncGet_of_identifier hdevice
    have hid : device.id = id := by
      by_contra hne
      rw [hdevice, Option.map_some, DeviceEntry.rename, if_neg hne] at h
      exact h rfl
    rw [asyncGet_rename, ← hid, hget, Option.map_some, Option.any_some, isPanel_rename, hpanel]

end Registry

/-! ## What was sent -/

/-- The name last sent on a session, whatever the panel answered. -/
def lastSent (token : String) : List Entry → Option String
  | [] => none
  | .sent t name :: log => if t = token then some name else lastSent token log
  | .renamed _ :: log | .closed :: log => lastSent token log

/-- The name was sent on the session, and the alias was not changed to another since. -/
def Kept (token name : String) : List Entry → Prop
  | [] => False
  | .sent t n :: log => (t = token ∧ n = name) ∨ Kept token name log
  | .renamed n :: log => n = some name ∧ Kept token name log
  | .closed :: log => Kept token name log

/-- No name was sent while it was kept. -/
def OnceEach : List Entry → Prop
  | [] => True
  | .sent t n :: log => ¬ Kept t n log ∧ OnceEach log
  | .renamed _ :: log | .closed :: log => OnceEach log

/-- Nothing was sent behind a close. -/
def Quiet : List Entry → Prop
  | [] => True
  | .sent _ _ :: log => .closed ∉ log ∧ Quiet log
  | .renamed _ :: log | .closed :: log => Quiet log

theorem kept_append {token name : String} {before : List Entry} (log : List Entry)
    (h : ∀ n, .renamed n ∈ before → n = some name) :
    Kept token name (before ++ .sent token name :: log) := by
  induction before with
  | nil => exact .inl ⟨rfl, rfl⟩
  | cons entry before ih =>
    have hrest := ih fun n hn => h n (List.mem_cons_of_mem _ hn)
    cases entry with
    | sent t n => exact .inr hrest
    | renamed n => exact ⟨h n List.mem_cons_self, hrest⟩
    | closed => exact hrest

theorem OnceEach.of_append {before log : List Entry} (h : OnceEach (before ++ log)) :
    OnceEach log := by
  induction before with
  | nil => exact h
  | cons entry before ih =>
    cases entry with
    | sent t n => exact ih h.2
    | renamed n => exact ih h
    | closed => exact ih h

/-- Between two equal writes on one session the alias was another. -/
theorem OnceEach.renamed {token name : String} {before between log : List Entry}
    (h : OnceEach (before ++ .sent token name :: (between ++ .sent token name :: log))) :
    ∃ other, other ≠ some name ∧ .renamed other ∈ between := by
  by_contra hnone
  push Not at hnone
  exact h.of_append.1 (kept_append log fun n hn => by_contra fun hne => hnone n hne hn)

theorem Quiet.not_sent {before log : List Entry} (h : Quiet (before ++ .closed :: log))
    (token name : String) :
    .sent token name ∉ before := by
  induction before with
  | nil => exact List.not_mem_nil
  | cons entry before ih =>
    cases entry with
    | sent t n => exact absurd (List.mem_append_right _ List.mem_cons_self) h.1
    | renamed n => exact fun hmem => ih h (by simpa using hmem)
    | closed => exact fun hmem => ih h (by simpa using hmem)

/-! ## The invariant -/

/-- Nothing is left to deliver. -/
def Delivered (entryId : String) (s : State) : Prop :=
  s.closed = true ∨ s.isStopping = true ∨ ∀ session name, s.session = some session →
    sessionManages session = true → s.identityMismatch = false → s.desiredName entryId = some name →
      s.attempted = some (session.token, name)

/-- The writes that a task waits for. -/
def waitedFor : Option Task → List Write
  | some ⟨.waiting write none, _⟩ => [write]
  | _ => []

/-- What holds of the log. -/
structure LogInv (entryId : String) (s : State) : Prop where
  known : ∀ token name, .sent token name ∈ s.log → token ∈ s.tokens
  live : ∀ session, s.session = some session → session.token ∈ s.tokens
  last : ∀ token name, s.attempted = some (token, name) → lastSent token s.log = some name
  kept : ∀ token name, Kept token name s.log → s.desiredName entryId = some name ∧
    ∀ session, s.session = some session → session.token = token → s.attempted = some (token, name)
  once : OnceEach s.log
  quiet : Quiet s.log
  closed : .closed ∈ s.log → s.closed = true

structure Inv (entryId : String) (s : State) : Prop extends LogInv entryId s where
  waited : s.pending = waitedFor s.task
  cancelled : ∀ task, s.task = some task → task.cancelled = true →
    s.closed = true ∨ s.isStopping = true
  settled : s.idle = true → (∀ event ∈ s.events, s.follows entryId event = false) →
    s.outdated = false →
    Delivered entryId s

/-! ## The steps of a delivery -/

theorem mem_of_kept {token name : String} {log : List Entry} (h : Kept token name log) :
    .sent token name ∈ log := by
  induction log with
  | nil => exact h.elim
  | cons entry log ih =>
    cases entry with
    | sent t n =>
      rcases h with ⟨rfl, rfl⟩ | h
      · exact List.mem_cons_self
      · exact List.mem_cons_of_mem _ (ih h)
    | renamed n => exact List.mem_cons_of_mem _ (ih h.2)
    | closed => exact List.mem_cons_of_mem _ (ih h)

/-- A write is sent on the live session, and not if it was sent there for this alias before. -/
theorem LogInv.manage (h : LogInv entryId s) {session : PanelSession} {name : String}
    (hsession : s.session = some session) (hname : s.desiredName entryId = some name)
    (hnew : s.attempted ≠ some (session.token, name)) (hclosed : s.closed = false) :
    LogInv entryId ({ s with attempted := some (session.token, name) }.manage session name) where
  known := by
    intro token n hmem
    rcases List.mem_cons.mp hmem with heq | hmem
    · cases heq
      exact h.live session hsession
    · exact h.known token n hmem
  live := h.live
  last := by
    intro token n heq
    cases heq
    exact if_pos rfl
  kept := by
    intro token n hkept
    rcases hkept with ⟨rfl, rfl⟩ | hkept
    · exact ⟨hname, fun _ _ _ => rfl⟩
    · obtain ⟨hdesired, hattempted⟩ := h.kept token n hkept
      refine ⟨hdesired, fun other hother htoken => ?_⟩
      -- the alias is the name that was sent, so it would be sent twice
      cases hsession.symm.trans hother
      cases hname.symm.trans hdesired
      subst htoken
      rfl
  once := by
    refine ⟨fun hkept => ?_, h.once⟩
    exact hnew ((h.kept _ _ hkept).2 session hsession rfl)
  quiet := by
    refine ⟨fun hmem => ?_, h.quiet⟩
    rw [h.closed hmem] at hclosed
    cases hclosed
  closed := by
    intro hmem
    rcases List.mem_cons.mp hmem with heq | hmem
    · cases heq
    · exact h.closed hmem

theorem LogInv.finish (h : LogInv entryId s) (hpending : s.pending = [])
    (hdelivered : Delivered entryId s) :
    Inv entryId s.finish where
  toLogInv := ⟨h.known, h.live, h.last, h.kept, h.once, h.quiet, h.closed⟩
  waited := hpending
  cancelled := fun _ heq => by cases heq
  settled := fun _ _ _ => hdelivered

theorem LogInv.deliver (h : LogInv entryId s) (hpending : s.pending = []) :
    Inv entryId (s.deliver entryId) := by
  unfold State.deliver
  split
  · rename_i hstop
    rcases (Bool.or_eq_true _ _).mp hstop with hclosed | hstopping
    · exact h.finish hpending (.inl hclosed)
    · exact h.finish hpending (.inr (.inl hstopping))
  · rename_i hrunning
    rw [Bool.or_eq_true, not_or, Bool.not_eq_true, Bool.not_eq_true] at hrunning
    split
    · rename_i name session hname hsession
      split
      · rename_i hrefused
        refine h.finish hpending (.inr (.inr fun other n hother hmanages hmismatch hn => ?_))
        cases hsession.symm.trans hother
        simp [hmanages, hmismatch] at hrefused
      · split
        · rename_i hattempted
          refine h.finish hpending (.inr (.inr fun other n hother _ _ hn => ?_))
          cases hsession.symm.trans hother
          cases hname.symm.trans hn
          exact hattempted
        · rename_i hnew
          refine ⟨h.manage hsession hname hnew hrunning.1, ?_, ?_, fun hidle => by cases hidle⟩
          · simp only [State.manage, hpending, List.nil_append]
            rfl
          · rintro task heq hcancelled
            cases heq
            cases hcancelled
    · rename_i hnone
      refine h.finish hpending (.inr (.inr fun session name hsession _ _ hname => ?_))
      exact (hnone name session hname hsession).elim

/-- `changed` leaves nothing behind: the alias is withdrawn, or a delivery runs. -/
theorem LogInv.changed (h : LogInv entryId s) (hwaited : s.pending = waitedFor s.task)
    (hcancelled : ∀ task, s.task = some task → task.cancelled = true → s.closed = true ∨
      s.isStopping = true) :
    Inv entryId (s.changed entryId) := by
  unfold State.changed
  split
  · rename_i hclosed
    exact ⟨h, hwaited, hcancelled, fun _ _ _ => .inl hclosed⟩
  · cases hname : s.desiredName entryId with
    | none =>
      refine ⟨⟨h.known, h.live, fun _ _ heq => (by cases heq), ?_, h.once, h.quiet, h.closed⟩,
        hwaited, hcancelled, ?_⟩
      · intro token name hkept
        cases hname.symm.trans (h.kept token name hkept).1
      · intro _ _ _
        refine .inr (.inr fun session name _ _ _ hother => ?_)
        cases hname.symm.trans hother
    | some name =>
      simp only
      split
      · rename_i hidle
        refine ⟨⟨h.known, h.live, h.last, h.kept, h.once, h.quiet, h.closed⟩, ?_, ?_,
          fun hidle => by cases hidle⟩
        · rw [hwaited]
          unfold State.idle at hidle
          split at hidle
          · cases hidle
          · cases hidle
          · rename_i htask
            rw [htask]
            rfl
          · rename_i htask
            rw [htask]
            rfl
        · rintro task heq hcancelled
          cases heq
          cases hcancelled
      · rename_i hbusy
        exact ⟨h, hwaited, hcancelled, fun hidle => absurd hidle hbusy⟩

theorem delivered_of_cancelled (h : s.closed = true ∨ s.isStopping = true) :
    Delivered entryId s := by
  rcases h with hclosed | hstopping
  · exact .inl hclosed
  · exact .inr (.inl hstopping)

theorem Inv.woken (h : Inv entryId s) (timedOut : Bool) :
    Inv entryId (s.woken entryId timedOut) := by
  have hlog := h.toLogInv
  unfold State.woken
  split
  · rename_i cancelled htask
    have hpending : s.pending = [] := by rw [h.waited, htask]; rfl
    split
    · rename_i hcancelled
      have hover := h.cancelled _ htask hcancelled
      refine ⟨⟨hlog.known, hlog.live, hlog.last, hlog.kept, hlog.once, hlog.quiet, hlog.closed⟩,
        hpending, fun _ _ _ => hover, fun _ _ _ => delivered_of_cancelled hover⟩
    · exact hlog.deliver hpending
  · rename_i write future cancelled htask
    have hended : ∃ s',
        (if future.isNone then s.stopWaiting write else s) = s' ∧ LogInv entryId s' ∧
        s'.pending = [] ∧ s'.closed = s.closed ∧ s'.isStopping = s.isStopping := by
      cases future with
      | none =>
        refine ⟨_, rfl, ⟨hlog.known, hlog.live, hlog.last, hlog.kept, hlog.once, hlog.quiet,
          hlog.closed⟩, ?_, rfl, rfl⟩
        have hpending : s.pending = [write] := by rw [h.waited, htask]; rfl
        simp [State.stopWaiting, hpending]
      | some result =>
        exact ⟨s, rfl, hlog, by rw [h.waited, htask]; rfl, rfl, rfl⟩
    obtain ⟨s', hs', hlog', hpending, hclosed, hstopping⟩ := hended
    rw [hs']
    simp only
    split
    · rename_i hcancelled
      have hover := h.cancelled _ htask hcancelled
      rw [← hclosed, ← hstopping] at hover
      exact hlog'.finish hpending (delivered_of_cancelled hover)
    · split
      · exact hlog'.deliver hpending
      · exact h
  · exact h
  · exact h

/-! ## The other steps -/

theorem Inv.cancelTask (h : Inv entryId s) (hover : s.closed = true ∨ s.isStopping = true) :
    Inv entryId s.cancelTask where
  toLogInv := ⟨h.known, h.live, h.last, h.kept, h.once, h.quiet, h.closed⟩
  waited := by
    rw [State.cancelTask, h.waited]
    rcases s.task with _ | ⟨_ | ⟨write, _ | _⟩ | _, _⟩ <;> rfl
  cancelled := fun _ _ _ => hover
  settled := fun _ _ _ => delivered_of_cancelled hover

theorem Inv.close (h : Inv entryId s) : Inv entryId s.close := by
  refine Inv.cancelTask ⟨⟨?_, h.live, h.last, h.kept, h.once, h.quiet, fun _ => rfl⟩, h.waited,
    fun _ _ _ => .inl rfl, fun _ _ _ => .inl rfl⟩ (.inl rfl)
  intro token name hmem
  exact h.known token name (by simpa using hmem)

theorem follows_rename (id : String) (name : Option String) (events : List RegistryEvent)
    (log : List Entry)
    (event : RegistryEvent) :
    State.follows entryId { s with registry := s.registry.rename id name, events, log } event =
      s.follows entryId event := by
  simp only [State.follows, Registry.asyncGet_rename, Option.any_map, Registry.isPanel_rename]

/-- A rename that changes the alias leaves an event that is followed. -/
theorem Inv.rename (h : Inv entryId s) (id : String) (name : Option String) :
    Inv entryId (s.rename entryId id name) := by
  unfold State.rename
  split
  · exact h
  · split
    · exact h
    · simp only
      split
      · rename_i hsame
        have hdesired : State.desiredName entryId { s with registry := s.registry.rename id name } =
            s.desiredName entryId := by
          unfold State.desiredName
          rw [hsame]
        refine ⟨⟨h.known, h.live, h.last, ?_, h.once, h.quiet, h.closed⟩, h.waited, h.cancelled, ?_⟩
        · intro token n hkept
          exact ⟨hdesired.trans (h.kept token n hkept).1, (h.kept token n hkept).2⟩
        · intro hidle hevents houtdated
          refine (h.settled hidle (fun event hevent => ?_) houtdated).imp_right (Or.imp_right ?_)
          · rw [← follows_rename id name]
            exact hevents event (List.mem_append_left _ hevent)
          · intro hdelivered session n hsession hmanages hmismatch hn
            exact hdelivered session n hsession hmanages hmismatch (hdesired.symm.trans hn)
      · rename_i hother
        refine ⟨⟨?_, h.live, h.last, ?_, h.once, h.quiet, ?_⟩, h.waited, h.cancelled, ?_⟩
        · intro token n hmem
          exact h.known token n (by simpa using hmem)
        · rintro token n ⟨halias, hkept⟩
          obtain ⟨hdesired, hattempted⟩ := h.kept token n hkept
          refine ⟨?_, hattempted⟩
          exact Option.filter_eq_some_iff.mpr ⟨halias, (Option.filter_eq_some_iff.mp hdesired).2⟩
        · exact fun hmem => h.closed (by simpa using hmem)
        · intro _ hevents _
          have hfollows := hevents ⟨"update", id, ["name_by_user"]⟩
            (List.mem_append_right _ (List.mem_singleton.mpr rfl))
          simp [State.follows, Registry.rename_follows hother] at hfollows

theorem resolve_idle (which : Write → Bool) (result : Option CommandOutcome) :
    (s.resolve which result).idle = s.idle := by
  unfold State.idle State.resolve
  rcases s.task with _ | ⟨_ | ⟨write, _ | _⟩ | _, _⟩
  · rfl
  · rfl
  · cases hwhich : which write <;> simp [hwhich]
  · rfl
  · rfl

theorem Inv.resolve (h : Inv entryId s) (which : Write → Bool) (result : Option CommandOutcome) :
    Inv entryId (s.resolve which result) where
  toLogInv := ⟨h.known, h.live, h.last, h.kept, h.once, h.quiet, h.closed⟩
  waited := by
    rw [State.resolve, h.waited]
    rcases s.task with _ | ⟨_ | ⟨write, _ | _⟩ | _, _⟩
    · rfl
    · rfl
    · cases hwhich : which write <;> simp [waitedFor, hwhich]
    · rfl
    · rfl
  cancelled := by
    intro task htask hcancelled
    obtain ⟨before, hbefore, rfl⟩ := Option.map_eq_some_iff.mp htask
    refine h.cancelled before hbefore ?_
    rcases before with ⟨_ | ⟨write, _ | _⟩ | _, cancelled⟩
    · exact hcancelled
    · simp only at hcancelled
      split at hcancelled <;> exact hcancelled
    · exact hcancelled
    · exact hcancelled
  settled := by
    rw [resolve_idle]
    exact h.settled

theorem Inv.forget (h : Inv entryId s) : Inv entryId s.forget := by
  unfold State.forget
  split
  · exact h
  · rename_i session hsession
    have h' := h.resolve (·.token = session.token) none
    refine ⟨⟨h'.known, fun _ heq => (by cases heq), h'.last, fun token name hkept => ?_, h'.once,
      h'.quiet, h'.closed⟩, h'.waited, h'.cancelled, fun _ _ houtdated => (by cases houtdated)⟩
    exact ⟨(h'.kept token name hkept).1, fun _ heq => (by cases heq)⟩

theorem Inv.opened (h : Inv entryId s) {session : PanelSession} (hnew : session.token ∉ s.tokens) :
    Inv entryId
      { s.forget with
        session := some session
        tokens := session.token :: s.tokens
        outdated := true } := by
  have h' := h.forget
  have htokens : s.forget.tokens = s.tokens := by
    unfold State.forget State.resolve
    split <;> rfl
  refine ⟨⟨?_, ?_, h'.last, fun token name hkept => ?_, h'.once, h'.quiet, h'.closed⟩,
    h'.waited, h'.cancelled, fun _ _ houtdated => (by cases houtdated)⟩
  · intro token name hmem
    exact List.mem_cons_of_mem _ (htokens ▸ h'.known token name hmem)
  · intro other hother
    cases hother
    exact List.mem_cons_self
  · refine ⟨(h'.kept token name hkept).1, fun other hother htoken => ?_⟩
    cases hother
    have hmem := h'.known token name (mem_of_kept hkept)
    rw [htokens, ← htoken] at hmem
    exact absurd hmem hnew

theorem Inv.step (h : Inv entryId s) (move : Move) : Inv entryId (step entryId s move) := by
  have hlog := h.toLogInv
  cases move with
  | rename id name => exact h.rename id name
  | fire event =>
    refine ⟨⟨h.known, h.live, h.last, h.kept, h.once, h.quiet, h.closed⟩, h.waited, h.cancelled, ?_⟩
    intro hidle hevents
    exact h.settled hidle fun event hevent => hevents event (List.mem_append_left _ hevent)
  | registryChanged =>
    cases hcons : s.events with
    | nil =>
      simp only [PanelName.step, hcons]
      exact h
    | cons event events =>
      simp only [PanelName.step, hcons]
      have hlog' : LogInv entryId { s with events } :=
        ⟨h.known, h.live, h.last, h.kept, h.once, h.quiet, h.closed⟩
      unfold State.registryChanged
      split
      · exact hlog'.changed h.waited h.cancelled
      · rename_i hother
        refine ⟨hlog', h.waited, h.cancelled, fun hidle hevents => h.settled hidle ?_⟩
        rw [hcons]
        exact List.forall_mem_cons.mpr ⟨(Bool.not_eq_true _).mp hother, hevents⟩
  | opened session =>
    simp only [PanelName.step]
    split
    · exact h
    · rename_i hnew
      exact h.opened hnew
  | ended => exact h.forget
  | granted capabilities =>
    refine ⟨⟨h.known, ?_, h.last, ?_, h.once, h.quiet, h.closed⟩, h.waited, h.cancelled,
      fun _ _ houtdated => (by cases houtdated)⟩
    · intro session hsession
      obtain ⟨before, hbefore, rfl⟩ := Option.map_eq_some_iff.mp hsession
      exact h.live before hbefore
    · intro token name hkept
      refine ⟨(h.kept token name hkept).1, fun session hsession htoken => ?_⟩
      obtain ⟨before, hbefore, rfl⟩ := Option.map_eq_some_iff.mp hsession
      exact (h.kept token name hkept).2 before hbefore htoken
  | identity mismatch =>
    exact ⟨⟨h.known, h.live, h.last, h.kept, h.once, h.quiet, h.closed⟩, h.waited, h.cancelled,
      fun _ _ houtdated => (by cases houtdated)⟩
  | updated =>
    have hlog' : LogInv entryId { s with outdated := false } :=
      ⟨h.known, h.live, h.last, h.kept, h.once, h.quiet, h.closed⟩
    exact hlog'.changed h.waited h.cancelled
  | answered write outcome => exact h.resolve _ _
  | woken timedOut => exact h.woken timedOut
  | stopped =>
    exact ⟨⟨h.known, h.live, h.last, h.kept, h.once, h.quiet, h.closed⟩, h.waited,
      fun _ _ _ => .inr rfl, fun _ _ _ => .inr (.inl rfl)⟩
  | cancelled =>
    simp only [PanelName.step]
    split
    · rename_i hstopping
      exact h.cancelTask (.inr hstopping)
    · exact h
  | closed => exact h.close

theorem inv_asyncFollowPanelName (entryId : String) (registry : Registry)
    (session : Option PanelSession)
    (identityMismatch isStopping : Bool) :
    Inv entryId (asyncFollowPanelName entryId registry session identityMismatch isStopping) := by
  refine LogInv.changed ⟨?_, ?_, ?_, ?_, trivial, trivial, ?_⟩ rfl (fun _ heq => (by cases heq))
  · exact fun _ _ hmem => absurd hmem List.not_mem_nil
  · intro other hother
    cases hother
    exact List.mem_singleton.mpr rfl
  · exact fun _ _ heq => (by cases heq)
  · exact fun _ _ hkept => hkept.elim
  · exact fun hmem => absurd hmem List.not_mem_nil

/-! ## Every run -/

/-- **The panel's name follows the alias of its device.** In every run one write is waited for at
most; a name that was sent is sent on the same session again only after another alias; nothing is
sent once closed; and where nothing runs and nothing is outstanding, the alias is the name last
written. -/
theorem panel_name_followed (entryId : String) (registry : Registry) (session : Option PanelSession)
    (identityMismatch isStopping : Bool) (moves : List Move) :
    let s := run (step entryId)
      (asyncFollowPanelName entryId registry session identityMismatch isStopping) moves
    s.pending.length ≤ 1 ∧
    (∀ before between log token name,
      s.log = before ++ .sent token name :: (between ++ .sent token name :: log) →
        ∃ other, other ≠ some name ∧ .renamed other ∈ between) ∧
    (∀ before log token name, s.log = before ++ .closed :: log → .sent token name ∉ before) ∧
    (s.idle = true → s.events = [] → s.outdated = false → s.closed = false → s.isStopping = false →
      s.identityMismatch = false → ∀ live name, s.session = some live → sessionManages live = true →
        s.desiredName entryId = some name → lastSent live.token s.log = some name) := by
  intro s
  have h : Inv entryId s :=
    run_inv (Inv entryId) (fun _ move h => h.step move) (inv_asyncFollowPanelName _ _ _ _ _) moves
  refine ⟨?_, ?_, ?_, ?_⟩
  · rw [h.waited]
    unfold waitedFor
    split <;> simp
  · intro before between log token name heq
    exact (heq ▸ h.once).renamed
  · intro before log token name heq
    exact (heq ▸ h.quiet).not_sent token name
  · intro hidle hevents houtdated hclosed hstopping hmismatch live name hlive hmanages hname
    have hdelivered := h.settled hidle (by simp [hevents]) houtdated
    rw [Delivered, hclosed, hstopping] at hdelivered
    simp only [Bool.false_eq_true, false_or] at hdelivered
    exact h.last _ _ (hdelivered live name hlive hmanages hmismatch hname)

/-! ## Delivery comes to its end -/

/-- The name may be delivered on the session. -/
structure Ready (entryId : String) (session : PanelSession) (name : String) (s : State) : Prop where
  live : s.session = some session
  manages : sessionManages session = true
  desired : s.desiredName entryId = some name
  accepted : s.identityMismatch = false
  closed : s.closed = false
  isStopping : s.isStopping = false

variable {session : PanelSession} {name : String}

theorem Ready.deliver_of_attempted (h : Ready entryId session name s)
    (hattempted : s.attempted = some (session.token, name)) : s.deliver entryId = s.finish := by
  simp [State.deliver, h.closed, h.isStopping, h.desired, h.live, h.manages, h.accepted, hattempted]

theorem Ready.deliver_of_not_attempted (h : Ready entryId session name s)
    (hattempted : s.attempted ≠ some (session.token, name)) :
    s.deliver entryId = { s with attempted := some (session.token, name) }.manage session name := by
  simp [State.deliver, h.closed, h.isStopping, h.desired, h.live, h.manages, h.accepted, hattempted]

/-- A task that may run. -/
theorem Inv.not_cancelled (h : Inv entryId s) (hready : Ready entryId session name s) {task : Task}
    (htask : s.task = some task) : task.cancelled = false := by
  by_contra hcancelled
  rw [Bool.not_eq_false] at hcancelled
  rcases h.cancelled task htask hcancelled with hclosed | hstopping
  · rw [hready.closed] at hclosed
    cases hclosed
  · rw [hready.isStopping] at hstopping
    cases hstopping

/-- A task that runs goes on to the head of its loop, with nothing waited for. -/
theorem Inv.exists_deliver (h : Inv entryId s) (hready : Ready entryId session name s)
    (hbusy : s.idle = false) :
    ∃ s', s.woken entryId true = s'.deliver entryId ∧ Ready entryId session name s' := by
  cases htask : s.task with
  | none => simp [State.idle, htask] at hbusy
  | some task =>
    have hcancelled := h.not_cancelled hready htask
    obtain ⟨stage, cancelled⟩ := task
    simp only at hcancelled
    subst hcancelled
    cases stage with
    | scheduled => exact ⟨s, by simp [State.woken, htask], hready⟩
    | done => simp [State.idle, htask] at hbusy
    | waiting write future =>
      cases future with
      | none =>
        refine ⟨s.stopWaiting write, by simp [State.woken, htask], ?_⟩
        exact ⟨hready.live, hready.manages, hready.desired, hready.accepted,
          hready.closed, hready.isStopping⟩
      | some result => exact ⟨s, by simp [State.woken, htask], hready⟩

/-- A delivery that runs has tried the name once it waits again or has ended. -/
theorem Inv.attempted_woken (h : Inv entryId s) (hready : Ready entryId session name s)
    (hbusy : s.idle = false) :
    (s.woken entryId true).attempted = some (session.token, name) ∧
      Ready entryId session name (s.woken entryId true) := by
  obtain ⟨s', hwoken, hready'⟩ := h.exists_deliver hready hbusy
  rw [hwoken]
  by_cases hattempted : s'.attempted = some (session.token, name)
  · rw [hready'.deliver_of_attempted hattempted]
    exact ⟨hattempted, hready'.live, hready'.manages, hready'.desired, hready'.accepted,
      hready'.closed, hready'.isStopping⟩
  · rw [hready'.deliver_of_not_attempted hattempted]
    exact ⟨rfl, hready'.live, hready'.manages, hready'.desired, hready'.accepted, hready'.closed,
      hready'.isStopping⟩

theorem Ready.changed (h : Ready entryId session name s) :
    Ready entryId session name (s.changed entryId) ∧ (s.changed entryId).idle = false := by
  have hchanged : s.changed entryId =
    if s.idle then { s with task := some ⟨.scheduled, false⟩ } else s := by
    simp [State.changed, h.closed, h.desired]
  rw [hchanged]
  cases hidle : s.idle with
  | true => exact ⟨⟨h.live, h.manages, h.desired, h.accepted, h.closed, h.isStopping⟩, rfl⟩
  | false => exact ⟨h, hidle⟩

/-- An update of the coordinator starts a delivery where none runs. -/
theorem Ready.updated (h : Ready entryId session name s) :
    Ready entryId session name (step entryId s .updated) ∧ (step entryId s .updated).idle = false :=
  Ready.changed ⟨h.live, h.manages, h.desired, h.accepted, h.closed, h.isStopping⟩

theorem waitedFor_of_idle (hidle : s.idle = true) : waitedFor s.task = [] := by
  unfold State.idle at hidle
  revert hidle
  rcases s.task with _ | ⟨_ | _ | _, _⟩
  · exact fun _ => rfl
  · exact fun hidle => by cases hidle
  · exact fun hidle => by cases hidle
  · exact fun _ => rfl

/-- A delivery that runs has ended, or waits for the answer to the alias. -/
theorem Inv.sent_woken (h : Inv entryId s) (hready : Ready entryId session name s)
    (hbusy : s.idle = false) :
    (s.woken entryId true).idle = true ∨
      ∃ write : Write, (s.woken entryId true).task = some ⟨.waiting write none, false⟩ ∧
        write.token = session.token ∧ write.name = name := by
  obtain ⟨s', hwoken, hready'⟩ := h.exists_deliver hready hbusy
  rw [hwoken]
  by_cases hattempted : s'.attempted = some (session.token, name)
  · rw [hready'.deliver_of_attempted hattempted]
    exact .inl rfl
  · rw [hready'.deliver_of_not_attempted hattempted]
    exact .inr ⟨_, rfl, rfl, rfl⟩

/-- The alias was sent on the session, and nothing runs. -/
structure Over (s s' : State) : Prop where
  idle : s'.idle = true
  pending : s'.pending = []
  log : s'.log = s.log

variable {write : Write}

/-- The answer ends a delivery that waits for it. -/
theorem Ready.over_of_answered (h : Ready entryId session name s)
    (hattempted : s.attempted = some (session.token, name))
    (htask : s.task = some ⟨.waiting write none, false⟩) (hpending : s.pending = [write])
    (outcome : CommandOutcome) :
    Over s (run (step entryId) s [.answered write.id outcome, .woken false]) := by
  have hanswered : Ready entryId session name (s.resolve (·.id = write.id) (some outcome)) :=
    ⟨h.live, h.manages, h.desired, h.accepted, h.closed, h.isStopping⟩
  have hresolved : (s.resolve (·.id = write.id) (some outcome)).task =
      some ⟨.waiting write (some (some outcome)), false⟩ := by
    simp [State.resolve, htask]
  have hrun : run (step entryId) s [.answered write.id outcome, .woken false] =
      (s.resolve (·.id = write.id) (some outcome)).finish := by
    rw [← hanswered.deliver_of_attempted hattempted]
    simp [step, State.woken, hresolved]
  rw [hrun]
  refine ⟨rfl, ?_, rfl⟩
  simp [State.finish, State.resolve, hpending]

/-- So does the timeout. -/
theorem Ready.over_of_timeout (h : Ready entryId session name s)
    (hattempted : s.attempted = some (session.token, name))
    (htask : s.task = some ⟨.waiting write none, false⟩) (hpending : s.pending = [write]) :
    Over s (run (step entryId) s [.woken true]) := by
  have hstopped : Ready entryId session name (s.stopWaiting write) :=
    ⟨h.live, h.manages, h.desired, h.accepted, h.closed, h.isStopping⟩
  have hrun : run (step entryId) s [.woken true] = (s.stopWaiting write).finish := by
    rw [← hstopped.deliver_of_attempted hattempted]
    simp [step, State.woken, htask]
  rw [hrun]
  refine ⟨rfl, ?_, rfl⟩
  simp [State.finish, State.stopWaiting, hpending]

/-- **The alias is sent, and its delivery ends.** Whatever happened before, once the alias may be
delivered, an update of the coordinator and a turn of the task leave it the last name sent on the
session. The task has ended, or it waits for the panel's answer to that write and to no other; then
the answer, applied or refused, and as well the timeout of a panel that does not answer, ends it,
and nothing more is sent. -/
theorem alias_sent (entryId : String) (registry : Registry) (opened : Option PanelSession)
    (identityMismatch isStopping : Bool) (moves : List Move) (live : PanelSession) (name : String)
    (hready : Ready entryId live name
      (run (step entryId) (asyncFollowPanelName entryId registry opened identityMismatch isStopping)
        moves)) :
    let s := run (step entryId)
      (asyncFollowPanelName entryId registry opened identityMismatch isStopping)
      (moves ++ [.updated, .woken true])
    lastSent live.token s.log = some name ∧
      (s.idle = true ∧ s.pending = [] ∨
        ∃ write : Write, s.pending = [write] ∧ write.token = live.token ∧ write.name = name ∧
          (∀ outcome, Over s (run (step entryId) s [.answered write.id outcome, .woken false])) ∧
            Over s (run (step entryId) s [.woken true])) := by
  intro s
  have h : ∀ moves, Inv entryId (run (step entryId)
      (asyncFollowPanelName entryId registry opened identityMismatch isStopping) moves) :=
    run_inv (Inv entryId) (fun _ move h => h.step move) (inv_asyncFollowPanelName _ _ _ _ _)
  have hinv : Inv entryId s := h (moves ++ [.updated, .woken true])
  obtain ⟨hupdated, hbusy⟩ := hready.updated
  have hs : s = State.woken entryId (step entryId _ .updated) true := run_append _ _ _ _
  have htried := ((h moves).step .updated).attempted_woken hupdated hbusy
  have hsent := ((h moves).step .updated).sent_woken hupdated hbusy
  rw [← hs] at htried hsent
  refine ⟨hinv.last live.token name htried.1, ?_⟩
  rcases hsent with hidle | ⟨write, htask, htoken, hname⟩
  · exact .inl ⟨hidle, hinv.waited.trans (waitedFor_of_idle hidle)⟩
  · have hpending : s.pending = [write] := by
      rw [hinv.waited, htask]
      rfl
    exact .inr ⟨write, hpending, htoken, hname,
      htried.2.over_of_answered htried.1 htask hpending,
      htried.2.over_of_timeout htried.1 htask hpending⟩

def hallRegistry : Registry where
  devices := [⟨"device", "entry", [(domain, "entry")], none⟩]
  nodup := List.nodup_singleton _

/-- The panel is renamed, and its follower sent the name. -/
def sentRun : State :=
  run (step "entry")
    (asyncFollowPanelName "entry" hallRegistry (some ⟨"token", [capabilityManagement]⟩) false false)
    ([.rename "device" (some "Hall")] ++ [.updated, .woken true])

/-- The panel applies the name, or it refuses it: the delivery is over either way. -/
theorem alias_sent_hall :
    lastSent "token" sentRun.log = some "Hall" ∧
      ∀ outcome : CommandOutcome,
        Over sentRun (run (step "entry") sentRun [.answered 0 outcome, .woken false]) := by
  obtain ⟨hsent, hidle | ⟨write, hpending, -, -, hanswered, -⟩⟩ :=
    alias_sent "entry" hallRegistry (some ⟨"token", [capabilityManagement]⟩) false false
      [.rename "device" (some "Hall")] ⟨"token", [capabilityManagement]⟩ "Hall"
      ⟨rfl, by decide, by decide, rfl, rfl, rfl⟩
  · have hbusy : sentRun.idle = false := by decide
    exact absurd (hidle.1.symm.trans hbusy) (by decide)
  · have hwrite : write = ⟨0, "token", "Hall"⟩ := by
      have hsentPending : sentRun.pending = [⟨0, "token", "Hall"⟩] := by decide
      exact List.singleton_inj.mp (hpending.symm.trans hsentPending)
    rw [hwrite] at hanswered
    exact ⟨hsent, hanswered⟩

/-! ## A close before a delivery began -/

/-- The panel is renamed, the rename is seen, and the follower is closed before its task begins. -/
def closedRun : State :=
  run (step "entry") (asyncFollowPanelName "entry" hallRegistry
    (some ⟨"token", [capabilityManagement]⟩) false false)
    [.rename "device" (some "Hall"), .registryChanged, .closed, .woken false]

/-- Nothing runs and nothing is outstanding, and the alias was not written. -/
theorem closed_undelivered :
    closedRun.idle = true ∧ closedRun.events.isEmpty = true ∧ closedRun.outdated = false ∧
      closedRun.isStopping = false ∧ closedRun.identityMismatch = false ∧
      closedRun.session.any sessionManages = true ∧ closedRun.desiredName "entry" = some "Hall" ∧
      lastSent "token" closedRun.log = none := by
  decide

end PanelAssistant.PanelName
