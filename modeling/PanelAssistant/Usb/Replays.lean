import PanelAssistant.Usb.Runs

/-!
# No mutation is replayed

Every actuator call of a run, answered, lost in a crash or still awaited, belongs to one durable
intent, and no two belong to the same (`Spent`, `Fresh`): an intent is written at a revision above
those of all earlier calls for its job, and only its writer, under the lock, can act on it.
-/

namespace PanelAssistant.Usb

open Library

variable {Target Artifact : Type}

/-! ## Actuator calls -/

/-- The durable intent of an actuator call: the job, and the revision of its pending phase. -/
def Call.act : Call Target Artifact → Option (JobId × ℕ)
  | .actuate _ receipt _ => some (receipt.id, receipt.revision)
  | _ => none

def Entry.act : Entry Target Artifact → Option (JobId × ℕ)
  | .performed c _ _ => c.act
  | .crashed (some c) => c.act
  | _ => none

/-- The actuator calls of a log. -/
def acted (log : Log Target Artifact) : List (JobId × ℕ) := log.filterMap Entry.act

/-- The actuator calls that a tab has made. -/
def Tab.acts (t : Tab Target Artifact) : List (JobId × ℕ) :=
  (t.awaited.bind Call.act).toList ++ acted t.log

/-- What holds while a tab waits for an actuator. -/
structure Actuates (s : Shared Target Artifact) (log : Log Target Artifact) (actuator : Actuator)
    (receipt : Receipt Target Artifact) : Prop where
  durable : s.saved = some receipt
  pending : receipt.phase = actuator.pending
  /-- The lock is still held. -/
  locked : s.locked = true ∧ (hold log).site.isSome
  /-- The pending phase was written under it. -/
  intent : (hold log).intent = some receipt
  /-- No actuator was called under it. -/
  once : (hold log).acted = false
  /-- The job was found in the phase before, and inspected. -/
  inspected : ∃ found recovery state, (hold log).found = some found ∧
    (hold log).seen = some (recovery, .saved found, state) ∧ found.phase = actuator.source ∧
    receipt = found.moved actuator.pending ∧ state.target = some receipt.target ∧
    actuator.admits state = true
  /-- A job that was found in a pending phase is not acted on. -/
  observed : ∀ found, (hold log).found = some found → found.phase.pending = false

/-- What holds while a tab waits for a call. -/
def Lawful (s : Shared Target Artifact) (log : Log Target Artifact) : Call Target Artifact → Prop
  | .actuate actuator receipt _ => Actuates s log actuator receipt
  | .put snapshot _ next => next.outcome = true → Proven log snapshot next
  | .add target artifact phase =>
    phase = .prepared ∨ phase = .installed ∧ ∃ state,
      (hold (duringPreview log)).seen = some (false, .proposed .installed target artifact, state) ∧
        state.installed = true
  | _ => True

/-- How the saved record changes. -/
inductive Follows (used : List JobId) :
    Option (Receipt Target Artifact) → Option (Receipt Target Artifact) → Prop
  | same (saved : Option (Receipt Target Artifact)) : Follows used saved saved
  | advanced (r : Receipt Target Artifact) (next : Phase) (h : next ∈ edges r.phase) :
    Follows used (some r) (some (r.moved next))
  | added (r : Receipt Target Artifact) (hphase : r.phase = .prepared ∨ r.phase = .installed)
      (hrevision : r.revision = 0) (hid : r.id ∉ used) : Follows used none (some r)
  | removed (r : Receipt Target Artifact) : Follows used (some r) none

/-- The record of a job that was drawn keeps its revision or raises it. -/
theorem Follows.revision {used : List JobId} {saved saved' : Option (Receipt Target Artifact)}
    (h : Follows used saved saved') {r' : Receipt Target Artifact} (hr : saved' = some r')
    (hused : r'.id ∈ used) : ∃ r, saved = some r ∧ r.id = r'.id ∧ r.revision ≤ r'.revision := by
  cases h with
  | same => exact ⟨r', hr, rfl, le_refl _⟩
  | advanced r next =>
    obtain rfl := Option.some.inj hr
    exact ⟨r, rfl, rfl, Nat.le_succ _⟩
  | added r _ _ hid =>
    obtain rfl := Option.some.inj hr
    exact absurd hused hid
  | removed => cases hr

variable {s s' : Shared Target Artifact} {w : World Target Artifact} {c : Call Target Artifact}
  {reply : Reply c} {t t' u : Tab Target Artifact}

/-! ## What a move adds -/

/-- An intent appears only where it is written, at a higher revision. -/
theorem after_intent {h : Hold Target Artifact} {saved : Option (Receipt Target Artifact)}
    (hanswers : Answers saved c reply) {r : Receipt Target Artifact}
    (hr : (h.after (.performed c reply saved)).intent = some r) :
    h.intent = some r ∧ ((h.after (.performed c reply saved)).acted = false →
        h.acted = false ∧ c.act = none) ∨
      ∃ snapshot, saved = some snapshot ∧ snapshot.id = r.id ∧ snapshot.revision < r.revision := by
  cases c with
  | put snapshot expectedRevision next =>
    cases reply with
    | error e => exact .inl ⟨hr, fun h => ⟨h, rfl⟩⟩
    | ok r' =>
      obtain ⟨hsaved, -, rfl⟩ := hanswers
      have hr : (if (snapshot.moved next).phase.pending then some (snapshot.moved next)
        else h.intent) = some r := hr
      split at hr
      · obtain rfl := Option.some.inj hr
        exact .inr ⟨snapshot, hsaved, rfl, Nat.lt_succ_self _⟩
      · exact .inl ⟨hr, fun h => ⟨h, rfl⟩⟩
  | acquire site =>
    match reply with
    | .ok true => cases hr
    | .ok false => exact .inl ⟨hr, fun h => ⟨h, rfl⟩⟩
    | .error _ => exact .inl ⟨hr, fun h => ⟨h, rfl⟩⟩
  | release => cases hr
  | load =>
    cases reply with
    | error e => exact .inl ⟨hr, fun h => ⟨h, rfl⟩⟩
    | ok r' =>
      rw [Hold.after] at hr ⊢
      split at hr
      · rename_i hsite
        simp only [hsite, if_true]
        exact .inl ⟨hr, fun h => ⟨h, rfl⟩⟩
      · rename_i hsite
        simp only [hsite, if_false, Bool.false_eq_true]
        exact .inl ⟨hr, fun h => ⟨h, rfl⟩⟩
  | remove => cases reply <;> exact .inl ⟨hr, fun h => ⟨h, rfl⟩⟩
  | inspect => cases reply <;> exact .inl ⟨hr, fun h => ⟨h, rfl⟩⟩
  | actuate => exact .inl ⟨hr, fun h => Bool.noConfusion h⟩
  | _ => exact .inl ⟨hr, fun h => ⟨h, rfl⟩⟩

@[simp] theorem settle_acted : acted t.settle.log = acted t.log := by
  unfold Tab.settle
  split
  · rename_i o _
    cases o <;> rfl
  · rfl
  · rfl

/-- An intent is written under the lock. -/
theorem History.intent_site {log : Log Target Artifact} (h : History log)
    (hintent : (hold log).intent.isSome) : (hold log).site.isSome := by
  induction log with
  | nil => cases hintent
  | cons e log ih =>
    have ih := ih h.2
    rw [hold_cons] at hintent ⊢
    cases e with
    | begun => exact ih hintent
    | settled => exact ih hintent
    | crashed => cases hintent
    | performed c reply saved =>
      cases c with
      | acquire site =>
        match reply with
        | .ok true => rfl
        | .ok false => exact ih hintent
        | .error _ => exact ih hintent
      | release => cases hintent
      | load =>
        cases reply with
        | error e => exact ih hintent
        | ok r =>
          rw [Hold.after] at hintent ⊢
          split
          · rename_i hsite
            exact hsite
          · rename_i hsite
            rw [if_neg hsite] at hintent
            exact ih hintent
      | put =>
        have hsite := h.1.1.1
        cases reply <;> exact hsite
      | remove => cases reply <;> exact ih hintent
      | inspect => cases reply <;> exact ih hintent
      | _ => exact ih hintent

variable [DecidableEq Target] [DecidableEq Artifact]

/-- A call changes the record along an edge, or creates or removes it. -/
theorem answer_follows (hfresh : draws c = true → w.nonce ∉ s.used) :
    Follows s.used s.saved (answer s w c).2.saved := by
  cases c with
  | put snapshot expectedRevision next =>
    rw [answer]
    cases ho : put s.saved snapshot expectedRevision next with
    | error e => exact .same _
    | ok r =>
      obtain ⟨hsaved, hedge, rfl⟩ := put_ok ho
      rw [hsaved]
      exact .advanced snapshot next hedge
  | add target artifact phase =>
    rw [answer]
    cases ho : add s.saved w.nonce target artifact phase with
    | error e => exact .same _
    | ok r =>
      obtain ⟨hsaved, hphase, rfl⟩ := add_ok ho
      rw [hsaved]
      exact .added _ hphase rfl (hfresh rfl)
  | remove removal expectedRevision =>
    rw [answer]
    cases ho : remove s.saved removal expectedRevision with
    | error e => exact .same _
    | ok _ =>
      obtain ⟨r, hsaved, -, -⟩ := remove_ok ho
      rw [hsaved]
      exact .removed r
  | _ => exact .same _

theorem serve_follows (hfresh : draws c = true → w.nonce ∉ s.used) :
    Follows s.used s.saved (serve s w c).2.saved := by
  unfold serve
  split
  · split
    · exact .same _
    · exact answer_follows hfresh
  · exact answer_follows hfresh

/-- What a move of a tab adds to the record, to the tab's calls and to its intent. -/
structure Evolves (s : Shared Target Artifact) (t : Tab Target Artifact)
    (s' : Shared Target Artifact) (t' : Tab Target Artifact) : Prop where
  follows : Follows s.used s.saved s'.saved
  used : ∀ id ∈ s.used, id ∈ s'.used
  acted : acted t'.log = t.acts
  intent : ∀ r, (hold t'.log).intent = some r →
    (hold t.log).intent = some r ∧ ((hold t'.log).acted = false →
        (hold t.log).acted = false ∧ t.acts = Usb.acted t.log) ∨
      ∃ snapshot, s.saved = some snapshot ∧ snapshot.id = r.id ∧ snapshot.revision < r.revision

omit [DecidableEq Target] [DecidableEq Artifact] in
theorem acts_awaited {c : Call Target Artifact} (h : t.awaited = some c) :
    t.acts = c.act.toList ++ acted t.log := by
  rw [Tab.acts, h]
  rfl

omit [DecidableEq Target] [DecidableEq Artifact] in
theorem acts_idle (h : t.running = none) : t.acts = acted t.log := by
  rw [Tab.acts, Tab.awaited, h]
  rfl

omit [DecidableEq Target] [DecidableEq Artifact] in
theorem acted_cons (e : Entry Target Artifact) (log : Log Target Artifact) :
    acted (e :: log) = e.act.toList ++ acted log := by
  rw [acted, List.filterMap_cons]
  cases e.act <;> rfl

omit [DecidableEq Target] [DecidableEq Artifact] in
theorem acted_crashed {log : Log Target Artifact} {awaited : Option (Call Target Artifact)} :
    acted (.crashed awaited :: log) = (awaited.bind Call.act).toList ++ acted log := by
  rw [acted_cons]
  cases awaited <;> rfl

/-- Every move of a tab. -/
theorem wake_evolves {event : Event Target Artifact} (h : wake s t event = some (s', t')) :
    Evolves s t s' t' := by
  cases event with
  | press operation =>
    obtain ⟨t1, ht1, heq⟩ := Option.map_eq_some_iff.mp h
    obtain ⟨rfl, rfl⟩ := Prod.mk.inj heq
    obtain ⟨hidle, hlog⟩ := press_log ht1
    have hacts := acts_idle hidle
    refine ⟨.same _, fun _ h => h, ?_, ?_⟩
    · rw [settle_acted, hacts]
      rcases hlog with hlog | ⟨begun, hlog⟩
      · rw [hlog]
      · rw [hlog]
        rfl
    · intro r hr
      rw [settle_hold, press_hold ht1] at hr ⊢
      exact .inl ⟨hr, fun h => ⟨h, hacts⟩⟩
  | answer w =>
    simp only [wake] at h
    split at h
    · rename_i c k hrunning
      have hacts : t.acts = c.act.toList ++ acted t.log :=
        acts_awaited (by rw [Tab.awaited, hrunning])
      split at h
      · cases h
      · rename_i hfresh
        have hfresh : draws c = true → w.nonce ∉ s.used :=
          fun hdraws hused => hfresh ⟨hdraws, hused⟩
        obtain ⟨rfl, rfl⟩ := Prod.mk.inj (Option.some.inj h)
        have hserved := serve_served (w := w) hfresh rfl
        refine ⟨serve_follows hfresh, hserved.used, ?_, ?_⟩
        · rw [settle_acted, acted_cons, hacts]
          rfl
        · intro r hr
          rw [settle_hold, hold_cons] at hr ⊢
          rcases after_intent hserved.answers hr with ⟨hintent, hacted⟩ | hwrote
          · refine .inl ⟨hintent, fun h => ?_⟩
            obtain ⟨hacted, hact⟩ := hacted h
            refine ⟨hacted, ?_⟩
            rw [hacts, hact]
            rfl
          · exact .inr hwrote
    · cases h
  | crash =>
    obtain ⟨rfl, rfl⟩ := Prod.mk.inj (Option.some.inj h)
    refine ⟨?_, ?_, acted_crashed, ?_⟩
    · split <;> exact .same _
    · intro id hid
      split <;> exact hid
    · intro r hr
      cases hr

/-! ## The invariant -/

/-- The calls of a tab belong to different intents, none newer than the saved record, and an intent
that was not acted on has no call yet. -/
structure Spent (s : Shared Target Artifact) (t : Tab Target Artifact) : Prop where
  ok : TabOk s t
  past : ∀ a ∈ t.acts, a.1 ∈ s.used ∧ ∀ r, s.saved = some r → r.id = a.1 → a.2 ≤ r.revision
  ready : ∀ r, (hold t.log).intent = some r → (hold t.log).acted = false →
    (r.id, r.revision) ∉ acted t.log
  nodup : t.acts.Nodup

/-- No call of another tab belongs to an intent of this tab. -/
def Fresh (t u : Tab Target Artifact) : Prop :=
  ∀ r, (hold t.log).intent = some r → (r.id, r.revision) ∉ u.acts

structure Distinct (t u : Tab Target Artifact) : Prop where
  apart : Apart t u
  fresh : Fresh t u
  fresh' : Fresh u t
  disjoint : t.acts.Disjoint u.acts

omit [DecidableEq Target] [DecidableEq Artifact] in
theorem TabOk.allowed (h : TabOk s t) (hawaited : t.awaited = some c) : Allowed t.log c := by
  unfold Tab.awaited at hawaited
  split at hawaited
  · rename_i c' k hrunning
    obtain rfl := Option.some.inj hawaited
    exact (h.running _ hrunning).1
  · cases hawaited

omit [DecidableEq Target] [DecidableEq Artifact] in
/-- What a tab that waits for an actuator has written. -/
theorem TabOk.act (h : TabOk s t) {a : JobId × ℕ} (ha : a ∈ (t.awaited.bind Call.act).toList) :
    ∃ r, a = (r.id, r.revision) ∧ s.saved = some r ∧ (hold t.log).intent = some r ∧
      (hold t.log).acted = false := by
  rw [Option.mem_toList, Option.bind_eq_some_iff] at ha
  obtain ⟨c, hawaited, hact⟩ := ha
  have hallowed := h.allowed hawaited
  cases c with
  | actuate actuator r release =>
    obtain ⟨⟨-, hknown, hintent, hacted⟩, -, -⟩ := hallowed
    exact ⟨r, (Option.some.inj hact).symm, h.known r hknown, hintent, hacted⟩
  | _ => cases hact

omit [DecidableEq Target] [DecidableEq Artifact] in
/-- A call that an intent was written after. -/
theorem Spent.below (h : Spent s t) {snapshot r : Receipt Target Artifact}
    (hsaved : s.saved = some snapshot) (hid : snapshot.id = r.id)
    (hrevision : snapshot.revision < r.revision) : (r.id, r.revision) ∉ t.acts := by
  intro hmem
  have hle := (h.past _ hmem).2 snapshot hsaved hid
  omega

omit [DecidableEq Target] [DecidableEq Artifact] in
theorem Spent.past_mono (h : Spent s t) (hfollows : Follows s.used s.saved s'.saved)
    (hused : ∀ id ∈ s.used, id ∈ s'.used) {a : JobId × ℕ} (ha : a ∈ t.acts) :
    a.1 ∈ s'.used ∧ ∀ r, s'.saved = some r → r.id = a.1 → a.2 ≤ r.revision := by
  obtain ⟨hdrawn, hpast⟩ := h.past a ha
  refine ⟨hused _ hdrawn, fun r' hr' hid => ?_⟩
  obtain ⟨r, hr, hid', hle⟩ := hfollows.revision hr' (hid.symm ▸ hdrawn)
  exact le_trans (hpast r hr (hid'.trans hid)) hle

omit [DecidableEq Target] [DecidableEq Artifact] in
/-- The tab that moved. -/
theorem Spent.moved (h : Spent s t) (hevolves : Evolves s t s' t') (hdrawn : Drawn s')
    (hok : TabOk s' t') : Spent s' t' := by
  have hready : ∀ r, (hold t'.log).intent = some r → (hold t'.log).acted = false →
      (r.id, r.revision) ∉ acted t'.log := by
    intro r hr hacted
    rw [hevolves.acted]
    rcases hevolves.intent r hr with ⟨hintent, hbefore⟩ | ⟨snapshot, hsaved, hid, hrevision⟩
    · obtain ⟨hacted, hacts⟩ := hbefore hacted
      rw [hacts]
      exact h.ready r hintent hacted
    · exact h.below hsaved hid hrevision
  refine ⟨hok, ?_, hready, ?_⟩
  · intro a ha
    rw [Tab.acts, List.mem_append, hevolves.acted] at ha
    rcases ha with ha | ha
    · obtain ⟨r, rfl, hsaved, -, -⟩ := hok.act ha
      refine ⟨hdrawn r hsaved, fun r' hr' _ => ?_⟩
      obtain rfl := Option.some.inj (hsaved.symm.trans hr')
      exact le_refl _
    · exact h.past_mono hevolves.follows hevolves.used ha
  · rw [Tab.acts, List.nodup_append']
    refine ⟨?_, hevolves.acted ▸ h.nodup, ?_⟩
    · exact Option.toList_nodup _
    intro a ha
    obtain ⟨r, rfl, -, hintent, hacted⟩ := hok.act ha
    exact hready r hintent hacted

omit [DecidableEq Target] [DecidableEq Artifact] in
/-- The tabs that did not. -/
theorem Distinct.moved (h : Distinct t u) (hu : Spent s u) (hevolves : Evolves s t s' t')
    (hok : TabOk s' t') (hapart : Apart t' u) : Distinct t' u := by
  have hfresh : Fresh t' u := by
    intro r hr
    rcases hevolves.intent r hr with ⟨hintent, -⟩ | ⟨snapshot, hsaved, hid, hrevision⟩
    · exact h.fresh r hintent
    · exact hu.below hsaved hid hrevision
  refine ⟨hapart, hfresh, ?_, ?_⟩
  · intro r hr hmem
    rw [Tab.acts, List.mem_append, hevolves.acted] at hmem
    rcases hmem with hmem | hmem
    · -- both would hold the lock
      obtain ⟨r', -, -, hintent, -⟩ := hok.act hmem
      have hself := hok.history.intent_site (by rw [hintent]; rfl)
      exact hapart ⟨hself, hu.ok.history.intent_site (by rw [hr]; rfl)⟩
    · exact h.fresh' r hr hmem
  · intro a ha
    rw [Tab.acts, List.mem_append, hevolves.acted] at ha
    rcases ha with ha | ha
    · obtain ⟨r, rfl, -, hintent, -⟩ := hok.act ha
      exact hfresh r hintent
    · exact h.disjoint ha

theorem run_spent (hdrawn : Drawn s) (moves : List (Tasks.Move Unit (Event Target Artifact))) :
    Tasks.Inv Drawn Spent Distinct ((tabs Target Artifact).run ⟨s, []⟩ moves) := by
  apply Tasks.run_inv
  · intro t u h
    exact ⟨fun hboth => h.apart hboth.symm, h.fresh', h.fresh, List.disjoint_symm h.disjoint⟩
  · intro s _ s' t hdrawn h
    obtain ⟨rfl, rfl⟩ := Prod.mk.inj h
    refine ⟨hdrawn, ⟨.opened, nofun, nofun, List.nodup_nil⟩, fun u hu => ⟨hu, ?_⟩⟩
    constructor
    · intro hboth
      cases hboth.1
    · intro r hr
      cases hr
    · exact fun r _ => List.not_mem_nil
    · exact List.disjoint_nil_left _
  · intro s t event s' t' hdrawn ht h
    have hwoken := wake_woken hdrawn ht.ok h
    have hevolves := wake_evolves h
    refine ⟨hwoken.drawn, ht.moved hevolves hwoken.drawn hwoken.self, fun u hu hdistinct => ?_⟩
    obtain ⟨hok, hapart⟩ := hwoken.others u hu.ok hdistinct.apart
    refine ⟨⟨hok, fun a ha => hu.past_mono hevolves.follows hevolves.used ha,
      hu.ready, hu.nodup⟩, ?_⟩
    exact hdistinct.moved hu hevolves hwoken.self hapart
  · exact hdrawn

/-! ## Every run -/

omit [DecidableEq Target] [DecidableEq Artifact] in
theorem TabOk.lawful (h : TabOk s t) {c : Call Target Artifact} (hawaited : t.awaited = some c) :
    Lawful s t.log c := by
  have hallowed := h.allowed hawaited
  cases c with
  | actuate actuator r release =>
    obtain ⟨⟨hsite, hknown, hintent, hacted⟩,
      ⟨found, recovery, state, hfound, hseen, hsource, hmoved, htarget, hadmits⟩, -⟩ := hallowed
    have hphase : r.phase = actuator.pending := by rw [hmoved]; rfl
    have htarget' : state.target = some r.target := by rw [hmoved]; exact htarget
    refine ⟨h.known r hknown, hphase, ⟨h.locked hsite, hsite⟩, hintent, hacted,
      ⟨found, recovery, state, hfound, hseen, hsource, hmoved, htarget', hadmits⟩, ?_⟩
    intro found' hfound'
    obtain rfl := Option.some.inj (hfound.symm.trans hfound')
    rw [hsource]
    cases actuator <;> rfl
  | put snapshot expectedRevision next => exact hallowed.2.2.2.1
  | add target artifact phase => exact hallowed
  | _ => trivial

/-- A panel with a record, and ids that were drawn before. -/
def Shared.opened (saved : Option (Receipt Target Artifact)) (drawn : List JobId) :
    Shared Target Artifact :=
  ⟨saved, false, (saved.map (·.id)).toList ++ drawn⟩

omit [DecidableEq Target] [DecidableEq Artifact] in
theorem drawn_opened (saved : Option (Receipt Target Artifact)) (drawn : List JobId) :
    Drawn (Shared.opened saved drawn) := by
  intro r hr
  have hr : saved = some r := hr
  rw [Shared.opened, hr]
  exact List.mem_cons_self

/-- What a run keeps to. -/
structure NeverReplays (p : Tasks.Pool (Shared Target Artifact) (Tab Target Artifact)) : Prop where
  lawful : ∀ t ∈ p.tasks, ∀ c, t.awaited = some c → Lawful p.shared t.log c
  /-- Each durable intent is acted on at most once, by any tab. -/
  once : (p.tasks.flatMap Tab.acts).Nodup
  follows : ∀ move, Follows p.shared.used p.shared.saved
    ((tabs Target Artifact).step p move).shared.saved

/-- No run replays a mutation, whatever the tabs do and wherever they throw or crash. -/
theorem never_replays (saved : Option (Receipt Target Artifact)) (drawn : List JobId)
    (moves : List (Tasks.Move Unit (Event Target Artifact))) :
    NeverReplays ((tabs Target Artifact).run ⟨.opened saved drawn, []⟩ moves) := by
  have hinv := run_spent (drawn_opened saved drawn) moves
  refine ⟨?_, ?_, ?_⟩
  · intro t ht c hawaited
    obtain ⟨i, hi⟩ := List.mem_iff_getElem?.mp ht
    exact (hinv.task i t hi).ok.lawful hawaited
  · rw [List.nodup_flatMap]
    constructor
    · intro t ht
      obtain ⟨i, hi⟩ := List.mem_iff_getElem?.mp ht
      exact (hinv.task i t hi).nodup
    · rw [List.pairwise_iff_getElem]
      intro i k hi hk hik
      exact (hinv.pair i k _ _ (List.getElem?_eq_getElem hi) (List.getElem?_eq_getElem hk)
        (Nat.ne_of_lt hik)).disjoint
  · intro move
    have hmoved := (tabs Target Artifact).step_moved
      ((tabs Target Artifact).run ⟨.opened saved drawn, []⟩ moves) move
    generalize (tabs Target Artifact).step _ move = p' at hmoved ⊢
    cases hmoved with
    | idle => exact .same _
    | started call s t h =>
      obtain ⟨rfl, rfl⟩ := Prod.mk.inj h
      exact .same _
    | woken i event t s t' ht h => exact (wake_evolves h).follows

/-! ## A job that is created as installed -/

/-- The phase of a job that is about to be created. -/
def Call.added : Call Target Artifact → Option Phase
  | .add _ _ phase => some phase
  | _ => none

/-- The latest inspection of a panel in a log. -/
def lastInspection (target : Target) : Log Target Artifact → Option (Observation Target)
  | .performed (.inspect _ subject _) (.ok state) _ :: log =>
    if subject.target = target then some state else lastInspection target log
  | _ :: log => lastInspection target log
  | [] => none

/-- A panel that runs the app or not, seen by a tab whose ports verify one release. -/
def World.shows (installed descriptor : Bool) (nonce : JobId) : World Unit Bool where
  failure := none
  release := ⟨true, descriptor⟩
  observation := ⟨some (), false, false, installed, false, false, false⟩
  nonce := nonce
  outcome := ""
  granted := true

def answers (i : ℕ) (w : World Unit Bool) (n : ℕ) : List (Tasks.Move Unit (Event Unit Bool)) :=
  List.replicate n (.wake i (.answer w))

/-- The first tab adopts the app it saw, and fails where the app is gone. The second tab sets that
job aside for another release, and crashes. The first tab installs again. -/
def adoptedRun : List (Tasks.Move Unit (Event Unit Bool)) :=
  [.start (), .start (), .wake 0 (.press (.preview ()))] ++
  answers 0 (.shows true false "") 7 ++
  [.wake 0 (.press (.install true))] ++ answers 0 (.shows false false "a") 20 ++
  [.wake 0 (.answer { World.shows false false "" with failure := some .thrown })] ++
  [.wake 1 (.press (.preview ()))] ++ answers 1 (.shows false true "") 8 ++
  [.wake 1 (.press (.install true))] ++ answers 1 (.shows false true "") 8 ++ [.wake 1 .crash] ++
  [.wake 0 (.press (.install true))] ++ answers 0 (.shows false false "b") 4

/-- A job is created as installed although the latest inspection showed no app. -/
theorem adopted_unproved : ¬ ∀ moves : List (Tasks.Move Unit (Event Unit Bool)),
    ∀ t ∈ ((tabs Unit Bool).run ⟨.opened none [], []⟩ moves).tasks,
      t.awaited.bind Call.added = some .installed →
        (lastInspection () t.log).map (proves .installed) = some true := by
  intro h
  exact absurd (h adoptedRun) (by decide +kernel)

end PanelAssistant.Usb
