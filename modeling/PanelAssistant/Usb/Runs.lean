import PanelAssistant.Usb.Installing
import PanelAssistant.Usb.Serving

/-!
# Every tab keeps to the discipline, in every run

The invariant of the tabs: every entry of a log was allowed where it was made, a hold knows the
saved record, and a job that was owned and is gone stays gone. It is kept by every move of every
tab (`wake_ok`) under every move of the others (`TabOk.other`), so it holds over every run
(`run_ok`).
-/

namespace PanelAssistant.Usb

open Library

variable {Target Artifact : Type}

/-! ## Histories -/

/-- What the end of an operation promises. -/
def Settled (log : Log Target Artifact) : Except Failure (Outcome Target Artifact) → Prop
  | .ok (.previewed p) => PreviewOf log p
  | .ok (.installed r _) => ∃ id, owned log = some id ∧ ¬ Gone id log ∧ Own log r
  | _ => True

/-- An entry that the discipline allows after a log. -/
def Recorded (log : Log Target Artifact) : Entry Target Artifact → Prop
  | .begun (.install selected) => PreviewOf log selected
  | .performed c reply saved => Allowed log c ∧ Possible log c reply saved
  | .settled outcome => Settled log outcome
  | _ => True

def History : Log Target Artifact → Prop
  | [] => True
  | e :: log => Recorded log e ∧ History log

theorem History.at {later earlier : Log Target Artifact} {e : Entry Target Artifact}
    (h : History (later ++ e :: earlier)) : Recorded earlier e := by
  induction later with
  | nil => exact h.1
  | cons _ later ih => exact ih h.2

/-- A record is known under the lock only. -/
theorem History.site {log : Log Target Artifact} (h : History log)
    (hknown : (hold log).known.isSome) : (hold log).site.isSome := by
  induction log with
  | nil => cases hknown
  | cons e log ih =>
    have ih := ih h.2
    rw [hold_cons] at hknown ⊢
    cases e with
    | begun => exact ih hknown
    | settled => exact ih hknown
    | crashed => cases hknown
    | performed c reply saved =>
      cases c with
      | acquire site =>
        match reply with
        | .ok true => cases hknown
        | .ok false => exact ih hknown
        | .error _ => exact ih hknown
      | release => cases hknown
      | load =>
        cases reply with
        | error e => exact ih hknown
        | ok r =>
          by_cases hsite : (hold log).site.isSome
          · simp only [Hold.after, hsite, if_true]
          · simp only [Hold.after, hsite, if_false, Bool.false_eq_true] at hknown ⊢
            exact absurd (ih hknown) hsite
      | put =>
        have hsite := h.1.1.1
        cases reply <;> exact hsite
      | remove =>
        cases reply with
        | error e => exact ih hknown
        | ok _ => cases hknown
      | inspect => cases reply <;> exact ih hknown
      | _ => exact ih hknown

/-! ## The invariant of a tab -/

variable {s s' : Shared Target Artifact} {w : World Target Artifact} {c : Call Target Artifact}
  {reply : Reply c}

/-- The end of an operation. -/
structure Ended (o : Except Failure (Outcome Target Artifact)) (log : Log Target Artifact) :
    Prop where
  free : (hold log).Free
  settled : Settled log o

/-- An operation that returns a value of its own kind. -/
theorem returns_safe {α : Type} {p : Prog Target Artifact α} {f : α → Outcome Target Artifact}
    {mid : Except Failure α → Log Target Artifact → Prop} {log : Log Target Artifact}
    (h : Safe mid p log) (hfree : ∀ o log', mid o log' → (hold log').Free)
    (hok : ∀ a log', mid (.ok a) log' → Settled log' (.ok (f a))) :
    Safe Ended (p >>= fun a => pure (f a)) log := by
  apply Coop.safe_bind h
  · intro a log' hmid
    exact ⟨hfree _ log' hmid, hok a log' hmid⟩
  · intro e log' hmid
    exact ⟨hfree _ log' hmid, trivial⟩

structure TabOk (s : Shared Target Artifact) (t : Tab Target Artifact) : Prop where
  history : History t.log
  locked : (hold t.log).site.isSome → s.locked = true
  known : ∀ r, (hold t.log).known = some r → s.saved = some r
  preview : ∀ p, t.preview = some p → PreviewOf t.log p
  previewing : ∀ target, current t.log = some (.preview target) → t.preview = none
  reads : ∀ id, Reads id t.log → id ∈ s.used
  owned : ∀ id, owned t.log = some id → id ∈ s.used
  gone : ∀ id, Usb.owned t.log = some id → Gone id t.log → ¬ IsJob id s.saved
  running : ∀ p, t.running = some p → Safe Ended p t.log
  idle : t.running = none → (hold t.log).Free ∧ current t.log = none

/-- Ids that are saved were drawn. -/
def Drawn (s : Shared Target Artifact) : Prop := ∀ r, s.saved = some r → r.id ∈ s.used

/-- Two tabs do not hold the lock at once. -/
def Apart (t u : Tab Target Artifact) : Prop :=
  ¬ ((hold t.log).site.isSome ∧ (hold u.log).site.isSome)

variable {t u : Tab Target Artifact}

/-- What a preview remembers is left alone by every other operation. -/
theorem PreviewOf.of_eq {log log' : Log Target Artifact} {p : Preview Target Artifact}
    (h : PreviewOf log p) (heq : duringPreview log' = duringPreview log) : PreviewOf log' p :=
  ⟨heq ▸ h.setAside, heq ▸ h.adopt⟩

theorem duringPreview_performed {log : Log Target Artifact} {c : Call Target Artifact}
    {reply : Reply c} {saved : Option (Receipt Target Artifact)}
    (h : ∀ target, current log ≠ some (.preview target)) :
    duringPreview (.performed c reply saved :: log) = duringPreview log := by
  rw [duringPreview]
  split
  · rename_i target hcurrent
    exact absurd hcurrent (h target)
  · rfl

/-- A tab that awaits an answer, and receives it. -/
theorem TabOk.answer {k : Reply c → Prog Target Artifact (Outcome Target Artifact)}
    {expectedJobId : Option JobId} (h : TabOk s t) (hdrawn : Drawn s)
    (hrunning : t.running = some (.perform c k)) (hserved : Served s c reply s') :
    TabOk s' { t with
      expectedJobId, running := some (k reply), log := .performed c reply s.saved :: t.log } := by
  obtain ⟨hallowed, hnext⟩ := h.running _ hrunning
  have hpossible : Possible t.log c reply s.saved := ⟨h.known, h.gone, hserved.answers⟩
  have hother : ∀ id, Usb.owned t.log = some id → id ∈ s'.used := fun id hid =>
    hserved.used id (h.owned id hid)
  refine ⟨⟨⟨hallowed, hpossible⟩, h.history⟩, hserved.locked (hold t.log) h.locked,
    hserved.known (hold t.log) h.known, ?_, h.previewing, ?_, ?_, ?_, ?_, nofun⟩
  · intro p hp
    have hp : t.preview = some p := hp
    apply (h.preview p hp).of_eq
    apply duringPreview_performed
    intro target hcurrent
    rw [h.previewing target hcurrent] at hp
    cases hp
  · rintro id ⟨e, he, hreads⟩
    rcases List.mem_cons.mp he with rfl | he
    · exact hserved.reads hdrawn id hreads
    · exact hserved.used id (h.reads id ⟨e, he, hreads⟩)
  · intro id hid
    by_cases hinner : (Entry.performed c reply s.saved : Entry Target Artifact).inner
    · exact hother id ((owned_inner hinner).symm.trans hid)
    · cases c
      case own =>
        obtain rfl := Option.some.inj hid
        exact hserved.used _ (h.reads _ hallowed)
      all_goals exact absurd trivial hinner
  · intro id hid hgone
    by_cases hinner : (Entry.performed c reply s.saved : Entry Target Artifact).inner
    · have hid := (owned_inner hinner).symm.trans hid
      apply hserved.job id (h.owned id hid)
      rcases (gone_inner hinner).mp hgone with hsaved | hgone
      · exact hsaved
      · exact h.gone id hid hgone
    · cases c
      case own =>
        obtain rfl := Option.some.inj hid
        exact hserved.job _ (h.reads _ hallowed) hgone
      all_goals exact absurd trivial hinner
  · intro p hp
    obtain rfl := Option.some.inj hp
    exact hnext reply _ ⟨s.saved, hpossible, rfl⟩

theorem TabOk.settled {outcome : Except Failure (Outcome Target Artifact)}
    {preview : Option (Preview Target Artifact)} {expectedJobId : Option JobId} {installed : Bool}
    (h : TabOk s t) (hended : Ended outcome t.log)
    (hpreview : ∀ p, preview = some p → PreviewOf t.log p) :
    TabOk s ⟨preview, expectedJobId, installed, none, .settled outcome :: t.log⟩ where
  history := ⟨hended.settled, h.history⟩
  locked := h.locked
  known := h.known
  preview p hp := ⟨(hpreview p hp).setAside, (hpreview p hp).adopt⟩
  previewing target hcurrent := by cases hcurrent
  reads := by
    rintro id ⟨e, he, hreads⟩
    rcases List.mem_cons.mp he with rfl | he
    · exact absurd hreads False.elim
    · exact h.reads id ⟨e, he, hreads⟩
  owned id hid := by cases hid
  gone id hid := by cases hid
  running p hp := by cases hp
  idle _ := ⟨hended.free, rfl⟩

theorem TabOk.settle (h : TabOk s t) : TabOk s t.settle := by
  unfold Tab.settle
  split
  · rename_i o hrunning
    have hended : Ended (.ok o) t.log := h.running _ hrunning
    cases o with
    | previewed p =>
      apply h.settled hended
      intro q hq
      obtain rfl := Option.some.inj hq
      exact hended.settled
    | advanced => exact h.settled hended h.preview
    | installed => exact h.settled hended h.preview
    | setUp => exact h.settled hended h.preview
  · rename_i e hrunning
    exact h.settled (h.running _ hrunning) h.preview
  · exact h

/-- A tab that drops its preview. -/
theorem TabOk.drop {installed : Bool} (h : TabOk s t) :
    TabOk s { t with preview := none, installed } :=
  ⟨h.history, h.locked, h.known, nofun, fun _ _ => rfl, h.reads, h.owned, h.gone, h.running, h.idle⟩

/-! ## Moves -/

/-- What another tab keeps when a call is answered. -/
theorem TabOk.other (hu : TabOk s u) (hexclusive : c.exclusive = true → (hold u.log).site = none)
    (hserved : Served s c reply s') : TabOk s' u := by
  have hknown : (hold u.log).site = none → (hold u.log).known = none := by
    intro hnone
    cases hcase : (hold u.log).known with
    | none => rfl
    | some r =>
      have hsome := hu.history.site (by rw [hcase]; rfl)
      rw [hnone] at hsome
      cases hsome
  refine ⟨hu.history, ?_, ?_, hu.preview, hu.previewing,
    fun id h => hserved.used id (hu.reads id h),
    fun id h => hserved.used id (hu.owned id h), ?_, hu.running, hu.idle⟩
  · intro hsome
    cases hcall : c.exclusive with
    | true =>
      rw [hexclusive hcall] at hsome
      cases hsome
    | false => exact (hserved.others hcall).2 (hu.locked hsome)
  · intro r hr
    cases hcall : c.exclusive with
    | true =>
      rw [hknown (hexclusive hcall)] at hr
      cases hr
    | false => exact (hserved.others hcall).1 r (hu.known r hr)
  · intro id hid hgone
    exact hserved.job id (hu.owned id hid) (hu.gone id hid hgone)

/-- A call that needs the lock is made by its holder. -/
theorem exclusive_holds {log : Log Target Artifact} (hallowed : Allowed log c)
    (hexclusive : c.exclusive = true) : (hold log).site.isSome := by
  cases c with
  | release => exact hallowed
  | put => exact hallowed.1
  | remove => exact hallowed.1
  | _ => cases hexclusive

@[simp] theorem settle_hold : hold t.settle.log = hold t.log := by
  unfold Tab.settle
  split
  · rename_i o _
    cases o <;> rfl
  · rfl
  · rfl

/-- What a move of a tab keeps. -/
structure Woken (s : Shared Target Artifact) (t : Tab Target Artifact)
    (s' : Shared Target Artifact) (t' : Tab Target Artifact) : Prop where
  drawn : Drawn s'
  self : TabOk s' t'
  others : ∀ u, TabOk s u → Apart t u → TabOk s' u ∧ Apart t' u

/-- An answer, to the tab that awaits it. -/
theorem answer_woken {k : Reply c → Prog Target Artifact (Outcome Target Artifact)}
    {expectedJobId : Option JobId} (hdrawn : Drawn s) (ht : TabOk s t)
    (hrunning : t.running = some (.perform c k)) (hserved : Served s c reply s') :
    Woken s t s' (Tab.settle { t with
      expectedJobId, running := some (k reply), log := .performed c reply s.saved :: t.log }) where
  drawn := hserved.drawn hdrawn
  self := (ht.answer hdrawn hrunning hserved).settle
  others u hu hapart := by
    have hallowed := (ht.running _ hrunning).1
    constructor
    · apply hu.other _ hserved
      intro hexclusive
      cases hsite : (hold u.log).site with
      | none => rfl
      | some site =>
        exact absurd ⟨exclusive_holds hallowed hexclusive, by rw [hsite]; rfl⟩ hapart
    · rw [Apart, settle_hold]
      rintro ⟨hself, hsome⟩
      cases hsite : (hold t.log).site with
      | none =>
        -- the lock was free when it was granted, so the other tab did not hold it
        have hfree := hserved.granted (hold t.log) hsite hself
        rw [hu.locked hsome] at hfree
        cases hfree
      | some site => exact hapart ⟨by rw [hsite]; rfl, hsome⟩

/-- A tab without a preview that runs nothing and holds nothing. -/
theorem TabOk.blank {log : Log Target Artifact} (hhistory : History log)
    (hhold : hold log = Hold.free) (hcurrent : current log = none) (howned : Usb.owned log = none)
    (hreads : ∀ id, Reads id log → id ∈ s.used) : TabOk s { Tab.blank with log } where
  history := hhistory
  locked hsome := by
    rw [hhold] at hsome
    cases hsome
  known r hr := by
    rw [hhold] at hr
    cases hr
  preview p hp := by cases hp
  previewing _ _ := rfl
  reads := hreads
  owned id hid := by
    rw [howned] at hid
    cases hid
  gone id hid := by
    rw [howned] at hid
    cases hid
  running p hp := by cases hp
  idle _ := by
    rw [hhold]
    exact ⟨⟨rfl, rfl⟩, hcurrent⟩

/-- A crash frees the lock of its page. -/
theorem crash_woken (hdrawn : Drawn s) (ht : TabOk s t) :
    Woken s t (if (hold t.log).site.isSome then { s with locked := false } else s)
      { Tab.blank with log := .crashed t.awaited :: t.log } where
  drawn := by
    split
    · exact hdrawn
    · exact hdrawn
  self := by
    have hreads : ∀ id, Reads id (.crashed t.awaited :: t.log) → id ∈ s.used := by
      rintro id ⟨e, he, hreads⟩
      rcases List.mem_cons.mp he with rfl | he
      · exact absurd hreads False.elim
      · exact ht.reads id ⟨e, he, hreads⟩
    split
    · exact .blank ⟨trivial, ht.history⟩ rfl rfl rfl hreads
    · exact .blank ⟨trivial, ht.history⟩ rfl rfl rfl hreads
  others u hu hapart := by
    refine ⟨?_, fun hboth => by cases hboth.1⟩
    split
    · rename_i hholds
      refine ⟨hu.history, fun hsome => absurd ⟨hholds, hsome⟩ hapart, hu.known, hu.preview,
        hu.previewing, hu.reads, hu.owned, hu.gone, hu.running, hu.idle⟩
    · exact hu

/-- A tab that was just opened. -/
theorem TabOk.opened : TabOk s Tab.blank := by
  have hreads : ∀ id, Reads id ([] : Log Target Artifact) → id ∈ s.used := by
    rintro id ⟨e, he, -⟩
    cases he
  exact TabOk.blank trivial rfl rfl rfl hreads

/-! ## Presses and runs -/

variable [DecidableEq Target] [DecidableEq Artifact]

/-- Every operation keeps to the discipline. -/
theorem program_safe {operation : Begun Target Artifact} {log : Log Target Artifact}
    (hfree : (hold log).Free) (hrecorded : Recorded log (.begun operation)) :
    Safe Ended (program operation) (.begun operation :: log) := by
  have hbegun : (hold (.begun operation :: log)).Free := hfree
  cases operation with
  | transaction =>
    apply returns_safe (advanceTransaction_safe hbegun) (fun _ _ h => h.free)
    intro _ _ _
    trivial
  | recovery expectedJobId confirmed =>
    apply returns_safe (recoverTransaction_safe hbegun nofun) (fun _ _ h => h.free)
    intro _ _ _
    trivial
  | preview target =>
    apply returns_safe (preview_safe hbegun rfl) (fun _ _ h => h.free)
    intro p log' h
    exact h.result p rfl
  | install selected =>
    have hpreview : PreviewOf (.begun (.install selected) :: log) selected :=
      ⟨hrecorded.setAside, hrecorded.adopt⟩
    apply returns_safe (install_safe hbegun rfl rfl hpreview) (fun _ _ h => h.free)
    intro r log' h
    exact h.result r rfl
  | completeSetup selected expectedJobId =>
    apply returns_safe (f := fun _ => Outcome.setUp) (completeSetup_safe hbegun)
      (fun _ _ h => h.free)
    intro _ _ _
    trivial

theorem TabOk.begin {operation : Begun Target Artifact} (h : TabOk s t) (hidle : t.running = none)
    (hrecorded : Recorded t.log (.begun operation))
    (hpreview : ∀ target, operation = .preview target → t.preview = none) :
    TabOk s (t.begin operation) where
  history := ⟨hrecorded, h.history⟩
  locked := h.locked
  known := h.known
  preview p hp := by
    apply (h.preview p hp).of_eq
    cases operation with
    | preview target =>
      have hp : t.preview = some p := hp
      rw [hpreview target rfl] at hp
      cases hp
    | _ => rfl
  previewing target hcurrent := hpreview target (Option.some.inj hcurrent)
  reads := by
    rintro id ⟨e, he, hreads⟩
    rcases List.mem_cons.mp he with rfl | he
    · exact absurd hreads False.elim
    · exact h.reads id ⟨e, he, hreads⟩
  owned id hid := by cases hid
  gone id hid := by cases hid
  running p hp := by
    obtain rfl := Option.some.inj hp
    exact program_safe (h.idle hidle).1 hrecorded
  idle hnone := by cases hnone

theorem TabOk.press {operation : Operation Target} {t' : Tab Target Artifact} (h : TabOk s t)
    (hpress : t.press operation = some t') : TabOk s t' := by
  unfold Tab.press at hpress
  split at hpress
  · cases hpress
  · rename_i hidle
    cases operation with
    | transaction =>
      obtain rfl := Option.some.inj hpress
      exact h.begin hidle trivial nofun
    | recovery expectedJobId confirmed =>
      obtain rfl := Option.some.inj hpress
      exact h.begin hidle trivial nofun
    | preview target =>
      obtain rfl := Option.some.inj hpress
      exact h.drop.begin hidle trivial fun _ _ => rfl
    | install confirmed =>
      dsimp only at hpress
      split at hpress
      · rename_i selected hselected
        split at hpress
        · obtain rfl := Option.some.inj hpress
          exact h.begin hidle (h.preview selected hselected) nofun
        · cases hpress
      · cases hpress
    | completeSetup =>
      dsimp only at hpress
      split at hpress
      · split at hpress
        · obtain rfl := Option.some.inj hpress
          exact h.begin hidle trivial nofun
        · cases hpress
      · cases hpress
    | invalidate =>
      obtain rfl := Option.some.inj hpress
      exact h.drop

/-- An idle tab adds at most the beginning of an operation to its log. -/
theorem press_log {operation : Operation Target} {t' : Tab Target Artifact}
    (h : t.press operation = some t') :
    t.running = none ∧ (t'.log = t.log ∨ ∃ begun, t'.log = .begun begun :: t.log) := by
  unfold Tab.press at h
  split at h
  · cases h
  · rename_i hidle
    refine ⟨hidle, ?_⟩
    cases operation with
    | install confirmed =>
      dsimp only at h
      split at h
      · split at h
        · obtain rfl := Option.some.inj h
          exact .inr ⟨_, rfl⟩
        · cases h
      · cases h
    | completeSetup =>
      dsimp only at h
      split at h
      · split at h
        · obtain rfl := Option.some.inj h
          exact .inr ⟨_, rfl⟩
        · cases h
      · cases h
    | invalidate =>
      obtain rfl := Option.some.inj h
      exact .inl rfl
    | _ =>
      obtain rfl := Option.some.inj h
      exact .inr ⟨_, rfl⟩

theorem press_hold {operation : Operation Target} {t' : Tab Target Artifact}
    (h : t.press operation = some t') : hold t'.log = hold t.log := by
  obtain ⟨-, hlog | ⟨begun, hlog⟩⟩ := press_log h
  · rw [hlog]
  · rw [hlog]
    rfl

/-- A press of a button. -/
theorem press_woken {operation : Operation Target} {t' : Tab Target Artifact} (hdrawn : Drawn s)
    (ht : TabOk s t) (h : t.press operation = some t') : Woken s t s t'.settle where
  drawn := hdrawn
  self := (ht.press h).settle
  others u hu hapart := by
    refine ⟨hu, ?_⟩
    rw [Apart, settle_hold, press_hold h]
    exact hapart

/-- Every move of a tab. -/
theorem wake_woken {event : Event Target Artifact} {t' : Tab Target Artifact} (hdrawn : Drawn s)
    (ht : TabOk s t) (h : wake s t event = some (s', t')) : Woken s t s' t' := by
  cases event with
  | press operation =>
    obtain ⟨t1, ht1, heq⟩ := Option.map_eq_some_iff.mp h
    obtain ⟨rfl, rfl⟩ := Prod.mk.inj heq
    exact press_woken hdrawn ht ht1
  | answer w =>
    simp only [wake] at h
    split at h
    · rename_i c k hrunning
      split at h
      · cases h
      · rename_i hfresh
        obtain ⟨rfl, rfl⟩ := Prod.mk.inj (Option.some.inj h)
        apply answer_woken hdrawn ht hrunning
        exact serve_served (fun hdraws hused => hfresh ⟨hdraws, hused⟩) rfl
    · cases h
  | crash =>
    obtain ⟨rfl, rfl⟩ := Prod.mk.inj (Option.some.inj h)
    exact crash_woken hdrawn ht

/-- The invariant of every run. -/
theorem run_ok (hdrawn : Drawn s) (moves : List (Tasks.Move Unit (Event Target Artifact))) :
    Tasks.Inv Drawn TabOk Apart ((tabs Target Artifact).run ⟨s, []⟩ moves) := by
  apply Tasks.run_inv
  · intro t u hapart hboth
    exact hapart hboth.symm
  · intro s _ s' t hdrawn h
    obtain ⟨rfl, rfl⟩ := Prod.mk.inj h
    exact ⟨hdrawn, .opened, fun u hu => ⟨hu, fun hboth => by cases hboth.1⟩⟩
  · intro s t event s' t' hdrawn ht h
    have hwoken := wake_woken hdrawn ht h
    exact ⟨hwoken.drawn, hwoken.self, hwoken.others⟩
  · exact hdrawn

end PanelAssistant.Usb
