import PanelAssistant.Usb.Discipline

/-!
# What a call does to the record

`Served` is one answer of the surroundings, for whoever asked: what the hold that asked knows
afterwards is still the record, and a call that needs no lock takes nothing from the others. It is
proved call by call (`answer_served`), for an answer and for an exception (`serve_served`).
-/

namespace PanelAssistant.Usb

open Library

variable {Target Artifact : Type}

variable {s s' : Shared Target Artifact} {w : World Target Artifact} {c : Call Target Artifact}
  {reply : Reply c}

/-- A call that needs the lock. -/
def Call.exclusive : Call Target Artifact → Bool
  | .release | .put .. | .remove .. => true
  | _ => false

/-- What a call does, whoever makes it. -/
structure Served (s : Shared Target Artifact) (c : Call Target Artifact) (reply : Reply c)
    (s' : Shared Target Artifact) : Prop where
  answers : Answers s.saved c reply
  /-- The record is what a hold knows after the call, if it was what it knew before. -/
  known : ∀ h : Hold Target Artifact, (∀ r, h.known = some r → s.saved = some r) →
    ∀ r, (h.after (.performed c reply s.saved)).known = some r → s'.saved = some r
  locked : ∀ h : Hold Target Artifact, (h.site.isSome → s.locked = true) →
    (h.after (.performed c reply s.saved)).site.isSome → s'.locked = true
  /-- Without the lock, only an empty place is filled, and no lock is freed. -/
  others : c.exclusive = false →
    (∀ r, s.saved = some r → s'.saved = some r) ∧ (s.locked = true → s'.locked = true)
  /-- A lock that is granted was free. -/
  granted : ∀ h : Hold Target Artifact, h.site = none →
    (h.after (.performed c reply s.saved)).site.isSome → s.locked = false
  /-- Ids are drawn once. -/
  used : ∀ id ∈ s.used, id ∈ s'.used
  job : ∀ id ∈ s.used, ¬ IsJob id s.saved → ¬ IsJob id s'.saved
  drawn : (∀ r, s.saved = some r → r.id ∈ s.used) → ∀ r, s'.saved = some r → r.id ∈ s'.used
  reads : (∀ r, s.saved = some r → r.id ∈ s.used) → ∀ id,
    (Entry.performed c reply s.saved : Entry Target Artifact).reads id → id ∈ s'.used

/-- A call that changes nothing. -/
theorem served_same (hanswers : Answers s.saved c reply)
    (hknown : ∀ h : Hold Target Artifact, (∀ r, h.known = some r → s.saved = some r) →
      ∀ r, (h.after (.performed c reply s.saved)).known = some r → s.saved = some r)
    (hsite : ∀ h : Hold Target Artifact, (h.after (.performed c reply s.saved)).site = h.site)
    (hreads : ∀ id, (Entry.performed c reply s.saved : Entry Target Artifact).reads id →
      IsJob id s.saved) : Served s c reply s where
  answers := hanswers
  known := hknown
  locked h hlocked hsome := hlocked (hsite h ▸ hsome)
  others _ := ⟨fun _ h => h, fun h => h⟩
  granted h hnone hsome := by
    rw [hsite, hnone] at hsome
    cases hsome
  used _ h := h
  job _ _ h := h
  drawn h := h
  reads hdrawn id hid := by
    obtain ⟨r, hr, rfl⟩ := hreads id hid
    exact hdrawn r hr

/-- A call that throws changes nothing. -/
theorem served_error (e : Failure) (hthrow : c.mayThrow = true) : Served s c (.error e) s := by
  apply served_same
  · cases c
    case release => cases hthrow
    case own => cases hthrow
    all_goals trivial
  · intro h hknown r hr
    cases c
    case release => cases hthrow
    all_goals exact hknown r hr
  · intro h
    cases c
    case release => cases hthrow
    all_goals rfl
  · intro id hid
    cases c <;> exact absurd hid False.elim

/-- A call whose hold stays at its site. -/
theorem granted_of_site {h h' : Hold Target Artifact} {locked : Bool} (hsite : h'.site = h.site)
    (hnone : h.site = none) (hsome : h'.site.isSome) : locked = false := by
  rw [hsite, hnone] at hsome
  cases hsome

theorem served_remove {removal : Removal} {expectedRevision : ℕ} {o : Except Failure Unit}
    (ho : remove s.saved removal expectedRevision = o) :
    Served s (.remove removal expectedRevision) o (s.change o fun _ => none).2 := by
  cases o with
  | error e => exact served_error e rfl
  | ok _ =>
    exact
      { answers := remove_ok ho
        known := by
          intro h _ r hr
          cases hr
        locked := fun _ hlocked hsome => hlocked hsome
        others := fun h => Bool.noConfusion h
        granted := fun _ => granted_of_site rfl
        used := fun _ h => h
        job := by
          rintro id - - ⟨r, hr, -⟩
          cases hr
        drawn := by
          intro _ r hr
          cases hr
        reads := fun _ _ h => False.elim h }

theorem served_add {target : Target} {artifact : Artifact} {phase : Phase} {nonce : JobId}
    {o : Except Failure (Receipt Target Artifact)} (hfresh : nonce ∉ s.used)
    (ho : add s.saved nonce target artifact phase = o) :
    Served s (.add target artifact phase) o
      { (s.change o some).2 with used := nonce :: (s.change o some).2.used } := by
  cases o with
  | error e =>
    have hsame := served_error (s := s) (c := .add target artifact phase) e rfl
    exact
      { hsame with
        used := fun id h => List.mem_cons_of_mem nonce h
        drawn := fun hdrawn r hr => List.mem_cons_of_mem nonce (hdrawn r hr)
        reads := fun _ _ h => False.elim h }
  | ok r =>
    obtain ⟨hsaved, -, hr⟩ := add_ok ho
    have hid : r.id = nonce := by rw [hr]
    exact
      { answers := ⟨hsaved, nonce, hr⟩
        known := by
          intro h hknown r hr
          have hr := hknown r hr
          rw [hsaved] at hr
          cases hr
        locked := fun _ hlocked hsome => hlocked hsome
        others := by
          intro _
          refine ⟨fun r hr => ?_, fun h => h⟩
          rw [hsaved] at hr
          cases hr
        granted := fun _ => granted_of_site rfl
        used := fun id h => List.mem_cons_of_mem nonce h
        job := by
          rintro id hused - ⟨r', hr', rfl⟩
          obtain rfl := Option.some.inj hr'
          exact hfresh (hid ▸ hused)
        drawn := by
          intro _ r' hr'
          obtain rfl := Option.some.inj hr'
          rw [hid]
          exact List.mem_cons_self
        reads := by
          intro _ id hreads
          have hreads : r.id = id := hreads
          rw [← hreads, hid]
          exact List.mem_cons_self }

theorem served_acquire (site : Site) :
    Served s (.acquire site) (.ok !s.locked) { s with locked := true } where
  answers := trivial
  known := by
    intro h hknown r hr
    cases hlocked : s.locked with
    | true =>
      rw [hlocked] at hr
      exact hknown r hr
    | false =>
      rw [hlocked] at hr
      cases hr
  locked _ _ _ := rfl
  others _ := ⟨fun _ h => h, fun _ => rfl⟩
  granted h hnone hsome := by
    cases hlocked : s.locked with
    | true =>
      rw [hlocked] at hsome
      exact granted_of_site rfl hnone hsome
    | false => rfl
  used _ h := h
  job _ _ h := h
  drawn h := h
  reads _ _ h := False.elim h

theorem served_release : Served s .release (.ok ()) { s with locked := false } where
  answers := trivial
  known := by
    intro h _ r hr
    cases hr
  locked _ _ h := Bool.noConfusion h
  others h := Bool.noConfusion h
  granted _ _ h := Bool.noConfusion h
  used _ h := h
  job _ _ h := h
  drawn h := h
  reads _ _ h := False.elim h

/-- A call that changes nothing, and tells nothing of a record. -/
theorem served_quiet {c : Call Target Artifact} {a : Answer c}
    (hanswers : Answers s.saved c (.ok a))
    (hknown : ∀ h : Hold Target Artifact, (h.after (.performed c (.ok a) s.saved)).known = h.known)
    (hsite : ∀ h : Hold Target Artifact, (h.after (.performed c (.ok a) s.saved)).site = h.site)
    (hreads : ∀ id, ¬ (Entry.performed c (.ok a) s.saved : Entry Target Artifact).reads id) :
    Served s c (.ok a) s := by
  apply served_same hanswers
  · intro h hsaved r hr
    rw [hknown] at hr
    exact hsaved r hr
  · exact hsite
  · intro id hid
    exact absurd hid (hreads id)

theorem served_load : Served s .load (.ok s.saved) s := by
  apply served_same (show Answers s.saved .load (.ok s.saved) from rfl)
  · intro h hsaved r hr
    by_cases hsite : h.site.isSome
    · simp only [Hold.after, hsite, if_true] at hr
      exact hr
    · simp only [Hold.after, hsite, if_false, Bool.false_eq_true] at hr
      exact hsaved r hr
  · intro h
    by_cases hsite : h.site.isSome
    · simp only [Hold.after, hsite, if_true]
    · simp only [Hold.after, hsite, if_false, Bool.false_eq_true]
  · intro id hid
    cases hsaved : s.saved with
    | none =>
      rw [hsaved] at hid
      exact absurd hid False.elim
    | some r =>
      rw [hsaved] at hid
      exact ⟨r, rfl, hid⟩

@[simp] theorem change_fst {α : Type} (o : Except Failure α)
    (saved : α → Option (Receipt Target Artifact)) : (s.change o saved).1 = o := by
  cases o <;> rfl

variable [DecidableEq Target] [DecidableEq Artifact]

theorem served_put {snapshot : Receipt Target Artifact} {expectedRevision : ℕ} {next : Phase}
    {o : Except Failure (Receipt Target Artifact)}
    (ho : put s.saved snapshot expectedRevision next = o) :
    Served s (.put snapshot expectedRevision next) o (s.change o some).2 := by
  cases o with
  | error e => exact served_error e rfl
  | ok r =>
    obtain ⟨hsaved, hedge, hr⟩ := put_ok ho
    have hid : r.id = snapshot.id := by rw [hr]; rfl
    exact
      { answers := ⟨hsaved, hedge, hr⟩
        known := fun _ _ _ h => h
        locked := fun _ hlocked hsome => hlocked hsome
        others := fun h => Bool.noConfusion h
        granted := fun _ => granted_of_site rfl
        used := fun _ h => h
        job := by
          rintro id - hnot ⟨r', hr', rfl⟩
          obtain rfl := Option.some.inj hr'
          exact hnot ⟨snapshot, hsaved, hid.symm⟩
        drawn := by
          intro hdrawn r' hr'
          obtain rfl := Option.some.inj hr'
          rw [hid]
          exact hdrawn snapshot hsaved
        reads := fun _ _ h => False.elim h }

/-- What a call does that does not throw. -/
theorem answer_served (hfresh : draws c = true → w.nonce ∉ s.used) :
    Served s c (answer s w c).1 (answer s w c).2 := by
  cases c with
  | put snapshot expectedRevision next =>
    simp only [answer, change_fst]
    exact served_put rfl
  | add target artifact phase =>
    simp only [answer, change_fst]
    exact served_add (hfresh rfl) rfl
  | remove removal expectedRevision =>
    simp only [answer, change_fst]
    exact served_remove rfl
  | acquire site => exact served_acquire site
  | release => exact served_release
  | load => exact served_load
  | inspect =>
    exact served_quiet trivial (fun _ => rfl) (fun _ => rfl) fun _ h => h
  | actuate =>
    exact served_quiet trivial (fun _ => rfl) (fun _ => rfl) fun _ h => h
  | _ => exact served_quiet trivial (fun _ => rfl) (fun _ => rfl) fun _ h => h

/-- What serving a call does. -/
theorem serve_served (hfresh : draws c = true → w.nonce ∉ s.used)
    (h : serve s w c = (reply, s')) : Served s c reply s' := by
  have hanswer : answer s w c = (reply, s') → Served s c reply s' := by
    intro h
    have hserved := answer_served hfresh
    rw [h] at hserved
    exact hserved
  unfold serve at h
  split at h
  · split at h
    · rename_i hthrow
      obtain ⟨rfl, rfl⟩ := Prod.mk.inj h
      exact served_error _ hthrow
    · exact hanswer h
  · exact hanswer h

end PanelAssistant.Usb
