import PanelAssistant.BrowserRelease.Cache

/-!
# What the custody keeps

One task at most holds `_busy`. `Sound` is what holds of the cache at each of its awaits: the entry
that is being cleaned is retired and has no lease, the reservation is no entry, and every file
belongs to one or the other. `Went` is what a task that holds `_busy` does to the cache from one
await to the next. -/

namespace PanelAssistant.BrowserRelease

open Library

/-! ## Tasks -/

/-- In the part of a request that holds `_busy`. -/
def Stage.busy : Stage → Bool
  | .reconcile | .reap | .cleanup _ _ | .evict | .evicting _ | .resolve _ | .download _ _
  | .withdraw _ => true
  | .listing | .reading | .body _ | .drain | .done _ => false

/-- The entry that a task is cleaning. -/
def Stage.cleaning : Stage → Option String
  | .cleanup id _ | .evicting id => some id
  | _ => none

/-- The reservation of a task. -/
def Stage.reserved : Stage → Option String
  | .resolve reservation | .download reservation _ | .withdraw reservation => some reservation
  | _ => none

/-- Only a preparation comes there. -/
def Stage.preparing : Stage → Bool
  | .reconcile | .evict | .evicting _ | .resolve _ | .download _ _ | .withdraw _ => true
  | .listing | .reading | .body _ | .drain | .reap | .cleanup _ _ | .done _ => false

def Stage.over : Stage → Bool
  | .done _ => true
  | _ => false

/-- The task is admitted. -/
def Purpose.request : Purpose → Bool
  | .stop => false
  | .list | .prepare _ _ | .lease => true

namespace Task

variable (t : Task)

def busy : Bool := t.stage.busy

/-- The task, when it holds `_busy`. -/
def holding : Option Task := if t.busy then some t else none

/-- The task has a lease. -/
def leasing (id : String) : Bool := t.stage == .body id

/-- An admitted request that has not ended. -/
def running : Bool := t.purpose.request && !t.stage.over

end Task

/-! ## The cache -/

def Cache.leases (c : Cache) (id : String) : ℕ := (c.entries.get? id).elim 0 Entry.leases

/-- What holds of the cache while one entry is being cleaned, or a bundle prepared. -/
structure Sound (c : Cache) (cleaning reserved : Option String) : Prop where
  retiring : ∀ id e, c.entries.get? id = some e → e.retiring = true →
    e.leases = 0 ∧ (c.failed = true ∨ cleaning = some id)
  retired : ∀ id e, cleaning = some id → c.entries.get? id = some e → e.retiring = true
  present : ∀ id e, c.entries.get? id = some e → e.retiring = false → id ∈ c.files
  size : c.entries.size + reserved.isSome.toNat ≤ capacity
  unused : ∀ id, reserved = some id → c.entries.get? id = none
  owned : c.initialized = true → c.failed = false → ∀ id ∈ c.files,
    (∃ e, c.entries.get? id = some e) ∨ reserved = some id
  empty : c.initialized = false → ∀ id, c.entries.get? id = none

/-- What the task that holds `_busy` knows of the cache. -/
structure Prepared (c : Cache) (t : Task) : Prop where
  reconcile : t.stage = .reconcile → c.initialized = false
  initialized : ∀ user tag, t.purpose = .prepare user tag → t.stage ≠ .reconcile →
    c.initialized = true
  preparing : t.stage.preparing = true → ∃ user tag, t.purpose = .prepare user tag
  closed : t.purpose = .stop → c.closed = true ∧
    ∀ id rest, t.stage = .cleanup id rest → ∀ id' e, c.entries.get? id' = some e →
      id' = id ∨ id' ∈ rest

theorem Prepared.of_prepare {c : Cache} {t : Task} {user : String} {tag : Option String}
    (hpurpose : t.purpose = .prepare user tag) (hstage : t.stage ≠ .reconcile)
    (hinitialized : c.initialized = true) :
    Prepared c t where
  reconcile := fun hreconcile => absurd hreconcile hstage
  initialized := fun _ _ _ _ => hinitialized
  preparing := fun _ => ⟨user, tag, hpurpose⟩
  closed := by
    intro hstop
    rw [hpurpose] at hstop
    cases hstop

/-- The cache, with the task that holds `_busy`. -/
structure Held (c : Cache) (op : Option Task) : Prop where
  sound : Sound c (op.bind fun t => t.stage.cleaning) (op.bind fun t => t.stage.reserved)
  busy : c.busy = op.isSome
  prepared : ∀ t, op = some t → Prepared c t

/-- What a step of the holder leaves alone. -/
structure Alike (c c' : Cache) : Prop where
  leases : ∀ id, c'.leases id = c.leases id
  requests : c'.requests = c.requests
  closed : c'.closed = c.closed
  stopped : c'.stopped = c.stopped
  busy : c'.busy = c.busy
  initialized : c'.initialized = c.initialized
  grown : ∀ id, c.entries.get? id = none → c'.entries.get? id = none

/-- A step of the task that holds `_busy`. -/
structure Went (c : Cache) (t : Task) (c' : Cache) (t' : Task) : Prop where
  held : Held c' t'.holding
  leases : ∀ id, c'.leases id = c.leases id
  requests : (t.running = true → 0 < c.requests) →
    c'.requests + t.running.toNat = c.requests + t'.running.toNat
  closed : c'.closed = c.closed
  stopped : c'.stopped = c.stopped
  purpose : t'.purpose = t.purpose
  later : t'.busy = true ∨ t'.stage.over = true
  grown : t.running = false → ∀ id, c.entries.get? id = none → c'.entries.get? id = none
  swept : t'.purpose = .stop → t'.stage = .done true → ∀ id, c'.entries.get? id = none

variable {c c' c'' : Cache} {t t' : Task} {cleaning reserved : Option String}

theorem Alike.went (h : Alike c c') (hwent : Went c' t c'' t') : Went c t c'' t' where
  held := hwent.held
  leases := fun id => (hwent.leases id).trans (h.leases id)
  requests := by
    intro hrunning
    rw [← h.requests]
    exact hwent.requests fun ht => by rw [h.requests]; exact hrunning ht
  closed := hwent.closed.trans h.closed
  stopped := hwent.stopped.trans h.stopped
  purpose := hwent.purpose
  later := hwent.later
  grown := fun hrunning id hid => hwent.grown hrunning id (h.grown id hid)
  swept := hwent.swept

theorem dismiss_eq (c : Cache) (purpose : Purpose) :
    c.dismiss purpose = { c with requests := c.requests - purpose.request.toNat } := by
  cases purpose <;> rfl

theorem over_of_busy (h : t.busy = true) : t.stage.over = false := by
  unfold Task.busy at h
  cases hstage : t.stage with
  | done ok =>
    rw [hstage] at h
    cases h
  | _ => rfl

theorem running_of_busy (h : t.busy = true) : t.running = t.purpose.request := by
  rw [Task.running, over_of_busy h, Bool.not_false, Bool.and_true]

/-! ## Entries -/

theorem update_eq {id : String} {e : Entry} {f : Entry → Entry}
    (hget : c.entries.get? id = some e) :
    c.update id f = { c with entries := c.entries.set id (f e) } := by
  simp only [Cache.update, hget]

theorem get?_set_some {d : Dict String Entry} {id id' : String} {e e' : Entry}
    (h : (d.set id e).get? id' = some e') : id' = id ∧ e' = e ∨ id' ≠ id ∧
      d.get? id' = some e' := by
  rw [Dict.get?_set] at h
  split at h
  · rename_i hid
    exact .inl ⟨hid, (Option.some.inj h).symm⟩
  · rename_i hid
    exact .inr ⟨hid, h⟩

theorem exists_get?_set {d : Dict String Entry} {id id' : String} {e : Entry}
    (h : ∃ old, d.get? id' = some old) :
    ∃ new, (d.set id e).get? id' = some new := by
  rw [Dict.get?_set]
  split
  · exact ⟨e, rfl⟩
  · exact h

theorem get?_pop_some {d : Dict String Entry} {id id' : String} {e : Entry}
    (h : (d.pop id).get? id' = some e) :
    id' ≠ id ∧ d.get? id' = some e := by
  rw [Dict.get?_pop] at h
  split at h
  · cases h
  · rename_i hid
    exact ⟨hid, h⟩

/-! ## Parts of a step -/

namespace Sound

/-- An entry is changed, and it is retired neither before nor after. -/
theorem update (h : Sound c cleaning reserved) {id : String} {e : Entry} {f : Entry → Entry}
    (hget : c.entries.get? id = some e) (he : e.retiring = false) (hf : (f e).retiring = false) :
    Sound (c.update id f) cleaning reserved := by
  rw [update_eq hget]
  refine ⟨?_, ?_, ?_, ?_, ?_, ?_, ?_⟩
  · intro id' e' hget' hretiring
    rcases get?_set_some hget' with ⟨-, rfl⟩ | ⟨-, hold⟩
    · rw [hf] at hretiring
      cases hretiring
    · exact h.retiring id' e' hold hretiring
  · intro id' e' hid' hget'
    rcases get?_set_some hget' with ⟨rfl, -⟩ | ⟨-, hold⟩
    · have := h.retired id' e hid' hget
      rw [he] at this
      cases this
    · exact h.retired id' e' hid' hold
  · intro id' e' hget' hretiring
    rcases get?_set_some hget' with ⟨rfl, -⟩ | ⟨-, hold⟩
    · exact h.present id' e hget he
    · exact h.present id' e' hold hretiring
  · show (c.entries.set id (f e)).size + reserved.isSome.toNat ≤ capacity
    rw [Dict.size_set_of_get? hget]
    exact h.size
  · intro id' hid'
    have hnone := h.unused id' hid'
    have hne : id' ≠ id := by
      intro heq
      rw [heq, hget] at hnone
      cases hnone
    exact (Dict.get?_set_ne _ _ hne).trans hnone
  · intro hinit hfailed file hfile
    exact (h.owned hinit hfailed file hfile).imp_left exists_get?_set
  · intro hinit
    have := h.empty hinit id
    rw [hget] at this
    cases this

/-- An entry without leases is retired. -/
theorem retire (h : Sound c none none) {id : String} {e : Entry} (hget : c.entries.get? id = some e)
    (hleases : e.leases = 0) : Sound (c.retire id) (some id) none := by
  rw [Cache.retire, update_eq hget]
  refine ⟨?_, ?_, ?_, ?_, ?_, ?_, ?_⟩
  · intro id' e' hget' hretiring
    rcases get?_set_some hget' with ⟨rfl, rfl⟩ | ⟨-, hold⟩
    · exact ⟨hleases, .inr rfl⟩
    · obtain ⟨hzero, hfailed | hnone⟩ := h.retiring id' e' hold hretiring
      · exact ⟨hzero, .inl hfailed⟩
      · cases hnone
  · intro id' e' hid' hget'
    cases hid'
    rcases get?_set_some hget' with ⟨-, rfl⟩ | ⟨hne, -⟩
    · rfl
    · exact absurd rfl hne
  · intro id' e' hget' hretiring
    rcases get?_set_some hget' with ⟨-, rfl⟩ | ⟨-, hold⟩
    · cases hretiring
    · exact h.present id' e' hold hretiring
  · show (c.entries.set id _).size + 0 ≤ capacity
    rw [Dict.size_set_of_get? hget]
    exact h.size
  · intro id' hid'
    cases hid'
  · intro hinit hfailed file hfile
    rcases h.owned hinit hfailed file hfile with hold | hnone
    · exact .inl (exists_get?_set hold)
    · cases hnone
  · intro hinit
    have := h.empty hinit id
    rw [hget] at this
    cases this

/-- The end of a cleanup. -/
theorem cleaned (h : Sound c cleaning reserved) {id : String}
    (hid : cleaning = some id ∧ reserved = none ∨ cleaning = none ∧ reserved = some id)
    (ok removed : Bool) :
    Sound (c.cleaned id ok removed) none none := by
  have hsize : c.entries.size ≤ capacity := (Nat.le_add_right _ _).trans h.size
  -- an entry that is not retired keeps its file
  have hkeeps : ∀ id' e', c.entries.get? id' = some e' → e'.retiring = false →
      id' ∈ c.files.filter (· ≠ id) := by
    intro id' e' hget' hretiring
    refine List.mem_filter.mpr ⟨h.present id' e' hget' hretiring, decide_eq_true ?_⟩
    intro heq
    rw [heq] at hget'
    rcases hid with ⟨hclean, -⟩ | ⟨-, hres⟩
    · have := h.retired id e' hclean hget'
      rw [hretiring] at this
      cases this
    · rw [h.unused id hres] at hget'
      cases hget'
  unfold Cache.cleaned
  split
  · refine ⟨?_, fun _ _ hnone => (by cases hnone), ?_, ?_, fun _ hnone => (by cases hnone), ?_, ?_⟩
    · intro id' e' hget' hretiring
      obtain ⟨hne, hold⟩ := get?_pop_some hget'
      obtain ⟨hzero, hfailed | hclean⟩ := h.retiring id' e' hold hretiring
      · exact ⟨hzero, .inl hfailed⟩
      · rcases hid with ⟨hclean', -⟩ | ⟨hnone, -⟩
        · rw [hclean', Option.some.injEq] at hclean
          exact absurd hclean.symm hne
        · rw [hnone] at hclean
          cases hclean
    · intro id' e' hget' hretiring
      exact hkeeps id' e' (get?_pop_some hget').2 hretiring
    · exact (Nat.add_le_add_right (Dict.size_pop_le _ _) 0).trans hsize
    · intro hinit hfailed file hfile
      obtain ⟨hfile, hne⟩ := List.mem_filter.mp hfile
      have hne := of_decide_eq_true hne
      rcases h.owned hinit hfailed file hfile with ⟨e, he⟩ | hres
      · refine .inl ⟨e, ?_⟩
        rw [Dict.get?_pop, if_neg hne]
        exact he
      · rcases hid with ⟨-, hnone⟩ | ⟨-, hres'⟩
        · rw [hnone] at hres
          cases hres
        · rw [hres', Option.some.injEq] at hres
          exact absurd hres.symm hne
    · intro hinit id'
      rw [Dict.get?_pop, h.empty hinit, ite_self]
  · refine ⟨?_, fun _ _ hnone => (by cases hnone), ?_, hsize,
      fun _ hnone => (by cases hnone), ?_, h.empty⟩
    · intro id' e' hget' hretiring
      exact ⟨(h.retiring id' e' hget' hretiring).1, .inl rfl⟩
    · intro id' e' hget' hretiring
      show id' ∈ if removed then c.files.filter (· ≠ id) else c.files
      split
      · exact hkeeps id' e' hget' hretiring
      · exact h.present id' e' hget' hretiring
    · intro _ hfailed
      cases hfailed

/-- An entry that is being cleaned has no lease. -/
theorem leases_of_cleaning {id : String} (h : Sound c (some id) reserved) (e : Entry)
    (hget : c.entries.get? id = some e) : e.leases = 0 :=
  (h.retiring id e hget (h.retired id e rfl hget)).1

/-- Without entries there is nothing to keep, as long as the files are removed or not yet counted
on. -/
theorem of_empty (h : ∀ id, c.entries.get? id = none) (hfiles : c.files = [] ∨ c.failed = true) :
    Sound c none none where
  retiring := fun id e hget => by rw [h id] at hget; cases hget
  retired := fun _ _ hnone => by cases hnone
  present := fun id e hget => by rw [h id] at hget; cases hget
  size := by
    rw [Dict.eq_empty_of_get? h]
    exact Nat.zero_le _
  unused := fun _ hnone => by cases hnone
  owned := by
    intro _ hfailed file hfile
    rcases hfiles with hnil | hfailed'
    · rw [hnil] at hfile
      cases hfile
    · rw [hfailed] at hfailed'
      cases hfailed'
  empty := fun _ => h

/-- The download wrote to the file of its reservation. -/
theorem written {reservation : String} (h : Sound c none (some reservation)) :
    Sound { c with files := reservation :: c.files } none (some reservation) where
  retiring := h.retiring
  retired := h.retired
  present := fun id e hget hretiring => List.mem_cons_of_mem _ (h.present id e hget hretiring)
  size := h.size
  unused := h.unused
  owned := by
    intro hinit hfailed file hfile
    rcases List.mem_cons.mp hfile with rfl | hfile
    · exact .inr rfl
    · exact h.owned hinit hfailed file hfile
  empty := h.empty

/-- The bundle of a reservation becomes an entry. -/
theorem stored {reservation : String} {e : Entry} (h : Sound c none (some reservation))
    (hinitialized : c.initialized = true) (he : e.retiring = false) :
    Sound { c with
      files := reservation :: c.files
      entries := c.entries.set reservation e } none none where
  retiring := by
    intro id e' hget hretiring
    rcases get?_set_some hget with ⟨-, rfl⟩ | ⟨-, hold⟩
    · rw [he] at hretiring
      cases hretiring
    · exact h.retiring id e' hold hretiring
  retired := fun _ _ hnone => by cases hnone
  present := by
    intro id e' hget hretiring
    rcases get?_set_some hget with ⟨rfl, -⟩ | ⟨-, hold⟩
    · exact List.mem_cons_self
    · exact List.mem_cons_of_mem _ (h.present id e' hold hretiring)
  size := (Dict.length_set _ _ _).trans h.size
  unused := fun _ hnone => by cases hnone
  owned := by
    intro hinit hfailed file hfile
    rcases List.mem_cons.mp hfile with rfl | hfile
    · exact .inl ⟨e, Dict.get?_set_self _ _ _⟩
    · rcases h.owned hinit hfailed file hfile with hold | hres
      · exact .inl (exists_get?_set hold)
      · cases hres
        exact .inl ⟨e, Dict.get?_set_self _ _ _⟩
  empty := by
    intro hnot
    have hnot : c.initialized = false := hnot
    rw [hinitialized] at hnot
    cases hnot

end Sound

theorem retire_alike {id : String} {e : Entry} (hget : c.entries.get? id = some e) :
    Alike c (c.retire id) := by
  rw [Cache.retire, update_eq hget]
  refine ⟨fun id' => ?_, rfl, rfl, rfl, rfl, rfl, fun id' hid' => ?_⟩
  · unfold Cache.leases
    rw [Dict.get?_set]
    split
    · rename_i hid
      rw [hid, hget]
      rfl
    · rfl
  · have hne : id' ≠ id := by
      intro heq
      rw [heq, hget] at hid'
      cases hid'
    exact (Dict.get?_set_ne _ _ hne).trans hid'

theorem cleaned_alike {id : String} (h : ∀ e, c.entries.get? id = some e → e.leases = 0)
    (ok removed : Bool) :
    Alike c (c.cleaned id ok removed) := by
  unfold Cache.cleaned
  split
  · refine ⟨fun id' => ?_, rfl, rfl, rfl, rfl, rfl, fun id' hid' => ?_⟩
    · unfold Cache.leases
      rw [Dict.get?_pop]
      split
      · rename_i hid
        rw [hid]
        cases hget : c.entries.get? id with
        | none => rfl
        | some e => exact (h e hget).symm
      · rfl
    · rw [Dict.get?_pop, hid', ite_self]
  · exact ⟨fun _ => rfl, rfl, rfl, rfl, rfl, rfl, fun _ hnone => hnone⟩

end PanelAssistant.BrowserRelease
