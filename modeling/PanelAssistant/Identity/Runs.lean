import PanelAssistant.Identity.Basic
import PanelAssistant.Library.Runs

/-!
# One identity, one entry

A call gives an identity to the entry that it is about, and to no other (`Assigned`), and every
branch asks first whether the identity is free, but for the one that restores an identity from
records. -/

namespace PanelAssistant.Identity

open Library Library.Runs

variable {s s' s'' : Panels} {entry : Entry} {entryId : String} {health : HealthLine.PanelHealth}
  {sha256 : String → String}

/-! ## Identities -/

/-- No two entries have one identity. -/
def OneEntry (s : Panels) : Prop :=
  ∀ e ∈ s.entries, ∀ e' ∈ s.entries, ∀ did,
    e.uniqueId = some did → e'.uniqueId = some did → e.entryId = e'.entryId

/-- No other entry has the identity. -/
def Free (s : Panels) (entryId did : String) : Prop :=
  ∀ e ∈ s.entries, e.entryId ≠ entryId → e.uniqueId ≠ some did

/-- Every entry has the identity that it had, but for one, which may have taken a free one. -/
def Assigned (s : Panels) (entryId : String) (s' : Panels) : Prop :=
  ∀ e' ∈ s'.entries, (∃ e ∈ s.entries, e.entryId = e'.entryId ∧ e.uniqueId = e'.uniqueId) ∨
    e'.entryId = entryId ∧ ∃ did, e'.uniqueId = some did ∧ Free s entryId did

theorem OneEntry.assigned (h : OneEntry s) (hassigned : Assigned s entryId s') : OneEntry s' := by
  intro e₁ he₁ e₂ he₂ did hdid₁ hdid₂
  rcases hassigned e₁ he₁ with ⟨o₁, ho₁, hid₁, hunique₁⟩ | ⟨hid₁, did₁, hunique₁, hfree₁⟩
  · rcases hassigned e₂ he₂ with ⟨o₂, ho₂, hid₂, hunique₂⟩ | ⟨hid₂, did₂, hunique₂, hfree₂⟩
    · rw [← hid₁, ← hid₂]
      exact h o₁ ho₁ o₂ ho₂ did (hunique₁.trans hdid₁) (hunique₂.trans hdid₂)
    · -- the second one took the identity, so the first one is the same entry
      rw [hunique₂, Option.some.injEq] at hdid₂
      by_contra hne
      refine hfree₂ o₁ ho₁ (fun heq => hne ?_) (hdid₂ ▸ hunique₁.trans hdid₁)
      rw [← hid₁, heq, hid₂]
  · rcases hassigned e₂ he₂ with ⟨o₂, ho₂, hid₂, hunique₂⟩ | ⟨hid₂, did₂, hunique₂, hfree₂⟩
    · rw [hunique₁, Option.some.injEq] at hdid₁
      by_contra hne
      refine hfree₁ o₂ ho₂ (fun heq => hne ?_) (hdid₁ ▸ hunique₂.trans hdid₂)
      rw [← hid₂, heq, hid₁]
    · rw [hid₁, hid₂]

theorem assigned_of_entries (h : s'.entries = s.entries) : Assigned s entryId s' := by
  intro e he
  rw [h] at he
  exact .inl ⟨e, he, rfl, rfl⟩

theorem free_of_available {did : String} (h : s.identityAvailable entry did = true) :
    Free s entry.entryId did := by
  intro e he hne hdid
  rw [Panels.identityAvailable, Bool.not_eq_true', List.any_eq_false] at h
  exact h e (List.mem_filter.mpr ⟨he, decide_eq_true hne⟩) (decide_eq_true hdid)

/-- After one entry is changed, an entry is the changed one or one of the others. -/
theorem mem_update {f : Entry → Entry} {e' : Entry} (h : e' ∈ (s.update entryId f).entries) :
    (∃ e ∈ s.entries, e.entryId = entryId ∧ e' = f e) ∨ e' ∈ s.entries ∧ e'.entryId ≠ entryId := by
  obtain ⟨e, he, rfl⟩ := List.mem_map.mp h
  by_cases hid : e.entryId = entryId
  · rw [if_pos hid]
    exact .inl ⟨e, he, hid, rfl⟩
  · rw [if_neg hid]
    exact .inr ⟨he, hid⟩

/-- One entry is changed. -/
theorem assigned_update {f : Entry → Entry}
    (h : ∀ e ∈ s.entries, e.entryId = entryId → (f e).entryId = e.entryId ∧
      ((f e).uniqueId = e.uniqueId ∨ ∃ did, (f e).uniqueId = some did ∧ Free s entryId did)) :
    Assigned s entryId (s.update entryId f) := by
  intro e' he'
  rcases mem_update he' with ⟨e, he, hid, rfl⟩ | ⟨hold, -⟩
  · obtain ⟨hkept, hunique | ⟨did, hunique, hfree⟩⟩ := h e he hid
    · exact .inl ⟨e, he, hkept.symm, hunique.symm⟩
    · exact .inr ⟨hkept.trans hid, did, hunique, hfree⟩
  · exact .inl ⟨e', hold, rfl, rfl⟩

/-- A claim takes links, and nothing else. -/
theorem mem_claimLink {link : Option String} {e' : Entry}
    (h : e' ∈ (s.claimLink entry link).entries) :
    ∃ e ∈ s.entries, e' = e ∨ e' = { e with legacyDid := none } := by
  unfold Panels.claimLink at h
  split at h
  · exact ⟨e', h, .inl rfl⟩
  · obtain ⟨e, he, rfl⟩ := List.mem_map.mp h
    refine ⟨e, he, ?_⟩
    split
    · exact .inr rfl
    · exact .inl rfl

theorem Assigned.claimLink (h : Assigned s entryId s') (link : Option String) :
    Assigned s entryId (s'.claimLink entry link) := by
  intro e'' he''
  obtain ⟨e', he', rfl | rfl⟩ := mem_claimLink he''
  · exact h e'' he'
  · exact h e' he'

theorem assigned_commit {own did : String} (h : s.identityAvailable entry did = true) :
    Assigned s entry.entryId (s.commitIdentity entry own did) :=
  assigned_update fun _ _ _ => ⟨rfl, .inr ⟨did, rfl, free_of_available h⟩⟩

theorem available_of_movable {own did : String} (h : s.movable entry own did = true) :
    s.identityAvailable entry did = true := by
  rw [Panels.movable, Bool.and_eq_true, Bool.and_eq_true] at h
  exact h.1.1

/-- What a confirmation checked. -/
theorem canConfirm_spec {own did : String}
    (h : s.canConfirmIdentity entry health = some (own, did)) :
    entry.uniqueId = some own ∧ health.discoveryId = some did ∧ s.movable entry own did = true := by
  unfold Panels.canConfirmIdentity at h
  split at h
  · rename_i own' did' hunique hdid
    split at h
    · rename_i hcond
      cases h
      rw [Bool.and_eq_true] at hcond
      exact ⟨hunique, hdid, hcond.2⟩
    · cases h
  · cases h

theorem reject_entries : (s.rejectHealth entry).1.entries = s.entries := by
  unfold Panels.rejectHealth
  split
  · rfl
  · rfl

theorem assigned_confirm : Assigned s entry.entryId (s.confirmIdentity entry health).1 := by
  unfold Panels.confirmIdentity
  split
  · rename_i own did hconfirm
    exact assigned_commit (available_of_movable (canConfirm_spec hconfirm).2.2)
  · exact assigned_of_entries rfl

theorem assigned_adopt (did : String) :
    Assigned s entry.entryId (s.adoptMovedIdentity entry did).1 := by
  unfold Panels.adoptMovedIdentity
  split
  · exact assigned_of_entries rfl
  · split
    · rename_i hcond
      rw [Bool.and_eq_true] at hcond
      exact assigned_commit (available_of_movable hcond.2)
    · exact assigned_of_entries rfl

theorem assigned_adoptReinstalled (did : String) :
    Assigned s entry.entryId (s.adoptReinstalled entry did).1 := by
  have hadopt : Assigned s entry.entryId (s.adoptMovedIdentity entry did).1 := assigned_adopt did
  unfold Panels.adoptReinstalled
  split
  · exact assigned_of_entries rfl
  · split
    · rename_i moved hmoved
      rw [hmoved] at hadopt
      exact hadopt
    · exact assigned_of_entries reject_entries

theorem assigned_acceptOther : Assigned s entry.entryId (s.acceptOther entry sha256 health).1 := by
  unfold Panels.acceptOther
  split
  · exact assigned_of_entries reject_entries
  · split
    · split
      · exact assigned_confirm
      · exact assigned_of_entries reject_entries
    · split
      · exact assigned_adoptReinstalled _
      · exact assigned_of_entries reject_entries

theorem assigned_acceptKnown (entry : Entry) :
    Assigned s entry.entryId (s.acceptKnown entry sha256 health).1 := by
  unfold Panels.acceptKnown
  split
  · split
    · exact assigned_confirm
    · exact assigned_of_entries reject_entries
  · split
    · exact assigned_of_entries rfl
    · rename_i did _ hdid
      split
      · rename_i havailable
        have hupdate : Assigned s entry.entryId
            (s.update entry.entryId fun e => { e.accepted health with uniqueId := some did }) :=
          assigned_update fun _ _ _ => ⟨rfl, .inr ⟨did, rfl, free_of_available havailable⟩⟩
        exact hupdate.claimLink _
      · exact assigned_of_entries reject_entries
    · split
      · have hupdate : Assigned s entry.entryId
            { s.update entry.entryId (·.accepted health) with
              mismatches := s.mismatches.filter (· ≠ entry.entryId) } :=
          assigned_update fun _ _ _ => ⟨rfl, .inl rfl⟩
        exact hupdate.claimLink _
      · exact assigned_acceptOther

theorem assigned_reconcile : Assigned s entry.entryId (s.reconcileIdentity entry).1 := by
  unfold Panels.reconcileIdentity
  split
  · rename_i own did hahead
    unfold Panels.ahead at hahead
    split at hahead
    · split at hahead
      · rename_i hcond
        cases hahead
        rw [Bool.and_eq_true] at hcond
        exact assigned_commit hcond.2
      · cases hahead
    · cases hahead
  · split
    · split
      · exact assigned_of_entries rfl
      · split
        · exact assigned_of_entries rfl
        · exact assigned_of_entries rfl
    · exact assigned_of_entries rfl

/-- An identity that is restored from records is not asked for; the rest of the call is as for any
entry. -/
theorem OneEntry.acceptHealth (h : OneEntry s)
    (hfree : entry.uniqueId = none → ∀ did, s.recordedIdentities entry = [did] →
      Free s entry.entryId did) :
    OneEntry (s.acceptHealth entry sha256 health).1 := by
  unfold Panels.acceptHealth
  split
  · exact h.assigned (assigned_acceptKnown entry)
  · exact h.assigned (assigned_acceptKnown entry)
  · rename_i did hnone hrecorded
    have hrestored : OneEntry (s.update entry.entryId fun e => { e with uniqueId := some did }) :=
      h.assigned (assigned_update fun _ _ _ => ⟨rfl, .inr ⟨did, rfl, hfree hnone did hrecorded⟩⟩)
    exact hrestored.assigned (assigned_acceptKnown { entry with uniqueId := some did })
  · have hrejected : Assigned s entry.entryId (s.rejectHealth entry).1 :=
      assigned_of_entries reject_entries
    exact h.assigned hrejected

/-! ## Runs -/

inductive Call where
  | acceptHealth (entryId : String) (health : HealthLine.PanelHealth)
  | confirmIdentity (entryId : String) (health : HealthLine.PanelHealth)
  | adoptMovedIdentity (entryId did : String)
  | reconcileIdentity (entryId : String)
  /-- The rest of Home Assistant changes everything but the entries. -/
  | outside (world : Panels)
  /-- Other data of an entry is changed. -/
  | edit (entryId : String) (f : Entry → Entry)
  /-- A config flow adds an entry. -/
  | add (entry : Entry)
  | remove (entryId : String)

namespace Panels

variable (s : Panels)

/-- A call about an entry, if there is one. -/
def about (entryId : String) (call : Entry → Panels × Bool) : Panels :=
  match s.entries.find? (·.entryId = entryId) with
  | none => s
  | some entry => (call entry).1

def step (sha256 : String → String) (s : Panels) : Call → Panels
  | .acceptHealth entryId health => s.about entryId fun entry => s.acceptHealth entry sha256 health
  | .confirmIdentity entryId health => s.about entryId fun entry => s.confirmIdentity entry health
  | .adoptMovedIdentity entryId did => s.about entryId fun entry => s.adoptMovedIdentity entry did
  | .reconcileIdentity entryId => s.about entryId fun entry => s.reconcileIdentity entry
  | .outside world => { world with entries := s.entries }
  | .edit entryId f => s.update entryId fun e =>
    { f e with entryId := e.entryId, uniqueId := e.uniqueId }
  | .add entry => { s with entries := entry :: s.entries }
  | .remove entryId => { s with entries := s.entries.filter (·.entryId ≠ entryId) }

end Panels

/-- An identity that the call restores from records, or that it adds an entry with, is one that no
other entry has. -/
def RestoresFree (s : Panels) : Call → Prop
  | .acceptHealth entryId _ =>
    ∀ entry ∈ s.entries, entry.entryId = entryId → entry.uniqueId = none →
      ∀ did, s.recordedIdentities entry = [did] → Free s entryId did
  | .add entry => ∀ did, entry.uniqueId = some did → Free s entry.entryId did
  | _ => True

theorem OneEntry.about (h : OneEntry s) {call : Entry → Panels × Bool}
    (hcall : ∀ entry ∈ s.entries, entry.entryId = entryId → OneEntry (call entry).1) :
    OneEntry (s.about entryId call) := by
  unfold Panels.about
  split
  · exact h
  · rename_i entry hentry
    have hid := List.find?_some hentry
    exact hcall entry (List.mem_of_find?_eq_some hentry) (of_decide_eq_true hid)

theorem OneEntry.add (h : OneEntry s)
    (hfree : ∀ did, entry.uniqueId = some did → Free s entry.entryId did) :
    OneEntry { s with entries := entry :: s.entries } := by
  have hsame : ∀ e ∈ s.entries, ∀ did, entry.uniqueId = some did → e.uniqueId = some did →
      e.entryId = entry.entryId := by
    intro e he did hentry hdid
    by_contra hne
    exact hfree did hentry e he hne hdid
  intro e₁ he₁ e₂ he₂ did hdid₁ hdid₂
  rcases List.mem_cons.mp he₁ with rfl | hold₁
  · rcases List.mem_cons.mp he₂ with rfl | hold₂
    · rfl
    · exact (hsame e₂ hold₂ did hdid₁ hdid₂).symm
  · rcases List.mem_cons.mp he₂ with rfl | hold₂
    · exact hsame e₁ hold₁ did hdid₂ hdid₁
    · exact h e₁ hold₁ e₂ hold₂ did hdid₁ hdid₂

theorem OneEntry.step (h : OneEntry s) {call : Call} (hfree : RestoresFree s call) :
    OneEntry (s.step sha256 call) := by
  cases call with
  | acceptHealth entryId health =>
    refine h.about fun entry hentry hid => h.acceptHealth fun hnone did hrecorded => ?_
    rw [hid]
    exact hfree entry hentry hid hnone did hrecorded
  | confirmIdentity entryId health => exact h.about fun _ _ _ => h.assigned assigned_confirm
  | adoptMovedIdentity entryId did => exact h.about fun _ _ _ => h.assigned (assigned_adopt did)
  | reconcileIdentity entryId => exact h.about fun _ _ _ => h.assigned assigned_reconcile
  | outside world => exact h
  | edit entryId f => exact h.assigned (assigned_update fun _ _ _ => ⟨rfl, .inl rfl⟩)
  | add entry => exact h.add hfree
  | remove entryId =>
    intro e he e' he'
    exact h e (List.mem_filter.mp he).1 e' (List.mem_filter.mp he').1

/-- In every run no two entries come to hold one identity, whatever panels answer and whatever
happens to the registries, as long as no identity that another entry holds is restored from the
records of an entry without one, or added. -/
theorem one_identity_one_entry (sha256 : String → String) (s : Panels)
    (calls : List Call) (h : OneEntry s)
    (hfree : Along (Panels.step sha256) RestoresFree s calls) :
    OneEntry (run (Panels.step sha256) s calls) :=
  run_inv_along OneEntry (fun _ _ h hfree => h.step hfree) h hfree

/-- A panel that tells no identity. -/
def silent : HealthLine.PanelHealth :=
  ⟨"1.0.0", "hall", "", "", none, none, none, false, none, none, false, false, none, none⟩

def hall : Entry := ⟨"hall", some "a", "10.0.0.5", false, none, none, none, none⟩

def house : Panels := ⟨[hall], [], fun _ => none, fun _ => none, ["hall"], [], [], []⟩

/-- A panel that tells an identity. -/
def telling (did : Char) : HealthLine.PanelHealth :=
  { silent with discoveryId := some (String.ofList (List.replicate 64 did)) }

def identified (entryId : String) (did : Char) : Entry :=
  ⟨entryId, some (String.ofList (List.replicate 64 did)), "10.0.0.6", true, none, none, none, none⟩

/-- The identity that an entry without one took over from MQTT, and that another entry has by
now. -/
def taken : String := String.ofList (List.replicate 64 'a')

/-- An entry without an identity, whose records name one. -/
def unclaimed : Entry := { hall with uniqueId := none, cutover := some ⟨some taken, "hall", []⟩ }

def pair : Panels :=
  { house with
    entries := [unclaimed, identified "kitchen" 'c']
    entities :=
      [⟨"light.kitchen", "light", true, String.ofList (List.replicate 64 'c' ++ "_light".toList),
      "kitchen"⟩] }

/-- The one entry restores its identity, the other one moves to a new one, and a third one is added
with the identity that is free by then. -/
def restoreMoveAdd : List Call :=
  [.acceptHealth "hall" (telling 'a'),
    .adoptMovedIdentity "kitchen" (String.ofList (List.replicate 64 'b')),
    .add (identified "porch" 'c')]

theorem one_identity_restored : OneEntry (run (Panels.step id) pair restoreMoveAdd) ∧
    (run (Panels.step id) pair restoreMoveAdd).entries.map (·.uniqueId) =
      ['c', 'a', 'b'].map fun did => some (String.ofList (List.replicate 64 did)) := by
  have hpair : OneEntry pair := by
    intro e he e' he' did hdid hdid'
    rcases List.mem_cons.mp he with rfl | he
    · cases hdid
    · rcases List.mem_cons.mp he' with rfl | he'
      · cases hdid'
      · rw [List.mem_singleton.mp he, List.mem_singleton.mp he']
  refine ⟨one_identity_one_entry id pair restoreMoveAdd hpair ⟨?_, trivial, ?_, trivial⟩,
    by decide⟩
  · intro entry hentry hhall hnone did hrecorded
    have hunclaimed : entry = unclaimed := by
      rcases List.mem_cons.mp hentry with heq | hentry
      · exact heq
      · rw [List.mem_singleton.mp hentry] at hnone
        cases hnone
    have hdid : did = taken := by
      rw [hunclaimed] at hrecorded
      exact (List.singleton_inj.mp
        ((by decide : pair.recordedIdentities unclaimed = [taken]).symm.trans
        hrecorded)).symm
    rw [hdid]
    unfold Free
    decide
  · intro did hdid
    cases hdid
    unfold Free
    decide

/-- An entry without an identity, beside one that has the identity of its records. -/
def doubled : Panels :=
  { house with entries := [unclaimed, { hall with entryId := "kitchen", uniqueId := some taken }] }

-- a restored identity is not asked for
example : (doubled.step id (.acceptHealth "hall" silent)).entries.map (·.uniqueId) =
    [some taken, some taken] := by
  decide

end PanelAssistant.Identity
