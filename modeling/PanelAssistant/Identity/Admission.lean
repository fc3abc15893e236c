import PanelAssistant.Identity.Runs

/-!
# Whom an entry admits

What `accept_health` returns decides (`Decided`): a panel that it admits has the identity of the
entry then, with the entities of the entry moved there from the identity that it held before, and
one that it refuses changes no entity and loses the session.
-/

namespace PanelAssistant.Identity

open Library

variable {s s' : Panels} {entry : Entry} {entryId : String} {health : HealthLine.PanelHealth}
  {sha256 : String → String} {held : Option String}

/-! ## Rekeying -/

/-- The unique id of a native entity of the entry begins with the identity. -/
def Under (entryId own : String) (item : Entity) (rest : String) : Prop :=
  item.entryId = entryId ∧ item.native = true ∧ item.uniqueId = own ++ "_" ++ rest

/-- An entity under the old identity stands under the new one, with the rest of its unique id and
all else that it had. Any other entity stays as it is. -/
structure Moved (entryId own did : String) (item item' : Entity) : Prop where
  under : ∀ rest, Under entryId own item rest → item' = { item with uniqueId := did ++ "_" ++ rest }
  other : (∀ rest, ¬ Under entryId own item rest) → item' = item

/-- The entities of an entry follow it from the identity that it held, if it held one, to the one
that it has. -/
structure Follow (s : Panels) (entryId : String) (held did : Option String)
    (s' : Panels) : Prop where
  first : held = none → s'.entities = s.entities
  moved : ∀ own, held = some own → ∃ new, did = some new ∧
    List.Forall₂ (Moved entryId own new) s.entities s'.entities

/-- Nothing of any entry or entity is changed, and the entry's authority is withdrawn. -/
structure Refused (s : Panels) (entryId : String) (s' : Panels) : Prop where
  entries : s'.entries = s.entries
  entities : s'.entities = s.entities
  session : entryId ∉ s'.sessions
  marked : ∀ c, s'.coordinators entryId = some c → c.identityMismatch = true

/-- The entry claims the link of another one, whose panel does not answer as itself. -/
def Claimed (s : Panels) (entryId : String) (e : Entry) (s' : Panels) : Prop :=
  s.answersAsItself e = false ∧ ∃ link, e.legacyDid = some link ∧
    ∃ claimant ∈ s'.entries, claimant.entryId = entryId ∧ claimant.legacyDid = some link

/-- The entry answers for the panel and its entities follow it. The others keep all but a link that
the entry claimed. -/
structure Admitted (s : Panels) (entryId : String) (held did : Option String) (s' : Panels) :
    Prop where
  stays : ∃ e' ∈ s'.entries, e'.entryId = entryId
  answers : ∀ e' ∈ s'.entries, e'.entryId = entryId → e'.uniqueId = did
  others : ∀ e' ∈ s'.entries, e'.entryId ≠ entryId → ∃ e ∈ s.entries,
    e' = e ∨ e' = { e with legacyDid := none } ∧ Claimed s entryId e s'
  follow : Follow s entryId held did s'

/-- An entry takes no link from itself. -/
theorem claimLink_keeps {link : Option String} {e : Entry} (he : e ∈ s.entries)
    (hid : e.entryId = entry.entryId) : e ∈ (s.claimLink entry link).entries := by
  unfold Panels.claimLink
  split
  · exact he
  · refine List.mem_map.mpr ⟨e, he, if_neg ?_⟩
    simp [hid]

/-- What a claim takes is the link that it names, from an entry that does not answer as itself. -/
theorem claimLink_cases {link : Option String} {e' : Entry}
    (h : e' ∈ (s.claimLink entry link).entries) : e' ∈ s.entries ∨
      ∃ e ∈ s.entries, e' = { e with legacyDid := none } ∧ s.answersAsItself e = false ∧
        ∃ name, link = some name ∧ e.legacyDid = some name := by
  unfold Panels.claimLink at h
  split at h
  · exact .inl h
  · rename_i name
    obtain ⟨e, he, rfl⟩ := List.mem_map.mp h
    split
    · rename_i hcond
      simp only [Bool.and_eq_true, decide_eq_true_eq, Bool.not_eq_true'] at hcond
      exact .inr ⟨e, he, rfl, hcond.2, name, rfl, hcond.1.2⟩
    · exact .inl he

/-- The entry claims the link that it has then. -/
theorem Admitted.claimLink {did link : Option String} (h : Admitted s entry.entryId held did s')
    (hkept : ∀ e' ∈ s'.entries, e'.entryId ≠ entry.entryId → e' ∈ s.entries)
    (hcoordinators : s'.coordinators = s.coordinators)
    (hlink : ∃ e' ∈ s'.entries, e'.entryId = entry.entryId ∧ e'.legacyDid = link) :
    Admitted s entry.entryId held did (s'.claimLink entry link) := by
  refine ⟨?_, ?_, ?_, ?_⟩
  · obtain ⟨e', he', hid⟩ := h.stays
    exact ⟨e', claimLink_keeps he' hid, hid⟩
  · intro e'' he'' hid
    rcases claimLink_cases he'' with he' | ⟨e', he', rfl, -⟩
    · exact h.answers e'' he' hid
    · exact h.answers e' he' hid
  · intro e'' he'' hid
    rcases claimLink_cases he'' with he' | ⟨e', he', rfl, hsilent, name, hname, hheld⟩
    · exact ⟨e'', hkept e'' he' hid, .inl rfl⟩
    · refine ⟨e', hkept e' he' hid, .inr ⟨rfl, ?_, name, hheld, ?_⟩⟩
      · rw [Panels.answersAsItself, ← hcoordinators]
        exact hsilent
      · obtain ⟨claimant, hclaimant, hsame, hlegacy⟩ := hlink
        exact ⟨claimant, claimLink_keeps hclaimant hsame, hsame, hlegacy.trans hname⟩
  · unfold Panels.claimLink
    split
    · exact h.follow
    · exact ⟨h.follow.first, h.follow.moved⟩

/-- A reinstalled panel, which tells the link of its earlier installation. -/
def returned : HealthLine.PanelHealth :=
  { telling 'b' with legacyDiscoveryId := some "link", installationIdentity := true }

end PanelAssistant.Identity
