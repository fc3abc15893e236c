import Mathlib.Data.List.Dedup
import PanelAssistant.Identity.Runs

/-!
# Rekeys whose saves are lost

The registry and the entries are saved independently, so a restart may find only one half of
`_commit_identity` on disk. `reconcile_identity` finds which half it is, and makes the other one.
-/

namespace PanelAssistant.Identity

open Library Library.Text

variable {s w : Panels} {entry e : Entry} {own did : String}

/-! ## The identities of entities -/

theorem nativeIdentity_spec {uniqueId x : String} :
    nativeIdentity uniqueId = some x ↔ HealthLine.isValidDiscoveryId x.toList = true ∧
      ∃ c rest, uniqueId.toList = x.toList ++ '_' :: c :: rest ∧ '\n' ∉ c :: rest := by
  unfold nativeIdentity HealthLine.isValidDiscoveryId
  constructor
  · intro h
    split at h
    · rename_i c rest hdrop
      split at h
      · rename_i hcond
        cases h
        simp only [Bool.and_eq_true, Bool.not_eq_true', List.contains_eq_mem,
          decide_eq_false_iff_not] at hcond
        rw [String.toList_ofList]
        refine ⟨hcond.1, c, rest, ?_, hcond.2⟩
        rw [← hdrop, List.take_append_drop]
      · cases h
    · cases h
  · rintro ⟨hvalid, c, rest, hlist, hline⟩
    have hlength : x.toList.length = 64 := by
      simp only [repeats, Bool.and_eq_true, decide_eq_true_eq] at hvalid
      omega
    have hdrop : uniqueId.toList.drop 64 =
      '_' :: c :: rest := by rw [hlist, ← hlength, List.drop_left]
    have htake : uniqueId.toList.take 64 = x.toList := by rw [hlist, ← hlength, List.take_left]
    rw [hdrop]
    simp only [htake, String.ofList_toList]
    rw [if_pos]
    simp only [Bool.and_eq_true, Bool.not_eq_true', List.contains_eq_mem, decide_eq_false_iff_not]
    exact ⟨hvalid, hline⟩

theorem length_of_valid {x : String} (h : HealthLine.isValidDiscoveryId x.toList = true) :
    x.toList.length = 64 := by
  simp only [HealthLine.isValidDiscoveryId, repeats, Bool.and_eq_true, decide_eq_true_eq] at h
  omega

theorem mem_nativeIdentities {x : String} :
    x ∈ s.nativeIdentities entry ↔
      ∃ item ∈ s.entities, item.entryId = entry.entryId ∧ item.native = true ∧
      nativeIdentity item.uniqueId = some x := by
  simp only [Panels.nativeIdentities, List.mem_dedup, List.mem_filterMap,
    List.mem_filter, Bool.and_eq_true, decide_eq_true_eq, and_assoc]

theorem belongs_spec {item : Entity} {entryId : String} :
    item.belongs entryId own = true ↔ item.entryId = entryId ∧ item.native = true ∧
      ∃ rest, item.uniqueId.toList = own.toList ++ '_' :: rest := by
  simp only [Entity.belongs, Bool.and_eq_true, decide_eq_true_eq,
    List.isPrefixOf_iff_prefix, and_assoc]
  refine and_congr_right fun _ => and_congr_right fun _ => ?_
  constructor
  · rintro ⟨rest, hrest⟩
    rw [String.toList_append, List.append_assoc] at hrest
    exact ⟨rest, hrest.symm⟩
  · rintro ⟨rest, hrest⟩
    refine ⟨rest, ?_⟩
    rw [String.toList_append, List.append_assoc, hrest]
    rfl

/-- A rekeyed unique id. -/
theorem target_list {item : Entity} {rest : List Char}
    (h : item.uniqueId.toList = own.toList ++ rest) :
    (item.target own did).toList = did.toList ++ rest := by
  rw [Entity.target, String.toList_append, String.toList_ofList,
    h, ← String.length_toList, List.drop_left]

/-- After a rekey to another identity nothing is left to rekey. -/
theorem belongs_rekey {item : Entity} {entryId : String}
    (hlength : did.toList.length = own.toList.length)
    (hne : did ≠ own) : (item.rekey entryId own did).belongs entryId own = false := by
  rw [Bool.eq_false_iff]
  intro h
  unfold Entity.rekey at h
  split at h
  · rename_i hbelongs
    obtain ⟨-, -, rest, hrest⟩ := belongs_spec.mp hbelongs
    obtain ⟨-, -, rest', hrest'⟩ := belongs_spec.mp h
    have htarget : did.toList ++ '_' :: rest = own.toList ++ '_' :: rest' :=
      (target_list hrest).symm.trans hrest'
    exact hne (String.toList_injective (List.append_inj_left htarget hlength))
  · rename_i hbelongs
    exact hbelongs h

theorem rekey_rekey {item : Entity} {entryId : String}
    (hlength : did.toList.length = own.toList.length)
    (hne : did ≠ own) : (item.rekey entryId own did).rekey entryId own did =
      item.rekey entryId own did := by
  rw [Entity.rekey, if_neg]
  rw [belongs_rekey hlength hne]
  exact Bool.false_ne_true

/-! ## What a rekey asked -/

theorem available_of_free (h : Free s entry.entryId did) :
    s.identityAvailable entry did = true := by
  rw [Panels.identityAvailable, Bool.not_eq_true', List.any_eq_false]
  intro e he hdid
  obtain ⟨hmem, hne⟩ := List.mem_filter.mp he
  exact h e hmem (of_decide_eq_true hne) (of_decide_eq_true hdid)

theorem movable_spec (h : s.movable entry own did = true) :
    Free s entry.entryId did ∧ (∀ x ∈ s.nativeIdentities entry, x = own ∨ x = did) ∧
      s.targetsFree entry own did = true := by
  rw [Panels.movable, Bool.and_eq_true, Bool.and_eq_true, List.all_eq_true] at h
  refine ⟨free_of_available h.1.1, fun x hx => ?_, h.2⟩
  simpa using h.1.2 x hx

/-- What was asked of an entry and of the registry is so for another record of the entry. -/
theorem movable_same (h : s.movable entry own did = true) (hfree : Free w entry.entryId did)
    (hentities : w.entities = s.entities) (hid : e.entryId = entry.entryId) :
    w.movable e own did = true := by
  have havailable : w.identityAvailable e did = true := available_of_free (by rw [hid]; exact hfree)
  rw [Panels.movable, Bool.and_eq_true, Bool.and_eq_true] at h ⊢
  refine ⟨⟨havailable, ?_⟩, ?_⟩
  · rw [Panels.nativeIdentities, hentities, hid]
    exact h.1.2
  · rw [Panels.targetsFree, hentities, hid]
    exact h.2

/-! ## One save of two -/

/-- An entry that was saved, after which the registry is not ahead: what it has is the identity of
the entry or the previous one. -/
theorem reconcile_saved (hentries : w.entries = (s.commitIdentity entry own did).entries)
    (he : e ∈ w.entries)
    (hid : e.entryId = entry.entryId) (hnative : ∀ x ∈ w.nativeIdentities e, x = own ∨ x = did)
    (hmovable : w.movable e own did = true) :
    w.reconcileIdentity e =
      ({ w with entities := w.entities.map (·.rekey e.entryId own did) }, true) := by
  have hsaved : e.uniqueId = some did ∧ e.installation = true ∧ e.previous = some own := by
    rw [hentries] at he
    rcases mem_update he with ⟨old, -, -, rfl⟩ | ⟨-, hother⟩
    · exact ⟨rfl, rfl, rfl⟩
    · exact absurd hid hother
  obtain ⟨hunique, hinstallation, hprevious⟩ := hsaved
  have hahead : w.ahead e = none := by
    unfold Panels.ahead
    split
    · rename_i own' ahead hown hahead
      rw [hunique] at hown
      cases hown
      rw [if_neg]
      have hmem : ahead ∈ w.nativeIdentities e := by
        rw [hahead]
        exact List.mem_singleton_self ahead
      rcases hnative ahead hmem with rfl | rfl
      · simp [hprevious]
      · simp
    · rfl
  unfold Panels.reconcileIdentity
  rw [hahead]
  simp only [hprevious, hinstallation, hunique, hmovable, if_true]

theorem free_saved (hfree : Free s entry.entryId did)
    (hentries : w.entries = (s.commitIdentity entry own did).entries) :
    Free w entry.entryId did := by
  intro other hother hother_id
  rw [hentries] at hother
  rcases mem_update hother with ⟨old, -, hold, rfl⟩ | ⟨hold, -⟩
  · exact absurd hold hother_id
  · exact hfree other hold hother_id

/-- The entry was saved and the registry was not. -/
theorem reconcile_entry_saved (h : s.movable entry own did = true)
    (hentries : w.entries = (s.commitIdentity entry own did).entries)
    (hentities : w.entities = s.entities)
    (he : e ∈ w.entries) (hid : e.entryId = entry.entryId) :
    w.reconcileIdentity e =
      ({ w with entities := (s.commitIdentity entry own did).entities }, true) := by
  obtain ⟨hfree, hnative, -⟩ := movable_spec h
  have hmovable : w.movable e own did = true :=
    movable_same h (free_saved hfree hentries) hentities hid
  have hsame : w.nativeIdentities e = s.nativeIdentities entry := by
    rw [Panels.nativeIdentities, hentities, hid]
    rfl
  rw [reconcile_saved hentries he hid (by rw [hsame]; exact hnative) hmovable, hentities, hid]
  rfl

/-- Each entity in the registry that has an identity has the new one. -/
theorem rekeyed_identity (hnative : ∀ x ∈ s.nativeIdentities entry, x = own ∨ x = did)
    (hdid : HealthLine.isValidDiscoveryId did.toList = true)
    (hentities : w.entities = (s.commitIdentity entry own did).entities)
    (hid : e.entryId = entry.entryId) {x : String}
    (hx : x ∈ w.nativeIdentities e) : x = did := by
  obtain ⟨item, hitem, hitem_id, hplatform, hx⟩ := mem_nativeIdentities.mp hx
  rw [hid] at hitem_id
  rw [hentities] at hitem
  obtain ⟨old, hold, rfl⟩ := List.mem_map.mp hitem
  unfold Entity.rekey at hitem_id hplatform hx
  split at hx
  · rename_i hbelongs
    obtain ⟨-, -, rest, hrest⟩ := belongs_spec.mp hbelongs
    obtain ⟨hvalid, c, rest', hlist, -⟩ := nativeIdentity_spec.mp hx
    have hboth : x.toList ++ '_' :: c :: rest' = did.toList ++ '_' :: rest :=
      hlist.symm.trans (target_list hrest)
    have hlength : x.toList.length = did.toList.length :=
      (length_of_valid hvalid).trans (length_of_valid hdid).symm
    exact String.toList_injective (List.append_inj_left hboth hlength)
  · rename_i hbelongs
    rw [if_neg hbelongs] at hitem_id hplatform
    rcases hnative x (mem_nativeIdentities.mpr ⟨old, hold, hitem_id, hplatform, hx⟩) with rfl | rfl
    · obtain ⟨-, c, rest, hlist, -⟩ := nativeIdentity_spec.mp hx
      exact absurd (belongs_spec.mpr ⟨hitem_id, hplatform, c :: rest, hlist⟩) hbelongs
    · rfl

/-- The registry has the new identity, and no other, once an entity had one. -/
theorem nativeIdentities_rekeyed (hnative : ∀ x ∈ s.nativeIdentities entry, x = own ∨ x = did)
    (hsome : s.nativeIdentities entry ≠ []) (hown : HealthLine.isValidDiscoveryId own.toList = true)
    (hdid : HealthLine.isValidDiscoveryId did.toList = true) (hne : did ≠ own)
    (hentities : w.entities = (s.commitIdentity entry own did).entities) :
    w.nativeIdentities entry = [did] := by
  have hlength : did.toList.length = own.toList.length :=
    (length_of_valid hdid).trans (length_of_valid hown).symm
  have hmem : did ∈ w.nativeIdentities entry := by
    obtain ⟨x, hx⟩ := List.exists_mem_of_ne_nil _ hsome
    obtain ⟨old, hold, hid, hplatform, hidentity⟩ := mem_nativeIdentities.mp hx
    have hkept : old.rekey entry.entryId own did ∈ w.entities := by
      rw [hentities]
      exact List.mem_map_of_mem hold
    obtain ⟨-, c, rest, hlist, hline⟩ := nativeIdentity_spec.mp hidentity
    refine mem_nativeIdentities.mpr ⟨old.rekey entry.entryId own did, hkept, ?_⟩
    unfold Entity.rekey
    rcases hnative x hx with rfl | rfl
    · rw [if_pos (belongs_spec.mpr ⟨hid, hplatform, c :: rest, hlist⟩)]
      exact ⟨hid, hplatform, nativeIdentity_spec.mpr ⟨hdid, c, rest, target_list hlist, hline⟩⟩
    · rw [if_neg]
      · exact ⟨hid, hplatform, hidentity⟩
      · intro hbelongs
        obtain ⟨-, -, rest', hrest'⟩ := belongs_spec.mp hbelongs
        have hboth : x.toList ++ '_' :: c :: rest = own.toList ++ '_' :: rest' :=
          hlist.symm.trans hrest'
        exact hne (String.toList_injective (List.append_inj_left hboth hlength))
  have hnodup : (w.nativeIdentities entry).Nodup := List.nodup_dedup _
  refine List.perm_singleton.mp
    ((List.perm_ext_iff_of_nodup hnodup (List.nodup_singleton did)).mpr fun x => ?_)
  rw [List.mem_singleton]
  exact ⟨rekeyed_identity hnative hdid hentities rfl, fun heq => heq ▸ hmem⟩

/-- A rekey that is made again changes nothing. -/
theorem rekey_again (hlength : did.toList.length = own.toList.length) (hne : did ≠ own)
    (hentities : w.entities = (s.commitIdentity entry own did).entities) :
    w.entities.map (·.rekey entry.entryId own did) = w.entities := by
  rw [hentities]
  show (s.entities.map (·.rekey entry.entryId own did)).map (·.rekey entry.entryId own did) =
    s.entities.map (·.rekey entry.entryId own did)
  rw [List.map_map]
  exact List.map_congr_left fun item _ => rekey_rekey hlength hne

/-- Both were saved. -/
theorem reconcile_both_saved (h : s.movable entry own did = true) (hne : did ≠ own)
    (hown : HealthLine.isValidDiscoveryId own.toList = true)
    (hdid : HealthLine.isValidDiscoveryId did.toList = true)
    (hentries : w.entries = (s.commitIdentity entry own did).entries)
    (hentities : w.entities = (s.commitIdentity entry own did).entities)
    (he : e ∈ w.entries) (hid : e.entryId = entry.entryId) : w.reconcileIdentity e = (w, true) := by
  obtain ⟨hfree, hnative, -⟩ := movable_spec h
  have hlength : did.toList.length = own.toList.length :=
    (length_of_valid hdid).trans (length_of_valid hown).symm
  have hidentity : ∀ x ∈ w.nativeIdentities e, x = own ∨ x = did :=
    fun x hx => .inr (rekeyed_identity hnative hdid hentities hid hx)
  have hmovable : w.movable e own did = true := by
    have havailable : w.identityAvailable e did = true :=
      available_of_free (by rw [hid]; exact free_saved hfree hentries)
    rw [Panels.movable, Bool.and_eq_true, Bool.and_eq_true, List.all_eq_true]
    refine ⟨⟨havailable, fun x hx => by simpa using hidentity x hx⟩, ?_⟩
    rw [Panels.targetsFree, List.all_eq_true, hentities]
    intro item hitem
    obtain ⟨old, -, rfl⟩ := List.mem_map.mp hitem
    rw [hid, belongs_rekey hlength hne]
    rfl
  rw [reconcile_saved hentries he hid hidentity hmovable, hid, rekey_again hlength hne hentities]

/-- The registry was saved and the entry was not. -/
theorem reconcile_registry_saved (h : s.movable entry own did = true) (hne : did ≠ own)
    (hunique : entry.uniqueId = some own) (hinstallation : entry.installation = true)
    (hprevious : entry.previous ≠ some did) (hsome : s.nativeIdentities entry ≠ [])
    (hown : HealthLine.isValidDiscoveryId own.toList = true)
    (hdid : HealthLine.isValidDiscoveryId did.toList = true)
    (hentries : w.entries = s.entries)
    (hentities : w.entities = (s.commitIdentity entry own did).entities) :
    w.reconcileIdentity entry = (w.commitIdentity entry own did, true) ∧
      (w.commitIdentity entry own did).entries = (s.commitIdentity entry own did).entries ∧
      (w.commitIdentity entry own did).entities = (s.commitIdentity entry own did).entities := by
  obtain ⟨hfree, hnative, -⟩ := movable_spec h
  have hlength : did.toList.length = own.toList.length :=
    (length_of_valid hdid).trans (length_of_valid hown).symm
  have hrekeyed : w.nativeIdentities entry = [did] :=
    nativeIdentities_rekeyed hnative hsome hown hdid hne hentities
  have hahead : w.ahead entry = some (own, did) := by
    have havailable : w.identityAvailable entry did = true := by
      refine available_of_free fun e he => ?_
      rw [hentries] at he
      exact hfree e he
    unfold Panels.ahead
    rw [hunique, hrekeyed]
    simp [hinstallation, hne, Ne.symm hprevious, havailable]
  refine ⟨?_, ?_, ?_⟩
  · unfold Panels.reconcileIdentity
    rw [hahead]
  · simp only [Panels.commitIdentity, Panels.update, hentries]
  · have hagain : (w.commitIdentity entry own did).entities =
      w.entities.map (·.rekey entry.entryId own did) := rfl
    rw [hagain, rekey_again hlength hne hentities, hentities]

/-! ## Recovery -/

/-- What a call that was asked for another identity of the entry returned. -/
def Asked (s : Panels) (entry : Entry) (did : String) (r : Panels × Bool) : Prop :=
  r = s.adoptMovedIdentity entry did ∨
    ∃ health : HealthLine.PanelHealth, health.discoveryId = some did ∧
      r = s.confirmIdentity entry health

theorem asked_spec {r : Panels × Bool} (h : Asked s entry did r) (htrue : r.2 = true) :
    ∃ own, entry.uniqueId = some own ∧ did ≠ own ∧ s.movable entry own did = true ∧
      r.1 = s.commitIdentity entry own did := by
  rcases h with rfl | ⟨health, hdid, rfl⟩
  · unfold Panels.adoptMovedIdentity at htrue ⊢
    split at htrue
    · cases htrue
    · rename_i own hown
      split at htrue
      · rename_i hcond
        rw [if_pos hcond]
        simp only [Bool.and_eq_true, decide_eq_true_eq] at hcond
        exact ⟨own, hown, hcond.1.2, hcond.2, rfl⟩
      · cases htrue
  · unfold Panels.confirmIdentity at htrue ⊢
    split at htrue
    · rename_i own did' hconfirm
      obtain ⟨-, hsame, hmovable⟩ := canConfirm_spec hconfirm
      rw [hdid, Option.some.injEq] at hsame
      subst hsame
      unfold Panels.canConfirmIdentity at hconfirm
      rw [hdid] at hconfirm
      split at hconfirm
      · rename_i own' did' hown hsome
        split at hconfirm
        · rename_i hcond
          cases hconfirm
          refine ⟨own, hown, ?_, hmovable, rfl⟩
          -- a candidate tells another identity
          rintro rfl
          simp [migrationCandidate, hown, hdid] at hcond
        · cases hconfirm
      · cases hconfirm
    · cases htrue

/-- Whichever of the two saves of a rekey a restart finds on disk, the entry's or the registry's,
and whatever else has changed by then, `reconcile_identity` makes both. When the entry's is the one
that was lost, it finds the rekey by the entities, and only of an entry that had an installation
identity and has not come back to the one before. -/
theorem rekey_recovers (s w : Panels) (entry e : Entry) (did : String) (r : Panels × Bool)
    (hasked : Asked s entry did r) (htrue : r.2 = true)
    (honly : ∀ e ∈ s.entries, e.entryId = entry.entryId → e = entry)
    (hvalid : ∀ x, x = did ∨ entry.uniqueId = some x →
      HealthLine.isValidDiscoveryId x.toList = true)
    (he : e ∈ w.entries) (hid : e.entryId = entry.entryId)
    (hsaved : w.entries = r.1.entries ∧ (w.entities = s.entities ∨ w.entities = r.1.entities) ∨
      w.entries = s.entries ∧ w.entities = r.1.entities ∧ entry.installation = true ∧
        entry.previous ≠ some did ∧
        s.nativeIdentities entry ≠ []) :
    (w.reconcileIdentity e).2 = true ∧ (w.reconcileIdentity e).1.entries = r.1.entries ∧
      (w.reconcileIdentity e).1.entities = r.1.entities := by
  obtain ⟨own, hunique, hne, hmovable, hcommit⟩ := asked_spec hasked htrue
  have hdid : HealthLine.isValidDiscoveryId did.toList = true := hvalid did (.inl rfl)
  have hown : HealthLine.isValidDiscoveryId own.toList = true := hvalid own (.inr hunique)
  rw [hcommit] at hsaved ⊢
  rcases hsaved with ⟨hentries, hentities | hentities⟩ | ⟨hentries, hentities,
    hinstallation, hprevious, hsome⟩
  · rw [reconcile_entry_saved hmovable hentries hentities he hid]
    exact ⟨rfl, hentries, rfl⟩
  · rw [reconcile_both_saved hmovable hne hown hdid hentries hentities he hid]
    exact ⟨rfl, hentries, hentities⟩
  · have hsame : e = entry := honly e (hentries ▸ he) hid
    obtain ⟨hreconciled, hdone⟩ :=
      reconcile_registry_saved hmovable hne hunique hinstallation hprevious hsome hown
        hdid hentries hentities
    rw [hsame, hreconciled]
    exact ⟨rfl, hdone⟩

/-- An installation and its entity. -/
def panel : Entry :=
  { hall with uniqueId := some (String.ofList (List.replicate 64 'a')), installation := true }

def power : Entity :=
  ⟨"switch.hall_power", "switch", true,
    String.ofList (List.replicate 64 'a' ++ "_power".toList), "hall"⟩

def home : Panels := { house with entries := [panel], entities := [power] }

/-- Its panel was reinstalled, and the entry was not saved. -/
def lost : Panels :=
  { home with
    entities := (home.adoptMovedIdentity panel (String.ofList (List.replicate 64 'b'))).1.entities }

theorem rekey_recovers_lost : (lost.reconcileIdentity panel).2 = true := by
  have hvalid : ∀ x, x = String.ofList (List.replicate 64 'b') ∨ panel.uniqueId = some x →
      HealthLine.isValidDiscoveryId x.toList = true := by
    rintro x (rfl | hx)
    · decide
    · cases hx
      decide
  exact (rekey_recovers home lost panel panel (String.ofList (List.replicate 64 'b')) _
    (.inl rfl) (by decide)
    (fun e he _ => List.mem_singleton.mp he) hvalid List.mem_cons_self rfl
    (.inr ⟨rfl, rfl, rfl, by decide, by decide⟩)).1

end PanelAssistant.Identity
