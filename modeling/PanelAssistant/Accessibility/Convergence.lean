import Mathlib.Data.List.Flatten
import PanelAssistant.Accessibility.Agreement

/-!
# Granting again

The list of a grant is read by the next one, which accepts at most 64 services in at most 4096
characters. The first one adds a service without looking at these bounds, so a second grant keeps
the list exactly while the bounds leave room for it (`repeated_grant_iff`).
-/

namespace PanelAssistant.Accessibility

open Library Library.Text Library.Separated

inductive Installer where
  | network
  | browser

/-- `_expected_services` or `expectedServices` -/
def Installer.expectedServices (installer : Installer) (before : List Char)
    (launchComponent : LaunchComponent) : Option (List Char) :=
  match installer with
  | network => Accessibility.expectedServices before launchComponent
  | browser => browserExpectedServices before packageId launchComponent

/-- The list after a grant has the service of the build and everybody else's, in their order, and
a second grant keeps it. -/
structure Converged (installer : Installer) (launchComponent : LaunchComponent)
    (before after : List Char) : Prop where
  enabled : ∃ name ∈ entries after, name ∈ known launchComponent
  others : kept launchComponent (entries before) <+: entries after
  added : (entries after).length ≤ (kept launchComponent (entries before)).length + 1
  nodup : (entries after).Nodup
  again : installer.expectedServices after launchComponent = some after

/-- The service of the build is listed, or the bounds leave room for it. -/
def RoomLeft (launchComponent : LaunchComponent) (before : List Char) : Prop :=
  (∃ name ∈ kept launchComponent (entries before), name ∈ known launchComponent) ∨
    (kept launchComponent (entries before)).length < 64 ∧
      (join (kept launchComponent (entries before) ++ [component launchComponent])).length ≤ 4096

section

variable {launchComponent : LaunchComponent} {before after : List Char} {words : List (List Char)}

theorem Installer.expectedServices_eq (installer : Installer) :
    installer.expectedServices before launchComponent = expected before launchComponent := by
  cases installer with
  | network => exact Accessibility.expectedServices_eq before launchComponent
  | browser => exact browserExpectedServices_eq before launchComponent

theorem component_mem_known (launchComponent : LaunchComponent) :
    component launchComponent ∈ known launchComponent := by
  cases launchComponent with
  | oldClasses => exact List.mem_singleton_self _
  | newClasses => exact List.mem_cons_of_mem _ (List.mem_singleton_self _)

theorem component_not_mem_obsolete (launchComponent : LaunchComponent) :
    component launchComponent ∉ obsolete launchComponent := by
  cases launchComponent with
  | oldClasses => exact List.not_mem_nil
  | newClasses =>
    intro h
    exact absurd (List.mem_singleton.mp h) (by decide)

/-- A list of services is read back from its text. -/
theorem entries_join (hne : words ≠ []) (h : ∀ word ∈ words, isServiceComponent word = true) :
    entries (join words) = words := by
  have hcolon : ∀ word ∈ words, ':' ∉ word := fun word hword =>
    not_mem_of_service (h word hword) (by decide)
  have hslash : '/' ∈ join words := by
    obtain ⟨word, hword⟩ := List.exists_mem_of_ne_nil words hne
    have hmem : '/' ∈ word := by
      have hword := h word hword
      unfold isServiceComponent at hword
      split at hword
      · rename_i hclass
        exact mem_of_afterFirst_ne_nil (by rw [hclass]; exact List.cons_ne_nil _ _)
      · cases hword
    exact mem_intercalate hword hmem
  have hplain : ¬(join words = [] ∨ join words = "null".toList) := by
    rintro (hnil | hnull)
    · rw [hnil] at hslash
      cases hslash
    · rw [hnull] at hslash
      exact absurd hslash (by decide)
  rw [entries, if_neg hplain]
  exact List.splitOn_intercalate ':' hcolon hne

theorem grantedEntries_ne_nil : grantedEntries launchComponent words ≠ [] := by
  unfold grantedEntries
  split
  · rename_i hknown
    obtain ⟨name, hname, -⟩ := hknown
    exact List.ne_nil_of_mem hname
  · simp

theorem grantedEntries_services (h : ∀ word ∈ words, isServiceComponent word = true) :
    ∀ word ∈ grantedEntries launchComponent words, isServiceComponent word = true := by
  have hkept : ∀ word ∈ kept launchComponent words, isServiceComponent word = true :=
    fun word hword => h word (List.mem_of_mem_filter hword)
  unfold grantedEntries
  split
  · exact hkept
  · intro word hword
    rcases List.mem_append.mp hword with hword | hword
    · exact hkept word hword
    · exact List.mem_singleton.mp hword ▸ isServiceComponent_component launchComponent

theorem known_mem_grantedEntries :
    ∃ name ∈ grantedEntries launchComponent words, name ∈ known launchComponent := by
  unfold grantedEntries
  split
  · assumption
  · exact ⟨component launchComponent, List.mem_append_right _ (List.mem_singleton_self _),
      component_mem_known launchComponent⟩

theorem nodup_grantedEntries (h : words.Nodup) : (grantedEntries launchComponent words).Nodup := by
  unfold grantedEntries
  split
  · exact h.filter _
  · rename_i hnone
    refine List.nodup_append.mpr ⟨h.filter _, List.nodup_singleton _, ?_⟩
    rintro name hname _ hcomponent rfl
    exact hnone ⟨name, hname, List.mem_singleton.mp hcomponent ▸
      component_mem_known launchComponent⟩

theorem kept_grantedEntries :
    kept launchComponent (grantedEntries launchComponent words) =
      grantedEntries launchComponent words := by
  refine List.filter_eq_self.mpr fun name hname => decide_eq_true ?_
  have hcurrent : ∀ name ∈ kept launchComponent words, name ∉ obsolete launchComponent :=
    fun name hname => of_decide_eq_true (List.mem_filter.mp hname).2
  unfold grantedEntries at hname
  split at hname
  · exact hcurrent name hname
  · rcases List.mem_append.mp hname with hname | hname
    · exact hcurrent name hname
    · exact List.mem_singleton.mp hname ▸ component_not_mem_obsolete launchComponent

/-- A second grant finds the service and adds none. -/
theorem grantedEntries_idem :
    grantedEntries launchComponent (grantedEntries launchComponent words) =
      grantedEntries launchComponent words := by
  conv_lhs => rw [grantedEntries, kept_grantedEntries, if_pos known_mem_grantedEntries]

/-- A shorter list has a shorter text. -/
theorem length_join_sublist {words' : List (List Char)} (hne : words' ≠ [])
    (h : words'.Sublist words) : (join words').length ≤ (join words).length := by
  have hlength : ∀ {words : List (List Char)}, words ≠ [] →
      (join words).length + 1 = (terminated ':' words).length := by
    intro words hwords
    rw [terminated_eq_intercalate hwords, List.length_append, List.length_singleton, join]
  have hne' : words ≠ [] := by
    rintro rfl
    exact hne (List.sublist_nil.mp h)
  have hle := (h.flatMap (· ++ [':'])).length_le
  rw [← terminated, ← terminated, ← hlength hne, ← hlength hne'] at hle
  omega

theorem length_join_kept (hreadable : Readable before)
    (hne : kept launchComponent (entries before) ≠ []) :
    (join (kept launchComponent (entries before))).length ≤ 4096 := by
  have hplain : ¬(before = [] ∨ before = "null".toList) := by
    intro hempty
    rw [entries, if_pos hempty] at hne
    exact hne rfl
  have hjoin : join (entries before) = before := by
    rw [entries, if_neg hplain, join, List.intercalate_splitOn]
  have hle := length_join_sublist hne (List.filter_sublist (l := entries before))
  rw [hjoin] at hle
  exact hle.trans hreadable.length

/-- Whether the new list is readable. -/
theorem readable_granted_iff (hreadable : Readable before) :
    Readable (join (grantedEntries launchComponent (entries before))) ↔
      RoomLeft launchComponent before := by
  have hentries : entries (join (grantedEntries launchComponent (entries before))) =
      grantedEntries launchComponent (entries before) :=
    entries_join grantedEntries_ne_nil (grantedEntries_services hreadable.services)
  have hservices : ∀ service ∈ entries (join (grantedEntries launchComponent (entries before))),
      isServiceComponent service = true := by
    rw [hentries]
    exact grantedEntries_services hreadable.services
  have hnodup : (entries (join (grantedEntries launchComponent (entries before)))).Nodup := by
    rw [hentries]
    exact nodup_grantedEntries hreadable.nodup
  have hcount : (kept launchComponent (entries before)).length ≤ 64 :=
    (List.length_filter_le _ _).trans hreadable.count
  by_cases hknown : ∃ name ∈ kept launchComponent (entries before), name ∈ known launchComponent
  · have hgranted : grantedEntries launchComponent (entries before) =
        kept launchComponent (entries before) := if_pos hknown
    obtain ⟨name, hname, -⟩ := id hknown
    refine iff_of_true ⟨?_, ?_, hnodup, hservices⟩ (.inl hknown)
    · rw [hgranted]
      exact length_join_kept hreadable (List.ne_nil_of_mem hname)
    · rw [hentries, hgranted]
      exact hcount
  · have hgranted : grantedEntries launchComponent (entries before) =
        kept launchComponent (entries before) ++ [component launchComponent] := if_neg hknown
    rw [RoomLeft, or_iff_right hknown, ← hgranted]
    constructor
    · intro h
      have hle := h.count
      rw [hentries, hgranted, List.length_append, List.length_singleton] at hle
      exact ⟨by omega, h.length⟩
    · rintro ⟨hfew, hlength⟩
      refine ⟨hlength, ?_, hnodup, hservices⟩
      rw [hentries, hgranted, List.length_append, List.length_singleton]
      omega

end

/-- Whatever a grant makes of a list it accepts has the service of the build and everybody else's;
a second grant keeps it exactly while the bounds left room. -/
theorem repeated_grant_iff {installer : Installer} {launchComponent : LaunchComponent}
    {before after : List Char}
    (h : installer.expectedServices before launchComponent = some after) :
    Converged installer launchComponent before after ↔ RoomLeft launchComponent before := by
  rw [installer.expectedServices_eq, expected] at h
  split at h
  · rename_i hreadable
    obtain rfl := Option.some.inj h
    have hentries : entries (join (grantedEntries launchComponent (entries before))) =
        grantedEntries launchComponent (entries before) :=
      entries_join grantedEntries_ne_nil (grantedEntries_services hreadable.services)
    rw [← readable_granted_iff hreadable]
    constructor
    · intro hconverged
      have hagain := hconverged.again
      rw [installer.expectedServices_eq, expected] at hagain
      by_contra hlong
      rw [if_neg hlong] at hagain
      cases hagain
    · intro hagain
      refine ⟨?_, ?_, ?_, ?_, ?_⟩
      · rw [hentries]
        exact known_mem_grantedEntries
      · rw [hentries, grantedEntries]
        split
        · exact List.prefix_refl _
        · exact List.prefix_append _ _
      · rw [hentries, grantedEntries]
        split
        · exact Nat.le_succ _
        · rw [List.length_append, List.length_singleton]
      · rw [hentries]
        exact nodup_grantedEntries hreadable.nodup
      · rw [installer.expectedServices_eq, expected, if_pos hagain, hentries, grantedEntries_idem]
  · cases h

/-! ### A full list -/

/-- 64 services of another app. -/
def crowd : List (List Char) :=
  (List.range 64).map fun i => "a/b".toList ++ [Nat.digitChar (i / 16), Nat.digitChar (i % 16)]

/-- The list of a first grant, and what a second one makes of it. -/
theorem crowd_refused : ∃ after,
    expectedServices (join crowd) .newClasses = some after ∧
      expectedServices after .newClasses = none := by
  have hrefused : (expectedServices (join crowd) .newClasses).any
      (fun after => (expectedServices after .newClasses).isNone) = true := by decide +kernel
  obtain ⟨after, hafter, hnone⟩ := (Option.any_eq_true _ _).mp hrefused
  exact ⟨after, hafter, Option.isNone_iff_eq_none.mp hnone⟩

/-- The obsolete service of a list between others' is replaced for good. -/
theorem mixed_converges :
    Converged .network .newClasses mixed (join [reader, keyboard, newService]) := by
  have hgranted : Installer.network.expectedServices mixed .newClasses =
      some (join [reader, keyboard, newService]) := by
    decide +kernel
  have hroom : (kept .newClasses (entries mixed)).length < 64 ∧
      (join (kept .newClasses (entries mixed) ++ [component .newClasses])).length ≤ 4096 := by
    decide +kernel
  exact (repeated_grant_iff hgranted).mpr (.inr hroom)

end PanelAssistant.Accessibility
