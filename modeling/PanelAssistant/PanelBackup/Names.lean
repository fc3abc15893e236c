import PanelAssistant.PanelBackup.Basic

/-!
# Names of backups

Which names are archives, which belong to an entry, and which the operations of a call may change.
The names of one entry's files are apart from those of every other entry (`not_belongs`).
-/

namespace PanelAssistant.PanelBackup

open Library Library.Files Library.Text

/-- The files of an entry, and what stands beside them while they are written. -/
def Belongs (entry : EntryId) (name : Name) : Prop :=
  entry.dashed <+: name ∨ '.' :: entry.dashed <+: name

variable {entry other : EntryId} {name old : Name}

/-! ## Endings -/

theorem getLast?_of_suffix {ending text : List Char} (h : ending <:+ text) (hne : ending ≠ []) :
    text.getLast? = ending.getLast? := by
  obtain ⟨before, rfl⟩ := h
  rw [List.getLast?_append]
  cases hlast : ending.getLast? with
  | none => exact absurd (List.getLast?_eq_none_iff.mp hlast) hne
  | some c => rfl

theorem not_zip_receiptName (name : Name) : ¬ zipEnding <:+ receiptName name := by
  intro h
  have hlast := getLast?_of_suffix h (by decide)
  rw [receiptName, getLast?_of_suffix (List.suffix_append name jsonEnding) (by decide)] at hlast
  revert hlast
  decide

theorem not_zip_besideName (name : Name) : ¬ zipEnding <:+ besideName name := by
  intro h
  have hlast := getLast?_of_suffix h (by decide)
  have hbeside : besideEnding <:+ besideName name := ⟨'.' :: name, rfl⟩
  rw [getLast?_of_suffix hbeside (by decide)] at hlast
  revert hlast
  decide

theorem zip_of_isArchive (h : isArchive entry name = true) : zipEnding <:+ name := by
  rw [isArchive, Bool.and_eq_true, List.isSuffixOf_iff_suffix] at h
  exact h.2.trans (List.drop_suffix _ _)

theorem dashed_of_isArchive (h : isArchive entry name = true) : entry.dashed <+: name := by
  rw [isArchive, Bool.and_eq_true, List.isPrefixOf_iff_prefix] at h
  exact h.1

theorem ne_besideName (h : isArchive entry name = true) (other : Name) :
    name ≠ besideName other := by
  rintro rfl
  exact not_zip_besideName other (zip_of_isArchive h)

theorem ne_receiptName (h : isArchive entry name = true) (other : Name) :
    name ≠ receiptName other := by
  rintro rfl
  exact not_zip_receiptName other (zip_of_isArchive h)

theorem isArchive_archiveName (entry : EntryId) (code : Option ℤ) (clock : Clock) :
    isArchive entry (archiveName entry code clock) = true := by
  rw [isArchive, Bool.and_eq_true, List.isPrefixOf_iff_prefix,
    List.isSuffixOf_iff_suffix, archiveName, List.append_assoc, List.drop_left]
  exact ⟨List.prefix_append _ _, List.suffix_append _ _⟩

/-! ## Whose names they are -/

theorem dash_not_mem (entry : EntryId) : '-' ∉ entry.text := by
  intro h
  have := entry.plain _ h
  revert this
  decide

theorem dot_not_mem (entry : EntryId) : '.' ∉ entry.text := by
  intro h
  have := entry.plain _ h
  revert this
  decide

theorem text_of_dashed (h : entry.dashed <+: name) : name.takeWhile (· ≠ '-') = entry.text := by
  obtain ⟨rest, rfl⟩ := h
  have hall : ∀ c ∈ entry.text, decide (c ≠ '-') = true := fun c hc =>
    decide_eq_true fun heq => dash_not_mem entry (heq ▸ hc)
  rw [EntryId.dashed, List.append_assoc, List.takeWhile_append_of_pos hall]
  simp

theorem dashed_ne_dot (entry : EntryId) (rest : List Char) : ¬ entry.dashed <+: '.' :: rest := by
  intro h
  unfold EntryId.dashed at h
  cases htext : entry.text with
  | nil =>
    rw [htext, List.nil_append, List.cons_prefix_cons] at h
    exact absurd h.1 (by decide)
  | cons c text =>
    rw [htext, List.cons_append, List.cons_prefix_cons] at h
    refine dot_not_mem entry ?_
    rw [htext, ← h.1]
    exact List.mem_cons_self

theorem EntryId.ext_text (h : entry.text = other.text) : entry = other := by
  cases entry
  cases other
  congr

/-- A file belongs to one entry. -/
theorem not_belongs (hne : entry ≠ other) (h : Belongs entry name) : ¬ Belongs other name := by
  have hdashed : ∀ {name}, entry.dashed <+: name → ¬ other.dashed <+: name := by
    intro name h h'
    exact hne (EntryId.ext_text ((text_of_dashed h).symm.trans (text_of_dashed h')))
  rcases h with h | h
  · rintro (h' | h')
    · exact hdashed h h'
    · obtain ⟨rest, rfl⟩ := h'
      exact dashed_ne_dot entry _ h
  · obtain ⟨rest, rfl⟩ := h
    rintro (h' | h')
    · exact dashed_ne_dot other _ h'
    · rw [List.cons_append, List.cons_prefix_cons] at h'
      exact hdashed (List.prefix_append _ _) h'.2

theorem belongs_of_isArchive (h : isArchive entry name = true) : Belongs entry name :=
  .inl (dashed_of_isArchive h)

theorem Belongs.receiptName (h : Belongs entry name) : Belongs entry (receiptName name) :=
  h.imp (fun h => h.trans (List.prefix_append _ _)) fun h => h.trans (List.prefix_append _ _)

theorem belongs_besideName (h : entry.dashed <+: name) : Belongs entry (besideName name) :=
  .inr (List.cons_prefix_cons.mpr ⟨rfl, h.trans (List.prefix_append _ _)⟩)

/-! ## Archives of a directory -/

theorem mem_archives {d : Directory} :
    name ∈ archives entry d ↔ isArchive entry name = true ∧ ∃ bytes, d.get? name = some bytes := by
  rw [archives, List.mem_filter, Dict.mem_keys, and_comm]

theorem nodup_archives (entry : EntryId) (d : Directory) : (archives entry d).Nodup :=
  d.nodup.filter _

theorem mem_kept {d : Directory} : name ∈ kept entry d ↔ name ∈ archives entry d :=
  List.mem_insertionSort _

theorem kept_sorted (entry : EntryId) (d : Directory) : (kept entry d).Pairwise (· < ·) := by
  have hle : (kept entry d).Pairwise (· ≤ ·) := List.pairwise_insertionSort _ _
  have hnodup : (kept entry d).Nodup :=
    (List.perm_insertionSort _ _).nodup_iff.mpr (nodup_archives entry d)
  exact (hle.and hnodup).imp fun h => lt_of_le_of_ne h.1 h.2

end PanelAssistant.PanelBackup
