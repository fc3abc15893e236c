import Mathlib.Data.List.Infix
import PanelAssistant.Library.Ranking
import PanelAssistant.PanelBackup.Names

/-!
# What a call does to the directory

A call changes the files of its own entry only (`belongs_of_mem_names`), and wherever it is cut off
every archive is complete (`Complete.result`). A call that returns leaves the last five archives in
the order of names (`mem_archives_store`), so the one it has just written is among them exactly if
fewer than five sort after it (`stored_iff`).
-/

namespace PanelAssistant.PanelBackup

open Library Library.Files

variable {r : Readers} {entry other : EntryId} {code : Option ℤ} {clock : Clock} {data : Bytes}
  {receipt : Receipt} {d : Directory} {name old : Name}

/-- A receipt that a call made. -/
theorem backupReceipt_eq_some (h : backupReceipt r entry code clock data = some receipt) :
    (verifyPanelBackup r data).isSome = true ∧ receipt.archive = archiveName entry code clock := by
  obtain ⟨verified, hverified, rfl⟩ := Option.map_eq_some_iff.mp h
  rw [hverified]
  exact ⟨rfl, rfl⟩

theorem isArchive_receipt (h : backupReceipt r entry code clock data = some receipt) :
    isArchive entry receipt.archive = true := by
  rw [(backupReceipt_eq_some h).2]
  exact isArchive_archiveName entry code clock

/-! ## The names of the operations -/

theorem mem_names_writeOps {op : Op} (hop : op ∈ writeOps receipt data) (h : name ∈ op.names) :
    name = besideName receipt.archive ∨ name = receipt.archive ∨
      name = besideName (receiptName receipt.archive) ∨ name = receiptName receipt.archive := by
  simp only [writeOps, writeFile, List.cons_append, List.nil_append,
    List.mem_cons, List.not_mem_nil, or_false] at hop
  rcases hop with rfl | rfl | rfl | rfl | rfl | rfl
  all_goals
    simp only [Op.names, List.mem_cons, List.not_mem_nil, or_false] at h
    grind

theorem mem_retentionOps {op : Op} (hop : op ∈ retentionOps entry d) :
    ∃ old ∈ archives entry d, op = .unlink old ∨ op = .unlink (receiptName old) := by
  obtain ⟨old, hold, hop⟩ := List.mem_flatMap.mp hop
  refine ⟨old, mem_kept.mp (List.mem_of_mem_take hold), ?_⟩
  simpa using hop

theorem mem_deleteOps {op : Op} (hop : op ∈ deleteOps entry d) :
    ∃ name, op = .unlink name ∧ isArtifact entry name = true := by
  obtain ⟨name, hname, rfl⟩ := List.mem_map.mp hop
  simp only [List.mem_filter, Bool.and_eq_true] at hname
  exact ⟨name, rfl, hname.2.1⟩

/-- A call changes files of its own entry only. -/
theorem belongs_of_mem_names (r : Readers) (d : Directory) (call : Call) {op : Op}
    (hop : op ∈ call.ops r d) (h : name ∈ op.names) : Belongs call.entry name := by
  cases call with
  | store entry code clock data =>
    unfold Call.ops at hop
    simp only at hop
    split at hop
    · rename_i receipt hreceipt
      have harchive := isArchive_receipt hreceipt
      have hbelongs := belongs_of_isArchive harchive
      have hdashed := dashed_of_isArchive harchive
      rcases List.mem_append.mp hop with hop | hop
      · rcases mem_names_writeOps hop h with rfl | rfl | rfl | rfl
        · exact belongs_besideName hdashed
        · exact hbelongs
        · exact belongs_besideName (hdashed.trans (List.prefix_append _ _))
        · exact hbelongs.receiptName
      · obtain ⟨old, hold, rfl | rfl⟩ := mem_retentionOps hop
        all_goals
          have hold := belongs_of_isArchive (mem_archives.mp hold).1
          rw [Op.names, List.mem_singleton] at h
          subst h
        · exact hold
        · exact hold.receiptName
    · cases hop
  | delete entry =>
    obtain ⟨name', rfl, hartifact⟩ := mem_deleteOps hop
    rw [Op.names, List.mem_singleton] at h
    subst h
    rw [isArtifact, Bool.and_eq_true, List.isPrefixOf_iff_prefix] at hartifact
    exact .inl hartifact.1

/-- The files of other entries are left alone, wherever the call ends. -/
theorem get?_result (r : Readers) (d : Directory) (a : Attempt) (hne : a.call.entry ≠ other)
    (h : Belongs other name) : (a.result r d).get? name = d.get? name := by
  have hnames : ∀ op ∈ a.call.ops r d, name ∉ op.names := fun op hop hname =>
    not_belongs hne (belongs_of_mem_names r d a.call hop hname) h
  unfold Attempt.result
  split
  · exact get?_exec hnames d
  · exact get?_interrupted hnames d _ _

/-! ## Complete archives -/

/-- Every archive holds the bytes of a backup that is accepted. -/
def Complete (r : Readers) (d : Directory) : Prop :=
  ∀ name bytes, d.get? name = some bytes → zipEnding <:+ name →
    (verifyPanelBackup r bytes).isSome = true

theorem Complete.set (h : Complete r d) {bytes : Bytes}
    (hbytes : zipEnding <:+ name → (verifyPanelBackup r bytes).isSome = true) :
    Complete r (d.set name bytes) := by
  intro other bytes' hget hzip
  rw [Dict.get?_set] at hget
  split at hget
  · rename_i heq
    cases hget
    exact hbytes (heq ▸ hzip)
  · exact h other bytes' hget hzip

theorem Complete.pop (h : Complete r d) (name : Name) : Complete r (d.pop name) := by
  intro other bytes hget hzip
  rw [Dict.get?_pop] at hget
  split at hget
  · cases hget
  · exact h other bytes hget hzip

theorem safe_writeFile_complete (h : Complete r d) {target : Name} {bytes : Bytes}
    (hbytes : zipEnding <:+ target → (verifyPanelBackup r bytes).isSome = true) (beside : Name) :
    Safe (Complete r) d (writeFile (besideName beside) target bytes) := by
  have hbeside : ∀ d bytes, Complete r d → Complete r (d.set (besideName beside) bytes) :=
    fun d bytes h => h.set fun hzip => absurd hzip (not_zip_besideName beside)
  refine safe_writeFile hbeside (fun d h => ?_) h
  rw [exec_writeFile]
  exact ((hbeside _ _ (hbeside _ _ h)).pop _).set hbytes

theorem safe_unlinks {ops : List Op} (hops : ∀ op ∈ ops, ∃ name, op = .unlink name)
    (h : Complete r d) :
    Safe (Complete r) d ops := by
  refine safe_of_forall (fun op hop d h => ?_) h
  obtain ⟨name, rfl⟩ := hops op hop
  exact ⟨h.pop name, fun k op' htorn => by cases htorn⟩

theorem Complete.safe (h : Complete r d) (call : Call) : Safe (Complete r) d (call.ops r d) := by
  cases call with
  | store entry code clock data =>
    unfold Call.ops
    simp only
    split
    · rename_i receipt hreceipt
      have hwrite : Safe (Complete r) d (writeOps receipt data) :=
        (safe_writeFile_complete h (fun _ => (backupReceipt_eq_some hreceipt).1) _).append
          (safe_writeFile_complete (safe_writeFile_complete h
            (fun _ => (backupReceipt_eq_some hreceipt).1) _).exec
            (fun hzip => absurd hzip (not_zip_receiptName _)) _)
      refine hwrite.append (safe_unlinks (fun op hop => ?_) hwrite.exec)
      obtain ⟨old, -, rfl | rfl⟩ := mem_retentionOps hop
      · exact ⟨_, rfl⟩
      · exact ⟨_, rfl⟩
    · exact h
  | delete entry =>
    refine safe_unlinks (fun op hop => ?_) h
    obtain ⟨name, rfl, -⟩ := mem_deleteOps hop
    exact ⟨name, rfl⟩

theorem Complete.result (h : Complete r d) (a : Attempt) : Complete r (a.result r d) := by
  unfold Attempt.result
  split
  · exact (h.safe a.call).exec
  · exact (h.safe a.call).interrupted _ _

/-! ## What is left -/

theorem get?_writeOps (hname : isArchive entry name = true) :
    (exec d (writeOps receipt data)).get? name =
      if name = receipt.archive then some data else d.get? name := by
  rw [writeOps, exec_append, get?_writeFile, if_neg (ne_receiptName hname _),
    if_neg (ne_besideName hname _), get?_writeFile]
  split
  · rfl
  · rw [if_neg (ne_besideName hname _)]

theorem get?_writeOps_receipt :
    (exec d (writeOps receipt data)).get? (receiptName receipt.archive) = some receipt.bytes := by
  rw [writeOps, exec_append, get?_writeFile, if_pos rfl]

/-- The write adds its archive to those of the entry. -/
theorem mem_archives_writeOps (harchive : isArchive entry receipt.archive = true) :
    name ∈ archives entry (exec d (writeOps receipt data)) ↔
      name = receipt.archive ∨ name ∈ archives entry d := by
  rw [mem_archives, mem_archives]
  by_cases hname : isArchive entry name = true
  · rw [get?_writeOps hname]
    by_cases heq : name = receipt.archive <;> simp [heq, hname, harchive]
  · have hne : name ≠ receipt.archive := fun heq => hname (heq ▸ harchive)
    simp [hname, hne]

/-- The archives that retention removes. -/
def removed (entry : EntryId) (d : Directory) : List Name :=
  (kept entry d).take ((kept entry d).length - keepPerPanel)

theorem isArchive_of_mem_removed (h : old ∈ removed entry d) : isArchive entry old = true :=
  (mem_archives.mp (mem_kept.mp (List.mem_of_mem_take h))).1

theorem get?_unlinks (names : List Name) (d : Directory) (name : Name) :
    (exec d (names.flatMap fun old => [.unlink old, .unlink (receiptName old)])).get? name =
      if ∃ old ∈ names, name = old ∨ name = receiptName old then none else d.get? name := by
  induction names generalizing d with
  | nil => simp
  | cons old names ih =>
    rw [List.flatMap_cons, exec_append, ih]
    simp only [exec_cons, exec_nil, Op.apply, Dict.get?_pop]
    by_cases hold : name = old
    · simp [hold]
    · by_cases hreceipt : name = receiptName old
      · simp [hreceipt]
      · simp [hold, hreceipt]

theorem get?_retentionOps (hname : isArchive entry name = true) :
    (exec d (retentionOps entry d)).get? name = if name ∈
      removed entry d then none else d.get? name := by
  rw [retentionOps, get?_unlinks]
  refine if_congr ⟨?_, fun h => ⟨name, h, .inl rfl⟩⟩ rfl rfl
  rintro ⟨old, hold, rfl | rfl⟩
  · exact hold
  · exact absurd rfl (ne_receiptName hname old)

/-- The receipt of an archive stays with the archive. -/
theorem get?_retentionOps_receipt (h : name ∉ removed entry d) :
    (exec d (retentionOps entry d)).get? (receiptName name) = d.get? (receiptName name) := by
  rw [retentionOps, get?_unlinks, if_neg]
  rintro ⟨old, hold, heq | heq⟩
  · exact ne_receiptName (isArchive_of_mem_removed hold) name heq.symm
  · rw [receiptName, receiptName, List.append_cancel_right_eq] at heq
    exact h (heq ▸ hold)

theorem mem_archives_retention :
    name ∈ archives entry (exec d (retentionOps entry d)) ↔
      name ∈ archives entry d ∧ name ∉ removed entry d := by
  rw [mem_archives, mem_archives]
  by_cases hname : isArchive entry name = true
  · rw [get?_retentionOps hname]
    by_cases hremoved : name ∈ removed entry d <;> simp [hremoved]
  · simp [hname]

/-- The last five in the order of names. -/
theorem mem_kept_drop :
    name ∈ archives entry d ∧ name ∉ removed entry d ↔
      name ∈ (kept entry d).drop ((kept entry d).length - keepPerPanel) := by
  have hnodup : (kept entry d).Nodup := (kept_sorted entry d).imp fun h => ne_of_lt h
  have hsplit := List.take_append_drop ((kept entry d).length - keepPerPanel) (kept entry d)
  rw [← mem_kept, removed]
  constructor
  · rintro ⟨hmem, hnot⟩
    rw [← hsplit, List.mem_append] at hmem
    exact hmem.resolve_left hnot
  · intro hmem
    refine ⟨List.mem_of_mem_drop hmem, fun htake => ?_⟩
    rw [← hsplit] at hnodup
    exact (List.nodup_append.mp hnodup).2.2 name htake name hmem rfl

theorem length_archives_retention (entry : EntryId) (d : Directory) :
    (archives entry (exec d (retentionOps entry d))).length ≤ keepPerPanel := by
  have hsubset : archives entry (exec d (retentionOps entry d)) ⊆
      (kept entry d).drop ((kept entry d).length - keepPerPanel) :=
    fun name hname => mem_kept_drop.mp (mem_archives_retention.mp hname)
  have hle := (List.subperm_of_subset (nodup_archives _ _) hsubset).length_le
  rw [List.length_drop] at hle
  omega

/-- What retention removes sorts before what it keeps. -/
theorem lt_of_mem_removed (h : old ∈ removed entry d) (hname : name ∈ archives entry d)
    (hkept : name ∉ removed entry d) : old < name := by
  have hsorted := kept_sorted entry d
  rw [← List.take_append_drop ((kept entry d).length - keepPerPanel) (kept entry d),
    List.pairwise_append] at hsorted
  exact hsorted.2.2 old h name (mem_kept_drop.mp ⟨hname, hkept⟩)

/-! ## The archive just written -/

/-- The archives that sort after a name. -/
def later (entry : EntryId) (d : Directory) (name : Name) : ℕ :=
  (archives entry d).countP fun other => name < other

/-- An archive is removed if five sort after it. -/
theorem mem_removed_iff (h : name ∈ archives entry d) :
    name ∈ removed entry d ↔ keepPerPanel ≤ later entry d name := by
  have hsorted := kept_sorted entry d
  have hnodup : (kept entry d).Nodup := hsorted.imp fun h => ne_of_lt h
  have hmem : name ∈ kept entry d := mem_kept.mpr h
  have hcount : (kept entry d).length =
      (kept entry d).countP (fun other => other < name) + 1 +
        (kept entry d).countP fun other => name < other := by
    obtain ⟨before, after, hsplit⟩ := List.append_of_mem hmem
    rw [hsplit, List.pairwise_append, List.pairwise_cons] at hsorted
    obtain ⟨-, ⟨hafter, -⟩, hbefore⟩ := hsorted
    have hlow : ∀ other ∈ before, other < name :=
      fun other ho => hbefore other ho name List.mem_cons_self
    rw [hsplit]
    simp only [List.countP_append, List.countP_cons, List.length_append, List.length_cons]
    have hbl : before.countP (fun other => decide (other < name)) = before.length :=
      List.countP_eq_length.mpr fun other ho => decide_eq_true (hlow other ho)
    have hbg : before.countP (fun other => decide (name < other)) = 0 :=
      List.countP_eq_zero.mpr fun other ho => by simpa using (hlow other ho).le
    have hal : after.countP (fun other => decide (other < name)) = 0 :=
      List.countP_eq_zero.mpr fun other ho => by simpa using (hafter other ho).le
    have hag : after.countP (fun other => decide (name < other)) = after.length :=
      List.countP_eq_length.mpr fun other ho => decide_eq_true (hafter other ho)
    simp only [hbl, hbg, hal, hag, lt_irrefl, decide_false]
    simp
    omega
  have hperm : later entry d name = (kept entry d).countP fun other => decide (name < other) :=
    ((List.perm_insertionSort _ _).countP_eq _).symm
  have htake : name ∈ (kept entry d).take ((kept entry d).length - keepPerPanel) ↔
      (kept entry d).countP (fun other => decide (other < name)) <
        (kept entry d).length - keepPerPanel :=
    Ranking.mem_take_iff_countP hsorted hmem (decide_eq_false (lt_irrefl name))
      (fun other _ hlt => decide_eq_false hlt.not_gt) (fun other _ _ hlt => decide_eq_true hlt) _
  rw [removed, htake, hperm, keepPerPanel]
  omega

/-- The archive that a receipt names is there, with the bytes that were verified, and so is the
receipt. -/
structure Stored (receipt : Receipt) (data : Bytes) (d : Directory) : Prop where
  archive : d.get? receipt.archive = some data
  receipt : d.get? (receiptName receipt.archive) = some receipt.bytes

theorem later_writeOps (harchive : isArchive entry receipt.archive = true) :
    later entry (exec d (writeOps receipt data)) receipt.archive =
      later entry d receipt.archive := by
  rw [later, later, List.countP_eq_length_filter, List.countP_eq_length_filter]
  refine List.Perm.length_eq ((List.perm_ext_iff_of_nodup ((nodup_archives _ _).filter _)
    ((nodup_archives _ _).filter _)).mpr fun other => ?_)
  rw [List.mem_filter, List.mem_filter, mem_archives_writeOps harchive, decide_eq_true_eq]
  constructor
  · rintro ⟨rfl | hother, hlt⟩
    · exact absurd hlt (lt_irrefl _)
    · exact ⟨hother, hlt⟩
  · rintro ⟨hother, hlt⟩
    exact ⟨.inr hother, hlt⟩

/-- **What was just stored is kept** exactly if fewer than five archives of the entry sort after
it. -/
theorem stored_iff (harchive : isArchive entry receipt.archive = true) :
    Stored receipt data (exec d (writeBackup entry receipt data d)) ↔
      later entry d receipt.archive < keepPerPanel := by
  have hmem : receipt.archive ∈ archives entry (exec d (writeOps receipt data)) :=
    (mem_archives_writeOps harchive).mpr (.inl rfl)
  have hremoved := mem_removed_iff hmem
  rw [later_writeOps harchive] at hremoved
  rw [writeBackup, exec_append, ← not_le, ← hremoved]
  constructor
  · rintro ⟨hget, -⟩ hin
    rw [get?_retentionOps harchive, if_pos hin] at hget
    cases hget
  · intro hnot
    refine ⟨?_, ?_⟩
    · rw [get?_retentionOps harchive, if_neg hnot, get?_writeOps harchive, if_pos rfl]
    · rw [get?_retentionOps_receipt hnot, get?_writeOps_receipt]

/-! ## A removed entry -/

theorem get?_unlink_map (names : List Name) (d : Directory) (name : Name) :
    (exec d (names.map .unlink)).get? name = if name ∈ names then none else d.get? name := by
  induction names generalizing d with
  | nil => simp
  | cons other names ih =>
    rw [List.map_cons, exec_cons, ih, Op.apply, Dict.get?_pop]
    by_cases hother : name = other <;> simp [hother]

theorem get?_deleteOps (hartifact : isArtifact entry name = true)
    (hending : zipEnding <:+ name ∨ zipEnding ++ jsonEnding <:+ name) :
    (exec d (deleteOps entry d)).get? name = none := by
  rw [deleteOps, get?_unlink_map]
  split
  · rfl
  · rename_i hnot
    refine Dict.get?_eq_none.mpr fun hkey => hnot (List.mem_filter.mpr ⟨hkey, ?_⟩)
    rw [Bool.and_eq_true, Bool.or_eq_true, List.isSuffixOf_iff_suffix, List.isSuffixOf_iff_suffix]
    exact ⟨hartifact, hending⟩

theorem isArtifact_of_rest {rest after : List Char} (h : zipEnding <:+ rest) :
    isArtifact entry (entry.dashed ++ rest ++ after) = true := by
  obtain ⟨before, rfl⟩ := h
  rw [isArtifact, Bool.and_eq_true, List.isPrefixOf_iff_prefix, List.append_assoc, List.drop_left,
    List.any_eq_true]
  refine ⟨List.prefix_append _ _, zipEnding ++ after, ?_, ?_⟩
  · rw [List.mem_tails, List.append_assoc]
    exact List.suffix_append _ _
  · rw [List.isPrefixOf_iff_prefix]
    exact List.prefix_append _ _

/-- No archive of a removed entry is left and no receipt. -/
theorem get?_delete_archive (h : isArchive entry name = true) :
    (deletePanelBackups entry d).get? name = none ∧
      (deletePanelBackups entry d).get? (receiptName name) = none := by
  have hzip := zip_of_isArchive h
  obtain ⟨rest, rfl⟩ := dashed_of_isArchive h
  rw [isArchive, Bool.and_eq_true, List.drop_left, List.isSuffixOf_iff_suffix] at h
  have hempty : isArtifact entry (entry.dashed ++ rest ++ []) = true := isArtifact_of_rest h.2
  rw [List.append_nil] at hempty
  refine ⟨get?_deleteOps hempty (.inl hzip), get?_deleteOps (isArtifact_of_rest h.2) (.inr ?_)⟩
  obtain ⟨before, hbefore⟩ := hzip
  exact ⟨before, by rw [← List.append_assoc, hbefore, receiptName]⟩

end PanelAssistant.PanelBackup
