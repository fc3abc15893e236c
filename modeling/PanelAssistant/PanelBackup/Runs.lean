import PanelAssistant.Library.Runs
import PanelAssistant.PanelBackup.Retention

/-!
# Runs of backups

Any sequence of calls, each of them cut off anywhere or not at all. Which of two archives is older
is recorded when an archive is put in its place (`Traced.born`). If every backup is stored under a
name that sorts after its entry's archives, names are in the order of time, and retention removes
only what is older (`BirthInv`, `backups_kept`); after a clock is set back, it removes the backup
just taken (`set_back_lost`).
-/

namespace PanelAssistant.PanelBackup

open Library Library.Files Library.Runs

/-- A directory, and when each archive was last put in its place. -/
structure Traced where
  dir : Directory
  born : Name → ℕ
  count : ℕ

namespace Traced

def init : Traced := ⟨∅, fun _ => 0, 0⟩

/-- The archive that an attempt puts in its place. -/
def placed (r : Readers) (a : Attempt) : Option Name :=
  match a.call with
  | .store entry code clock data =>
    match backupReceipt r entry code clock data, a.cutOff with
    | some receipt, none => some receipt.archive
    | some receipt, some (n, _) => if 3 ≤ n then some receipt.archive else none
    | none, _ => none
  | .delete _ => none

def step (r : Readers) (s : Traced) (a : Attempt) : Traced :=
  match placed r a with
  | some name => ⟨a.result r s.dir, Function.update s.born name (s.count + 1), s.count + 1⟩
  | none => ⟨a.result r s.dir, s.born, s.count⟩

end Traced

/-- A backup is stored under a name that no archive of its entry sorts after. -/
def SortsLast (r : Readers) (s : Traced) (a : Attempt) : Prop :=
  match a.call with
  | .store entry code clock data =>
    ∀ receipt, backupReceipt r entry code clock data = some receipt →
      ∀ old ∈ archives entry s.dir, old ≤ receipt.archive
  | .delete _ => True

instance (r : Readers) (s : Traced) : (a : Attempt) → Decidable (SortsLast r s a)
  | ⟨.store entry code clock data, _⟩ =>
    inferInstanceAs (Decidable (∀ receipt ∈ backupReceipt r entry code clock data,
      ∀ old ∈ archives entry s.dir, old ≤ receipt.archive))
  | ⟨.delete _, _⟩ => isTrue trivial

/-- The names of an entry's archives are in the order of time. -/
structure BirthInv (s : Traced) : Prop where
  past : ∀ name, s.born name ≤ s.count
  ordered : ∀ entry, ∀ a ∈ archives entry s.dir, ∀ b ∈ archives entry s.dir,
    a < b → s.born a < s.born b

theorem birthInv_init : BirthInv .init where
  past := fun _ => le_rfl
  ordered := fun _ _ h => by cases h

variable {r : Readers} {entry : EntryId} {code : Option ℤ} {clock : Clock} {data : Bytes}
  {receipt : Receipt} {d : Directory} {name : Name} {s : Traced} {a : Attempt}

/-! ## What an attempt adds -/

theorem placed_eq_some (h : Traced.placed r a = some name) :
    ∃ entry code clock data receipt, a.call = .store entry code clock data ∧
      backupReceipt r entry code clock data = some receipt ∧ name = receipt.archive := by
  obtain ⟨call, cutOff⟩ := a
  cases call with
  | delete entry => cases h
  | store entry code clock data =>
    cases hreceipt : backupReceipt r entry code clock data with
    | none =>
      simp only [Traced.placed, hreceipt] at h
      cases h
    | some receipt =>
      refine ⟨entry, code, clock, data, receipt, rfl, hreceipt, ?_⟩
      cases cutOff with
      | none =>
        simp only [Traced.placed, hreceipt] at h
        exact (Option.some.inj h).symm
      | some cut =>
        simp only [Traced.placed, hreceipt] at h
        exact (Option.some.inj (Option.ite_none_right_eq_some.mp h).2).symm

/-- Operations behind the write of an archive only remove archives. -/
theorem eq_unlink_of_mem (receipt : Receipt) (d : Directory)
    (hname : isArchive entry name = true) {op : Op}
    (hop : op ∈ writeFile (besideName (receiptName receipt.archive)) (receiptName receipt.archive)
      receipt.bytes ++ retentionOps entry d) (h : name ∈ op.names) : op = .unlink name := by
  rcases List.mem_append.mp hop with hop | hop
  · have hne := ne_besideName hname (receiptName receipt.archive)
    have hne' := ne_receiptName hname receipt.archive
    simp only [writeFile, List.mem_cons, List.not_mem_nil, or_false] at hop
    rcases hop with rfl | rfl | rfl
    all_goals simp [Op.names, hne, hne'] at h
  · obtain ⟨old, -, rfl | rfl⟩ := mem_retentionOps hop
    · rw [Op.names, List.mem_singleton] at h
      rw [h]
    · rw [Op.names, List.mem_singleton] at h
      exact absurd h (ne_receiptName hname old)

theorem get?_interrupted_store (receipt : Receipt) (data : Bytes) (d : Directory)
    (hname : isArchive entry name = true) (n k : ℕ) :
    (interrupted d (writeBackup entry receipt data d) n k).get? name = none ∨
      (interrupted d (writeBackup entry receipt data d) n k).get? name = d.get? name ∨
      3 ≤ n ∧ name = receipt.archive := by
  have hne := ne_besideName hname receipt.archive
  match n with
  | 0 => exact .inr (.inl rfl)
  | 1 =>
    refine .inr (.inl ?_)
    change ((Op.append (besideName receipt.archive) (data.take k)).apply (d.set _ [])).get? name = _
    rw [Op.apply, Dict.get?_set_ne _ _ hne, Dict.get?_set_ne _ _ hne]
  | 2 =>
    refine .inr (.inl ?_)
    change ((Op.append (besideName receipt.archive) data).apply (d.set _ [])).get? name = _
    rw [Op.apply, Dict.get?_set_ne _ _ hne, Dict.get?_set_ne _ _ hne]
  | n + 3 =>
    have hrest := get?_interrupted_or
      (fun op hop h => eq_unlink_of_mem receipt (exec d (writeOps receipt data)) hname hop h)
      (exec d (writeFile (besideName receipt.archive) receipt.archive data)) n k
    rw [get?_writeFile, if_neg hne] at hrest
    by_cases heq : name = receipt.archive
    · exact .inr (.inr ⟨Nat.le_add_left 3 n, heq⟩)
    · rw [if_neg heq] at hrest
      rcases hrest with hrest | hrest
      · exact .inr (.inl hrest)
      · exact .inl hrest

theorem mem_archives_delete {cutOff : Option (ℕ × ℕ)}
    (h : name ∈ archives entry (Attempt.result r d ⟨.delete entry, cutOff⟩)) :
    name ∈ archives entry d := by
  obtain ⟨hname, bytes, hget⟩ := mem_archives.mp h
  have hunlinks : ∀ op ∈ deleteOps entry d, name ∈ op.names → op = .unlink name := by
    intro op hop hmem
    obtain ⟨other, rfl, -⟩ := mem_deleteOps hop
    rw [Op.names, List.mem_singleton] at hmem
    rw [hmem]
  have hkeep : ∀ n k, (interrupted d (deleteOps entry d) n k).get? name = some bytes →
      name ∈ archives entry d := by
    intro n k hsome
    rcases get?_interrupted_or hunlinks d n k with hsame | hnone
    · exact mem_archives.mpr ⟨hname, bytes, hsame ▸ hsome⟩
    · rw [hnone] at hsome
      cases hsome
  cases cutOff with
  | none =>
    refine hkeep (deleteOps entry d).length 0 ?_
    rw [interrupted_length]
    exact hget
  | some cut => exact hkeep cut.1 cut.2 hget

theorem mem_archives_store {cutOff : Option (ℕ × ℕ)}
    (h : name ∈ archives entry (Attempt.result r d ⟨.store entry code clock data, cutOff⟩)) :
    name ∈ archives entry d ∨
      Traced.placed r ⟨.store entry code clock data, cutOff⟩ = some name := by
  obtain ⟨hname, bytes, hget⟩ := mem_archives.mp h
  cases hreceipt : backupReceipt r entry code clock data with
  | none =>
    have hops : Call.ops r d (.store entry code clock data) = [] := by
      simp only [Call.ops, hreceipt]
    refine .inl (mem_archives.mpr ⟨hname, bytes, ?_⟩)
    cases cutOff with
    | none =>
      simp only [Attempt.result, hops] at hget
      exact hget
    | some cut =>
      simp only [Attempt.result, hops] at hget
      exact hget
  | some receipt =>
    have harchive := isArchive_receipt hreceipt
    have hops : Call.ops r d (.store entry code clock data) = writeBackup entry receipt data d := by
      simp only [Call.ops, hreceipt]
    cases cutOff with
    | none =>
      simp only [Attempt.result, hops] at h
      rw [writeBackup, exec_append] at h
      rcases (mem_archives_writeOps harchive).mp (mem_archives_retention.mp h).1 with rfl | hold
      · refine .inr ?_
        simp only [Traced.placed, hreceipt]
      · exact .inl hold
    | some cut =>
      obtain ⟨n, k⟩ := cut
      simp only [Attempt.result, hops] at hget
      rcases get?_interrupted_store receipt data d hname n k with hnone | hsame | ⟨hn, rfl⟩
      · rw [hnone] at hget
        cases hget
      · exact .inl (mem_archives.mpr ⟨hname, bytes, hsame ▸ hget⟩)
      · refine .inr ?_
        simp only [Traced.placed, hreceipt, if_pos hn]

/-- An attempt adds the archive that it puts in its place, and no other. -/
theorem mem_archives_result (h : name ∈ archives entry (a.result r d)) :
    name ∈ archives entry d ∨ Traced.placed r a = some name := by
  by_cases hentry : a.call.entry = entry
  · obtain ⟨call, cutOff⟩ := a
    cases call with
    | delete other =>
      obtain rfl : other = entry := hentry
      exact .inl (mem_archives_delete h)
    | store other code clock data =>
      obtain rfl : other = entry := hentry
      exact mem_archives_store h
  · obtain ⟨hname, bytes, hget⟩ := mem_archives.mp h
    rw [get?_result r d a hentry (belongs_of_isArchive hname)] at hget
    exact .inl (mem_archives.mpr ⟨hname, bytes, hget⟩)

/-! ## Names in the order of time -/

/-- A name that sorts last and is the newest keeps names in the order of time. -/
theorem BirthInv.ordered_update (h : BirthInv s) {first second : Name}
    (hlast : ∀ old ∈ archives entry s.dir, old ≤ name)
    (hfirst : first ∈ archives entry s.dir ∨ first = name)
    (hsecond : second ∈ archives entry s.dir ∨ second = name) (hlt : first < second) :
    Function.update s.born name (s.count + 1) first <
      Function.update s.born name (s.count + 1) second := by
  have hne : first ≠ name := by
    rintro rfl
    rcases hsecond with hsecond | rfl
    · exact absurd (hlast second hsecond) hlt.not_ge
    · exact lt_irrefl _ hlt
  have hfirst := hfirst.resolve_right hne
  rw [Function.update_of_ne hne]
  by_cases hsame : second = name
  · rw [hsame, Function.update_self]
    exact Nat.lt_succ_of_le (h.past first)
  · rw [Function.update_of_ne hsame]
    exact h.ordered entry first hfirst second (hsecond.resolve_right hsame) hlt

theorem BirthInv.step (h : BirthInv s) (hlast : SortsLast r s a) : BirthInv (s.step r a) := by
  cases hplaced : Traced.placed r a with
  | none =>
    have hsubset : ∀ entry, ∀ name ∈ archives entry (a.result r s.dir),
      name ∈ archives entry s.dir := by
      intro entry name hname
      rcases mem_archives_result hname with hname | hname
      · exact hname
      · rw [hplaced] at hname
        cases hname
    simp only [Traced.step, hplaced]
    exact ⟨h.past, fun entry first hfirst second hsecond =>
      h.ordered entry first (hsubset entry first hfirst) second (hsubset entry second hsecond)⟩
  | some name =>
    simp only [Traced.step, hplaced]
    obtain ⟨entry, code, clock, data, receipt, hcall, hreceipt, rfl⟩ := placed_eq_some hplaced
    have hbelongs := belongs_of_isArchive (isArchive_receipt hreceipt)
    rw [SortsLast, hcall] at hlast
    refine ⟨fun name => ?_, fun other first hfirst second hsecond hlt => ?_⟩
    · change Function.update s.born receipt.archive (s.count + 1) name ≤ s.count + 1
      by_cases hname : name = receipt.archive
      · rw [hname, Function.update_self]
      · rw [Function.update_of_ne hname]
        exact Nat.le_succ_of_le (h.past name)
    · have hfirst' := mem_archives_result hfirst
      have hsecond' := mem_archives_result hsecond
      rw [hplaced, Option.some.injEq, eq_comm (a := receipt.archive)] at hfirst' hsecond'
      by_cases hother : entry = other
      · subst hother
        exact h.ordered_update (hlast receipt hreceipt) hfirst' hsecond' hlt
      · have hne : ∀ name ∈ archives other (a.result r s.dir), name ≠ receipt.archive := by
          rintro name hname rfl
          exact not_belongs hother hbelongs (belongs_of_isArchive (mem_archives.mp hname).1)
        change Function.update s.born receipt.archive (s.count + 1) first <
          Function.update s.born receipt.archive (s.count + 1) second
        rw [Function.update_of_ne (hne first hfirst), Function.update_of_ne (hne second hsecond)]
        exact h.ordered other first (hfirst'.resolve_right (hne first hfirst)) second
          (hsecond'.resolve_right (hne second hsecond)) hlt

/-- Retention removes only older archives of the entry than those it keeps. -/
def RemovesOlder (entry : EntryId) (s s' : Traced) : Prop :=
  ∀ old ∈ archives entry s.dir, old ∉ archives entry s'.dir →
    ∀ name ∈ archives entry s'.dir, s'.born old < s'.born name

theorem BirthInv.removesOlder (h : BirthInv s)
    (hreceipt : backupReceipt r entry code clock data = some receipt)
    (hlast : ∀ old ∈ archives entry s.dir, old ≤ receipt.archive) :
    RemovesOlder entry s (s.step r ⟨.store entry code clock data, none⟩) := by
  have harchive := isArchive_receipt hreceipt
  have hstep : s.step r ⟨.store entry code clock data, none⟩ =
      ⟨exec s.dir (writeBackup entry receipt data s.dir),
        Function.update s.born receipt.archive (s.count + 1), s.count + 1⟩ := by
    simp only [Traced.step, Traced.placed, Attempt.result, Call.ops, hreceipt]
  intro old hold hgone name hname
  rw [hstep] at hgone hname ⊢
  simp only [writeBackup, exec_append] at hgone hname
  rw [mem_archives_retention] at hgone hname
  have hwritten : old ∈ archives entry (exec s.dir (writeOps receipt data)) :=
    (mem_archives_writeOps harchive).mpr (.inr hold)
  have hremoved : old ∈ removed entry (exec s.dir (writeOps receipt data)) := by
    by_contra hnot
    exact hgone ⟨hwritten, hnot⟩
  have hlt := lt_of_mem_removed hremoved hname.1 hname.2
  exact h.ordered_update hlast (.inl hold) ((mem_archives_writeOps harchive).mp hname.1).symm hlt

theorem later_eq_zero (h : ∀ old ∈ archives entry d, old ≤ name) : later entry d name = 0 := by
  rw [later, List.countP_eq_zero]
  intro old hold
  rw [decide_eq_true_eq, not_lt]
  exact h old hold

/-- **The backup just taken is kept** exactly if fewer than five archives of its entry sort after
it; in runs where each name sorts last it is kept, and only older ones are removed. In every run
archives are complete, at most five of the entry stay, other entries' files are left alone and a
removed entry leaves none. -/
theorem backups_kept (r : Readers) (attempts : List Attempt) :
    Complete r (run (Traced.step r) .init attempts).dir ∧
    (∀ (a : Attempt) (other : EntryId) (name : Name), a.call.entry ≠ other → Belongs other name →
      (a.result r (run (Traced.step r) .init attempts).dir).get? name =
        (run (Traced.step r) .init attempts).dir.get? name) ∧
    (∀ entry code clock data receipt d', asyncStorePanelBackup r entry code clock data
      (run (Traced.step r) .init attempts).dir = some (receipt, d') →
      (archives entry d').length ≤ keepPerPanel ∧ (Stored receipt data d' ↔
        later entry (run (Traced.step r) .init attempts).dir receipt.archive < keepPerPanel)) ∧
    (∀ entry name, isArchive entry name = true →
      (deletePanelBackups entry (run (Traced.step r) .init attempts).dir).get? name = none ∧
        (deletePanelBackups entry (run (Traced.step r) .init attempts).dir).get?
          (receiptName name) = none) ∧
    (Along (Traced.step r) (SortsLast r) .init attempts → ∀ entry code clock data receipt d',
      asyncStorePanelBackup r entry code clock data
        (run (Traced.step r) .init attempts).dir = some (receipt, d') →
      SortsLast r (run (Traced.step r) .init attempts) ⟨.store entry code clock data, none⟩ →
      Stored receipt data d' ∧ RemovesOlder entry (run (Traced.step r) .init attempts)
        ((run (Traced.step r) .init attempts).step r ⟨.store entry code clock data, none⟩)) := by
  have hcomplete : Complete r (run (Traced.step r) .init attempts).dir := by
    refine run_inv (fun s : Traced => Complete r s.dir) (fun s a h => ?_)
      (fun name bytes h => by cases h) attempts
    unfold Traced.step
    split <;> exact h.result a
  have hstored : ∀ entry code clock data receipt d', asyncStorePanelBackup r entry code clock data
      (run (Traced.step r) .init attempts).dir = some (receipt, d') →
      backupReceipt r entry code clock data = some receipt ∧
        d' = exec (run (Traced.step r) .init attempts).dir
          (writeBackup entry receipt data (run (Traced.step r) .init attempts).dir) := by
    intro entry code clock data receipt d' h
    obtain ⟨receipt', hreceipt, heq⟩ := Option.map_eq_some_iff.mp h
    cases heq
    exact ⟨hreceipt, rfl⟩
  refine ⟨hcomplete, fun a other name hne h => get?_result r _ a hne h, ?_,
    fun entry name h => get?_delete_archive h, ?_⟩
  · intro entry code clock data receipt d' h
    obtain ⟨hreceipt, hwritten⟩ := hstored entry code clock data receipt d' h
    rw [hwritten]
    refine ⟨?_, stored_iff (isArchive_receipt hreceipt)⟩
    rw [writeBackup, exec_append]
    exact length_archives_retention entry _
  · intro halong entry code clock data receipt d' h hlast
    obtain ⟨hreceipt, hwritten⟩ := hstored entry code clock data receipt d' h
    have hbirth : BirthInv (run (Traced.step r) .init attempts) :=
      run_inv_along BirthInv (fun s a h hlast => h.step hlast) birthInv_init halong
    have hnames := hlast receipt hreceipt
    rw [hwritten]
    refine ⟨(stored_iff (isArchive_receipt hreceipt)).mpr ?_, hbirth.removesOlder hreceipt hnames⟩
    rw [later_eq_zero hnames]
    decide

/-! ### Backups of a panel -/

/-- A zip file of one member, a manifest that is the empty object. -/
def sampleData : Bytes :=
  [80, 75, 3, 4, 20, 0, 0, 0, 0, 0, 0, 0, 33, 0, 67, 191, 166, 163, 2, 0, 0, 0, 2, 0, 0, 0, 13, 0,
    0, 0, 109, 97, 110, 105, 102, 101, 115, 116, 46, 106, 115, 111, 110, 123, 125, 80, 75, 1, 2,
    20, 3, 20, 0, 0, 0, 0, 0, 0, 0, 33, 0, 67, 191, 166, 163, 2, 0, 0, 0, 2, 0, 0, 0, 13, 0, 0, 0,
    0, 0, 0, 0, 0, 0, 0, 0, 128, 1, 0, 0, 0, 0, 109, 97, 110, 105, 102, 101, 115, 116, 46, 106,
    115, 111, 110, 80, 75, 5, 6, 0, 0, 0, 0, 1, 0, 1, 0, 59, 0, 0, 0, 45, 0, 0, 0, 0, 0]

/-- What the standard library reads of it. -/
def sampleReaders : Readers where
  zipFile data :=
    if data = sampleData then some ⟨none, [manifestEntry], fun _ => [123, 125]⟩ else none
  loads data := if data = [123, 125] then some (.obj []) else none
  digest _ := "69148f3ffb26751e779e7096b873dfba27a43076958f9e11f06adb5e63be9757".toList

def sampleEntry : EntryId where
  text := "01HZX5V3QK8M2T7W9R4C6B1N0D".toList
  plain := List.all_eq_true.mp (by decide)

/-- A backup of version code 9 at a second of ten o'clock. -/
def atTen (second : ℕ) : Attempt :=
  ⟨.store sampleEntry (some 9) ⟨2024, 5, 1, 10, 0, second⟩ sampleData, none⟩

/-- Five backups, one a second. -/
def five : List Attempt := [atTen 1, atTen 2, atTen 3, atTen 4, atTen 5]

/-- A sixth backup is kept, and the oldest of the five goes. -/
theorem backups_kept_sixth : ∃ receipt d',
    asyncStorePanelBackup sampleReaders sampleEntry (some 9) ⟨2024, 5, 1, 10, 0, 6⟩ sampleData
      (run (Traced.step sampleReaders) .init five).dir = some (receipt, d') ∧
    Stored receipt sampleData d' ∧ (archives sampleEntry d').length ≤ keepPerPanel ∧
    RemovesOlder sampleEntry (run (Traced.step sampleReaders) .init five)
      ((run (Traced.step sampleReaders) .init five).step sampleReaders (atTen 6)) ∧
    ∃ old ∈ archives sampleEntry (run (Traced.step sampleReaders) .init five).dir,
      old ∉ archives sampleEntry d' := by
  have hsome : (asyncStorePanelBackup sampleReaders sampleEntry (some 9) ⟨2024, 5, 1, 10, 0, 6⟩
      sampleData (run (Traced.step sampleReaders) .init five).dir).isSome = true := by
    decide +kernel
  obtain ⟨⟨receipt, d'⟩, hstored⟩ := Option.isSome_iff_exists.mp hsome
  obtain ⟨-, -, hlength, -, hkept⟩ := backups_kept sampleReaders five
  have halong : Along (Traced.step sampleReaders) (SortsLast sampleReaders) .init five := by
    decide +kernel
  have hlast : SortsLast sampleReaders (run (Traced.step sampleReaders) .init five) (atTen 6) := by
    decide +kernel
  obtain ⟨hin, holder⟩ := hkept halong _ _ _ _ _ _ hstored hlast
  have hgone : ∃ old ∈ archives sampleEntry (run (Traced.step sampleReaders) .init five).dir,
      old ∉ archives sampleEntry d' := by
    have hdirectory : d' = (asyncStorePanelBackup sampleReaders sampleEntry (some 9)
        ⟨2024, 5, 1, 10, 0, 6⟩ sampleData
        (run (Traced.step sampleReaders) .init five).dir).elim ∅ Prod.snd := by
      rw [hstored]
      rfl
    rw [hdirectory]
    decide +kernel
  exact ⟨receipt, d', hstored, hin, (hlength _ _ _ _ _ _ hstored).1, holder, hgone⟩

/-- A backup that is taken after the clock was set back by an hour is removed as it is stored. -/
theorem set_back_lost :
    (asyncStorePanelBackup sampleReaders sampleEntry (some 9) ⟨2024, 5, 1, 9, 0, 0⟩ sampleData
      (run (Traced.step sampleReaders) .init five).dir).any
        (fun stored => (stored.2.get? stored.1.archive).isNone) = true := by
  decide +kernel

end PanelAssistant.PanelBackup
