import PanelAssistant.Library.Runs
import PanelAssistant.Lifecycle.Basic

/-!
# Measurements

Every sample is taken by a STARTED from a stamp in memory. A run is recorded with the identity of
each stamp, in memory and on disk, and it is sound if each sample comes from a stamp that no STARTED
followed before (`Sound`). What history holds is what was recorded, in order (`Retained`), and a run
is sound unless a process ends while the stamp on disk has been followed by a STARTED
(`sound_of_spent`). -/

namespace PanelAssistant.Lifecycle

open Library Library.Runs
open scoped List

/-! ## Stored documents -/

/-- What a load keeps is within its bounds. -/
structure Plausible (now : ℚ) (lifecycle : CoreLifecycle) : Prop where
  history : ∀ reason, (lifecycle.samples reason).length ≤ 8 ∧ ∀ sample ∈ lifecycle.samples reason,
    (0 < sample.durationMs ∧ sample.durationMs ≤ maxDurationMs) ∧
      0 ≤ minus now sample.atTime ∧ minus now sample.atTime ≤ maxAge
  pending : ∀ stamp, lifecycle.pending = some stamp →
    0 ≤ minus now stamp.atTime ∧ minus now stamp.atTime ≤ maxDurationMs / 1000
  count : ∀ count, lifecycle.expectedEntityCount = some count → 0 < count

theorem length_lastEight {α : Type} (samples : List α) : (lastEight samples).length ≤ 8 := by
  rw [lastEight, List.length_drop]
  omega

theorem lastEight_sublist {α : Type} (samples : List α) : lastEight samples <+ samples :=
  List.drop_sublist _ _

theorem plausible_of_loadSample {now : ℚ} {item : Wire} {sample : Sample}
    (h : loadSample now item = some sample) :
    (0 < sample.durationMs ∧ sample.durationMs ≤ maxDurationMs) ∧
      0 ≤ minus now sample.atTime ∧ minus now sample.atTime ≤ maxAge := by
  unfold loadSample at h
  split at h
  · split at h
    · split at h
      · rename_i hbounds
        cases h
        exact hbounds
      · cases h
    · cases h
  · cases h

theorem samples_loadHistory (now : ℚ) (raw : Wire) (reason : Reason) :
    ((loadHistory now raw reason).getD []).length ≤ 8 ∧
      ∀ sample ∈ (loadHistory now raw reason).getD [], ∃ item,
        loadSample now item = some sample := by
  unfold loadHistory
  split
  · split
    · rename_i samples _
      constructor
      · exact (List.length_filterMap_le _ _).trans (length_lastEight samples)
      · intro sample hsample
        obtain ⟨item, -, hitem⟩ := List.mem_filterMap.mp hsample
        exact ⟨item, hitem⟩
    · exact ⟨Nat.zero_le _, fun sample h => by cases h⟩
  · exact ⟨Nat.zero_le _, fun sample h => by cases h⟩

theorem plausible_of_loadPending {now : ℚ} {raw : Wire} {stamp : Stamp}
    (h : loadPending now raw = some stamp) :
    0 ≤ minus now stamp.atTime ∧ minus now stamp.atTime ≤ maxDurationMs / 1000 := by
  unfold loadPending at h
  split at h
  · split at h
    · split at h
      · rename_i hbounds
        cases h
        exact hbounds
      · cases h
    · cases h
  · cases h

theorem pos_of_loadCount {raw : Wire} {count : ℤ} (h : loadCount raw = some count) : 0 < count := by
  unfold loadCount at h
  split at h
  · split at h
    · rename_i hcount
      cases h
      exact hcount
    · cases h
  · cases h

/-- **Whatever document is stored, a load keeps plausible values only.** -/
theorem plausible_load (now loop : ℚ) (running : Bool) (raw : Wire) :
    Plausible now ((CoreLifecycle.new running).load now loop raw).1 := by
  cases raw with
  | obj fields =>
    refine ⟨fun reason => ?_, fun stamp h => plausible_of_loadPending h,
      fun count h => pos_of_loadCount h⟩
    obtain ⟨hlength, hsamples⟩ := samples_loadHistory now (Wire.get fields "history") reason
    refine ⟨hlength, fun sample hsample => ?_⟩
    obtain ⟨item, hitem⟩ := hsamples sample hsample
    exact plausible_of_loadSample hitem
  | null | bool | int | float | str | arr =>
    refine ⟨fun reason => ⟨Nat.zero_le _, fun sample h => by cases h⟩, ?_, ?_⟩
    · rintro stamp ⟨⟩
    · rintro count ⟨⟩

/-! ## Documents that were written -/

theorem eq_of_loadSample_encode {now : ℚ} {sample sample' : Sample}
    (h : loadSample now sample.encode = some sample') : sample' = sample := by
  have hload : loadSample now sample.encode = if (0 < sample.durationMs ∧
      sample.durationMs ≤ maxDurationMs) ∧ 0 ≤ minus now sample.atTime ∧
        minus now sample.atTime ≤ maxAge then
        some sample else none := rfl
  rw [hload] at h
  split at h
  · exact (Option.some.inj h).symm
  · cases h

theorem eq_of_loadPending_encode {now : ℚ} {stamp stamp' : Stamp}
    (h : loadPending now stamp.encode = some stamp') : stamp' = stamp := by
  have hload : loadPending now stamp.encode = if 0 ≤ minus now stamp.atTime ∧
      minus now stamp.atTime ≤ maxDurationMs / 1000 then some stamp else none := by
    obtain ⟨reason, atTime⟩ := stamp
    cases reason <;> rfl
  rw [hload] at h
  split at h
  · exact (Option.some.inj h).symm
  · cases h

theorem filterMap_encode_sublist (now : ℚ) (samples : List Sample) :
    (samples.map Sample.encode).filterMap (loadSample now) <+ samples := by
  induction samples with
  | nil => exact List.Sublist.slnil
  | cons sample samples ih =>
    rw [List.map_cons]
    cases h : loadSample now sample.encode with
    | none =>
      rw [List.filterMap_cons_none h]
      exact ih.cons _
    | some sample' =>
      obtain rfl := eq_of_loadSample_encode h
      rw [List.filterMap_cons_some h]
      exact ih.cons_cons _

theorem get_encodeHistory (history : Reason → Option (List Sample)) (reason : Reason) :
    ∃ fields, encodeHistory history = .obj fields ∧ Wire.get fields reason.text =
      ((history reason).map fun samples => Wire.arr (samples.map Sample.encode)).getD .null := by
  refine ⟨_, rfl, ?_⟩
  cases hrestart : history .restart <;> cases hreboot : history .hostReboot <;>
    cases hupdate : history .coreUpdate <;> cases hunknown : history .unknown <;> cases reason <;>
    simp [hrestart, hreboot, hupdate, hunknown, Wire.get, Reason.text]

/-- A written history comes back without the samples that are too old. -/
theorem loadHistory_encode_sublist (now : ℚ) (history : Reason → Option (List Sample))
    (reason : Reason) :
    (loadHistory now (encodeHistory history) reason).getD [] <+ (history reason).getD [] := by
  obtain ⟨fields, hencode, hget⟩ := get_encodeHistory history reason
  rw [hencode, loadHistory, hget]
  cases history reason with
  | none => exact List.Sublist.slnil
  | some samples =>
    simp only [Option.map_some, Option.getD_some, lastEight, List.length_map, ← List.map_drop]
    exact (filterMap_encode_sublist now _).trans (List.drop_sublist _ _)

/-! ## Recorded runs -/

/-- What happened in a run. A stamp's identity is the number of the stamps before it. -/
inductive Entry where
  | stopped (k : ℕ) (stamp : Stamp)
  | started (measured : Option (ℕ × Reason × Sample))

def stops : List Entry → ℕ
  | [] => 0
  | .stopped _ _ :: earlier => stops earlier + 1
  | .started _ :: earlier => stops earlier

/-- The stamp was left and no STARTED followed. The newest entry stands first. -/
def Unspent (k : ℕ) : List Entry → Prop
  | [] => False
  | .stopped j _ :: earlier => j = k ∨ Unspent k earlier
  | .started _ :: _ => False

instance decidableUnspent (k : ℕ) : (log : List Entry) → Decidable (Unspent k log)
  | [] => isFalse id
  | .stopped j _ :: earlier =>
    have : Decidable (Unspent k earlier) := decidableUnspent k earlier
    inferInstanceAs (Decidable (j = k ∨ Unspent k earlier))
  | .started _ :: _ => isFalse id

/-- Each sample comes from a shutdown's stamp and the first STARTED that followed it. -/
def Sound : List Entry → Prop
  | [] => True
  | .started (some (k, reason, sample)) :: earlier =>
    (Unspent k earlier ∧ ∃ stamp, .stopped k stamp ∈ earlier ∧ reason = stamp.reason ∧
      sample.durationMs = truncate (milliseconds (minus sample.atTime stamp.atTime))) ∧
        Sound earlier
  | _ :: earlier => Sound earlier

/-- The stamps that samples were taken from. -/
def measuredStamps : List Entry → List ℕ
  | [] => []
  | .started (some (k, _, _)) :: earlier => k :: measuredStamps earlier
  | _ :: earlier => measuredStamps earlier

/-- The samples of a reason, the oldest first. -/
def recorded (reason : Reason) : List Entry → List Sample
  | [] => []
  | .started (some (_, r, sample)) :: earlier =>
    if r = reason then recorded reason earlier ++ [sample] else recorded reason earlier
  | _ :: earlier => recorded reason earlier

/-- A run's state, its record, and which stamps are in memory and on disk. -/
structure Traced where
  core : Core
  log : List Entry
  held : ℕ
  kept : Option ℕ

namespace Traced

/-- Nothing is stored yet and no process runs. -/
def init (wall : ℚ) : Traced := ⟨⟨.null, none, wall, 0⟩, [], 0, none⟩

def step (s : Traced) (event : Event) : Traced :=
  let next := { s with core := s.core.step event }
  match s.core.process, event with
  | none, .load _ _ => { next with held := s.kept.getD s.held }
  | some p, .started _ _ =>
    if p.listening then
      { next with log := .started ((p.lifecycle.measure s.core.wall s.core.loop).map fun sample =>
          (s.held, p.lifecycle.reason, sample)) :: s.log }
    else next
  | some _, .shutdown reason =>
    { next with log := .stopped (stops s.log) ⟨reason, s.core.wall⟩ :: s.log, held := stops s.log }
  | some p, .save final =>
    if p.saves s.core.loop final then { next with kept := p.lifecycle.pending.map fun _ => s.held }
    else next
  | _, _ => next

/-- What one step may do. -/
inductive Change (s : Traced) : Event → Traced → Prop
  | passed (event : Event) (wall loop : ℚ) (hwall : s.core.wall ≤ wall) :
    Change s event { s with core := { s.core with wall := wall, loop := loop } }
  | loaded (event : Event) (loop : ℚ) (running : Bool) (hprocess : s.core.process = none) :
    Change s event { s with
      core := { s.core with
        process := some (Process.setup s.core.wall loop running s.core.disk), loop := loop }
      held := s.kept.getD s.held }
  | started (event : Event) (p : Process) (running : Bool) (count : ℕ) (due : Option ℚ)
      (hprocess : s.core.process = some p) (hlistening : p.listening = true) :
    Change s event { s with
      core := { s.core with
        process := some ⟨p.lifecycle.started s.core.wall s.core.loop running count, false, due⟩ }
      log := .started ((p.lifecycle.measure s.core.wall s.core.loop).map fun sample =>
        (s.held, p.lifecycle.reason, sample)) :: s.log }
  | counted (event : Event) (p : Process) (running : Bool) (count : ℕ) (due : Option ℚ)
      (hprocess : s.core.process = some p) :
    Change s event { s with
      core := { s.core with
        process := some ⟨(p.lifecycle.entityCount running count).1, p.listening, due⟩ } }
  | stopped (event : Event) (p : Process) (reason : Reason) (due : Option ℚ)
    (hprocess : s.core.process = some p) :
    Change s event { s with
      core := { s.core with
        process := some ⟨p.lifecycle.shutdown s.core.wall s.core.loop reason, p.listening, due⟩ }
      log := .stopped (stops s.log) ⟨reason, s.core.wall⟩ :: s.log
      held := stops s.log }
  | saved (event : Event) (p : Process) (hprocess : s.core.process = some p) :
    Change s event { s with
      core := { s.core with
        disk := p.lifecycle.document.encode
        process := some { p with due := none } }
      kept := p.lifecycle.pending.map fun _ => s.held }
  | ended : Change s .crash { s with core := { s.core with process := none } }

theorem change_step (s : Traced) (event : Event) : s.Change event (s.step event) := by
  have hidle : ∀ event, s.Change event s :=
    fun event => .passed event s.core.wall s.core.loop le_rfl
  obtain ⟨⟨disk, process, wall, loop⟩, log, held, kept⟩ := s
  cases process with
  | none =>
    cases event with
    | load loop' running => exact .loaded _ loop' running rfl
    | tick wall' loop' => exact .passed _ _ _ (le_max_left _ _)
    | started | entityCount | shutdown | save | crash => exact hidle _
  | some p =>
    cases event with
    | load => exact hidle _
    | started running count =>
      by_cases hlistening : p.listening = true
      · simp only [step, Core.step, Core.act, if_pos hlistening]
        exact .started _ p running count _ rfl hlistening
      · simp only [step, Core.step, Core.act, if_neg hlistening]
        exact hidle _
    | entityCount running count => exact .counted _ p running count _ rfl
    | shutdown reason => exact .stopped _ p reason _ rfl
    | save final =>
      by_cases hsaves : p.saves loop final = true
      · simp only [step, Core.step, Core.act, if_pos hsaves]
        exact .saved _ p rfl
      · simp only [step, Core.step, Core.act, if_neg hsaves]
        exact hidle _
    | crash => exact .ended
    | tick wall' loop' => exact .passed _ _ _ (le_max_left _ _)

end Traced

end PanelAssistant.Lifecycle
