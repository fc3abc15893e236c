import PanelAssistant.Lifecycle.Measurements

/-!
# Runs of the lifecycle

History keeps the newest recorded samples of each reason in every run (`HistoryInv`). Where no
process ends while the stamp on disk has been followed by a STARTED, each stamp is measured at most
once (`StampInv`, `measured_once`); where one does, the next process measures the stamp again
(`measured_twice`).
-/

namespace PanelAssistant.Lifecycle

open Library Library.Runs
open scoped List

/-! ## One step of the lifecycle -/

namespace CoreLifecycle

variable (self : CoreLifecycle) (now loop : ℚ) (running : Bool) (count : ℕ) (reason : Reason)

@[simp] theorem history_entityCount :
    (self.entityCount running count).1.history = self.history := by
  unfold entityCount
  split <;> rfl

@[simp] theorem pending_entityCount :
    (self.entityCount running count).1.pending = self.pending := by
  unfold entityCount
  split <;> rfl

@[simp] theorem reason_entityCount : (self.entityCount running count).1.reason = self.reason := by
  unfold entityCount
  split <;> rfl

@[simp] theorem samples_entityCount :
    (self.entityCount running count).1.samples reason = self.samples reason := by
  simp only [samples, history_entityCount]

@[simp] theorem samples_shutdown (stop : Reason) :
    (self.shutdown now loop stop).samples reason = self.samples reason := rfl

@[simp] theorem pending_started : (self.started now loop running count).pending = none := by
  simp [started]

/-- STARTED appends the sample it takes and keeps the newest eight. -/
theorem samples_started :
    (self.started now loop running count).samples reason =
      match self.measure now loop with
      | some sample =>
        if self.reason = reason then lastEight (self.samples reason ++ [sample])
        else self.samples reason
      | none => self.samples reason := by
  simp only [started, samples_entityCount]
  cases self.measure now loop with
  | none => rfl
  | some sample =>
    by_cases h : self.reason = reason
    · subst h
      simp [samples]
    · simp [samples, h, Function.update_of_ne (Ne.symm h)]

/-- What a sample is taken from. -/
theorem measure_eq_some {sample : Sample} (h : self.measure now loop = some sample) :
    ∃ stamp, self.pending = some stamp ∧ sample.atTime = now ∧
      sample.durationMs = truncate (milliseconds (minus now stamp.atTime)) := by
  unfold measure at h
  split at h
  · cases h
  · rename_i stamp hpending
    obtain ⟨-, h⟩ := Option.ite_none_right_eq_some.mp h
    cases h
    exact ⟨stamp, hpending, rfl, rfl⟩

end CoreLifecycle

/-! ## Histories -/

/-- Samples that were recorded, in order, and no more than eight. -/
def Retained (log : List Entry) (reason : Reason) (samples : List Sample) : Prop :=
  samples <+ recorded reason log ∧ samples.length ≤ 8

theorem recorded_measured (reason : Reason) (k : ℕ) (r : Reason) (sample : Sample)
    (log : List Entry) :
    recorded reason (.started (some (k, r, sample)) :: log) =
      if r = reason then recorded reason log ++ [sample] else recorded reason log := rfl

theorem Retained.started {log : List Entry} {reason : Reason} {samples : List Sample}
    (h : Retained log reason samples) (measured : Option (ℕ × Reason × Sample)) :
    Retained (.started measured :: log) reason samples := by
  refine ⟨h.1.trans ?_, h.2⟩
  cases measured with
  | none => exact List.Sublist.refl _
  | some measured =>
    obtain ⟨k, r, sample⟩ := measured
    rw [recorded_measured]
    split
    · exact List.sublist_append_left _ _
    · exact List.Sublist.refl _

/-- Appending the sample that was just recorded. -/
theorem Retained.append {log : List Entry} {reason : Reason} {samples : List Sample}
    (h : Retained log reason samples) (k : ℕ) (sample : Sample) :
    Retained (.started (some (k, reason, sample)) :: log) reason
      (lastEight (samples ++ [sample])) := by
  refine ⟨(lastEight_sublist _).trans ?_, length_lastEight _⟩
  rw [recorded_measured, if_pos rfl]
  exact h.1.append (List.Sublist.refl _)

/-- Memory and disk hold recorded samples, and samples are recorded in the order of time. -/
structure HistoryInv (s : Traced) : Prop where
  memory : ∀ p, s.core.process = some p → ∀ reason,
    Retained s.log reason (p.lifecycle.samples reason)
  disk : s.core.disk = .null ∨ ∃ document : Document, s.core.disk = document.encode ∧
    ∀ reason, Retained s.log reason ((document.history reason).getD [])
  sorted : ∀ reason, (recorded reason s.log).Pairwise fun a b => a.atTime ≤ b.atTime
  past : ∀ reason, ∀ sample ∈ recorded reason s.log, sample.atTime ≤ s.core.wall

theorem historyInv_init (wall : ℚ) : HistoryInv (.init wall) where
  memory := fun p h => by cases h
  disk := .inl rfl
  sorted := fun _ => List.Pairwise.nil
  past := fun _ _ h => by cases h

/-- A load keeps samples of the document. -/
theorem retained_setup {s : Traced} (h : HistoryInv s) (loop : ℚ) (running : Bool)
    (reason : Reason) :
    Retained s.log reason
      ((Process.setup s.core.wall loop running s.core.disk).lifecycle.samples reason) := by
  have hlength := ((plausible_load s.core.wall loop running s.core.disk).history reason).1
  refine ⟨?_, hlength⟩
  rcases h.disk with hdisk | ⟨document, hdisk, hretained⟩
  · rw [hdisk]
    exact List.nil_sublist _
  · rw [hdisk]
    exact (loadHistory_encode_sublist s.core.wall document.history reason).trans
      (hretained reason).1

theorem HistoryInv.change {s s' : Traced} {event : Event} (h : HistoryInv s)
    (hchange : s.Change event s') : HistoryInv s' := by
  cases hchange with
  | passed _ wall loop hwall =>
    exact ⟨h.memory, h.disk, h.sorted, fun reason sample hsample =>
      (h.past reason sample hsample).trans hwall⟩
  | loaded _ loop running hprocess =>
    refine ⟨?_, h.disk, h.sorted, h.past⟩
    rintro p ⟨⟩ reason
    exact retained_setup h loop running reason
  | started _ p running count due hprocess hlistening =>
    have hmemory := h.memory p hprocess
    cases hmeasure : p.lifecycle.measure s.core.wall s.core.loop with
    | none =>
      refine ⟨?_, ?_, h.sorted, h.past⟩
      · rintro _ ⟨⟩ reason
        simp only [CoreLifecycle.samples_started, hmeasure]
        exact hmemory reason
      · exact h.disk
    | some sample =>
      obtain ⟨-, -, htime, -⟩ := p.lifecycle.measure_eq_some _ _ hmeasure
      refine ⟨?_, ?_, fun reason => ?_, fun reason => ?_⟩
      · rintro _ ⟨⟩ reason
        simp only [CoreLifecycle.samples_started, hmeasure, Option.map_some]
        split
        · rename_i heq
          subst heq
          exact (hmemory _).append _ _
        · exact (hmemory reason).started _
      · refine h.disk.imp_right ?_
        rintro ⟨document, hdisk, hretained⟩
        exact ⟨document, hdisk, fun reason => (hretained reason).started _⟩
      · simp only [Option.map_some, recorded_measured]
        split
        · refine List.pairwise_append.mpr ⟨h.sorted reason, List.pairwise_singleton _ _, ?_⟩
          intro earlier hearlier later hlater
          rw [List.mem_singleton.mp hlater, htime]
          exact h.past reason earlier hearlier
        · exact h.sorted reason
      · simp only [Option.map_some, recorded_measured]
        split
        · intro earlier hearlier
          rcases List.mem_append.mp hearlier with hearlier | hearlier
          · exact h.past reason earlier hearlier
          · rw [List.mem_singleton.mp hearlier, htime]
        · exact h.past reason
  | counted _ p running count due hprocess =>
    refine ⟨?_, h.disk, h.sorted, h.past⟩
    rintro _ ⟨⟩ reason
    simp only [CoreLifecycle.samples_entityCount]
    exact h.memory p hprocess reason
  | stopped _ p reason due hprocess =>
    refine ⟨?_, h.disk, h.sorted, h.past⟩
    rintro _ ⟨⟩ reason
    exact h.memory p hprocess reason
  | saved _ p hprocess =>
    refine ⟨?_, .inr ⟨p.lifecycle.document, rfl, h.memory p hprocess⟩, h.sorted, h.past⟩
    rintro _ ⟨⟩ reason
    exact h.memory p hprocess reason
  | ended =>
    refine ⟨?_, h.disk, h.sorted, h.past⟩
    rintro _ ⟨⟩

/-! ## Stamps -/

/-- The identities of the stamps count up. -/
def Numbered : List Entry → Prop
  | [] => True
  | .stopped k _ :: earlier => k = stops earlier ∧ Numbered earlier
  | .started _ :: earlier => Numbered earlier

/-- No process ends while the stamp on disk has been followed by a STARTED. -/
def EndsUnspent (s : Traced) : Event → Prop
  | .crash => ∀ k, s.kept = some k → Unspent k s.log
  | _ => True

instance (s : Traced) : (event : Event) → Decidable (EndsUnspent s event)
  | .crash => inferInstanceAs (Decidable (∀ k ∈ s.kept, Unspent k s.log))
  | .load _ _ => isTrue trivial
  | .started _ _ => isTrue trivial
  | .entityCount _ _ => isTrue trivial
  | .shutdown _ => isTrue trivial
  | .save _ => isTrue trivial
  | .tick _ _ => isTrue trivial

/-- The stamp in memory has not been followed by a STARTED, and neither has the stamp on disk until
a STARTED is heard. -/
structure StampInv (s : Traced) : Prop where
  numbered : Numbered s.log
  sound : Sound s.log
  memory : ∀ p, s.core.process = some p → ∀ stamp, p.lifecycle.pending = some stamp →
    Unspent s.held s.log ∧ .stopped s.held stamp ∈ s.log ∧ p.lifecycle.reason = stamp.reason
  disk : s.core.disk = .null ∨ ∃ document : Document, s.core.disk = document.encode ∧
    ∀ stamp, document.pending = some stamp → ∃ k, s.kept = some k ∧ .stopped k stamp ∈ s.log
  kept : (∀ p, s.core.process = some p → p.listening = true) →
    ∀ k, s.kept = some k → Unspent k s.log

theorem stampInv_init (wall : ℚ) : StampInv (.init wall) where
  numbered := trivial
  sound := trivial
  memory := fun p h => by cases h
  disk := .inl rfl
  kept := fun _ k h => by cases h

/-- The stamp that a load keeps is the document's. -/
theorem pending_load_encode {now loop : ℚ} {running : Bool} {document : Document} {stamp : Stamp}
    (h : ((CoreLifecycle.new running).load now loop document.encode).1.pending = some stamp) :
    document.pending = some stamp ∧
      ((CoreLifecycle.new running).load now loop document.encode).1.reason = stamp.reason := by
  have hload : loadPending now ((document.pending.map Stamp.encode).getD .null) = some stamp := h
  cases hpending : document.pending with
  | none =>
    rw [hpending] at hload
    cases hload
  | some stamp' =>
    rw [hpending] at hload
    obtain rfl := eq_of_loadPending_encode hload
    have hreason : ((CoreLifecycle.new running).load now loop document.encode).1.reason =
        ((loadPending now ((document.pending.map Stamp.encode).getD .null)).map Stamp.reason).getD
          .unknown := rfl
    refine ⟨rfl, ?_⟩
    rw [hreason, hpending, hload]
    rfl

theorem StampInv.change {s s' : Traced} {event : Event} (h : StampInv s)
    (hchange : s.Change event s')
    (hends : EndsUnspent s event) : StampInv s' := by
  cases hchange with
  | passed _ wall loop hwall => exact ⟨h.numbered, h.sound, h.memory, h.disk, h.kept⟩
  | loaded _ loop running hprocess =>
    have hkept := h.kept fun p hp => by
      rw [hprocess] at hp
      cases hp
    refine ⟨h.numbered, h.sound, ?_, h.disk, fun _ => hkept⟩
    rintro _ ⟨⟩ stamp hpending
    rcases h.disk with hdisk | ⟨document, hdisk, hdocument⟩
    · simp only [Process.setup, hdisk] at hpending
      cases hpending
    · simp only [Process.setup, hdisk] at hpending ⊢
      obtain ⟨hstamp, hreason⟩ := pending_load_encode hpending
      obtain ⟨k, hk, hmem⟩ := hdocument stamp hstamp
      rw [hk]
      exact ⟨hkept k hk, hmem, hreason⟩
  | started _ p running count due hprocess hlistening =>
    refine ⟨h.numbered, ?_, ?_, ?_, ?_⟩
    · cases hmeasure : p.lifecycle.measure s.core.wall s.core.loop with
      | none => exact h.sound
      | some sample =>
        obtain ⟨stamp, hpending, htime, hduration⟩ := p.lifecycle.measure_eq_some _ _ hmeasure
        obtain ⟨hunspent, hmem, hreason⟩ := h.memory p hprocess stamp hpending
        rw [← htime] at hduration
        exact ⟨⟨hunspent, stamp, hmem, hreason, hduration⟩, h.sound⟩
    · rintro _ ⟨⟩ stamp hpending
      rw [CoreLifecycle.pending_started] at hpending
      cases hpending
    · refine h.disk.imp_right ?_
      rintro ⟨document, hdisk, hdocument⟩
      refine ⟨document, hdisk, fun stamp hstamp => ?_⟩
      obtain ⟨k, hk, hmem⟩ := hdocument stamp hstamp
      exact ⟨k, hk, List.mem_cons_of_mem _ hmem⟩
    · intro hall
      cases hall _ rfl
  | counted _ p running count due hprocess =>
    refine ⟨h.numbered, h.sound, ?_, h.disk, fun hall => h.kept fun q hq => ?_⟩
    · rintro _ ⟨⟩ stamp hpending
      simp only [CoreLifecycle.pending_entityCount, CoreLifecycle.reason_entityCount] at hpending ⊢
      exact h.memory p hprocess stamp hpending
    · obtain rfl := Option.some.inj (hprocess.symm.trans hq)
      exact hall ⟨_, p.listening, due⟩ rfl
  | stopped _ p reason due hprocess =>
    refine ⟨⟨rfl, h.numbered⟩, h.sound, ?_, ?_,
      fun hall k hk => .inr (h.kept (fun q hq => ?_) k hk)⟩
    · rintro _ ⟨⟩ stamp hpending
      cases hpending
      exact ⟨.inl rfl, List.mem_cons_self, rfl⟩
    · refine h.disk.imp_right ?_
      rintro ⟨document, hdisk, hdocument⟩
      refine ⟨document, hdisk, fun stamp hstamp => ?_⟩
      obtain ⟨k, hk, hmem⟩ := hdocument stamp hstamp
      exact ⟨k, hk, List.mem_cons_of_mem _ hmem⟩
    · obtain rfl := Option.some.inj (hprocess.symm.trans hq)
      exact hall ⟨_, p.listening, due⟩ rfl
  | saved _ p hprocess =>
    have hmemory := h.memory p hprocess
    refine ⟨h.numbered, h.sound, ?_, .inr ⟨p.lifecycle.document, rfl, ?_⟩, ?_⟩
    · rintro _ ⟨⟩
      exact hmemory
    · intro stamp hstamp
      have hpending : p.lifecycle.pending = some stamp := hstamp
      refine ⟨s.held, ?_, (hmemory stamp hpending).2.1⟩
      rw [hpending]
      rfl
    · intro _ k hk
      obtain ⟨stamp, hpending, rfl⟩ := Option.map_eq_some_iff.mp hk
      exact (hmemory stamp hpending).1
  | ended =>
    refine ⟨h.numbered, h.sound, ?_, h.disk, fun _ => hends⟩
    rintro _ ⟨⟩

/-! ## One measurement for a stamp -/

/-- The stamps that the newest STARTED could be measured from, and the older ones. -/
def spent : List Entry → ℕ
  | [] => 0
  | .stopped _ _ :: earlier => spent earlier
  | .started _ :: earlier => stops earlier

theorem spent_le_stops (log : List Entry) : spent log ≤ stops log := by
  induction log with
  | nil => exact le_rfl
  | cons entry earlier ih =>
    cases entry with
    | stopped => exact ih.trans (Nat.le_succ _)
    | started => exact le_rfl

/-- A stamp that no STARTED followed is newer than every STARTED. -/
theorem Unspent.bounds {k : ℕ} {log : List Entry} (h : Unspent k log) (hnumbered : Numbered log) :
    spent log ≤ k ∧ k < stops log := by
  induction log with
  | nil => cases h
  | cons entry earlier ih =>
    cases entry with
    | stopped j stamp =>
      obtain ⟨rfl, hearlier⟩ := hnumbered
      rcases h with rfl | h
      · exact ⟨spent_le_stops earlier, Nat.lt_succ_self _⟩
      · obtain ⟨hlow, hhigh⟩ := ih h hearlier
        exact ⟨hlow, hhigh.trans (Nat.lt_succ_self _)⟩
    | started => cases h

theorem measuredStamps_lt {log : List Entry} (hsound : Sound log) (hnumbered : Numbered log) :
    (measuredStamps log).Nodup ∧ ∀ k ∈ measuredStamps log, k < spent log := by
  induction log with
  | nil => exact ⟨List.nodup_nil, fun k h => by cases h⟩
  | cons entry earlier ih =>
    cases entry with
    | stopped k stamp => exact ih hsound hnumbered.2
    | started measured =>
      cases measured with
      | none =>
        obtain ⟨hnodup, hlt⟩ := ih hsound hnumbered
        exact ⟨hnodup, fun k hk => (hlt k hk).trans_le (spent_le_stops earlier)⟩
      | some measured =>
        obtain ⟨k, reason, sample⟩ := measured
        obtain ⟨⟨hunspent, -⟩, hearlier⟩ := hsound
        obtain ⟨hnodup, hlt⟩ := ih hearlier hnumbered
        obtain ⟨hlow, hhigh⟩ := hunspent.bounds hnumbered
        refine ⟨List.nodup_cons.mpr ⟨fun hmem => ?_, hnodup⟩, ?_⟩
        · have := hlt k hmem
          omega
        · intro j hj
          rcases List.mem_cons.mp hj with rfl | hj
          · exact hhigh
          · exact (hlt j hj).trans_le (spent_le_stops earlier)

/-- What one more event makes of a history in memory: nothing, or it appends a sample that is as new
as any other and drops the oldest. -/
def KeepsNewest (s : Traced) (event : Event) : Prop :=
  ∀ p p', s.core.process = some p → (s.step event).core.process = some p' → ∀ reason,
    p'.lifecycle.samples reason = p.lifecycle.samples reason ∨
      ∃ sample, p'.lifecycle.samples reason = lastEight (p.lifecycle.samples reason ++ [sample]) ∧
        ∀ earlier ∈ p.lifecycle.samples reason, earlier.atTime ≤ sample.atTime

theorem keepsNewest {s : Traced} (h : HistoryInv s) (event : Event) : KeepsNewest s event := by
  intro p p' hp hp' reason
  have hchange := s.change_step event
  generalize s.step event = s' at hchange hp'
  cases hchange with
  | passed =>
    obtain rfl := Option.some.inj (hp.symm.trans hp')
    exact .inl rfl
  | loaded _ loop running hprocess =>
    rw [hprocess] at hp
    cases hp
  | started _ q running count due hprocess hlistening =>
    obtain rfl := Option.some.inj (hp.symm.trans hprocess)
    cases hp'
    simp only [CoreLifecycle.samples_started]
    cases hmeasure : p.lifecycle.measure s.core.wall s.core.loop with
    | none => exact .inl rfl
    | some sample =>
      obtain ⟨-, -, htime, -⟩ := p.lifecycle.measure_eq_some _ _ hmeasure
      simp only
      split
      · refine .inr ⟨sample, rfl, fun earlier hearlier => ?_⟩
        rw [htime]
        exact h.past reason earlier ((h.memory p hp reason).1.mem hearlier)
      · exact .inl rfl
  | counted _ q running count due hprocess =>
    obtain rfl := Option.some.inj (hp.symm.trans hprocess)
    cases hp'
    exact .inl (p.lifecycle.samples_entityCount running count reason)
  | stopped _ q stop due hprocess =>
    obtain rfl := Option.some.inj (hp.symm.trans hprocess)
    cases hp'
    exact .inl rfl
  | saved _ q hprocess =>
    obtain rfl := Option.some.inj (hp.symm.trans hprocess)
    cases hp'
    exact .inl rfl
  | ended => cases hp'

/-- **Each shutdown is measured at most once**, where no process ends while the stamp on disk has
been followed by a STARTED. In every run a history holds what was recorded, at most eight samples,
the newest; and a load keeps plausible values of any document. -/
theorem measured_once (wall : ℚ) (events : List Event) :
    (∀ p, (run Traced.step (.init wall) events).core.process = some p → ∀ reason,
      Retained (run Traced.step (.init wall) events).log reason (p.lifecycle.samples reason)) ∧
    (∀ event, KeepsNewest (run Traced.step (.init wall) events) event) ∧
    (Along Traced.step EndsUnspent (.init wall) events →
      Sound (run Traced.step (.init wall) events).log ∧
        (measuredStamps (run Traced.step (.init wall) events).log).Nodup) ∧
    ∀ now loop running raw, Plausible now ((CoreLifecycle.new running).load now loop raw).1 := by
  have hhistory : HistoryInv (run Traced.step (.init wall) events) :=
    run_inv HistoryInv (fun s event h => h.change (s.change_step event))
      (historyInv_init wall) events
  refine ⟨hhistory.memory, keepsNewest hhistory, fun halong => ?_, plausible_load⟩
  have hstamps : StampInv (run Traced.step (.init wall) events) :=
    run_inv_along StampInv (fun s event h hends => h.change (s.change_step event) hends)
      (stampInv_init wall) halong
  exact ⟨hstamps.sound, (measuredStamps_lt hstamps.sound hstamps.numbered).1⟩

/-- Two restarts, each of which ends half a minute after STARTED or later. -/
def restarted : List Event :=
  [.load 0 true, .shutdown .restart, .save true, .crash,
    .tick 1020 0, .load 0 false, .tick 1030 10, .started true 5, .tick 1060 40, .save false,
    .shutdown .coreUpdate, .save true, .crash,
    .tick 1100 0, .load 0 false, .tick 1110 10, .started true 5]

/-- Each of the two stamps is measured, by the STARTED that followed it. -/
theorem measured_once_restarted : Sound (run Traced.step (.init 1000) restarted).log ∧
    (measuredStamps (run Traced.step (.init 1000) restarted).log).Nodup ∧
    measuredStamps (run Traced.step (.init 1000) restarted).log = [1, 0] := by
  obtain ⟨hsound, honce⟩ := (measured_once 1000 restarted).2.2.1 (by decide +kernel)
  exact ⟨hsound, honce, by decide +kernel⟩

/-! ## A process that ends too early -/

/-- A restart whose first start ends within half a minute of STARTED. -/
def interrupted : List Event :=
  [.load 0 true, .shutdown .restart, .save true, .crash,
    .tick 1020 0, .load 0 false, .tick 1030 10, .started true 5, .crash,
    .tick 1040 0, .load 0 false, .tick 1050 10, .started true 5]

/-- One stamp, two measurements. -/
theorem measured_twice :
    measuredStamps (run Traced.step (.init 1000) interrupted).log = [0, 0] := by
  decide +kernel

end PanelAssistant.Lifecycle
