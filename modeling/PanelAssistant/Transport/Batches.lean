import PanelAssistant.Transport.Reports

/-!
# What a session keeps of its reports

The observations and rejections of a session, as a function of what its reports decided: an
observation is kept from the last acceptance, a rejection while the last decision refused.
-/

namespace PanelAssistant

open Library

/-- What a report decides about its observations, up to one whose validator raises. -/
def decisions (F : WireFormats) (descriptors : Dict String Descriptor) (now : Nat) :
    List ReportedObservation → List (String × Verdict)
  | [] => []
  | o :: rest =>
    match judge F descriptors now o with
    | .raised => []
    | verdict => (o.channel, verdict) :: decisions F descriptors now rest

/-- The code a verdict is remembered under. -/
def Verdict.code : Verdict → Option String
  | .refused code => some code
  | _ => none

def Verdict.observation : Verdict → Option Observation
  | .stored o => some o
  | _ => none

/-- The answer to an observation that is not stored. -/
def Verdict.rejection : Verdict → Option String
  | .refused code => some code
  | .unknownChannel => some errUnknownChannel
  | _ => none

/-- The last decision about a channel. -/
def lastVerdict (channel : String) (ds : List (String × Verdict)) : Option Verdict :=
  (ds.reverse.find? (·.1 == channel)).map (·.2)

/-- The last accepted observation of a channel. -/
def lastStored (channel : String) (ds : List (String × Verdict)) : Option Observation :=
  ds.reverse.findSome? fun d => if d.1 = channel then d.2.observation else none

/-- The observations that were not stored, as they are answered. -/
def unstored (ds : List (String × Verdict)) : List (String × String) :=
  ds.filterMap fun d => d.2.rejection.map fun code => (d.1, code)

theorem lastVerdict_concat (channel : String) (ds : List (String × Verdict)) (c : String)
    (v : Verdict) : lastVerdict channel (ds ++ [(c, v)]) =
      if c = channel then some v else lastVerdict channel ds := by
  unfold lastVerdict
  rw [List.reverse_append, List.reverse_singleton, List.singleton_append, List.find?_cons]
  by_cases hc : c = channel
  · simp [hc]
  · simp only [beq_eq_false_iff_ne.mpr hc, if_neg hc]

theorem lastStored_concat (channel : String) (ds : List (String × Verdict)) (c : String)
    (v : Verdict) : lastStored channel (ds ++ [(c, v)]) =
      if c = channel then v.observation.or (lastStored channel ds) else lastStored channel ds := by
  unfold lastStored
  rw [List.reverse_append, List.reverse_singleton, List.singleton_append, List.findSome?_cons]
  by_cases hc : c = channel
  · simp only [hc, if_true]
    cases v.observation <;> rfl
  · simp [hc]

theorem mem_of_lastVerdict {channel : String} {ds : List (String × Verdict)} {v : Verdict}
    (h : lastVerdict channel ds = some v) : (channel, v) ∈ ds := by
  unfold lastVerdict at h
  obtain ⟨⟨c, v'⟩, hfind, rfl⟩ := Option.map_eq_some_iff.mp h
  have hc := List.find?_some hfind
  simp only [beq_iff_eq] at hc
  subst hc
  exact List.mem_reverse.mp (List.mem_of_find?_eq_some hfind)

theorem mem_of_lastStored {channel : String} {ds : List (String × Verdict)} {o : Observation}
    (h : lastStored channel ds = some o) : (channel, .stored o) ∈ ds := by
  unfold lastStored at h
  obtain ⟨⟨c, v⟩, hmem, hv⟩ := List.exists_of_findSome?_eq_some h
  split at hv
  · rename_i hc
    dsimp only at hc hv
    subst hc
    cases v with
    | stored o' =>
      cases hv
      exact List.mem_reverse.mp hmem
    | _ => cases hv
  · cases hv

/-! ## What a session keeps -/

/-- The session keeps exactly what was decided. -/
structure Kept (F : WireFormats) (s : SessionReports) (ds : List (String × Verdict)) : Prop where
  judged : ∀ {c : String} {v : Verdict}, (c, v) ∈ ds →
    ∃ t o, o.channel = c ∧ judge F s.descriptors t o = v
  observations : ∀ c, s.observations.get? c = lastStored c ds
  rejections : ∀ c, s.rejections.get? c = (lastVerdict c ds).bind Verdict.code

/-- Whether a channel is known depends on the descriptors alone. -/
theorem judge_unknownChannel {F : WireFormats} {descriptors : Dict String Descriptor}
    {t t' : Nat} {o o' : ReportedObservation} (hc : o.channel = o'.channel)
    (h : judge F descriptors t o = .unknownChannel) :
    judge F descriptors t' o' = .unknownChannel := by
  unfold judge at h ⊢
  rw [← hc]
  cases hd : descriptors.get? o.channel with
  | none => rfl
  | some d =>
    simp only [hd] at h
    cases hv : valueValidator F d.platform with
    | none => simp only [hv]
    | some validate =>
      simp only [hv] at h
      split at h <;> cases h

theorem Kept.take {F : WireFormats} {b : Batch} {ds : List (String × Verdict)}
    (h : Kept F b.reports ds) {now : Nat} {o : ReportedObservation} {v : Verdict}
    (hv : judge F b.reports.descriptors now o = v) (hraised : v ≠ .raised) :
    Kept F (b.take o.channel v).reports (ds ++ [(o.channel, v)]) := by
  have hjudged : ∀ {c : String} {w : Verdict}, (c, w) ∈ ds ++ [(o.channel, v)] →
      ∃ t o', o'.channel = c ∧ judge F b.reports.descriptors t o' = w := by
    intro c w hin
    rcases List.mem_append.mp hin with hin | hin
    · exact h.judged hin
    · rw [List.mem_singleton, Prod.mk.injEq] at hin
      obtain ⟨rfl, rfl⟩ := hin
      exact ⟨now, o, rfl, hv⟩
  cases v with
  | stored obs =>
    refine ⟨hjudged, ?_, ?_⟩
    · intro c
      rw [lastStored_concat, ← h.observations]
      show (b.reports.observations.set o.channel obs).get? c = _
      rw [Dict.get?_set]
      by_cases hc : c = o.channel
      · simp [hc, Verdict.observation]
      · rw [if_neg hc, if_neg (Ne.symm hc)]
    · intro c
      rw [lastVerdict_concat]
      show (b.reports.rejections.pop o.channel).get? c = _
      rw [Dict.get?_pop]
      by_cases hc : c = o.channel
      · rw [if_pos hc, if_pos hc.symm]
        rfl
      · rw [if_neg hc, if_neg (Ne.symm hc)]
        exact h.rejections c
  | refused code =>
    refine ⟨hjudged, ?_, ?_⟩
    · intro c
      rw [lastStored_concat, ← h.observations]
      show b.reports.observations.get? c = _
      split <;> rfl
    · intro c
      rw [lastVerdict_concat]
      show (b.reports.rejections.set o.channel code).get? c = _
      rw [Dict.get?_set]
      by_cases hc : c = o.channel
      · rw [if_pos hc, if_pos hc.symm]
        rfl
      · rw [if_neg hc, if_neg (Ne.symm hc)]
        exact h.rejections c
  | unknownChannel =>
    refine ⟨hjudged, ?_, ?_⟩
    · intro c
      rw [lastStored_concat, ← h.observations]
      show b.reports.observations.get? c = _
      split <;> rfl
    · intro c
      rw [lastVerdict_concat]
      show b.reports.rejections.get? c = _
      rw [h.rejections c]
      by_cases hc : o.channel = c
      · rw [if_pos hc]
        -- Nothing was ever decided about such a channel but that it is unknown.
        cases hlast : lastVerdict c ds with
        | none => rfl
        | some w =>
          obtain ⟨t, o', ho', hw⟩ := h.judged (mem_of_lastVerdict hlast)
          rw [judge_unknownChannel (hc.trans ho'.symm) hv] at hw
          subst hw
          rfl
      · rw [if_neg hc]
  | raised => exact absurd rfl hraised

/-- The fields of a session that no observation touches. -/
structure SameSync (s s' : SessionReports) : Prop where
  descriptors : s'.descriptors = s.descriptors
  fullSyncBegun : s'.fullSyncBegun = s.fullSyncBegun
  fullSyncComplete : s'.fullSyncComplete = s.fullSyncComplete
  eventsReceived : s'.eventsReceived = s.eventsReceived
  lastEventId : s'.lastEventId = s.lastEventId

theorem SameSync.refl (s : SessionReports) : SameSync s s := ⟨rfl, rfl, rfl, rfl, rfl⟩

theorem SameSync.trans {s s' s'' : SessionReports} (h : SameSync s s') (h' : SameSync s' s'') :
    SameSync s s'' :=
  ⟨h'.descriptors.trans h.descriptors, h'.fullSyncBegun.trans h.fullSyncBegun,
    h'.fullSyncComplete.trans h.fullSyncComplete, h'.eventsReceived.trans h.eventsReceived,
    h'.lastEventId.trans h.lastEventId⟩

theorem sameSync_take (b : Batch) (channel : String) (v : Verdict) :
    SameSync b.reports (b.take channel v).reports := by
  cases v <;> exact ⟨rfl, rfl, rfl, rfl, rfl⟩

theorem rejected_take (b : Batch) (channel : String) {v : Verdict} :
    (b.take channel v).rejected =
      b.rejected ++ (v.rejection.map fun code => (channel, code)).toList := by
  cases v <;> simp [Batch.take, Verdict.rejection]

/-- What the loop leaves behind. -/
structure Taken (F : WireFormats) (now : Nat) (obs : List ReportedObservation)
    (ds : List (String × Verdict)) (b b' : Batch) (raised : Bool) : Prop where
  kept : Kept F b'.reports (ds ++ decisions F b.reports.descriptors now obs)
  same : SameSync b.reports b'.reports
  rejected : b'.rejected = b.rejected ++ unstored (decisions F b.reports.descriptors now obs)
  decided : raised = false → (decisions F b.reports.descriptors now obs).length = obs.length

theorem taken_takeObservations {F : WireFormats} {now : Nat} (obs : List ReportedObservation)
    {b : Batch} {ds : List (String × Verdict)} (h : Kept F b.reports ds) :
    Taken F now obs ds b (takeObservations F now obs b).1 (takeObservations F now obs b).2 := by
  induction obs generalizing b ds with
  | nil =>
    refine ⟨?_, .refl _, ?_, fun _ => rfl⟩
    · rw [decisions, List.append_nil]
      exact h
    · simp [takeObservations, decisions, unstored]
  | cons o rest ih =>
    have hstep : ∀ v, judge F b.reports.descriptors now o = v → v ≠ .raised →
        takeObservations F now (o :: rest) b = takeObservations F now rest (b.take o.channel v) →
        decisions F b.reports.descriptors now (o :: rest) =
          (o.channel, v) :: decisions F b.reports.descriptors now rest →
        Taken F now (o :: rest) ds b (takeObservations F now (o :: rest) b).1
          (takeObservations F now (o :: rest) b).2 := by
      intro v hv hraised htake hdecide
      have hsame := sameSync_take b o.channel v
      obtain ⟨hkept, hrest, hrejected, hdecided⟩ := ih (h.take hv hraised)
      rw [hsame.descriptors] at hkept hrejected hdecided
      rw [htake]
      refine ⟨?_, hsame.trans hrest, ?_, ?_⟩
      · rw [hdecide]
        simpa using hkept
      · rw [hdecide, hrejected, rejected_take, unstored, unstored, List.filterMap_cons,
          List.append_assoc]
        cases v.rejection <;> rfl
      · intro hnot
        rw [hdecide, List.length_cons, hdecided hnot, List.length_cons]
    cases hv : judge F b.reports.descriptors now o with
    | raised =>
      have htake : takeObservations F now (o :: rest) b = (b, true) := by
        simp only [takeObservations, hv]
      have hdecide : decisions F b.reports.descriptors now (o :: rest) = [] := by
        simp only [decisions, hv]
      rw [htake]
      refine ⟨?_, .refl _, ?_, fun hnot => by cases hnot⟩
      · rw [hdecide, List.append_nil]
        exact h
      · rw [hdecide]
        simp [unstored]
    | stored obs' =>
      exact hstep _ hv (by simp) (by simp only [takeObservations, hv])
        (by simp only [decisions, hv])
    | refused code =>
      exact hstep _ hv (by simp) (by simp only [takeObservations, hv])
        (by simp only [decisions, hv])
    | unknownChannel =>
      exact hstep _ hv (by simp) (by simp only [takeObservations, hv])
        (by simp only [decisions, hv])

/-! ## What is stored was admitted -/

/-- A stored observation is what the channel's validator returned, and validates again. -/
structure Admitted (F : WireFormats) (s : SessionReports) (channel : String) (o : Observation) :
    Prop where
  described : ∃ d validate, s.descriptors.get? channel = some d ∧
    valueValidator F d.platform = some validate ∧
      (o.state = .known → ∃ w, o.value = some w ∧ validate w d = .ok w)
  unvalued : o.state ≠ .known → o.value = none
  attributes : AttributesOk o.attributes

theorem admitted_of_judge {F : WireFormats} {s : SessionReports} {t : Nat}
    {o : ReportedObservation} {obs : Observation}
    (h : judge F s.descriptors t o = .stored obs) : Admitted F s o.channel obs := by
  unfold judge at h
  split at h
  · cases h
  · rename_i d hd
    split at h
    · cases h
    · rename_i validate hvalidate
      split at h
      · rename_i value attributes hadm
        cases h
        unfold validateObservation at hadm
        split at hadm
        · rename_i hknown
          rw [bind_eq_ok] at hadm
          obtain ⟨w, hw, hadm⟩ := hadm
          rw [bind_eq_ok] at hadm
          obtain ⟨attributes', hattributes, heq⟩ := hadm
          cases heq
          refine ⟨⟨d, validate, hd, hvalidate, fun _ => ⟨w, rfl, ?_⟩⟩, ?_, ?_⟩
          · exact valueValidator_again hvalidate hw
          · exact fun hnot => absurd hknown hnot
          · exact validateAttributes_ok hattributes
        · rename_i hnot
          cases hadm
          exact ⟨⟨d, validate, hd, hvalidate, fun hknown => absurd hknown hnot⟩, fun _ => rfl,
            attributesOk_empty⟩
      · cases h
      · cases h

theorem Kept.admitted {F : WireFormats} {s : SessionReports} {ds : List (String × Verdict)}
    (h : Kept F s ds) {c : String} {o : Observation} (ho : s.observations.get? c = some o) :
    Admitted F s c o := by
  rw [h.observations] at ho
  obtain ⟨t, r, rfl, hr⟩ := h.judged (mem_of_lastStored ho)
  exact admitted_of_judge hr

/-- A refused observation is one of a described channel. -/
theorem described_of_refused {F : WireFormats} {descriptors : Dict String Descriptor} {t : Nat}
    {o : ReportedObservation} {code : String} (h : judge F descriptors t o = .refused code) :
    ∃ d, descriptors.get? o.channel = some d := by
  unfold judge at h
  split at h
  · cases h
  · rename_i d hd
    exact ⟨d, hd⟩

theorem Kept.rejected {F : WireFormats} {s : SessionReports} {ds : List (String × Verdict)}
    (h : Kept F s ds) {c code : String} (hc : s.rejections.get? c = some code) :
    ∃ d, s.descriptors.get? c = some d := by
  rw [h.rejections] at hc
  obtain ⟨v, hv, hcode⟩ := Option.bind_eq_some_iff.mp hc
  obtain ⟨t, o, rfl, ho⟩ := h.judged (mem_of_lastVerdict hv)
  cases v with
  | refused code' => exact described_of_refused ho
  | _ => cases hcode

end PanelAssistant
