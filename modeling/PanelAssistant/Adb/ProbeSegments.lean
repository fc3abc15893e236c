import PanelAssistant.Adb.ProbeFrames

/-!
# What probe frames prove

Whatever stands in one segment, without the nonce, walks that end hold the same of all the others
(`agree_replaced`). A result is read off the one frame that an output is (`Framed`): a walk that
ends with a package manager that answered is the walk of such a frame (`proves_of_framed`,
`framed_of_proves`).
-/

namespace PanelAssistant.Adb

open Library Library.Text Library.Lines

/-! ## What stands in one segment -/

namespace Reader

variable {R : Reader} {nonce : Word} {w w' : Walk} {i : ℕ}

/-- Two walks that agree but for what they hold of one segment. -/
structure Agree (i : ℕ) (w w' : Walk) : Prop where
  segment : w.segment = w'.segment
  others : ∀ j ≤ count, j ≠ i → w.status j = w'.status j ∧ w.seen j = w'.seen j

theorem Agree.refl (i : ℕ) (w : Walk) : Agree i w w := ⟨rfl, fun _ _ _ => ⟨rfl, rfl⟩⟩

theorem Agree.trans {w₁ w₂ w₃ : Walk} (h : Agree i w₁ w₂) (h' : Agree i w₂ w₃) : Agree i w₁ w₃ :=
  ⟨h.segment.trans h'.segment, fun j hj hne =>
    ⟨(h.others j hj hne).1.trans (h'.others j hj hne).1,
      (h.others j hj hne).2.trans (h'.others j hj hne).2⟩⟩

theorem Agree.symm {w₁ w₂ : Walk} (h : Agree i w₁ w₂) : Agree i w₂ w₁ :=
  ⟨h.segment.symm, fun j hj hne => ⟨(h.others j hj hne).1.symm, (h.others j hj hne).2.symm⟩⟩

theorem agree_noted (hi : i ≤ count) (w : Walk) : Agree i w (w.noted i) where
  segment := segment_noted.symm
  others j hj hne := ⟨(status_noted j).symm, by rw [seen_noted hi hj, if_neg hne]⟩

theorem agree_closed (hi : i ≤ count) (status status' : ℕ) (h : ∀ j ≤ count, j ≠ i →
    w.status j = w'.status j ∧ w.seen j = w'.seen j) :
    Agree i (w.closed i status) (w'.closed i status') where
  segment := by rw [segment_closed, segment_closed]
  others j hj hne := by
    rw [status_closed hi _ hj, status_closed hi _ hj, if_neg hne, if_neg hne,
      seen_closed, seen_closed]
    exact h j hj hne

theorem Agree.noted {k : ℕ} (hk : k ≤ count) (h : Agree i w w') :
    Agree i (w.noted k) (w'.noted k) where
  segment := by rw [segment_noted, segment_noted, h.segment]
  others j hj hne := by
    rw [status_noted, status_noted, seen_noted hk hj, seen_noted hk hj, (h.others j hj hne).2]
    exact ⟨(h.others j hj hne).1, rfl⟩

theorem Agree.closed {k : ℕ} (hk : k ≤ count) (status : ℕ) (h : Agree i w w') :
    Agree i (w.closed k status) (w'.closed k status) where
  segment := by rw [segment_closed, segment_closed]
  others j hj hne := by
    rw [status_closed hk _ hj, status_closed hk _ hj, seen_closed, seen_closed,
      (h.others j hj hne).1]
    exact ⟨rfl, (h.others j hj hne).2⟩

/-- The same line keeps two walks agreeing. -/
theorem Agree.steps {line : String} {w₁ : Walk} (h : Agree i w w')
    (hsteps : Steps R nonce w line w₁) :
    ∃ w₁', Steps R nonce w' line w₁' ∧ Agree i w₁ w₁' := by
  cases hsteps with
  | empty => exact ⟨w', .empty, h⟩
  | opened hsegment => exact ⟨_, .opened (h.segment ▸ hsegment), rfl, h.others⟩
  | noted hk hsegment hline => exact ⟨_, .noted hk (h.segment ▸ hsegment) hline, h.noted hk⟩
  | closed status hk hsegment =>
    exact ⟨_, .closed status hk (h.segment ▸ hsegment), h.closed hk status.value⟩
  | ended hsegment => exact ⟨_, .ended (h.segment ▸ hsegment), rfl, h.others⟩

theorem walk_cons_eq_some {line : String} {lines : List String} :
    R.walk nonce w (line :: lines) = some w' ↔
      ∃ w₁, Steps R nonce w line w₁ ∧ R.walk nonce w₁ lines = some w' := by
  simp only [walk_cons, Option.bind_eq_some_iff, step_eq_some]

theorem Agree.walk {lines : List String} {w₁ w₁' : Walk} (h : Agree i w w')
    (hwalk : R.walk nonce w lines = some w₁) (hwalk' : R.walk nonce w' lines = some w₁') :
    Agree i w₁ w₁' := by
  induction lines generalizing w w' with
  | nil =>
    obtain rfl := Option.some.inj hwalk
    obtain rfl := Option.some.inj hwalk'
    exact h
  | cons line lines ih =>
    obtain ⟨w₂, hsteps, hrest⟩ := walk_cons_eq_some.mp hwalk
    obtain ⟨w₂', hsteps', hrest'⟩ := walk_cons_eq_some.mp hwalk'
    obtain ⟨w₃, hsteps₃, hagree⟩ := h.steps hsteps
    have heq : some w₃ = some w₂' :=
      (step_eq_some.mpr hsteps₃).symm.trans (step_eq_some.mpr hsteps')
    obtain rfl := Option.some.inj heq
    exact ih hagree hrest hrest'

/-- A line that carries the nonce. -/
def Carries (nonce : Word) (line : String) : Prop := nonce.text.toList <:+: line.toList

theorem carries_marker (k : ℕ) (status : StatusText) : Carries nonce (R.marker nonce k status) := by
  rw [Carries, marker, toList_statusMarker]
  exact ⟨(segmentLabel R.label k).text.toList ++ [':'], ':' :: status.text.toList, by simp⟩

/-- Lines without the nonce stay in their segment. -/
theorem agree_inside (hi : i ≤ count) (h : w.segment = i + 1) {lines : List String}
    (hlines : ∀ line ∈ lines, ¬ Carries nonce line) (hwalk : R.walk nonce w lines = some w') :
    Agree i w w' := by
  induction lines generalizing w with
  | nil =>
    obtain rfl := Option.some.inj hwalk
    exact .refl i w
  | cons line lines ih =>
    obtain ⟨w₁, hsteps, hrest⟩ := walk_cons_eq_some.mp hwalk
    obtain ⟨hline, hlater⟩ := List.forall_mem_cons.mp hlines
    cases hsteps with
    | empty => exact ih h hlater hrest
    | opened h' => omega
    | @noted k _ hk h' hadmits =>
      obtain rfl : k = i := by omega
      exact (agree_noted hi w).trans (ih (by rw [segment_noted, h]) hlater hrest)
    | closed status hk h' => exact absurd (carries_marker _ status) hline
    | ended h' => omega

theorem steps_marker {k : ℕ} {status : StatusText} (hk : k ≤ count)
    (h : Steps R nonce w (R.marker nonce k status) w') :
    w.segment = k + 1 ∧ w' = w.closed k status.value := by
  have hlabelled := labelled_marker R nonce k status
  generalize hline : R.marker nonce k status = line at h hlabelled
  cases h with
  | empty => exact absurd rfl (ne_of_labelled hlabelled)
  | opened h' => exact absurd hline (statusMarker_ne_probeBegin _ _)
  | noted hk' h' hadmits => exact absurd hadmits (not_admits hlabelled)
  | closed status' hk' h' =>
    obtain ⟨rfl, rfl⟩ := marker_inj hk hk' hline
    exact ⟨h', rfl⟩
  | ended h' => exact absurd hline (statusMarker_ne_probeEnd _ _)

theorem steps_begin (h : Steps R nonce w (probeBegin R.label nonce) w') : w'.segment = 1 := by
  have hlabelled := labelled_probeBegin R nonce
  generalize hline : probeBegin R.label nonce = line at h hlabelled
  cases h with
  | empty => exact absurd rfl (ne_of_labelled hlabelled)
  | opened h' => rfl
  | noted hk' h' hadmits => exact absurd hadmits (not_admits hlabelled)
  | closed status hk h' => exact absurd hline.symm (statusMarker_ne_probeBegin _ _)
  | ended h' => exact absurd hline.symm probeEnd_ne_probeBegin

theorem segment_le_of_steps {line : String} (h : Steps R nonce w line w') :
    w.segment ≤ w'.segment := by
  cases h with
  | empty => exact le_rfl
  | opened h' =>
    rw [h']
    exact Nat.zero_le _
  | noted hk h' hadmits => rw [segment_noted]
  | closed status hk h' =>
    rw [segment_closed]
    omega
  | ended h' => exact h' ▸ Nat.le_succ _

/-- A marker that has been read does not come again. -/
theorem marker_not_mem {lines : List String} (hi : i ≤ count) (h : i + 1 < w.segment)
    (hwalk : R.walk nonce w lines = some w') (status : StatusText) :
    R.marker nonce i status ∉ lines := by
  induction lines generalizing w with
  | nil => exact List.not_mem_nil
  | cons line lines ih =>
    obtain ⟨w₁, hsteps, hrest⟩ := walk_cons_eq_some.mp hwalk
    rw [List.mem_cons, not_or]
    refine ⟨?_, ih (lt_of_lt_of_le h (segment_le_of_steps hsteps)) hrest⟩
    rintro rfl
    have := (steps_marker hi hsteps).1
    omega

/-- A walk that ends meets the marker of its segment. -/
theorem marker_mem {lines : List String} (hi : i ≤ count) (h : w.segment = i + 1)
    (hfinishes : R.Finishes nonce w lines w') : ∃ status, R.marker nonce i status ∈ lines := by
  have hfilter : R.Finishes nonce w (lines.filter (· ≠ "")) w' := by
    rw [Finishes, walk_filter]
    exact hfinishes
  obtain ⟨seg, rest, hlines, -⟩ := exists_text hi h
    (fun line hline => by simpa using (List.mem_filter.mp hline).2) hfilter
  refine ⟨seg.status, List.mem_of_mem_filter (p := (· ≠ "")) ?_⟩
  rw [hlines, Segment.text]
  simp

/-- The line that a segment stands behind. -/
inductive Opens (R : Reader) (nonce : Word) : ℕ → String → Prop
  | first : Opens R nonce 0 (probeBegin R.label nonce)
  | next (k : ℕ) (status : StatusText) : Opens R nonce (k + 1) (R.marker nonce k status)

theorem segment_of_opens {line : String} (hi : i ≤ count) (hopens : Opens R nonce i line)
    (h : Steps R nonce w line w') : w'.segment = i + 1 := by
  cases hopens with
  | first => exact steps_begin h
  | next k status =>
    rw [(steps_marker (by omega) h).2, segment_closed]

/-- Text before a marker on its line makes it no marker. -/
theorem eq_empty_of_marker {i : ℕ} {tail : List Char} {status status' : StatusText}
    (h : tail ++ (R.marker nonce i status).toList = (R.marker nonce i status').toList) :
    tail = [] := by
  have hdigits : ∀ s : StatusText, ':' ∉ s.text.toList := by
    intro s hmem
    have hall := s.digits
    rw [repeats, Bool.and_eq_true] at hall
    have := List.all_eq_true.mp hall.2 ':' hmem
    revert this
    decide
  have hcount : ∀ s : StatusText, (R.marker nonce i s).toList.count ':' = 2 := by
    intro s
    rw [marker, toList_statusMarker, List.count_append, List.count_cons_self, List.count_append,
      List.count_cons_self, List.count_eq_zero.mpr (colon_not_mem_word _),
      List.count_eq_zero.mpr (colon_not_mem_word _), List.count_eq_zero.mpr (hdigits s)]
  have hnone : ':' ∉ tail := by
    have heq := congrArg (List.count ':') h
    rw [List.count_append, hcount, hcount] at heq
    exact List.count_eq_zero.mp (by omega)
  rw [marker, marker, toList_statusMarker, toList_statusMarker, ← List.append_assoc] at h
  have hword : ':' ∉ tail ++ (segmentLabel R.label i).text.toList := by
    rw [List.mem_append, not_or]
    exact ⟨hnone, colon_not_mem_word _⟩
  have hlabel := congrArg List.length (colon_inj hword (colon_not_mem_word _) h).1
  rw [List.length_append] at hlabel
  exact List.length_eq_zero_iff.mp (by omega)

/-- What ends a segment: its marker, or the marker glued to a last line without an end. -/
theorem steps_glued {tail : List Char} {status : StatusText} (hi : i ≤ count)
    (h : w.segment = i + 1)
    (hsteps : Steps R nonce w (String.ofList (tail ++ (R.marker nonce i status).toList)) w') :
    w' = w.closed i status.value ∨ w' = w.noted i := by
  generalize hline : String.ofList (tail ++ (R.marker nonce i status).toList) = line at hsteps
  cases hsteps with
  | empty =>
    have hempty := congrArg String.toList hline
    rw [String.toList_ofList] at hempty
    have hmarker : R.marker nonce i status = "" :=
      String.toList_inj.mp (List.append_eq_nil_iff.mp hempty).2
    exact absurd hmarker (ne_of_labelled (labelled_marker R nonce i status))
  | opened h' => omega
  | @noted k _ hk h' hadmits =>
    obtain rfl : k = i := by omega
    exact .inr rfl
  | @closed k status' hk h' =>
    obtain rfl : k = i := by omega
    have htext := congrArg String.toList hline
    rw [String.toList_ofList] at htext
    obtain rfl := eq_empty_of_marker htext
    rw [List.nil_append, String.toList_inj] at htext
    exact .inl (by rw [(marker_inj hi hi htext).2])
  | ended h' => omega

/-- Whatever stands in a segment, walks that end hold the same of all others. -/
theorem agree_replaced (hi : i ≤ count) {lines inside inside' rest : List String} {opener : String}
    {tail tail' : List Char} {status status' : StatusText} {f f' : Walk}
    (hopens : Opens R nonce i opener)
    (hinside : ∀ line ∈ inside, ¬ Carries nonce line)
    (hinside' : ∀ line ∈ inside', ¬ Carries nonce line)
    (hfinishes : R.Finishes nonce w (lines ++ [opener] ++ inside ++
      String.ofList (tail ++ (R.marker nonce i status).toList) :: rest) f)
    (hfinishes' : R.Finishes nonce w (lines ++ [opener] ++ inside' ++
      String.ofList (tail' ++ (R.marker nonce i status').toList) :: rest) f') :
    Agree i f f' := by
  have hparts : ∀ {inside : List String} {tail : List Char} {status : StatusText} {f : Walk},
      (∀ line ∈ inside, ¬ Carries nonce line) →
      R.Finishes nonce w (lines ++ [opener] ++ inside ++
        String.ofList (tail ++ (R.marker nonce i status).toList) :: rest) f →
      ∃ w₁ w₂ w₃, R.walk nonce w (lines ++ [opener]) = some w₁ ∧
        w₁.segment = i + 1 ∧ Agree i w₁ w₂ ∧
        (w₃ = w₂.closed i status.value ∨ w₃ = w₂.noted i) ∧ R.Finishes nonce w₃ rest f := by
    rintro inside tail status f hinside ⟨hwalk, hsegment⟩
    rw [walk_append, walk_append, Option.bind_eq_some_iff] at hwalk
    obtain ⟨w₂, hwalk₂, hwalk⟩ := hwalk
    obtain ⟨w₁, hwalk₁, hwalk₂⟩ := Option.bind_eq_some_iff.mp hwalk₂
    obtain ⟨w₃, hsteps, hwalk⟩ := walk_cons_eq_some.mp hwalk
    have hopened : w₁.segment = i + 1 := by
      have hlast := hwalk₁
      rw [walk_append, Option.bind_eq_some_iff] at hlast
      obtain ⟨w₀, -, hlast⟩ := hlast
      obtain ⟨w₁', hsteps', hnil⟩ := walk_cons_eq_some.mp hlast
      obtain rfl := Option.some.inj hnil
      exact segment_of_opens hi hopens hsteps'
    have hagree := agree_inside hi hopened hinside hwalk₂
    exact ⟨w₁, w₂, w₃, hwalk₁, hopened, hagree,
      steps_glued hi (hagree.segment ▸ hopened) hsteps, hwalk, hsegment⟩
  obtain ⟨w₁, w₂, w₃, hwalk₁, hopened, hagree, hlast, hrest⟩ := hparts hinside hfinishes
  obtain ⟨w₁', w₂', w₃', hwalk₁', -, hagree', hlast', hrest'⟩ := hparts hinside' hfinishes'
  obtain rfl := Option.some.inj (hwalk₁.symm.trans hwalk₁')
  have hboth : Agree i w₂ w₂' := hagree.symm.trans hagree'
  have hopen : w₂.segment = i + 1 := hagree.segment ▸ hopened
  have hopen' : w₂'.segment = i + 1 := hagree'.segment ▸ hopened
  rcases hlast with rfl | rfl <;> rcases hlast' with rfl | rfl
  · exact (agree_closed hi _ _ hboth.others).walk hrest.1 hrest'.1
  · -- one walk is past the segment, the other one still needs its marker
    obtain ⟨status₃, hmem⟩ := marker_mem hi (by rw [segment_noted, hopen']) hrest'
    exact absurd hmem (marker_not_mem hi (by rw [segment_closed]; omega) hrest.1 status₃)
  · obtain ⟨status₃, hmem⟩ := marker_mem hi (by rw [segment_noted, hopen]) hrest
    exact absurd hmem (marker_not_mem hi (by rw [segment_closed]; omega) hrest'.1 status₃)
  · exact (hboth.noted hi).walk hrest.1 hrest'.1

end Reader

/-! ## Results -/

/-- What stands in the segment of an id, and a status that proves it. -/
def Segment.ProvesPresence (seg : Segment) : Prop :=
  if seg.lines = [] then seg.status.value ≤ 1 else seg.status.value = 0

instance (seg : Segment) : Decidable seg.ProvesPresence :=
  inferInstanceAs
    (Decidable (if seg.lines = [] then seg.status.value ≤ 1 else seg.status.value = 0))

def Segment.presence (seg : Segment) : PackagePresence :=
  if seg.lines = [] then .absent else .present

def Segment.retained (seg : Segment) : RetainedPackageData :=
  if seg.lines = [] then .absent else .retained

/-- The non-empty lines of an output are one frame, in whose segments only their own lines stand,
and whose package manager answered. -/
structure Framed (R : Reader) (nonce : Word) (output : String) (targets : List Segment)
    (live : Segment) : Prop where
  length : targets.length = count
  lines : (outputLines output).filter (· ≠ "") = R.frame nonce (targets ++ [live])
  admitted : ∀ i seg, targets[i]? = some seg → ∀ line ∈ seg.lines, R.admits i line = true
  paths : ∀ line ∈ live.lines, isPackagePath line = true
  answered : live.lines ≠ []
  alive : live.status.value = 0

/-- What a walk holds of the ids is what stood in their segments. -/
def Holds (w : Walk) (targets : List Segment) : Prop :=
  ∀ i seg, targets[i]? = some seg →
    w.targetStatus i = some seg.status.value ∧ w.target i = !seg.lines.isEmpty

/-- A walk that ends and proved the package manager alive. -/
def Proves (R : Reader) (nonce : Word) (output : String) (w : Walk) : Prop :=
  R.Finishes nonce Walk.initial (outputLines output) w ∧ w.liveStatus = some 0 ∧ w.livePath = true

section

variable {R : Reader} {nonce : Word} {output : String} {w : Walk}

/-- The walk of a frame. -/
def Walk.ofFrame (segs : List Segment) : Walk :=
  { ({ Walk.initial with segment := 1 } : Walk).readAll 0 segs with segment := count + 3 }

theorem ofFrame_get {segs : List Segment} (hlength : segs.length = count + 1)
    {i : ℕ} {seg : Segment}
    (hseg : segs[i]? = some seg) :
    (Walk.ofFrame segs).status i = some seg.status.value ∧
      (Walk.ofFrame segs).seen i = !seg.lines.isEmpty := by
  have hget := readAll_get (w := { Walk.initial with segment := 1 }) (k := 0) (by omega) hseg
    fun j _ _ => Reader.seen_initial j
  rwa [Nat.zero_add] at hget

theorem holds_ofFrame {targets : List Segment} (live : Segment) (hlength : targets.length = count) :
    Holds (Walk.ofFrame (targets ++ [live])) targets := by
  intro i seg hseg
  have hi : i < count := hlength ▸ (List.getElem?_eq_some_iff.mp hseg).1
  have hsegs : (targets ++ [live])[i]? = some seg := by
    rw [List.getElem?_append_left (by omega), hseg]
  have hget := ofFrame_get (by simp [hlength]) hsegs
  rwa [Walk.status, Walk.seen, if_pos hi, if_pos hi] at hget

theorem live_ofFrame {targets : List Segment} (live : Segment) (hlength : targets.length = count) :
    (Walk.ofFrame (targets ++ [live])).liveStatus = some live.status.value ∧
      (Walk.ofFrame (targets ++ [live])).livePath = !live.lines.isEmpty := by
  have hsegs : (targets ++ [live])[count]? = some live := by
    rw [← hlength, List.getElem?_concat_length]
  have hget := ofFrame_get (by simp [hlength]) hsegs
  rwa [Walk.status, Walk.seen, if_neg (lt_irrefl _), if_neg (lt_irrefl _)] at hget

theorem proves_of_framed {targets : List Segment} {live : Segment}
    (h : Framed R nonce output targets live) :
    Proves R nonce output (Walk.ofFrame (targets ++ [live])) := by
  have hlive := live_ofFrame live h.length
  refine ⟨Reader.finishes_frame.mpr ⟨targets ++ [live], by simp [h.length], h.lines, ?_, rfl⟩,
    ?_, ?_⟩
  · intro i seg hseg line hline
    rw [Nat.zero_add]
    rcases Nat.lt_or_ge i targets.length with hi | hi
    · rw [List.getElem?_append_left hi] at hseg
      exact h.admitted i seg hseg line hline
    · have hi' := (List.getElem?_eq_some_iff.mp hseg).1
      rw [List.length_append, List.length_singleton] at hi'
      obtain rfl : i = targets.length := by omega
      rw [List.getElem?_concat_length] at hseg
      obtain rfl := Option.some.inj hseg
      rw [h.length, R.admits_live]
      exact h.paths line hline
  · rw [hlive.1, h.alive]
  · rw [hlive.2, List.isEmpty_eq_false_iff.mpr h.answered]
    rfl

theorem framed_of_proves (h : Proves R nonce output w) :
    ∃ targets live, Framed R nonce output targets live ∧ w = Walk.ofFrame (targets ++ [live]) := by
  obtain ⟨hfinishes, hstatus, hpath⟩ := h
  obtain ⟨segs, hlength, hlines, hadmitted, rfl⟩ := Reader.finishes_frame.mp hfinishes
  obtain ⟨targets, live, rfl⟩ := List.eq_nil_or_concat segs |>.resolve_left (by
    rintro rfl
    cases hlength)
  rw [List.concat_eq_append] at *
  rw [List.length_append, List.length_singleton] at hlength
  have htargets : targets.length = count := by omega
  have hlive := live_ofFrame live htargets
  refine ⟨targets, live, ⟨htargets, hlines, ?_, ?_, ?_, ?_⟩, rfl⟩
  · intro i seg hseg line hline
    have hi := (List.getElem?_eq_some_iff.mp hseg).1
    have := hadmitted i seg (by rw [List.getElem?_append_left hi, hseg]) line hline
    rwa [Nat.zero_add] at this
  · intro line hline
    have := hadmitted targets.length live List.getElem?_concat_length line hline
    rwa [Nat.zero_add, htargets, R.admits_live] at this
  · have hne := hlive.2.symm.trans hpath
    rw [Bool.not_eq_true', List.isEmpty_eq_false_iff] at hne
    exact hne
  · exact Option.some.inj (hlive.1.symm.trans hstatus)

/-- Answers that are read off by index. -/
theorem mapM_zipIdx {α : Type} {f : ℕ → Option α} {ids : List String} {k : ℕ}
    {entries : List (String × α)} :
    (ids.zipIdx k).mapM (fun e => (f e.2).map fun value => (e.1, value)) = some entries ↔
      ∃ values : List α, values.length = ids.length ∧
        (∀ i value, values[i]? = some value → f (k + i) = some value) ∧
          entries = ids.zip values := by
  induction ids generalizing k entries with
  | nil =>
    constructor
    · intro h
      exact ⟨[], rfl, fun i value hvalue => by simp at hvalue, (Option.some.inj h).symm⟩
    · rintro ⟨values, -, -, rfl⟩
      rfl
  | cons id ids ih =>
    simp only [List.zipIdx_cons, List.mapM_cons, Option.bind_eq_bind, Option.bind_eq_some_iff,
      Option.map_eq_some_iff, ih, Option.pure_def, Option.some.injEq]
    constructor
    · rintro ⟨_, ⟨value, hvalue, rfl⟩, _, ⟨values, hlength, hvalues, rfl⟩, rfl⟩
      refine ⟨value :: values, congrArg (· + 1) hlength, ?_, rfl⟩
      intro i value' hvalue'
      cases i with
      | zero =>
        obtain rfl := Option.some.inj hvalue'
        exact hvalue
      | succ i =>
        have := hvalues i value' hvalue'
        rwa [show k + 1 + i = k + (i + 1) by omega] at this
    · rintro ⟨values, hlength, hvalues, rfl⟩
      cases values with
      | nil => cases hlength
      | cons value values =>
        refine ⟨_, ⟨value, hvalues 0 value rfl, rfl⟩, _,
          ⟨values, Nat.succ.inj hlength, fun i value' hvalue' => ?_, rfl⟩, rfl⟩
        have := hvalues (i + 1) value' hvalue'
        rwa [show k + (i + 1) = k + 1 + i by omega] at this

theorem nodup_probedPackageIds : probedPackageIds.Nodup := by
  decide

/-- What a result says of an id. -/
theorem get?_answers {α : Type} {values : List α} {id : String} {value : α}
    (hlength : values.length = probedPackageIds.length) :
    (Dict.ofList (probedPackageIds.zip values)).get? id = some value ↔
      ∃ i : ℕ, probedPackageIds[i]? = some id ∧ values[i]? = some value := by
  have hkeys : ((probedPackageIds.zip values).map Prod.fst).Nodup := by
    rw [List.map_fst_zip (by omega)]
    exact nodup_probedPackageIds
  rw [Dict.get?_eq_some, Dict.entries_ofList hkeys, List.mem_iff_getElem?]
  simp only [List.getElem?_zip_eq_some]

end

end PanelAssistant.Adb
