import PanelAssistant.Adb.PackageProbe

/-!
# Probe frames and their segments

What a line does to the walk is said once (`Steps`, `step_eq_some`). A walk that ends has read one
frame and nothing else (`finishes_frame`), and what it holds of a segment is what stood there
(`readAll_get`).
-/

namespace PanelAssistant.Adb

open Library Library.Text Library.Lines

/-! ## What a line does -/

namespace Reader

variable {R : Reader} {nonce : Word} {w w' : Walk} {line : String}

/-- The marker that ends segment `k`. -/
def marker (R : Reader) (nonce : Word) (k : ℕ) (status : StatusText) : String :=
  statusMarker (segmentLabel R.label k) nonce status.text

theorem marker_target (R : Reader) (nonce : Word) {k : ℕ} (h : k < count) (status : StatusText) :
    R.marker nonce k status = statusMarker (targetLabel R.label k) nonce status.text := by
  rw [marker, segmentLabel, if_pos h]

theorem marker_live (R : Reader) (nonce : Word) (status : StatusText) :
    R.marker nonce count status = statusMarker (liveLabel R.label) nonce status.text := by
  rw [marker, segmentLabel, if_neg (lt_irrefl _)]

theorem marker_inj {i j : ℕ} {status status' : StatusText} (hi : i ≤ count) (hj : j ≤ count)
    (h : R.marker nonce i status = R.marker nonce j status') : i = j ∧ status = status' := by
  obtain ⟨hlabel, -, htext⟩ := statusMarker_inj h
  refine ⟨segmentLabel_inj hi hj hlabel, ?_⟩
  cases status
  cases status'
  simp only at htext
  subst htext
  rfl

/-- A line of the label is no line a segment admits. -/
theorem not_admits {k : ℕ} (h : (R.label.text ++ "_").toList.isPrefixOf line.toList = true) :
    ¬ R.admits k line = true := by
  intro hadmits
  have hplain := R.admits_plain hadmits
  have hpre : "HAPANELD".toList <+: line.toList := by
    refine (List.isPrefixOf_iff_prefix.mp R.labelled).trans ?_
    refine (List.prefix_append _ "_".toList).trans ?_
    rw [← String.toList_append]
    exact List.isPrefixOf_iff_prefix.mp h
  rw [List.isPrefixOf_iff_prefix.mpr hpre] at hplain
  cases hplain

theorem labelled_probeBegin (R : Reader) (nonce : Word) :
    (R.label.text ++ "_").toList.isPrefixOf (probeBegin R.label nonce).toList = true := by
  rw [List.isPrefixOf_iff_prefix, probeBegin_eq]
  exact ⟨"BEGIN".toList ++ (":".toList ++ nonce.text.toList), by
    simp only [Word.section, String.toList_append, List.append_assoc]⟩

theorem labelled_probeEnd (R : Reader) (nonce : Word) :
    (R.label.text ++ "_").toList.isPrefixOf (probeEnd R.label nonce).toList = true := by
  rw [List.isPrefixOf_iff_prefix, probeEnd_eq]
  exact ⟨"END".toList ++ (":".toList ++ nonce.text.toList), by
    simp only [Word.section, String.toList_append, List.append_assoc]⟩

theorem labelled_marker (R : Reader) (nonce : Word) (k : ℕ) (status : StatusText) :
    (R.label.text ++ "_").toList.isPrefixOf (R.marker nonce k status).toList = true := by
  rw [List.isPrefixOf_iff_prefix, marker, statusMarker]
  unfold segmentLabel
  split
  · exact ⟨"TARGET".toList ++ (k.repr.toList ++ (":".toList ++ (nonce.text.toList ++
      (":".toList ++ status.text.toList)))), by
      simp only [targetLabel, Word.numbered, Word.section, String.toList_append, List.append_assoc]⟩
  · exact ⟨"LIVE".toList ++ (":".toList ++ (nonce.text.toList ++
      (":".toList ++ status.text.toList))), by
      simp only [liveLabel, liveName, Word.section, String.toList_append, List.append_assoc]⟩

theorem ne_of_labelled (h : (R.label.text ++ "_").toList.isPrefixOf line.toList = true) :
    line ≠ "" := by
  rintro rfl
  obtain ⟨rest, hrest⟩ := List.isPrefixOf_iff_prefix.mp h
  have := congrArg List.length hrest
  simp at this

/-- One round of the walk. -/
def step (R : Reader) (nonce : Word) : Walk → String → Option Walk := scanLine R.label nonce R.own

/-- Everything that a line can do. -/
inductive Steps (R : Reader) (nonce : Word) (w : Walk) : String → Walk → Prop
  | empty : Steps R nonce w "" w
  | opened (h : w.segment = 0) : Steps R nonce w (probeBegin R.label nonce) { w with segment := 1 }
  | noted {k : ℕ} {line : String} (hk : k ≤ count) (h : w.segment = k + 1)
      (hline : R.admits k line = true) : Steps R nonce w line (w.noted k)
  | closed {k : ℕ} (status : StatusText) (hk : k ≤ count) (h : w.segment = k + 1) :
      Steps R nonce w (R.marker nonce k status) (w.closed k status.value)
  | ended (h : w.segment = count + 2) :
      Steps R nonce w (probeEnd R.label nonce) { w with segment := count + 3 }

theorem step_marker {k : ℕ} (status : StatusText) (hk : k ≤ count) (h : w.segment = k + 1) :
    R.step nonce w (R.marker nonce k status) = some (w.closed k status.value) := by
  unfold step scanLine
  rcases Nat.lt_or_eq_of_le hk with hlt | rfl
  · rw [marker_target R nonce hlt, if_neg (statusMarker_ne_probeBegin _ _),
      targetMarker_eq_some.mpr ⟨hlt, status, rfl, rfl⟩]
    simp only
    rw [if_neg (by omega), Walk.closed, if_pos hlt]
  · have htarget : targetMarker R.label nonce (R.marker nonce count status) = none := by
      refine targetMarker_eq_none fun i _ status' heq => ?_
      rw [marker_live] at heq
      exact targetLabel_ne_liveLabel i (statusMarker_inj heq).1.symm
    rw [htarget, marker_live, if_neg (statusMarker_ne_probeBegin _ _)]
    simp only
    rw [parseStatusMarker_statusMarker]
    simp only
    rw [if_neg (by omega), Walk.closed, if_neg (lt_irrefl _)]

theorem step_eq_some : R.step nonce w line = some w' ↔ Steps R nonce w line w' := by
  constructor
  · intro h
    unfold step scanLine at h
    split at h
    · rename_i hline
      split at h
      · cases h
      · rename_i hsegment
        obtain rfl := Option.some.inj h
        rw [hline]
        exact .opened (not_not.mp hsegment)
    split at h
    · rename_i index value hmarker
      obtain ⟨hindex, status, rfl, rfl⟩ := targetMarker_eq_some.mp hmarker
      split at h
      · cases h
      · rename_i hsegment
        obtain rfl := Option.some.inj h
        have hsteps : Steps R nonce w (R.marker nonce index status) (w.closed index status.value) :=
          .closed status hindex.le (not_not.mp hsegment)
        rw [Walk.closed, if_pos hindex, marker_target R nonce hindex] at hsteps
        exact hsteps
    · split at h
      · rename_i value hstatus
        obtain ⟨status, rfl, rfl⟩ := parseStatusMarker_eq_some.mp hstatus
        split at h
        · cases h
        · rename_i hsegment
          obtain rfl := Option.some.inj h
          have hsteps : Steps R nonce w (R.marker nonce count status)
            (w.closed count status.value) :=
            .closed status le_rfl (not_not.mp hsegment)
          rw [Walk.closed, if_neg (lt_irrefl _), marker_live] at hsteps
          exact hsteps
      · split at h
        · rename_i hline
          split at h
          · cases h
          · rename_i hsegment
            obtain rfl := Option.some.inj h
            rw [hline]
            exact .ended (not_not.mp hsegment)
        · split at h
          · cases h
          · rcases R.own_eq_some.mp h with ⟨rfl, rfl⟩ | ⟨k, hk, hsegment, hadmits, rfl⟩
            · exact .empty
            · exact .noted hk hsegment hadmits
  · intro h
    -- a line without the label is left to the reader's own branches
    have hown : ∀ {line w'}, (R.label.text ++ "_").toList.isPrefixOf line.toList = false →
        R.own w line = some w' → R.step nonce w line = some w' := by
      intro line w' hplain hown
      have hne : ∀ {marked : String}, (R.label.text ++ "_").toList.isPrefixOf marked.toList = true →
          line ≠ marked := by
        rintro marked hmarked rfl
        rw [hplain] at hmarked
        cases hmarked
      have htarget : targetMarker R.label nonce line = none :=
        targetMarker_eq_none fun i hi status => by
          rw [← marker_target R nonce hi]
          exact hne (labelled_marker R nonce i status)
      have hlive : parseStatusMarker line (liveLabel R.label) nonce = none :=
        parseStatusMarker_eq_none fun status => by
          rw [← marker_live]
          exact hne (labelled_marker R nonce count status)
      unfold step scanLine
      rw [if_neg (hne (labelled_probeBegin R nonce)), htarget]
      simp only
      rw [hlive]
      simp only
      rw [if_neg (hne (labelled_probeEnd R nonce)),
        if_neg (by rw [hplain]; exact Bool.false_ne_true)]
      exact hown
    cases h with
    | empty =>
      refine hown (Bool.eq_false_iff.mpr fun hlabelled => ne_of_labelled hlabelled rfl) ?_
      exact R.own_eq_some.mpr (.inl ⟨rfl, rfl⟩)
    | opened hsegment =>
      unfold step scanLine
      rw [if_pos rfl, if_neg (not_not.mpr hsegment)]
    | noted hk hsegment hadmits =>
      refine hown (Bool.eq_false_iff.mpr fun hlabelled => not_admits hlabelled hadmits) ?_
      exact R.own_eq_some.mpr (.inr ⟨_, hk, hsegment, hadmits, rfl⟩)
    | closed status hk hsegment => exact step_marker status hk hsegment
    | ended hsegment =>
      have htarget : targetMarker R.label nonce (probeEnd R.label nonce) = none :=
        targetMarker_eq_none fun i _ status => (statusMarker_ne_probeEnd _ _).symm
      have hlive : parseStatusMarker (probeEnd R.label nonce) (liveLabel R.label) nonce = none :=
        parseStatusMarker_eq_none fun status => (statusMarker_ne_probeEnd _ _).symm
      unfold step scanLine
      rw [if_neg probeEnd_ne_probeBegin, htarget]
      simp only
      rw [hlive]
      simp only
      rw [if_pos trivial, if_neg (not_not.mpr hsegment)]

/-! ## Whole answers -/

/-- The walk over some lines. -/
def walk (R : Reader) (nonce : Word) (w : Walk) (lines : List String) : Option Walk :=
  lines.foldlM (R.step nonce) w

theorem walk_cons (line : String) (lines : List String) :
    R.walk nonce w (line :: lines) = (R.step nonce w line).bind fun w' => R.walk nonce w' lines :=
      rfl

theorem walk_append (lines lines' : List String) :
    R.walk nonce w (lines ++ lines') =
      (R.walk nonce w lines).bind fun w' => R.walk nonce w' lines' :=
  List.foldlM_append

/-- Empty lines do nothing. -/
theorem walk_filter (lines : List String) :
    R.walk nonce w (lines.filter (· ≠ "")) = R.walk nonce w lines := by
  induction lines generalizing w with
  | nil => rfl
  | cons line lines ih =>
    by_cases hline : line = ""
    · rw [List.filter_cons_of_neg (by simpa using hline), walk_cons, hline,
        step_eq_some.mpr .empty, ih]
      rfl
    · rw [List.filter_cons_of_pos (by simpa using hline), walk_cons, walk_cons]
      exact congrArg _ (funext fun w' => ih)

/-- A walk that ends. -/
def Finishes (R : Reader) (nonce : Word) (w : Walk) (lines : List String) (w' : Walk) : Prop :=
  R.walk nonce w lines = some w' ∧ w'.segment = count + 3

theorem finishes_cons {lines : List String} :
    R.Finishes nonce w (line :: lines) w' ↔
      ∃ w₁, Steps R nonce w line w₁ ∧ R.Finishes nonce w₁ lines w' := by
  simp only [Finishes, walk_cons, Option.bind_eq_some_iff,
    step_eq_some, ← exists_and_right, and_assoc]

end Reader

/-- What stands in one segment: its lines and its status. -/
structure Segment where
  lines : List String
  status : StatusText

/-- The lines of a segment with its marker. -/
def Segment.text (R : Reader) (nonce : Word) (k : ℕ) (seg : Segment) : List String :=
  seg.lines ++ [R.marker nonce k seg.status]

/-- A walk over one segment. -/
def Walk.read (w : Walk) (k : ℕ) (seg : Segment) : Walk :=
  (if seg.lines = [] then w else w.noted k).closed k seg.status.value

def Walk.readAll (w : Walk) : ℕ → List Segment → Walk
  | _, [] => w
  | k, seg :: segs => (w.read k seg).readAll (k + 1) segs

namespace Reader

/-- The segments from `k` on, and the end. -/
def frameFrom (R : Reader) (nonce : Word) : ℕ → List Segment → List String
  | _, [] => [probeEnd R.label nonce]
  | k, seg :: segs => seg.text R nonce k ++ frameFrom R nonce (k + 1) segs

/-- A whole frame. -/
def frame (R : Reader) (nonce : Word) (segs : List Segment) : List String :=
  probeBegin R.label nonce :: R.frameFrom nonce 0 segs

/-- The segments from `k` on have lines of their own only. -/
def Admitted (R : Reader) (k : ℕ) (segs : List Segment) : Prop :=
  ∀ i seg, segs[i]? = some seg → ∀ line ∈ seg.lines, R.admits (k + i) line = true

end Reader

section

variable {R : Reader} {nonce : Word} {w w' : Walk} {k : ℕ} {seg : Segment} {segs : List Segment}

@[simp] theorem segment_noted : (w.noted k).segment = w.segment := by
  unfold Walk.noted
  split <;> rfl

@[simp] theorem segment_closed (status : ℕ) : (w.closed k status).segment = k + 2 := by
  unfold Walk.closed
  split <;> rfl

@[simp] theorem segment_read : (w.read k seg).segment = k + 2 := segment_closed _

theorem noted_noted : (w.noted k).noted k = w.noted k := by
  unfold Walk.noted
  split
  · simp only [Function.update_idem]
  · rfl

theorem status_noted (j : ℕ) : (w.noted k).status j = w.status j := by
  unfold Walk.noted
  split <;> rfl

theorem seen_noted (hk : k ≤ count) {j : ℕ} (hj : j ≤ count) :
    (w.noted k).seen j = if j = k then true else w.seen j := by
  unfold Walk.noted Walk.seen
  by_cases hlt : k < count
  · rw [if_pos hlt]
    by_cases hj' : j < count
    · rw [if_pos hj', if_pos hj']
      exact Function.update_apply _ _ _ _
    · rw [if_neg hj', if_neg hj', if_neg (by omega)]
  · rw [if_neg hlt]
    by_cases hj' : j < count
    · rw [if_pos hj', if_pos hj', if_neg (by omega)]
    · rw [if_neg hj', if_neg hj', if_pos (by omega)]

theorem seen_closed (status j : ℕ) : (w.closed k status).seen j = w.seen j := by
  unfold Walk.closed
  split <;> rfl

theorem status_closed (hk : k ≤ count) (status : ℕ) {j : ℕ} (hj : j ≤ count) :
    (w.closed k status).status j = if j = k then some status else w.status j := by
  unfold Walk.closed Walk.status
  by_cases hlt : k < count
  · rw [if_pos hlt]
    by_cases hj' : j < count
    · rw [if_pos hj', if_pos hj']
      exact Function.update_apply _ _ _ _
    · rw [if_neg hj', if_neg hj', if_neg (by omega)]
  · rw [if_neg hlt]
    by_cases hj' : j < count
    · rw [if_pos hj', if_pos hj', if_neg (by omega)]
    · rw [if_neg hj', if_neg hj', if_pos (by omega)]

theorem status_read (hk : k ≤ count) {j : ℕ} (hj : j ≤ count) :
    (w.read k seg).status j = if j = k then some seg.status.value else w.status j := by
  rw [Walk.read, status_closed hk _ hj]
  split
  · rfl
  · split
    · rfl
    · exact status_noted j

theorem seen_read (hk : k ≤ count) {j : ℕ} (hj : j ≤ count) :
    (w.read k seg).seen j = if j = k then w.seen k || !seg.lines.isEmpty else w.seen j := by
  rw [Walk.read, seen_closed]
  split
  · rename_i hnil
    rw [hnil]
    split
    · rename_i heq
      rw [heq, List.isEmpty_nil, Bool.not_true, Bool.or_false]
    · rfl
  · rename_i hne
    rw [seen_noted hk hj, List.isEmpty_eq_false_iff.mpr hne, Bool.not_false, Bool.or_true]

/-- Later segments leave an earlier one alone. -/
theorem readAll_lt (segs : List Segment) (hlength : k + segs.length ≤ count + 1)
    {j : ℕ} (hj : j < k) :
    (w.readAll k segs).status j = w.status j ∧ (w.readAll k segs).seen j = w.seen j := by
  induction segs generalizing w k with
  | nil => exact ⟨rfl, rfl⟩
  | cons seg segs ih =>
    rw [List.length_cons] at hlength
    obtain ⟨hstatus, hseen⟩ := ih (w := w.read k seg) (k := k + 1) (by omega) (by omega)
    rw [Walk.readAll, hstatus, hseen, status_read (by omega) (by omega),
      seen_read (by omega) (by omega), if_neg (by omega), if_neg (by omega)]
    exact ⟨rfl, rfl⟩

/-- What a walk holds of each segment it read. -/
theorem readAll_get (hlength : k + segs.length ≤ count + 1) {i : ℕ} (hseg : segs[i]? = some seg)
    (hfresh : ∀ j, k ≤ j → j ≤ count → w.seen j = false) :
    (w.readAll k segs).status (k + i) = some seg.status.value ∧
      (w.readAll k segs).seen (k + i) = !seg.lines.isEmpty := by
  induction segs generalizing w k i with
  | nil => cases hseg
  | cons first segs ih =>
    rw [List.length_cons] at hlength
    cases i with
    | zero =>
      obtain rfl := Option.some.inj hseg
      obtain ⟨hstatus, hseen⟩ :=
        readAll_lt (w := w.read k first) (k := k + 1) segs (by omega) (Nat.lt_succ_self k)
      rw [Nat.add_zero, Walk.readAll, hstatus, hseen, status_read (by omega) (by omega),
        seen_read (by omega) (by omega), if_pos rfl, if_pos rfl, hfresh k le_rfl (by omega),
        Bool.false_or]
      exact ⟨rfl, rfl⟩
    | succ i =>
      have hlater : ∀ j, k + 1 ≤ j → j ≤ count → (w.read k first).seen j = false := by
        intro j hj hj'
        rw [seen_read (by omega) hj', if_neg (by omega)]
        exact hfresh j (by omega) hj'
      have hget := ih (w := w.read k first) (k := k + 1) (i := i) (by omega) hseg hlater
      rwa [show k + 1 + i = k + (i + 1) by omega] at hget

end

/-! ## A walk that ends has read a frame -/

namespace Reader

variable {R : Reader} {nonce : Word} {w w' : Walk} {k : ℕ} {seg : Segment} {segs : List Segment}

/-- The lines of a segment and its marker are read as that segment. -/
theorem finishes_text (hk : k ≤ count) (h : w.segment = k + 1)
    (hadmits : ∀ line ∈ seg.lines, R.admits k line = true) {rest : List String} :
    R.Finishes nonce w (seg.text R nonce k ++ rest) w' ↔
      R.Finishes nonce (w.read k seg) rest w' := by
  obtain ⟨lines, status⟩ := seg
  induction lines generalizing w with
  | nil =>
    constructor
    · intro hfinishes
      obtain ⟨w₁, hsteps, hrest⟩ := finishes_cons.mp hfinishes
      rw [← step_eq_some, step_marker status hk h] at hsteps
      obtain rfl := Option.some.inj hsteps
      exact hrest
    · exact fun hfinishes => finishes_cons.mpr ⟨_, .closed status hk h, hfinishes⟩
  | cons line lines ih =>
    have hrest := fun l hl => hadmits l (List.mem_cons_of_mem line hl)
    have hread : (w.noted k).read k ⟨lines, status⟩ = w.read k ⟨line :: lines, status⟩ := by
      unfold Walk.read
      simp only [noted_noted, ite_self, reduceCtorEq, if_false]
    have hnoted := ih (w := w.noted k) (by rw [segment_noted, h]) hrest
    rw [hread] at hnoted
    rw [← hnoted]
    constructor
    · intro hfinishes
      obtain ⟨w₁, hsteps, hrest⟩ := finishes_cons.mp hfinishes
      have hstep : R.step nonce w line = some (w.noted k) :=
        step_eq_some.mpr (.noted hk h (hadmits line List.mem_cons_self))
      rw [← step_eq_some, hstep] at hsteps
      obtain rfl := Option.some.inj hsteps
      exact hrest
    · exact fun hfinishes =>
        finishes_cons.mpr ⟨_, .noted hk h (hadmits line List.mem_cons_self), hfinishes⟩

/-- A walk that ends has a segment to read. -/
theorem exists_text (hk : k ≤ count) (h : w.segment = k + 1) {lines : List String}
    (hne : ∀ line ∈ lines, line ≠ "") (hfinishes : R.Finishes nonce w lines w') :
    ∃ seg rest, lines = Segment.text R nonce k seg ++ rest ∧
      ∀ line ∈ seg.lines, R.admits k line = true := by
  induction lines generalizing w with
  | nil =>
    obtain ⟨hwalk, hsegment⟩ := hfinishes
    obtain rfl := Option.some.inj hwalk
    omega
  | cons line lines ih =>
    obtain ⟨hline, hrest⟩ := List.forall_mem_cons.mp hne
    obtain ⟨w₁, hsteps, hfinishes⟩ := finishes_cons.mp hfinishes
    cases hsteps with
    | empty => exact absurd rfl hline
    | opened h' => omega
    | @noted k' _ hk' h' hadmits =>
      obtain rfl : k' = k := by omega
      obtain ⟨seg, rest, rfl, hseg⟩ := ih (by rw [segment_noted, h]) hrest hfinishes
      exact ⟨⟨line :: seg.lines, seg.status⟩, rest, rfl, List.forall_mem_cons.mpr ⟨hadmits, hseg⟩⟩
    | @closed k' status hk' h' =>
      obtain rfl : k' = k := by omega
      exact ⟨⟨[], status⟩, lines, rfl, List.forall_mem_nil _⟩
    | ended h' => omega

theorem finishes_nil (h : w.segment = count + 3) : R.Finishes nonce w [] w' ↔ w' = w := by
  constructor
  · rintro ⟨hwalk, -⟩
    exact (Option.some.inj hwalk).symm
  · rintro rfl
    exact ⟨rfl, h⟩

theorem finishes_end (h : w.segment = count + 2) {lines : List String}
    (hne : ∀ line ∈ lines, line ≠ "") :
    R.Finishes nonce w lines w' ↔
      lines = [probeEnd R.label nonce] ∧ w' = { w with segment := count + 3 } := by
  constructor
  · intro hfinishes
    cases lines with
    | nil =>
      obtain ⟨hwalk, hsegment⟩ := hfinishes
      obtain rfl := Option.some.inj hwalk
      omega
    | cons line lines =>
      obtain ⟨hline, hrest⟩ := List.forall_mem_cons.mp hne
      obtain ⟨w₁, hsteps, hfinishes⟩ := finishes_cons.mp hfinishes
      cases hsteps with
      | empty => exact absurd rfl hline
      | opened h' => omega
      | noted hk' h' hadmits => omega
      | closed status hk' h' => omega
      | ended h' =>
        cases lines with
        | nil => exact ⟨rfl, (finishes_nil rfl).mp hfinishes⟩
        | cons line' lines =>
          obtain ⟨w₂, hsteps, -⟩ := finishes_cons.mp hfinishes
          cases hsteps with
          | empty => exact absurd rfl (hrest _ List.mem_cons_self)
          | opened h' => simp at h'
          | noted hk' h' hadmits =>
            simp only at h'
            omega
          | closed status hk' h' =>
            simp only at h'
            omega
          | ended h' =>
            simp only at h'
            omega
  · rintro ⟨rfl, rfl⟩
    exact finishes_cons.mpr ⟨_, .ended h, (finishes_nil rfl).mpr rfl⟩

/-- From segment `k` on. -/
theorem finishes_from {n : ℕ} (hn : k + n = count + 1) (h : w.segment = k + 1) {lines : List String}
    (hne : ∀ line ∈ lines, line ≠ "") :
    R.Finishes nonce w lines w' ↔ ∃ segs : List Segment, segs.length = n ∧
      lines = R.frameFrom nonce k segs ∧ R.Admitted k segs ∧
      w' = { w.readAll k segs with segment := count + 3 } := by
  induction n generalizing k w lines with
  | zero =>
    rw [finishes_end (by omega) hne]
    constructor
    · rintro ⟨rfl, rfl⟩
      exact ⟨[], rfl, rfl, fun i seg hseg => by simp at hseg, rfl⟩
    · rintro ⟨segs, hlength, rfl, -, rfl⟩
      obtain rfl := List.length_eq_zero_iff.mp hlength
      exact ⟨rfl, rfl⟩
  | succ n ih =>
    have hk : k ≤ count := by omega
    constructor
    · intro hfinishes
      obtain ⟨seg, rest, rfl, hadmits⟩ := exists_text hk h hne hfinishes
      have hrest := (finishes_text hk h hadmits).mp hfinishes
      obtain ⟨segs, hlength, rfl, hadmitted, rfl⟩ := (ih (by omega) segment_read
        fun line hline => hne line (List.mem_append_right _ hline)).mp hrest
      refine ⟨seg :: segs, congrArg (· + 1) hlength, rfl, ?_, rfl⟩
      intro i seg' hseg'
      cases i with
      | zero =>
        obtain rfl := Option.some.inj hseg'
        exact hadmits
      | succ i =>
        have := hadmitted i seg' hseg'
        rwa [show k + 1 + i = k + (i + 1) by omega] at this
    · rintro ⟨segs, hlength, rfl, hadmitted, rfl⟩
      cases segs with
      | nil => cases hlength
      | cons seg segs =>
        have hadmits : ∀ line ∈ seg.lines, R.admits k line = true := hadmitted 0 seg rfl
        refine (finishes_text hk h hadmits).mpr ((ih (by omega) segment_read
          fun line hline => hne line (List.mem_append_right _ hline)).mpr ?_)
        refine ⟨segs, Nat.succ.inj hlength, rfl, fun i seg' hseg' => ?_, rfl⟩
        have := hadmitted (i + 1) seg' hseg'
        rwa [show k + (i + 1) = k + 1 + i by omega] at this

theorem seen_initial (j : ℕ) : Walk.initial.seen j = false := by
  unfold Walk.seen Walk.initial
  split <;> rfl

/-- **A whole walk has read one frame and nothing else.** -/
theorem finishes_frame {lines : List String} :
    R.Finishes nonce Walk.initial lines w' ↔ ∃ segs : List Segment, segs.length = count + 1 ∧
      lines.filter (· ≠ "") = R.frame nonce segs ∧ R.Admitted 0 segs ∧
      w' = { ({ Walk.initial with segment := 1 } : Walk).readAll 0 segs with
        segment := count + 3 } := by
  have hne : ∀ line ∈ lines.filter (· ≠ ""), line ≠ "" := by
    intro line hline
    simpa using (List.mem_filter.mp hline).2
  rw [Finishes, ← walk_filter, ← Finishes]
  revert hne
  generalize lines.filter (· ≠ "") = lines
  intro hne
  constructor
  · intro hfinishes
    cases lines with
    | nil =>
      obtain ⟨hwalk, hsegment⟩ := hfinishes
      obtain rfl := Option.some.inj hwalk
      cases hsegment
    | cons line lines =>
      obtain ⟨hline, hrest⟩ := List.forall_mem_cons.mp hne
      obtain ⟨w₁, hsteps, hfinishes⟩ := finishes_cons.mp hfinishes
      cases hsteps with
      | empty => exact absurd rfl hline
      | opened h' =>
        obtain ⟨segs, hlength, rfl, hadmitted, rfl⟩ :=
          (finishes_from (Nat.zero_add _) rfl hrest).mp hfinishes
        exact ⟨segs, hlength, rfl, hadmitted, rfl⟩
      | noted hk' h' hadmits => cases h'
      | closed status hk' h' => cases h'
      | ended h' => cases h'
  · rintro ⟨segs, hlength, rfl, hadmitted, rfl⟩
    refine finishes_cons.mpr ⟨_, .opened rfl, ?_⟩
    exact (finishes_from (Nat.zero_add _) rfl (List.forall_mem_cons.mp hne).2).mpr
      ⟨segs, hlength, rfl, hadmitted, rfl⟩

end Reader

end PanelAssistant.Adb
