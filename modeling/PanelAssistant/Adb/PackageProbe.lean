import PanelAssistant.Adb.Preflight
import PanelAssistant.Library.Separated

/-!
# Probe frames

`_parse_package_presence` and `_parse_retained_package_data` of `provisioning.py`. Both walk the
lines of one answer through numbered segments: one for each probed app id, one that proves the
package manager alive, then the end. They read their markers the same way (`scanLine`) and differ in
what a line between markers may be.

Here are the two parsers, what their markers are, and the lines that each segment admits (`Reader`).
-/

namespace PanelAssistant.Adb

open Library Library.Text Library.Lines Library.Separated

/-! ## Markers -/

/-- The digits of an exit status. -/
structure StatusText where
  text : String
  digits : repeats isDigit 1 3 text.toList = true

def StatusText.value (status : StatusText) : ℕ := decimal status.text.toList

/-- `{prefix}:{nonce}:{status}` -/
def statusMarker (label nonce : Word) (status : String) : String :=
  label.text ++ ":" ++ nonce.text ++ ":" ++ status

/-- `_parse_status_marker` -/
def parseStatusMarker (line : String) (label nonce : Word) : Option ℕ :=
  match after? (statusMarker label nonce "").toList line.toList with
  | some digits => if repeats isDigit 1 3 digits then some (decimal digits) else none
  | none => none

/-- `{prefix}_TARGET{index}` -/
def targetLabel (label : Word) (index : ℕ) : Word :=
  (label.section ⟨"TARGET", by decide⟩).numbered index

/-- `{prefix}_LIVE` -/
def liveLabel (label : Word) : Word := label.section liveName

/-- `{prefix}_BEGIN:{nonce}` -/
def probeBegin (label nonce : Word) : String := label.text ++ "_BEGIN:" ++ nonce.text

/-- `{prefix}_END:{nonce}` -/
def probeEnd (label nonce : Word) : String := label.text ++ "_END:" ++ nonce.text

def pkgLabel : Word := ⟨"HAPANELD_PKG", by decide⟩

def dataLabel : Word := ⟨"HAPANELD_DATA", by decide⟩

/-! ## The walk -/

/-- `len(PROBED_PACKAGE_IDS)` -/
def count : ℕ := probedPackageIds.length

/-- What a walk holds: `segment`, and of each segment its status and whether it had a line. -/
structure Walk where
  segment : ℕ
  targetStatus : ℕ → Option ℕ
  /-- `target_path`, or `retained` -/
  target : ℕ → Bool
  liveStatus : Option ℕ
  livePath : Bool

def Walk.initial : Walk where
  segment := 0
  targetStatus := fun _ => none
  target := fun _ => false
  liveStatus := none
  livePath := false

/-- The marker of a probed app id that a line is. -/
def targetMarker (label nonce : Word) (line : String) : Option (ℕ × ℕ) :=
  (List.range count).findSome? fun index =>
    (parseStatusMarker line (targetLabel label index) nonce).map fun marker => (index, marker)

/-- One round of the loops; `own` is what they do with a line that is no marker. -/
def scanLine (label nonce : Word) (own : Walk → String → Option Walk) (w : Walk) (line : String) :
    Option Walk :=
  if line = probeBegin label nonce then
    if w.segment ≠ 0 then none else some { w with segment := 1 }
  else match targetMarker label nonce line with
  | some (index, marker) =>
    if w.segment ≠ index + 1 then none
    else
      some { w with
        targetStatus := Function.update w.targetStatus index (some marker)
        segment := index + 2 }
  | none =>
    match parseStatusMarker line (liveLabel label) nonce with
    | some status =>
      if w.segment ≠ count + 1 then none
      else some { w with liveStatus := some status, segment := count + 2 }
    | none =>
      if line = probeEnd label nonce then
        if w.segment ≠ count + 2 then none else some { w with segment := count + 3 }
      else if (label.text ++ "_").toList.isPrefixOf line.toList then none
      else own w line

/-- `line.startswith("package:")` -/
def isPackageLine (line : String) : Bool := "package:".toList.isPrefixOf line.toList

/-- The last branches of the loop of `_parse_package_presence`. -/
def presenceLine (w : Walk) (line : String) : Option Walk :=
  if isPackageLine line then
    if isPackagePath line = false then none
    else if 1 ≤ w.segment ∧ w.segment ≤ count then
      some { w with target := Function.update w.target (w.segment - 1) true }
    else if w.segment = count + 1 then some { w with livePath := true }
    else none
  else if line ≠ "" then none
  else some w

/-- The last branches of the loop of `_parse_retained_package_data`. -/
def retainedLine (w : Walk) (line : String) : Option Walk :=
  if 1 ≤ w.segment ∧ w.segment ≤ count then
    if probedPackageIds[w.segment - 1]?.map ("package:" ++ ·) = some line then
      some { w with target := Function.update w.target (w.segment - 1) true }
    else if line ≠ "" then none
    else some w
  else if isPackageLine line then
    if w.segment ≠ count + 1 ∨ isPackagePath line = false then none
    else some { w with livePath := true }
  else if line ≠ "" then none
  else some w

/-- `output.replace("\r", "").splitlines()` -/
def outputLines (output : String) : List String :=
  (splitLines (output.toList.filter (· != '\r'))).map String.ofList

/-- `_PackagePresence` -/
inductive PackagePresence where
  | present
  | absent
  | unknown
  deriving DecidableEq

/-- `_RetainedPackageData` -/
inductive RetainedPackageData where
  | retained
  | absent
  | unknown
  deriving DecidableEq

/-- What the walk proved of one app id. -/
def presenceOf (w : Walk) (index : ℕ) : Option PackagePresence :=
  if w.target index then if w.targetStatus index ≠ some 0 then none else some .present
  else if w.targetStatus index ∈ [some 0, some 1] then some .absent
  else none

/-- `_parse_package_presence` -/
def parsePackagePresence (output : String) (nonce : Word) :
    Option (Dict String PackagePresence) := do
  let w ← (outputLines output).foldlM (scanLine pkgLabel nonce presenceLine) Walk.initial
  if w.segment ≠ count + 3 ∨ w.liveStatus ≠ some 0 ∨ w.livePath = false then none
  else do
    let presence ← probedPackageIds.zipIdx.mapM fun (id, index) =>
      (presenceOf w index).map fun value => (id, value)
    some (Dict.ofList presence)

/-- `_parse_retained_package_data` -/
def parseRetainedPackageData (output : String) (nonce : Word) :
    Option (Dict String RetainedPackageData) := do
  let w ← (outputLines output).foldlM (scanLine dataLabel nonce retainedLine) Walk.initial
  if w.segment ≠ count + 3 ∨ w.liveStatus ≠ some 0 ∨ w.livePath = false ∨
      ((List.range count).any fun index => w.targetStatus index != some 0) = true then
    none
  else
    some (Dict.ofList (probedPackageIds.zipIdx.map fun (id, index) =>
      (id, if w.target index then .retained else .absent)))

/-! ## Markers are their parts -/

theorem colon_not_mem_word (w : Word) : ':' ∉ w.text.toList := by
  intro h
  have := List.all_eq_true.mp w.word ':' h
  revert this
  decide

theorem Word.ext_text {w w' : Word} (h : w.text = w'.text) : w = w' := by
  cases w
  cases w'
  simp only at h
  subst h
  rfl

/-- Two texts of the same shape are the same up to their first colon, and behind it. -/
theorem colon_inj {cs cs' rest rest' : List Char} (h : ':' ∉ cs) (h' : ':' ∉ cs')
    (heq : cs ++ ':' :: rest = cs' ++ ':' :: rest') : cs = cs' ∧ rest = rest' := by
  have hbefore := congrArg (beforeFirst ':') heq
  have hafter := congrArg (afterFirst ':') heq
  rw [beforeFirst_append h, beforeFirst_append h'] at hbefore
  rw [afterFirst_append h, afterFirst_append h'] at hafter
  exact ⟨hbefore, hafter⟩

section

variable {label label' nonce nonce' : Word}

theorem toList_statusMarker (status : String) :
    (statusMarker label nonce status).toList =
      label.text.toList ++ ':' :: (nonce.text.toList ++ ':' :: status.toList) := by
  simp only [statusMarker, String.toList_append, List.append_assoc]
  rfl

theorem statusMarker_inj {status status' : String}
    (h : statusMarker label nonce status = statusMarker label' nonce' status') :
    label = label' ∧ nonce = nonce' ∧ status = status' := by
  have htext := congrArg String.toList h
  rw [toList_statusMarker, toList_statusMarker] at htext
  obtain ⟨hlabel, hrest⟩ := colon_inj (colon_not_mem_word label) (colon_not_mem_word label') htext
  obtain ⟨hnonce, hstatus⟩ := colon_inj (colon_not_mem_word nonce) (colon_not_mem_word nonce') hrest
  exact ⟨Word.ext_text (String.toList_inj.mp hlabel), Word.ext_text (String.toList_inj.mp hnonce),
    String.toList_inj.mp hstatus⟩

theorem parseStatusMarker_statusMarker (status : StatusText) :
    parseStatusMarker (statusMarker label nonce status.text) label nonce = some status.value := by
  have hline : (statusMarker label nonce status.text).toList =
      (statusMarker label nonce "").toList ++ status.text.toList := by
    rw [toList_statusMarker, toList_statusMarker]
    simp
  rw [parseStatusMarker, hline, after?_append]
  exact if_pos status.digits

theorem parseStatusMarker_eq_some {line : String} {value : ℕ} :
    parseStatusMarker line label nonce = some value ↔
      ∃ status : StatusText, line = statusMarker label nonce status.text ∧
        status.value = value := by
  constructor
  · intro h
    unfold parseStatusMarker at h
    split at h
    · rename_i digits hafter
      split at h
      · rename_i hdigits
        have hline : line = statusMarker label nonce (String.ofList digits) := by
          unfold after? at hafter
          split at hafter
          · rename_i hpre
            obtain ⟨rest, hrest⟩ := List.isPrefixOf_iff_prefix.mp hpre
            rw [← hrest, List.drop_left] at hafter
            obtain rfl := Option.some.inj hafter
            rw [← String.toList_inj, ← hrest, toList_statusMarker, toList_statusMarker]
            simp
          · cases hafter
        exact ⟨⟨String.ofList digits, by simpa using hdigits⟩, hline, by
          simpa [StatusText.value] using h⟩
      · cases h
    · cases h
  · rintro ⟨status, rfl, rfl⟩
    exact parseStatusMarker_statusMarker status

end


/-! ## One line -/

/-- The label of a segment's marker. -/
def segmentLabel (label : Word) (k : ℕ) : Word :=
  if k < count then targetLabel label k else liveLabel label

/-- The status a walk holds of a segment. -/
def Walk.status (w : Walk) (k : ℕ) : Option ℕ :=
  if k < count then w.targetStatus k else w.liveStatus

/-- Whether a walk saw a line in a segment. -/
def Walk.seen (w : Walk) (k : ℕ) : Bool := if k < count then w.target k else w.livePath

/-- A line in a segment. -/
def Walk.noted (w : Walk) (k : ℕ) : Walk :=
  if k < count then { w with target := Function.update w.target k true }
  else { w with livePath := true }

/-- The marker of a segment. -/
def Walk.closed (w : Walk) (k : ℕ) (status : ℕ) : Walk :=
  if k < count then
    { w with targetStatus := Function.update w.targetStatus k (some status), segment := k + 2 }
  else { w with liveStatus := some status, segment := k + 2 }

/-- What the two parsers do not share. -/
structure Reader where
  label : Word
  own : Walk → String → Option Walk
  /-- The lines a segment admits, the liveness segment being the last one. -/
  admits : ℕ → String → Bool
  admits_ne : ∀ {k line}, admits k line = true → line ≠ ""
  admits_plain : ∀ {k line}, admits k line = true → "HAPANELD".toList.isPrefixOf line.toList = false
  admits_live : ∀ line, admits count line = isPackagePath line
  labelled : "HAPANELD".toList.isPrefixOf label.text.toList = true
  own_eq_some : ∀ {w line w'}, own w line = some w' ↔
    (line = "" ∧ w' = w) ∨
      ∃ k ≤ count, w.segment = k + 1 ∧ admits k line = true ∧ w' = w.noted k

theorem isPackageLine_of_isPackagePath {line : String} (h : isPackagePath line = true) :
    isPackageLine line = true := by
  unfold isPackagePath after? at h
  split at h
  · rename_i rest hafter
    split at hafter
    · rename_i hpre
      rw [isPackageLine, List.isPrefixOf_iff_prefix]
      exact (show "package:".toList <+: "package:/".toList from ⟨['/'], by decide⟩).trans
        (List.isPrefixOf_iff_prefix.mp hpre)
    · cases hafter
  · cases h

theorem ne_of_isPackageLine {line : String} (h : isPackageLine line = true) : line ≠ "" := by
  rintro rfl
  revert h
  decide

theorem not_labelled_of_isPackageLine {line : String} (h : isPackageLine line = true) :
    "HAPANELD".toList.isPrefixOf line.toList = false := by
  obtain ⟨rest, hrest⟩ := List.isPrefixOf_iff_prefix.mp h
  rw [← hrest]
  simp [List.isPrefixOf]

theorem noted_target {w : Walk} {k : ℕ} (h : k < count) :
    w.noted k = { w with target := Function.update w.target k true } := if_pos h

theorem noted_live (w : Walk) : w.noted count = { w with livePath := true } := if_neg (lt_irrefl _)

theorem presenceLine_eq_some {w w' : Walk} {line : String} :
    presenceLine w line = some w' ↔ (line = "" ∧ w' = w) ∨
      ∃ k ≤ count, w.segment = k + 1 ∧ isPackagePath line = true ∧ w' = w.noted k := by
  unfold presenceLine
  by_cases hline : isPackageLine line = true
  · have hne := ne_of_isPackageLine hline
    rw [if_pos hline]
    by_cases hpath : isPackagePath line = true
    · rw [if_neg (by simp [hpath])]
      split
      · rename_i hsegment
        rw [Option.some.injEq]
        constructor
        · rintro rfl
          refine .inr ⟨w.segment - 1, by omega, by omega, hpath, ?_⟩
          rw [noted_target (by omega)]
        · rintro (⟨rfl, -⟩ | ⟨k, hk, hk', -, rfl⟩)
          · exact absurd rfl hne
          · rw [noted_target (by omega), show w.segment - 1 = k by omega]
      · split
        · rename_i hsegment
          rw [Option.some.injEq]
          constructor
          · rintro rfl
            exact .inr ⟨count, le_rfl, hsegment, hpath, (noted_live w).symm⟩
          · rintro (⟨rfl, -⟩ | ⟨k, hk, hk', -, rfl⟩)
            · exact absurd rfl hne
            · obtain rfl : k = count := by omega
              rw [noted_live]
        · refine iff_of_false (by simp) ?_
          rintro (⟨rfl, -⟩ | ⟨k, hk, hk', -, rfl⟩)
          · exact hne rfl
          · omega
    · rw [if_pos (eq_false_of_ne_true hpath)]
      refine iff_of_false (by simp) ?_
      rintro (⟨rfl, -⟩ | ⟨k, -, -, hpath', -⟩)
      · exact hne rfl
      · exact hpath hpath'
  · rw [if_neg hline]
    split
    · rename_i hne
      refine iff_of_false (by simp) ?_
      rintro (⟨rfl, -⟩ | ⟨k, -, -, hpath, -⟩)
      · exact hne rfl
      · exact hline (isPackageLine_of_isPackagePath hpath)
    · rename_i heq
      obtain rfl := not_not.mp heq
      rw [Option.some.injEq]
      constructor
      · rintro rfl
        exact .inl ⟨rfl, rfl⟩
      · rintro (⟨-, rfl⟩ | ⟨k, -, -, hpath, -⟩)
        · rfl
        · exact absurd (isPackageLine_of_isPackagePath hpath) hline

/-- The lines of the segments of `_parse_retained_package_data`. -/
def admitsRetained (k : ℕ) (line : String) : Bool :=
  if k < count then decide (probedPackageIds[k]?.map ("package:" ++ ·) = some line)
  else isPackagePath line

theorem isPackageLine_of_admitsRetained {k : ℕ} {line : String} (h : admitsRetained k line = true) :
    isPackageLine line = true := by
  unfold admitsRetained at h
  split at h
  · obtain ⟨id, -, rfl⟩ := Option.map_eq_some_iff.mp (of_decide_eq_true h)
    rw [isPackageLine, String.toList_append, List.isPrefixOf_iff_prefix]
    exact List.prefix_append _ _
  · exact isPackageLine_of_isPackagePath h

theorem retainedLine_eq_some {w w' : Walk} {line : String} :
    retainedLine w line = some w' ↔ (line = "" ∧ w' = w) ∨
      ∃ k ≤ count, w.segment = k + 1 ∧ admitsRetained k line = true ∧ w' = w.noted k := by
  unfold retainedLine
  split
  · rename_i hsegment
    have hadmits : admitsRetained (w.segment - 1) line =
        decide (probedPackageIds[w.segment - 1]?.map ("package:" ++ ·) = some line) :=
      if_pos (by omega)
    split
    · rename_i hline
      rw [Option.some.injEq]
      constructor
      · rintro rfl
        refine .inr
          ⟨w.segment - 1, by omega, by omega, by rw [hadmits, hline]; exact decide_eq_true rfl, ?_⟩
        rw [noted_target (by omega)]
      · rintro (⟨rfl, -⟩ | ⟨k, hk, hk', -, rfl⟩)
        · have hadmitted : admitsRetained (w.segment - 1) "" = true := by
            rw [hadmits]
            exact decide_eq_true hline
          exact absurd rfl (ne_of_isPackageLine (isPackageLine_of_admitsRetained hadmitted))
        · rw [noted_target (by omega), show w.segment - 1 = k by omega]
    · rename_i hline
      have hnot : ∀ k ≤ count, w.segment = k + 1 → ¬ admitsRetained k line = true := by
        intro k hk hk' hadmitted
        rw [hk', Nat.add_sub_cancel] at hadmits hline
        rw [hadmits] at hadmitted
        exact hline (of_decide_eq_true hadmitted)
      split
      · rename_i hne
        refine iff_of_false (by simp) ?_
        rintro (⟨rfl, -⟩ | ⟨k, hk, hk', hadmitted, -⟩)
        · exact hne rfl
        · exact hnot k hk hk' hadmitted
      · rename_i heq
        rw [Option.some.injEq]
        constructor
        · rintro rfl
          exact .inl ⟨not_not.mp heq, rfl⟩
        · rintro (⟨-, rfl⟩ | ⟨k, hk, hk', hadmitted, -⟩)
          · rfl
          · exact absurd hadmitted (hnot k hk hk')
  · rename_i hsegment
    have hlive : ∀ k ≤ count, w.segment = k + 1 → k = count := by
      intro k hk hk'
      omega
    have hadmits : admitsRetained count line = isPackagePath line := if_neg (lt_irrefl _)
    split
    · rename_i hline
      have hne := ne_of_isPackageLine hline
      split
      · rename_i hnone
        refine iff_of_false (by simp) ?_
        rintro (⟨rfl, -⟩ | ⟨k, hk, hk', hadmitted, -⟩)
        · exact hne rfl
        · obtain rfl := hlive k hk hk'
          rcases hnone with hnone | hnone
          · exact hnone hk'
          · rw [hadmits, hnone] at hadmitted
            cases hadmitted
      · rename_i hsome
        simp only [not_or, not_not, Bool.not_eq_false] at hsome
        rw [Option.some.injEq]
        constructor
        · rintro rfl
          exact .inr ⟨count, le_rfl, hsome.1, hadmits.trans hsome.2, (noted_live w).symm⟩
        · rintro (⟨rfl, -⟩ | ⟨k, hk, hk', -, rfl⟩)
          · exact absurd rfl hne
          · obtain rfl := hlive k hk hk'
            rw [noted_live]
    · rename_i hline
      have hnot : ∀ k ≤ count, ¬ admitsRetained k line = true := fun k _ hadmitted =>
        hline (isPackageLine_of_admitsRetained hadmitted)
      split
      · rename_i hne
        refine iff_of_false (by simp) ?_
        rintro (⟨rfl, -⟩ | ⟨k, hk, -, hadmitted, -⟩)
        · exact hne rfl
        · exact hnot k hk hadmitted
      · rename_i heq
        rw [Option.some.injEq]
        constructor
        · rintro rfl
          exact .inl ⟨not_not.mp heq, rfl⟩
        · rintro (⟨-, rfl⟩ | ⟨k, hk, -, hadmitted, -⟩)
          · rfl
          · exact absurd hadmitted (hnot k hk)

def presenceReader : Reader where
  label := pkgLabel
  own := presenceLine
  admits := fun _ => isPackagePath
  admits_ne := fun h => ne_of_isPackageLine (isPackageLine_of_isPackagePath h)
  admits_plain := fun h => not_labelled_of_isPackageLine (isPackageLine_of_isPackagePath h)
  admits_live _ := rfl
  labelled := by decide
  own_eq_some := presenceLine_eq_some

def retainedReader : Reader where
  label := dataLabel
  own := retainedLine
  admits := admitsRetained
  admits_ne := fun h => ne_of_isPackageLine (isPackageLine_of_admitsRetained h)
  admits_plain := fun h => not_labelled_of_isPackageLine (isPackageLine_of_admitsRetained h)
  admits_live _ := if_neg (lt_irrefl _)
  labelled := by decide
  own_eq_some := retainedLine_eq_some

/-! ## Markers apart -/

section

variable {label nonce : Word}

theorem targetLabel_inj {i j : ℕ} (h : targetLabel label i = targetLabel label j) : i = j := by
  have htext := congrArg (String.toList ∘ Word.text) h
  simp only [Function.comp, targetLabel, Word.numbered, String.toList_append,
    List.append_cancel_left_eq, Nat.toList_repr] at htext
  rw [← decimal_toDigits i, htext, decimal_toDigits]

theorem targetLabel_ne_liveLabel (i : ℕ) : targetLabel label i ≠ liveLabel label := by
  intro h
  have htext := congrArg (String.toList ∘ Word.text) h
  simp only [Function.comp, targetLabel, liveLabel, liveName, Word.numbered, Word.section,
    String.toList_append, List.append_assoc, List.append_cancel_left_eq] at htext
  exact absurd (congrArg List.head? htext) (by simp)

theorem segmentLabel_inj {i j : ℕ} (hi : i ≤ count) (hj : j ≤ count)
    (h : segmentLabel label i = segmentLabel label j) : i = j := by
  unfold segmentLabel at h
  split at h <;> split at h
  · exact targetLabel_inj h
  · exact absurd h (targetLabel_ne_liveLabel i)
  · exact absurd h.symm (targetLabel_ne_liveLabel j)
  · omega

/-- A marker with a status is no marker without one. -/
theorem statusMarker_ne (label' : Word) (status : String) (edge : Word) :
    statusMarker label' nonce status ≠ edge.text ++ ":" ++ nonce.text := by
  intro h
  have htext := congrArg String.toList h
  rw [toList_statusMarker, String.toList_append, String.toList_append, List.append_assoc] at htext
  obtain ⟨-, hrest⟩ := colon_inj (colon_not_mem_word label') (colon_not_mem_word edge) htext
  have hmem : ':' ∈ nonce.text.toList ++ ':' :: status.toList :=
    List.mem_append_right _ List.mem_cons_self
  rw [hrest] at hmem
  exact colon_not_mem_word nonce hmem

theorem probeBegin_eq (label nonce : Word) :
    probeBegin label nonce = (label.section ⟨"BEGIN", by decide⟩).text ++ ":" ++ nonce.text := by
  simp only [probeBegin, Word.section, String.append_assoc]
  rfl

theorem probeEnd_eq (label nonce : Word) :
    probeEnd label nonce = (label.section ⟨"END", by decide⟩).text ++ ":" ++ nonce.text := by
  simp only [probeEnd, Word.section, String.append_assoc]
  rfl

theorem statusMarker_ne_probeBegin (label' : Word) (status : String) :
    statusMarker label' nonce status ≠ probeBegin label nonce := by
  rw [probeBegin_eq]
  exact statusMarker_ne label' status _

theorem statusMarker_ne_probeEnd (label' : Word) (status : String) :
    statusMarker label' nonce status ≠ probeEnd label nonce := by
  rw [probeEnd_eq]
  exact statusMarker_ne label' status _

theorem probeEnd_ne_probeBegin : probeEnd label nonce ≠ probeBegin label nonce := by
  intro h
  have htext := congrArg String.toList h
  simp only [probeEnd, probeBegin, String.toList_append, List.append_assoc,
    List.append_cancel_left_eq] at htext
  exact absurd (congrArg (·[1]?) htext) (by simp)

theorem targetMarker_eq_some {line : String} {i marker : ℕ} :
    targetMarker label nonce line = some (i, marker) ↔ i < count ∧ ∃ status : StatusText,
      line = statusMarker (targetLabel label i) nonce status.text ∧ status.value = marker := by
  have hread : ∀ {i marker}, targetMarker label nonce line = some (i, marker) →
      i < count ∧ parseStatusMarker line (targetLabel label i) nonce = some marker := by
    intro i marker h
    obtain ⟨index, hindex, hmap⟩ := List.exists_of_findSome?_eq_some h
    obtain ⟨marker', hmarker', heq⟩ := Option.map_eq_some_iff.mp hmap
    cases heq
    exact ⟨List.mem_range.mp hindex, hmarker'⟩
  constructor
  · intro h
    exact ⟨(hread h).1, parseStatusMarker_eq_some.mp (hread h).2⟩
  · rintro ⟨hi, status, rfl, rfl⟩
    have hsome : (targetMarker label nonce
        (statusMarker (targetLabel label i) nonce status.text)).isSome = true := by
      rw [targetMarker, List.findSome?_isSome_iff]
      exact ⟨i, List.mem_range.mpr hi, by rw [parseStatusMarker_statusMarker]; rfl⟩
    obtain ⟨⟨j, marker⟩, hj⟩ := Option.isSome_iff_exists.mp hsome
    obtain ⟨hlabel, hvalue⟩ := And.intro (hread hj).1 (hread hj).2
    obtain ⟨status', hstatus', rfl⟩ := parseStatusMarker_eq_some.mp hvalue
    obtain ⟨heq, -, htext⟩ := statusMarker_inj hstatus'
    obtain rfl := targetLabel_inj heq
    rw [hj, StatusText.value, StatusText.value, htext]

theorem targetMarker_eq_none {line : String}
    (h : ∀ i < count, ∀ status : StatusText,
      line ≠ statusMarker (targetLabel label i) nonce status.text) :
    targetMarker label nonce line = none := by
  cases hmarker : targetMarker label nonce line with
  | none => rfl
  | some found =>
    obtain ⟨hlt, status, hline, -⟩ :=
      targetMarker_eq_some.mp (show _ = some (found.1, found.2) from hmarker)
    exact absurd hline (h _ hlt status)

theorem parseStatusMarker_eq_none {line : String} {label' : Word}
    (h : ∀ status : StatusText, line ≠ statusMarker label' nonce status.text) :
    parseStatusMarker line label' nonce = none := by
  cases hmarker : parseStatusMarker line label' nonce with
  | none => rfl
  | some value =>
    obtain ⟨status, hline, -⟩ := parseStatusMarker_eq_some.mp hmarker
    exact absurd hline (h status)

end

end PanelAssistant.Adb
