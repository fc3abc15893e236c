import PanelAssistant.Adb.FrameRoundTrip
import PanelAssistant.Library.CodeUnits
import PanelAssistant.Library.Separated

/-!
# Frames in the browser

`decodeLines` and `readSections` of `shell-session.mjs`. A frame has the lines it has in
`adb_protocol.py`, and a section is scanned the same way, so what a frame consists of is
`Adb.Part` here as well; only the outer lines are walked differently. `fail` is what the caller
raises, always the same.

Prefixes, section names and nonces are `Adb.Word`s, as the callers make them: they are parts of a
regular expression, unescaped.
-/

namespace PanelAssistant.Usb

open Library Library.Text Library.Lines Library.Separated Adb

/-! ## Lines -/

/-- What a caller passes as a response. -/
inductive Body where
  | text (units : List CodeUnit)
  | bytes (body : ByteArray)
  | other

/-- Which characters `decodeLines` admits, and where it splits. -/
inductive Accept where
  | unicode
  | ascii
  | splitlines
  deriving DecidableEq

/-- The Unicode tables of the browser. -/
structure UnicodeTables where
  /-- `[\p{C}\p{Zl}\p{Zp}]` -/
  isOther : Char → Bool

variable (U : UnicodeTables) {ε : Type}

/-- `UNSAFE[accept]`, for one character -/
def isRefused : Accept → Char → Bool
  | .unicode, c => U.isOther c
  | .ascii, c => !(32 ≤ c.toNat && c.toNat ≤ 126 || c == '\t')
  | .splitlines, _ => false

/-- `[\n\v\f\x1c-\x1e\x85\u2028\u2029]` -/
def isLineBreak (c : Char) : Bool := isBreak c && c != '\r'

/-- The text of a response of at most `maximum` bytes. -/
def bodyText (maximum : ℕ) : Body → Option (List Char)
  | .text units =>
    if units = [] ∨ maximum < units.length then none
    else match CodeUnits.text? units with
      | none => none
      | some cs => if maximum < bytes cs then none else some cs
  | .bytes body =>
    if body.size = 0 ∨ maximum < body.size then none
    else if h : body.IsValidUTF8 then some (String.ofByteArray body h).toList
    else none
  | .other => none

def decodeLines (body : Body) (maximum : ℕ) (fail : ε) (accept : Accept) :
    Except ε (List String) :=
  match bodyText maximum body with
  | none => .error fail
  | some cs =>
    let text := dropReturns cs
    if text.getLast? ≠ some '\n' then .error fail
    else
      let text := text.dropLast
      if accept = .splitlines then
        if '\r' ∈ text then .error fail
        else .ok ((text.splitOnP isLineBreak).map String.ofList)
      else if (text.filter (· ≠ '\n')).any (isRefused U accept) then .error fail
      else .ok ((text.splitOn '\n').map String.ofList)

/-! ## Sections -/

/-- The values of one section, its status, and the lines after it. The last line is never read. -/
def scanValues (fail : ε) (label nonce : Word) :
    List String → Except ε (List String × ℕ × List String)
  | [] => .error fail
  | line :: rest =>
    if rest = [] then .error fail
    else match parseStatus line label nonce with
      | some status => .ok ([], status, rest)
      | none =>
        if isMarker line then .error fail
        else do
          let (values, status, rest) ← scanValues fail label nonce rest
          .ok (line :: values, status, rest)

/-- The sections of a frame from `offset` on, up to its last line. -/
def scanSections (fail : ε) (label nonce : Word) :
    List Word → List String → Sections → Except ε Sections
  | [], [_], parsed => .ok parsed
  | [], _, _ => .error fail
  | _ :: _, [], _ => .error fail
  | name :: names, line :: rest, parsed =>
    if line ≠ beginLine (label.section name) nonce then .error fail
    else do
      let (values, status, rest) ← scanValues fail (label.section name) nonce rest
      scanSections fail label nonce names rest (parsed.set name (values, status))

def readSections (lines : List String) (nonce label : Word) (names : List Word) (fail : ε) :
    Except ε Sections :=
  match lines with
  | [] => .error fail
  | first :: rest =>
    if first ≠ beginLine label nonce ∨ (first :: rest).getLast? ≠ some (endLine label nonce) then
      .error fail
    else scanSections fail label nonce names rest ∅

/-! ## One frame format -/

theorem scanValues_concat {fail : ε} {label nonce : Word} {lines rest' values : List String}
    {last : String} {status : ℕ} :
    scanValues fail label nonce (lines ++ [last]) = .ok (values, status, rest') ↔
      ∃ rest, rest' = rest ++ [last] ∧
        Adb.scanValues label nonce lines = .ok (values, status, rest) := by
  induction lines generalizing values with
  | nil => simp [scanValues, Adb.scanValues]
  | cons line lines ih =>
    have hne : lines ++ [last] ≠ [] := by simp
    rw [List.cons_append, scanValues, Adb.scanValues, if_neg hne]
    cases parseStatus line label nonce with
    | some found =>
      constructor
      · intro h
        cases h
        exact ⟨lines, rfl, rfl⟩
      · rintro ⟨rest, rfl, h⟩
        cases h
        rfl
    | none =>
      simp only
      split
      · simp
      · simp only [bind_eq_ok]
        constructor
        · rintro ⟨⟨values', status', rest'⟩, hscan, h⟩
          cases h
          obtain ⟨rest, rfl, hscan⟩ := ih.mp hscan
          exact ⟨rest, rfl, _, hscan, rfl⟩
        · rintro ⟨rest, rfl, ⟨values', status', rest'⟩, hscan, h⟩
          cases h
          exact ⟨_, ih.mpr ⟨_, rfl, hscan⟩, rfl⟩

theorem endLine_ne_beginLine_section (label nonce name : Word) :
    endLine label nonce ≠ beginLine (label.section name) nonce := by
  intro h
  have hlength := congrArg String.length h
  rw [length_beginLine, length_endLine, Word.section, String.length_append,
    String.length_append] at hlength
  omega

theorem scanSections_concat {fail : ε} {label nonce : Word} {names : List Word}
    {lines : List String} {parsed sections : Sections} :
    scanSections fail label nonce names (lines ++ [endLine label nonce]) parsed = .ok sections ↔
      Adb.scanSections label nonce names lines parsed = .ok sections := by
  induction names generalizing lines parsed with
  | nil =>
    cases lines with
    | nil => simp [scanSections, Adb.scanSections]
    | cons line lines =>
      cases lines with
      | nil => simp [scanSections, Adb.scanSections]
      | cons next lines => simp [scanSections, Adb.scanSections]
  | cons name names ih =>
    cases lines with
    | nil =>
      simp [scanSections, Adb.scanSections, endLine_ne_beginLine_section]
    | cons line lines =>
      rw [List.cons_append, scanSections, Adb.scanSections]
      split
      · simp
      · simp only [bind_eq_ok]
        constructor
        · rintro ⟨⟨values, status, rest'⟩, hscan, h⟩
          obtain ⟨rest, rfl, hrest⟩ := scanValues_concat.mp hscan
          exact ⟨_, hrest, ih.mp h⟩
        · rintro ⟨⟨values, status, rest⟩, hscan, h⟩
          exact ⟨_, scanValues_concat.mpr ⟨rest, rfl, hscan⟩, ih.mpr h⟩

/-- The sections of a frame, as `Adb.parseSections` reads them from the same lines. -/
theorem readSections_eq_ok {fail : ε} {lines : List String} {label nonce : Word}
    {names : List Word} {sections : Sections} :
    readSections lines nonce label names fail = .ok sections ↔
      ∃ parts : List Part, parts.map Part.name = names ∧ lines = frameLines label nonce parts ∧
        sections = readings parts ∅ := by
  constructor
  · intro h
    unfold readSections at h
    split at h
    · cases h
    · rename_i first rest
      split at h
      · cases h
      · rename_i hends
        obtain ⟨hfirst, hlast⟩ := not_or.mp hends
        have hfirst := not_not.mp hfirst
        have hlast := not_not.mp hlast
        cases hback : rest.getLast? with
        | none =>
          rw [List.getLast?_eq_none_iff.mp hback, hfirst] at hlast
          exact absurd (Option.some.inj hlast) (beginLine_ne_endLine label nonce)
        | some last =>
          have hlast' : last = endLine label nonce := by
            rw [List.getLast?_cons, hback] at hlast
            exact Option.some.inj hlast
          have hsplit : rest = rest.dropLast ++ [endLine label nonce] := by
            rw [← hlast', List.dropLast_append_getLast? last hback]
          rw [hsplit, scanSections_concat] at h
          obtain ⟨parts, hnames, hrest, hsections⟩ := scanSections_eq_ok.mp h
          refine ⟨parts, hnames, ?_, hsections⟩
          rw [frameLines, ← hrest, hfirst, List.cons_append, ← hsplit]
  · rintro ⟨parts, hnames, rfl, hsections⟩
    have hscan : scanSections fail label nonce names
        (parts.flatMap (Part.lines label nonce) ++ [endLine label nonce]) ∅ = .ok sections :=
      scanSections_concat.mpr (scanSections_eq_ok.mpr ⟨parts, hnames, rfl, hsections⟩)
    simp only [readSections, frameLines, List.cons_append, hscan]
    rw [if_neg]
    rintro (hfirst | hlast)
    · exact hfirst rfl
    · rw [← List.cons_append, List.getLast?_concat] at hlast
      exact hlast rfl

/-! ## One reading of a frame -/

theorem statusLine_inj {label nonce : Word} {status status' : String} :
    statusLine label nonce status = statusLine label nonce status' ↔ status = status' := by
  rw [← String.toList_inj, toList_statusLine label nonce status,
    toList_statusLine label nonce status', List.append_right_inj, String.toList_inj]

/-- The lines of a section are followed by the rest of the frame in one way. -/
theorem body_append_inj {label nonce : Word} {p p' : Part} {rest rest' : List String}
    (hname : p.name = p'.name) (h : p.body label nonce ++ rest = p'.body label nonce ++ rest') :
    p = p' ∧ rest = rest' := by
  have hscan := scanValues_body label nonce p rest
  have hscan' := scanValues_body label nonce p' rest'
  rw [h, hname, hscan', Except.ok.injEq, Prod.mk.injEq, Prod.mk.injEq] at hscan
  obtain ⟨hvalues, -, hrest⟩ := hscan
  rw [hrest, List.append_left_inj, Part.body, Part.body, ← hvalues, ← hname, List.append_right_inj,
    List.singleton_inj, statusLine_inj, ← String.toList_inj, String.toList_ofList,
    String.toList_ofList] at h
  refine ⟨?_, hrest.symm⟩
  cases p
  cases p'
  simp only at hname hvalues h
  subst hname hvalues h
  rfl

theorem parts_unique {label nonce : Word} {parts parts' : List Part} {rest rest' : List String}
    (hnames : parts.map Part.name = parts'.map Part.name)
    (h : parts.flatMap (Part.lines label nonce) ++ rest =
      parts'.flatMap (Part.lines label nonce) ++ rest') : parts = parts' := by
  induction parts generalizing parts' with
  | nil =>
    cases parts' with
    | nil => rfl
    | cons p' parts' => cases hnames
  | cons p parts ih =>
    cases parts' with
    | nil => cases hnames
    | cons p' parts' =>
      rw [List.map_cons, List.map_cons, List.cons.injEq] at hnames
      obtain ⟨hname, hnames⟩ := hnames
      simp only [List.flatMap_cons, Part.lines, List.cons_append, List.append_assoc,
        List.cons.injEq] at h
      obtain ⟨rfl, hrest⟩ := body_append_inj hname h.2
      rw [ih hnames hrest]

/-- What a marker line says before its nonce. -/
def markerKey (opening : Bool) (label : Word) : List Char :=
  "HAPANELD_".toList ++ (label.text.toList ++ if opening then "_BEGIN".toList else "_END".toList)

theorem colon_not_mem_word (w : Word) : ':' ∉ w.text.toList := by
  intro h
  exact absurd (List.all_eq_true.mp w.word _ h) (by decide)

theorem colon_not_mem_markerKey (opening : Bool) (label : Word) :
    ':' ∉ markerKey opening label := by
  intro h
  rcases List.mem_append.mp h with h | h
  · exact absurd h (by decide)
  · rcases List.mem_append.mp h with h | h
    · exact colon_not_mem_word label h
    · cases opening
      · exact absurd h (by decide)
      · exact absurd h (by decide)

theorem opening_colon : "_BEGIN:".toList = "_BEGIN".toList ++ [':'] := by
  decide

theorem closing_colon : "_END:".toList = "_END".toList ++ [':'] := by
  decide

theorem beforeFirst_beginLine (label nonce : Word) :
    beforeFirst ':' (beginLine label nonce).toList = markerKey true label := by
  have hline : (beginLine label nonce).toList = markerKey true label ++
    ':' :: nonce.text.toList := by
    unfold markerKey
    rw [toList_beginLine, opening_colon]
    simp only [List.append_assoc, List.singleton_append, if_true]
  rw [hline, beforeFirst_append (colon_not_mem_markerKey _ _)]

theorem beforeFirst_endLine (label nonce : Word) :
    beforeFirst ':' (endLine label nonce).toList = markerKey false label := by
  have hline : (endLine label nonce).toList = markerKey false label ++
    ':' :: nonce.text.toList := by
    unfold markerKey
    rw [toList_endLine, closing_colon]
    simp only [List.append_assoc, List.singleton_append, Bool.false_eq_true, if_false]
  rw [hline, beforeFirst_append (colon_not_mem_markerKey _ _)]

theorem beforeFirst_statusLine (label nonce : Word) (status : String) :
    beforeFirst ':' (statusLine label nonce status).toList = markerKey false label := by
  have hline : (statusLine label nonce status).toList =
      markerKey false label ++ ':' :: (nonce.text.toList ++ (":".toList ++ status.toList)) := by
    unfold markerKey
    rw [statusLine, String.toList_append, String.toList_append, toList_endLine, closing_colon]
    simp only [List.append_assoc, List.nil_append, List.cons_append, Bool.false_eq_true, if_false]
  rw [hline, beforeFirst_append (colon_not_mem_markerKey _ _)]

theorem markerKey_inj {opening opening' : Bool} {label label' : Word}
    (h : markerKey opening label = markerKey opening' label') :
    opening = opening' ∧ label = label' := by
  unfold markerKey at h
  rw [List.append_right_inj] at h
  have hword : ∀ {w w' : Word}, w.text.toList = w'.text.toList → w = w' := by
    intro w w' hw
    cases w
    cases w'
    rw [String.toList_inj] at hw
    simp only at hw
    subst hw
    rfl
  have hlast := congrArg List.getLast? h
  cases opening
  · cases opening'
    · exact ⟨rfl, hword (List.append_cancel_right h)⟩
    · simp at hlast
  · cases opening'
    · simp at hlast
    · exact ⟨rfl, hword (List.append_cancel_right h)⟩

theorem section_inj {label name name' : Word} (h : label.section name = label.section name') :
    name = name' := by
  have htext := congrArg (String.toList ∘ Word.text) h
  simp only [Function.comp, Word.section, String.toList_append, List.append_right_inj,
    String.toList_inj] at htext
  cases name
  cases name'
  simp only at htext
  subst htext
  rfl

theorem section_ne (label name : Word) : label.section name ≠ label := by
  intro h
  have hlength := congrArg (String.length ∘ Word.text) h
  simp only [Function.comp, Word.section, String.length_append] at hlength
  change _ + 1 + _ = _ at hlength
  omega

/-- The kinds of the marker lines of a frame, in their order. -/
def markers (label : Word) (names : List Word) : List (Bool × Word) :=
  (true, label) :: (names.flatMap fun name =>
    [(true, label.section name), (false, label.section name)]) ++ [(false, label)]

theorem nodup_markers {label : Word} {names : List Word} (h : names.Nodup) :
    (markers label names).Nodup := by
  have hin : ∀ opening, (opening, label) ∉ names.flatMap fun name =>
      [(true, label.section name), (false, label.section name)] := by
    intro opening hmem
    obtain ⟨name, -, hmem⟩ := List.mem_flatMap.mp hmem
    simp only [List.mem_cons, Prod.mk.injEq, List.not_mem_nil, or_false] at hmem
    rcases hmem with ⟨-, heq⟩ | ⟨-, heq⟩
    · exact section_ne label name heq.symm
    · exact section_ne label name heq.symm
  have hsections : (names.flatMap fun name =>
      [(true, label.section name), (false, label.section name)]).Nodup := by
    rw [List.nodup_flatMap]
    refine ⟨fun name _ => by simp, h.imp fun {name name'} hne => ?_⟩
    intro marker hmem hmem'
    simp only [List.mem_cons, List.not_mem_nil, or_false] at hmem hmem'
    rcases hmem with rfl | rfl <;> rcases hmem' with heq | heq
    all_goals simp only [Prod.mk.injEq, Bool.true_eq_false, Bool.false_eq_true,
      false_and, true_and] at heq
    · exact hne (section_inj heq)
    · exact hne (section_inj heq)
  rw [markers, List.cons_append, List.nodup_cons, List.nodup_append]
  refine ⟨?_, hsections, List.nodup_singleton _, ?_⟩
  · rw [List.mem_append, List.mem_singleton]
    rintro (hmem | heq)
    · exact hin true hmem
    · cases heq
  · rintro a ha b hb rfl
    rw [List.mem_singleton] at hb
    exact hin false (hb ▸ ha)

/-- The marker lines of a frame are these, and every other line is a value. -/
theorem markers_frameLines (label nonce : Word) (parts : List Part) :
    ((frameLines label nonce parts).filter isMarker).map (fun line => beforeFirst ':' line.toList) =
      (markers label (parts.map Part.name)).map fun marker => markerKey marker.1 marker.2 := by
  have hparts : ((parts.flatMap (Part.lines label nonce)).filter isMarker).map
      (fun line => beforeFirst ':' line.toList) =
      ((parts.map Part.name).flatMap fun name =>
        [(true, label.section name), (false, label.section name)]).map
        fun marker => markerKey marker.1 marker.2 := by
    induction parts with
    | nil => rfl
    | cons p parts ih =>
      have hvalues : p.values.filter isMarker = [] :=
        List.filter_eq_nil_iff.mpr fun value hvalue => by simp [p.plain value hvalue]
      have hopening : isMarker (beginLine (label.section p.name) nonce) = true :=
        isMarker_of_append _ (toList_beginLine _ _)
      rw [List.flatMap_cons, List.filter_append, List.map_append, ih, List.map_cons,
        List.flatMap_cons, List.map_append]
      simp only [Part.lines, Part.body, List.filter_cons, hopening, if_true, List.filter_append,
        hvalues, isMarker_statusLine, List.filter_nil, List.nil_append, List.map_cons, List.map_nil,
        beforeFirst_beginLine, beforeFirst_statusLine]
  have hopening : isMarker (beginLine label nonce) = true :=
    isMarker_of_append _ (toList_beginLine _ _)
  have hclosing : isMarker (endLine label nonce) = true := isMarker_of_append _ (toList_endLine _ _)
  rw [frameLines, markers, List.cons_append, List.filter_cons, if_pos hopening, List.filter_append,
    List.map_cons, List.map_append, hparts, List.filter_cons, if_pos hclosing]
  simp only [List.filter_nil, List.map_cons, List.map_nil, List.map_append, List.cons_append,
    beforeFirst_beginLine, beforeFirst_endLine]

/-- No marker line occurs twice in a frame. -/
theorem nodup_marker_lines {label nonce : Word} {parts : List Part}
    (h : (parts.map Part.name).Nodup) : ((frameLines label nonce parts).filter isMarker).Nodup := by
  refine List.Nodup.of_map (fun line => beforeFirst ':' line.toList) ?_
  rw [markers_frameLines]
  refine (nodup_markers h).map ?_
  rintro ⟨opening, w⟩ ⟨opening', w'⟩ heq
  obtain ⟨rfl, rfl⟩ := markerKey_inj heq
  rfl

/-! ## The lines of a response -/

/-- Without other line breaks, the lines of a response are its whole text. -/
theorem decodeLines_text {body : Body} {maximum : ℕ} {fail : ε} {accept : Accept}
    {lines : List String} (haccept : accept ≠ .splitlines)
    (h : decodeLines U body maximum fail accept = .ok lines) :
    ∃ cs, bodyText maximum body = some cs ∧
      dropReturns cs = terminate (lines.map String.toList) := by
  unfold decodeLines at h
  split at h
  · cases h
  · rename_i cs hcs
    refine ⟨cs, hcs, ?_⟩
    simp only at h
    split at h
    · cases h
    · rename_i hlast
      have hlast := not_not.mp hlast
      have hsplit : dropReturns cs = (dropReturns cs).dropLast ++ ['\n'] :=
        (List.dropLast_append_getLast? _ hlast).symm
      split at h
      · cases h
      · cases h
        have hlines : ((dropReturns cs).dropLast.splitOn '\n').map (String.toList ∘ String.ofList) =
            (dropReturns cs).dropLast.splitOn '\n' := by
          simp [Function.comp_def]
        rw [List.map_map, hlines]
        calc dropReturns cs = (dropReturns cs).dropLast ++ ['\n'] := hsplit
          _ = ['\n'].intercalate ((dropReturns cs).dropLast.splitOn '\n') ++ ['\n'] := by
            rw [List.intercalate_splitOn]
          _ = terminated '\n' ((dropReturns cs).dropLast.splitOn '\n') :=
            (terminated_eq_intercalate (List.splitOn_ne_nil _ _)).symm

theorem bodyText_encodeLines {lines : List String} {maximum : ℕ} (hne : lines ≠ [])
    (hsize : (encodeLines lines).size ≤ maximum) :
    bodyText maximum (.bytes (encodeLines lines)) = some (terminate (lines.map String.toList)) := by
  have hvalid : (encodeLines lines).IsValidUTF8 := String.isValidUTF8 _
  have hpos : (encodeLines lines).size ≠ 0 := by
    rw [size_encodeLines]
    obtain ⟨line, rest, rfl⟩ := List.exists_cons_of_ne_nil hne
    rw [List.map_cons, List.sum_cons, lineBytes]
    omega
  rw [bodyText, if_neg (by omega), dif_pos hvalid]
  exact congrArg some String.toList_ofList

/-- Lines come back from their encoding. -/
theorem decodeLines_encodeLines {lines : List String} {maximum : ℕ} {fail : ε} {accept : Accept}
    (haccept : accept ≠ .splitlines) (hne : lines ≠ [])
    (hunbroken : ∀ line ∈ lines, Unbroken line.toList)
    (hadmitted : ∀ line ∈ lines, ∀ c ∈ line.toList, isRefused U accept c = false)
    (hsize : (encodeLines lines).size ≤ maximum) :
    decodeLines U (.bytes (encodeLines lines)) maximum fail accept = .ok lines := by
  have hall : ∀ cs ∈ lines.map String.toList, Unbroken cs := by
    intro cs hcs
    obtain ⟨line, hline, rfl⟩ := List.mem_map.mp hcs
    exact hunbroken line hline
  have hne' : lines.map String.toList ≠ [] := by simpa using hne
  have hterminated : terminate (lines.map String.toList) =
      ['\n'].intercalate (lines.map String.toList) ++ ['\n'] := terminated_eq_intercalate hne'
  have hclean : ((['\n'].intercalate (lines.map String.toList)).filter (· ≠ '\n')).any
      (isRefused U accept) = false := by
    rw [List.any_eq_false]
    intro c hc
    obtain ⟨hmem, hbreak⟩ := List.mem_filter.mp hc
    have hmem : c ∈ terminate (lines.map String.toList) := by
      rw [hterminated]
      exact List.mem_append_left _ hmem
    obtain ⟨cs, hcs, hin⟩ := List.mem_flatMap.mp hmem
    obtain ⟨line, hline, rfl⟩ := List.mem_map.mp hcs
    rcases List.mem_append.mp hin with hin | hin
    · simp [hadmitted line hline c hin]
    · exact absurd (List.mem_singleton.mp hin) (of_decide_eq_true hbreak)
  have hsplit : (['\n'].intercalate (lines.map String.toList)).splitOn '\n' =
      lines.map String.toList := by
    refine List.splitOn_intercalate '\n' (fun cs hcs hmem => ?_) hne'
    have hbreak := hall cs hcs _ hmem
    cases hbreak
  rw [decodeLines, bodyText_encodeLines hne hsize]
  simp only
  rw [dropReturns_of_not_mem (return_not_mem_terminate hall), hterminated, List.getLast?_concat,
    List.dropLast_concat, if_neg (not_not.mpr rfl), if_neg haccept, hclean,
    if_neg Bool.false_ne_true, hsplit, List.map_map]
  congr 1
  calc lines.map (String.ofList ∘ String.toList) = lines.map id :=
        List.map_congr_left fun line _ => String.ofList_toList
    _ = lines := List.map_id lines

/-! ## Frames read back -/

/-- What the marker lines of a frame consist of. -/
def isMarkerChar (c : Char) : Bool := isWordChar c || c == ':'

theorem markerChars_word (w : Word) : w.text.toList.all isMarkerChar = true :=
  List.all_eq_true.mpr fun c hc => by
    rw [isMarkerChar, List.all_eq_true.mp w.word c hc, Bool.true_or]

theorem markerChars_beginLine (label nonce : Word) :
    (beginLine label nonce).toList.all isMarkerChar = true := by
  rw [toList_beginLine]
  simp only [List.all_append, markerChars_word, Bool.true_and, Bool.and_true]
  decide

theorem markerChars_endLine (label nonce : Word) :
    (endLine label nonce).toList.all isMarkerChar = true := by
  rw [toList_endLine]
  simp only [List.all_append, markerChars_word, Bool.true_and, Bool.and_true]
  decide

theorem markerChars_statusLine (label nonce : Word) (p : Part) :
    (statusLine label nonce (String.ofList p.digits)).toList.all isMarkerChar = true := by
  have hdigits : p.digits.all isMarkerChar = true := List.all_eq_true.mpr fun c hc => by
    rw [isMarkerChar, isWordChar_of_isDigit (List.all_eq_true.mp p.all_digits c hc), Bool.true_or]
  have hcolon : ":".toList.all isMarkerChar = true := by decide
  rw [statusLine, String.toList_append, String.toList_append, List.all_append, List.all_append,
    markerChars_endLine, hcolon, String.toList_ofList, hdigits]
  rfl

/-- A frame holds the characters of its values and of its marker lines. -/
theorem admitted_frameLines {label nonce : Word} {parts : List Part} {admits : Char → Prop}
    (hmarker : ∀ c, isMarkerChar c = true → admits c)
    (hvalues : ∀ p ∈ parts, ∀ value ∈ p.values, ∀ c ∈ value.toList, admits c) :
    ∀ line ∈ frameLines label nonce parts, ∀ c ∈ line.toList, admits c := by
  intro line hline c hc
  rcases mem_frameLines.mp hline with rfl | rfl | ⟨p, hp, hline⟩
  · exact hmarker c (List.all_eq_true.mp (markerChars_beginLine label nonce) c hc)
  · exact hmarker c (List.all_eq_true.mp (markerChars_endLine label nonce) c hc)
  · rw [Part.lines, Part.body, List.mem_cons, List.mem_append, List.mem_singleton] at hline
    rcases hline with rfl | hline | rfl
    · exact hmarker c (List.all_eq_true.mp (markerChars_beginLine _ nonce) c hc)
    · exact hvalues p hp line hline c hc
    · exact hmarker c (List.all_eq_true.mp (markerChars_statusLine _ nonce p) c hc)

/-- A dictionary of clean readings that the browser admits is what its frame reads as there. -/
theorem readSections_of_clean (label nonce : Word) {sections : Sections} (maximum : ℕ) (fail : ε)
    {accept : Accept} (haccept : accept ≠ .splitlines)
    (hmarker : ∀ c, isMarkerChar c = true → isRefused U accept c = false)
    (hclean : ∀ e ∈ sections.entries, Clean e.2)
    (hadmitted : ∀ e ∈ sections.entries, ∀ value ∈ e.2.1, ∀ c ∈ value.toList,
      isRefused U accept c = false) :
    ∃ frame, sectionsAsFrame sections label nonce sections.keys = .ok frame ∧
      (frame.size ≤ maximum →
        ∃ lines, decodeLines U (.bytes frame) maximum fail accept = .ok lines ∧
        readSections lines nonce label sections.keys fail = .ok sections) := by
  obtain ⟨parts, hentries, hkeys, hsections, hvalues, hframe⟩ := exists_frame label nonce hclean
  have hparts : ∀ p ∈ parts, ∀ value ∈ p.values, ∀ c ∈ value.toList,
      isRefused U accept c = false := by
    intro p hp
    exact hadmitted (p.name, p.reading) (hentries ▸ List.mem_map_of_mem hp)
  refine ⟨_, hframe, fun hsize => ⟨_, decodeLines_encodeLines U haccept (List.cons_ne_nil _ _)
    (unbroken_frameLines hvalues) (admitted_frameLines hmarker hparts) hsize, ?_⟩⟩
  exact readSections_eq_ok.mpr ⟨parts, hkeys.symm, rfl, hsections⟩

/-- The tables, as far as ASCII goes. -/
def asciiTables : UnicodeTables := ⟨fun c => c.toNat < 32 || c.toNat == 127⟩

theorem admits_markerChar (c : Char) (h : isMarkerChar c = true) :
    isRefused asciiTables .unicode c = false := by
  rw [isMarkerChar, Bool.or_eq_true, beq_iff_eq] at h
  rcases h with h | rfl
  · have hbetween := between_of_isWordChar h
    rw [isRefused, asciiTables, Bool.or_eq_false_iff, decide_eq_false_iff_not, beq_eq_false_iff_ne]
    omega
  · rfl

end PanelAssistant.Usb
