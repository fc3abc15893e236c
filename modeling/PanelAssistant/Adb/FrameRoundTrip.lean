import PanelAssistant.Adb.Frames

/-!
# Frames read back

What a frame that parses consists of (`Part`), and that the sections read from it, written back
and read again, are the same. A frame written back is no longer than the one it was read from:
lines end in one byte and statuses lose their leading zeros.
-/

namespace PanelAssistant.Adb

open Library Library.Text Library.Lines

/-! ## Lines -/

/-- The bytes of a line and its end. -/
def lineBytes (line : String) : ℕ := bytes line.toList + 1

theorem lineBytes_eq (line : String) : lineBytes line = line.utf8ByteSize + 1 := by
  rw [lineBytes, ← size_utf8Encode, ← String.toByteArray_ofList, String.ofList_toList]
  rfl

theorem size_encodeLines (lines : List String) :
    (encodeLines lines).size = (lines.map lineBytes).sum := by
  rw [encodeLines, String.toByteArray_ofList, size_utf8Encode, bytes_terminate, List.map_map]
  rfl

theorem isBreak_return : isBreak '\r' = true := rfl

theorem not_mem_of_unbroken {cs : List Char} (h : Unbroken cs) : '\r' ∉ cs := by
  intro hmem
  have := h _ hmem
  rw [isBreak_return] at this
  cases this

theorem return_not_mem_terminate {lines : List (List Char)} (h : ∀ line ∈ lines, Unbroken line) :
    '\r' ∉ terminate lines := by
  intro hmem
  obtain ⟨line, hline, hin⟩ := List.mem_flatMap.mp hmem
  rcases List.mem_append.mp hin with hin | hin
  · exact not_mem_of_unbroken (h line hline) hin
  · cases List.mem_singleton.mp hin

theorem getLast?_terminate {lines : List (List Char)} (h : lines ≠ []) :
    (terminate lines).getLast? = some '\n' := by
  obtain ⟨before, last, rfl⟩ := List.eq_nil_or_concat lines |>.resolve_left h
  rw [List.concat_eq_append, terminate, List.flatMap_append, List.flatMap_singleton,
    ← List.append_assoc, List.getLast?_concat]

/-- What an answer that decodes is. -/
theorem decodeLines_eq_ok {body : ByteArray} {lines : List String}
    (h : decodeLines body = .ok lines) :
    lines ≠ [] ∧ (∀ line ∈ lines, Unbroken line.toList) ∧ (lines.map lineBytes).sum ≤ body.size ∧
      body.size ≤ maxShellResponseBytes := by
  unfold decodeLines at h
  split at h
  · cases h
  · rename_i hbounds
    split at h
    · rename_i hvalid
      simp only at h
      split at h
      · cases h
      · rename_i htext
        obtain ⟨hreturn, hlast⟩ := not_or.mp htext
        cases h
        generalize hcs : dropReturns (String.ofByteArray body hvalid).toList =
          text at hreturn hlast ⊢
        have hlast := not_not.mp hlast
        have hterminated : Terminated text := by
          intro c hc
          rw [hlast] at hc
          cases hc
          rfl
        have hbody : bytes text ≤ body.size := by
          rw [← hcs]
          refine (bytes_dropReturns_le _).trans ?_
          rw [← size_utf8Encode, String.utf8Encode_toList]
        refine ⟨?_, ?_, ?_, by omega⟩
        · rw [ne_eq, List.map_eq_nil_iff]
          refine splitLines_ne_nil ?_
          rintro rfl
          cases hlast
        · intro line hline
          obtain ⟨cs, hin, rfl⟩ := List.mem_map.mp hline
          rw [String.toList_ofList]
          exact unbroken_of_mem_splitLines cs hin
        · refine le_trans ?_ ((bytes_terminate_splitLines hterminated).trans hbody)
          rw [bytes_terminate, List.map_map]
          refine le_of_eq (congrArg List.sum (List.map_congr_left fun cs _ => ?_))
          rw [Function.comp, lineBytes, String.toList_ofList]
    · cases h

/-- Lines come back from their encoding. -/
theorem decodeLines_encodeLines {lines : List String} (hne : lines ≠ [])
    (hunbroken : ∀ line ∈ lines, Unbroken line.toList)
    (hsize : (encodeLines lines).size ≤ maxShellResponseBytes) :
    decodeLines (encodeLines lines) = .ok lines := by
  have hall : ∀ cs ∈ lines.map String.toList, Unbroken cs := by
    intro cs hcs
    obtain ⟨line, hline, rfl⟩ := List.mem_map.mp hcs
    exact hunbroken line hline
  have hpos : (encodeLines lines).size ≠ 0 := by
    rw [size_encodeLines]
    obtain ⟨line, rest, rfl⟩ := List.exists_cons_of_ne_nil hne
    rw [List.map_cons, List.sum_cons, lineBytes]
    omega
  have hvalid : (encodeLines lines).IsValidUTF8 := String.isValidUTF8 _
  have htext : (String.ofByteArray (encodeLines lines) hvalid).toList =
      terminate (lines.map String.toList) := String.toList_ofList
  have hlast := getLast?_terminate (show lines.map String.toList ≠ [] by simpa using hne)
  rw [decodeLines, if_neg (by omega), dif_pos hvalid]
  simp only [htext, dropReturns_of_not_mem (return_not_mem_terminate hall)]
  rw [if_neg (not_or.mpr ⟨return_not_mem_terminate hall, not_not.mpr hlast⟩),
    splitLines_terminate hall, List.map_map]
  congr 1
  calc lines.map (String.ofList ∘ String.toList) = lines.map id :=
        List.map_congr_left fun line _ => String.ofList_toList
    _ = lines := List.map_id lines

/-! ## Marker lines -/

theorem unbroken_of_class {cls : Char → Bool} (hcls : ∀ c, cls c = true → isBreak c = false)
    {cs : List Char} (h : cs.all cls = true) : Unbroken cs :=
  fun c hc => hcls c (List.all_eq_true.mp h c hc)

theorem isBreak_of_between {c : Char} (hlow : 32 ≤ c.toNat) (hhigh : c.toNat ≤ 126) :
    isBreak c = false := by
  rw [isBreak, ← Bool.not_eq_true, List.contains_iff_mem]
  simp only [List.mem_cons, List.not_mem_nil, or_false]
  omega

theorem isBreak_of_isDigit (c : Char) (h : isDigit c = true) : isBreak c = false := by
  simp only [isDigit, Bool.and_eq_true, decide_eq_true_eq, Char.le_def, UInt32.le_iff_toNat_le] at h
  exact isBreak_of_between (by exact le_trans (by decide) h.1) (by exact le_trans h.2 (by decide))

theorem isWordChar_of_isDigit {c : Char} (h : isDigit c = true) : isWordChar c = true := by
  rw [isWordChar, isAlnum, h]
  rfl

theorem between_of_isWordChar {c : Char} (h : isWordChar c = true) :
    32 ≤ c.toNat ∧ c.toNat ≤ 126 := by
  simp only [isWordChar, isAlnum, isDigit, isLower, isUpper, Bool.or_eq_true, Bool.and_eq_true,
    decide_eq_true_eq, Char.le_def, UInt32.le_iff_toNat_le, beq_iff_eq] at h
  rcases h with ((h | h) | h) | rfl
  · exact ⟨by exact le_trans (by decide) h.1, by exact le_trans h.2 (by decide)⟩
  · exact ⟨by exact le_trans (by decide) h.1, by exact le_trans h.2 (by decide)⟩
  · exact ⟨by exact le_trans (by decide) h.1, by exact le_trans h.2 (by decide)⟩
  · decide

theorem isBreak_of_isWordChar (c : Char) (h : isWordChar c = true) : isBreak c = false :=
  isBreak_of_between (between_of_isWordChar h).1 (between_of_isWordChar h).2

theorem unbroken_word (w : Word) : Unbroken w.text.toList :=
  unbroken_of_class isBreak_of_isWordChar w.word

theorem toList_beginLine (label nonce : Word) : (beginLine label nonce).toList =
    "HAPANELD_".toList ++ (label.text.toList ++ ("_BEGIN:".toList ++ nonce.text.toList)) := by
  simp only [beginLine, String.toList_append, List.append_assoc]

theorem toList_statusLine (label nonce : Word) (status : String) :
    (statusLine label nonce status).toList = (statusLine label nonce "").toList ++
      status.toList := by
  simp only [statusLine, String.toList_append, List.append_assoc,
    String.toList_empty, List.append_nil]

theorem toList_endLine (label nonce : Word) : (endLine label nonce).toList =
    "HAPANELD_".toList ++ (label.text.toList ++ ("_END:".toList ++ nonce.text.toList)) := by
  simp only [endLine, String.toList_append, List.append_assoc]

theorem unbroken_beginLine (label nonce : Word) : Unbroken (beginLine label nonce).toList := by
  rw [toList_beginLine]
  refine .append ?_ (.append (unbroken_word label) (.append ?_ (unbroken_word nonce)))
  all_goals
    rw [String.toList_ofList]
    exact unbroken_of_all (by decide)

theorem unbroken_endLine (label nonce : Word) : Unbroken (endLine label nonce).toList := by
  rw [toList_endLine]
  refine .append ?_ (.append (unbroken_word label) (.append ?_ (unbroken_word nonce)))
  all_goals
    rw [String.toList_ofList]
    exact unbroken_of_all (by decide)

theorem isMarker_of_append {line : String} (cs : List Char)
    (h : line.toList = "HAPANELD_".toList ++ cs) : isMarker line = true := by
  rw [isMarker, h]
  exact List.isPrefixOf_iff_prefix.mpr (List.prefix_append _ _)

theorem isMarker_statusLine (label nonce : Word) (status : String) :
    isMarker (statusLine label nonce status) = true := by
  refine isMarker_of_append (label.text.toList ++ ("_END:".toList ++ nonce.text.toList) ++
    (":".toList ++ status.toList)) ?_
  rw [statusLine, String.toList_append, String.toList_append, toList_endLine]
  simp only [List.append_assoc]

theorem parseStatus_statusLine (label nonce : Word) {digits : List Char}
    (h : repeats isDigit 1 3 digits = true) :
    parseStatus (statusLine label nonce (String.ofList digits)) label nonce =
      some (decimal digits) := by
  rw [parseStatus, toList_statusLine label nonce (String.ofList digits), after?_append,
    String.toList_ofList]
  simp only [h, if_true]

theorem parseStatus_eq_some {line : String} {label nonce : Word} {status : ℕ}
    (h : parseStatus line label nonce = some status) :
    ∃ digits, repeats isDigit 1 3 digits = true ∧ status = decimal digits ∧
      line = statusLine label nonce (String.ofList digits) := by
  unfold parseStatus after? at h
  split at h
  · rename_i digits hdigits
    split at hdigits
    · rename_i hpre
      cases hdigits
      split at h
      · rename_i hnumeral
        cases h
        refine ⟨_, hnumeral, rfl, String.toList_inj.mp ?_⟩
        rw [toList_statusLine, String.toList_ofList]
        exact (List.prefix_iff_eq_append.mp (List.isPrefixOf_iff_prefix.mp hpre)).symm
      · cases h
    · cases hdigits
  · cases h

theorem parseStatus_of_not_marker {line : String} (label nonce : Word)
    (h : isMarker line = false) : parseStatus line label nonce = none := by
  cases hstatus : parseStatus line label nonce with
  | none => rfl
  | some status =>
    obtain ⟨digits, -, -, rfl⟩ := parseStatus_eq_some hstatus
    rw [isMarker_statusLine] at h
    cases h

/-! ## Sections -/

/-- One section as its lines spell it. -/
structure Part where
  name : Word
  values : List String
  /-- The status as it is written. -/
  digits : List Char
  plain : ∀ value ∈ values, isMarker value = false
  numeral : repeats isDigit 1 3 digits = true

namespace Part

def reading (p : Part) : Reading := (p.values, decimal p.digits)

def body (label nonce : Word) (p : Part) : List String :=
  p.values ++ [statusLine (label.section p.name) nonce (String.ofList p.digits)]

def lines (label nonce : Word) (p : Part) : List String :=
  beginLine (label.section p.name) nonce :: p.body label nonce

end Part

theorem scanValues_body (label nonce : Word) (p : Part) (rest : List String) :
    scanValues (label.section p.name) nonce (p.body label nonce ++ rest) =
      .ok (p.values, decimal p.digits, rest) := by
  have hvalues : ∀ values : List String, (∀ value ∈ values, isMarker value = false) →
      scanValues (label.section p.name) nonce (values ++
        [statusLine (label.section p.name) nonce (String.ofList p.digits)] ++ rest) =
        .ok (values, decimal p.digits, rest) := by
    intro values
    induction values with
    | nil =>
      intro _
      simp only [List.nil_append, List.singleton_append, scanValues,
        parseStatus_statusLine _ _ p.numeral]
    | cons value values ih =>
      intro hplain
      obtain ⟨hvalue, hrest⟩ := List.forall_mem_cons.mp hplain
      simp only [List.cons_append, scanValues, parseStatus_of_not_marker _ _ hvalue, hvalue,
        Bool.false_eq_true, if_false, ih hrest]
      rfl
  exact hvalues p.values p.plain

theorem scanValues_eq_ok {label nonce : Word} {name : Word} {lines values rest : List String}
    {status : ℕ} (h : scanValues (label.section name) nonce lines = .ok (values, status, rest)) :
    ∃ p : Part, p.name = name ∧ p.values = values ∧ decimal p.digits = status ∧
      lines = p.body label nonce ++ rest := by
  induction lines generalizing values with
  | nil => cases h
  | cons line lines ih =>
    unfold scanValues at h
    split at h
    · rename_i hstatus
      cases h
      obtain ⟨digits, hnumeral, rfl, rfl⟩ := parseStatus_eq_some hstatus
      exact ⟨⟨name, [], digits, List.forall_mem_nil _, hnumeral⟩, rfl, rfl, rfl, rfl⟩
    · split at h
      · cases h
      · rename_i hmarker
        obtain ⟨⟨values', status', rest'⟩, hscan, hrest⟩ := bind_eq_ok.mp h
        cases hrest
        obtain ⟨p, rfl, rfl, rfl, rfl⟩ := ih hscan
        exact ⟨⟨p.name, line :: p.values, p.digits,
          List.forall_mem_cons.mpr ⟨eq_false_of_ne_true hmarker, p.plain⟩, p.numeral⟩,
          rfl, rfl, rfl, rfl⟩

/-- The dictionary of the sections of a frame. -/
def readings (parts : List Part) (parsed : Sections) : Sections :=
  parts.foldl (fun d p => d.set p.name p.reading) parsed

theorem scanSections_eq_ok {label nonce : Word} {names : List Word} {lines : List String}
    {parsed sections : Sections} :
    scanSections label nonce names lines parsed = .ok sections ↔
      ∃ parts : List Part, parts.map Part.name = names ∧
        lines = parts.flatMap (Part.lines label nonce) ∧ sections = readings parts parsed := by
  constructor
  · intro h
    induction names generalizing lines parsed with
    | nil =>
      cases lines with
      | nil =>
        cases h
        exact ⟨[], rfl, rfl, rfl⟩
      | cons line lines => cases h
    | cons name names ih =>
      cases lines with
      | nil => cases h
      | cons line lines =>
        unfold scanSections at h
        split at h
        · cases h
        · rename_i hbegin
          obtain ⟨⟨values, status, rest⟩, hscan, hrest⟩ := bind_eq_ok.mp h
          obtain ⟨p, rfl, rfl, rfl, rfl⟩ := scanValues_eq_ok hscan
          obtain ⟨parts, rfl, rfl, rfl⟩ := ih hrest
          refine ⟨p :: parts, rfl, ?_, rfl⟩
          rw [List.flatMap_cons, Part.lines, not_not.mp hbegin]
          rfl
  · rintro ⟨parts, rfl, rfl, rfl⟩
    induction parts generalizing parsed with
    | nil => rfl
    | cons p parts ih =>
      rw [List.map_cons, List.flatMap_cons, Part.lines, List.cons_append, scanSections,
        if_neg (not_not.mpr rfl), scanValues_body]
      exact ih

/-! ## Frames -/

/-- The lines of a whole frame. -/
def frameLines (label nonce : Word) (parts : List Part) : List String :=
  beginLine label nonce :: parts.flatMap (Part.lines label nonce) ++ [endLine label nonce]

theorem length_beginLine (label nonce : Word) :
    (beginLine label nonce).length = label.text.length + nonce.text.length + 16 := by
  rw [← String.length_toList, toList_beginLine]
  simp only [List.length_append, String.length_toList]
  change 9 + (_ + (7 + _)) = _
  omega

theorem length_endLine (label nonce : Word) :
    (endLine label nonce).length = label.text.length + nonce.text.length + 14 := by
  rw [← String.length_toList, toList_endLine]
  simp only [List.length_append, String.length_toList]
  change 9 + (_ + (5 + _)) = _
  omega

theorem beginLine_ne_endLine (label nonce : Word) :
    beginLine label nonce ≠ endLine label nonce := by
  intro h
  have hlength := congrArg String.length h
  rw [length_beginLine, length_endLine] at hlength
  omega

theorem parseSections_eq_ok {body : ByteArray} {label nonce : Word} {names : List Word}
    {sections : Sections} :
    parseSections body label nonce names = .ok sections ↔
      ∃ parts : List Part, parts.map Part.name = names ∧
        decodeLines body = .ok (frameLines label nonce parts) ∧ sections = readings parts ∅ := by
  constructor
  · intro h
    obtain ⟨lines, hlines, h⟩ := bind_eq_ok.mp h
    cases lines with
    | nil => cases h
    | cons first rest =>
      simp only at h
      split at h
      · cases h
      · rename_i hends
        obtain ⟨hfirst, hlast⟩ := not_or.mp hends
        obtain ⟨parts, hnames, hrest, hsections⟩ := scanSections_eq_ok.mp h
        refine ⟨parts, hnames, ?_, hsections⟩
        have hfirst := not_not.mp hfirst
        have hlast := not_not.mp hlast
        cases hback : rest.getLast? with
        | none =>
          rw [List.getLast?_eq_none_iff.mp hback, hfirst] at hlast
          exact absurd (Option.some.inj hlast) (beginLine_ne_endLine label nonce)
        | some last =>
          have hlast' : last = endLine label nonce := by
            rw [List.getLast?_cons, hback] at hlast
            exact Option.some.inj hlast
          have hsplit := List.dropLast_append_getLast? last hback
          rw [hlines, frameLines, ← hrest, hfirst, ← hlast', List.cons_append, hsplit]
  · rintro ⟨parts, hnames, hlines, hsections⟩
    have hscan : scanSections label nonce names (parts.flatMap (Part.lines label nonce)) ∅ =
        .ok sections := scanSections_eq_ok.mpr ⟨parts, hnames, rfl, hsections⟩
    refine bind_eq_ok.mpr ⟨_, hlines, ?_⟩
    simp only [frameLines, List.cons_append, List.dropLast_concat, hscan]
    rw [if_neg]
    rintro (hfirst | hlast)
    · exact hfirst rfl
    · rw [← List.cons_append, List.getLast?_concat] at hlast
      exact hlast rfl

theorem mem_frameLines {label nonce : Word} {parts : List Part} {line : String} :
    line ∈ frameLines label nonce parts ↔ line = beginLine label nonce ∨
      line = endLine label nonce ∨ ∃ p ∈ parts, line ∈ p.lines label nonce := by
  simp only [frameLines, List.cons_append, List.mem_cons, List.mem_append, List.mem_flatMap,
    List.not_mem_nil, or_false]
  rw [or_comm (b := line = endLine label nonce)]

/-! ## The dictionary of a frame -/

theorem entries_readings {parts : List Part} (h : (parts.map Part.name).Nodup) :
    (readings parts ∅).entries = parts.map fun p => (p.name, p.reading) := by
  have hofList : readings parts ∅ = Dict.ofList (parts.map fun p => (p.name, p.reading)) := by
    rw [Dict.ofList, List.foldl_map, readings]
  rw [hofList, Dict.entries_ofList]
  rw [List.map_map]
  exact h

theorem get?_readings {parts : List Part} (h : (parts.map Part.name).Nodup) {p : Part}
    (hp : p ∈ parts) : (readings parts ∅).get? p.name = some p.reading := by
  rw [Dict.get?_eq_some, entries_readings h]
  exact List.mem_map_of_mem hp

/-! ## Frames written back -/

theorem toDigits_numeral {n : ℕ} (h : n ≤ 999) :
    repeats isDigit 1 3 (Nat.toDigits 10 n) = true := by
  have hlow : 0 < (Nat.toDigits 10 n).length := Nat.length_toDigits_pos
  have hhigh : (Nat.toDigits 10 n).length ≤ 3 :=
    (Nat.length_toDigits_le_iff (by decide) (by decide)).mpr (by omega)
  rw [repeats, all_isDigit_toDigits, Bool.and_true, Bool.and_eq_true, decide_eq_true_eq,
    decide_eq_true_eq]
  exact ⟨hlow, hhigh⟩

namespace Part

theorem digits_ne_nil (p : Part) : p.digits ≠ [] := by
  intro h
  have := p.numeral
  rw [h] at this
  cases this

theorem all_digits (p : Part) : p.digits.all isDigit = true := by
  have := p.numeral
  rw [repeats, Bool.and_eq_true] at this
  exact this.2

theorem status_le (p : Part) : decimal p.digits ≤ 999 := by
  have hlength : p.digits.length ≤ 3 := by
    have := p.numeral
    rw [repeats, Bool.and_eq_true, Bool.and_eq_true, decide_eq_true_eq, decide_eq_true_eq] at this
    exact this.1.2
  have hlt := decimal_lt p.all_digits
  have hpow : 10 ^ p.digits.length ≤ 10 ^ 3 := Nat.pow_le_pow_right (by decide) hlength
  omega

/-- The section with its status as it is written back. -/
def canonical (p : Part) : Part :=
  { p with
    digits := Nat.toDigits 10 (decimal p.digits)
    numeral := toDigits_numeral p.status_le }

@[simp] theorem canonical_name (p : Part) : p.canonical.name = p.name := rfl

@[simp] theorem reading_canonical (p : Part) : p.canonical.reading = p.reading := by
  rw [reading, canonical, reading, decimal_toDigits]

theorem lines_canonical (label nonce : Word) (p : Part) :
    p.canonical.lines label nonce = sectionLines label nonce p.name p.reading := by
  rw [lines, body, sectionLines, reading, canonical, Nat.repr_eq_ofList_toDigits]
  rfl

end Part

/-- Writing sections back gives the frame of their canonical spellings. -/
theorem sectionsAsFrame_eq {label nonce : Word} {sections : Sections} {parts : List Part}
    (h : ∀ p ∈ parts, sections.get? p.name = some p.reading) :
    sectionsAsFrame sections label nonce (parts.map Part.name) =
      .ok (encodeLines (frameLines label nonce (parts.map Part.canonical))) := by
  have hlines : (parts.map Part.name).mapM (fun name => do
      let reading ← item sections name
      .ok (sectionLines label nonce name reading)) =
      (.ok (parts.map fun p => p.canonical.lines label nonce) : Except Failure _) := by
    induction parts with
    | nil => rfl
    | cons p parts ih =>
      obtain ⟨hp, hparts⟩ := List.forall_mem_cons.mp h
      rw [List.map_cons, List.mapM_cons, ih hparts, item, hp, List.map_cons, Part.lines_canonical]
      rfl
  rw [sectionsAsFrame, hlines, frameLines, List.flatMap_map]
  rfl

theorem bytes_of_all_digits {cs : List Char} (h : cs.all isDigit = true) :
    bytes cs = cs.length := by
  induction cs with
  | nil => rfl
  | cons c cs ih =>
    rw [List.all_cons, Bool.and_eq_true] at h
    have hc : c.utf8Size = 1 := by
      have hdigit := h.1
      simp only [isDigit, Bool.and_eq_true, decide_eq_true_eq, Char.le_def] at hdigit
      have hnine : '9'.val ≤ 127 := by decide
      exact Char.utf8Size_eq_one_iff.mpr (UInt32.le_trans hdigit.2 hnine)
    rw [bytes_cons, hc, ih h.2, List.length_cons]
    omega

theorem lineBytes_statusLine (label nonce : Word) {digits : List Char}
    (h : digits.all isDigit = true) :
    lineBytes (statusLine label nonce (String.ofList digits)) =
      lineBytes (statusLine label nonce "") + digits.length := by
  rw [lineBytes, toList_statusLine label nonce (String.ofList digits), bytes_append,
    String.toList_ofList, bytes_of_all_digits h, lineBytes]
  omega

theorem Part.bytes_canonical_le (label nonce : Word) (p : Part) :
    ((p.canonical.lines label nonce).map lineBytes).sum ≤
      ((p.lines label nonce).map lineBytes).sum := by
  have hstatus : lineBytes (statusLine (label.section p.name) nonce
      (String.ofList p.canonical.digits)) ≤
      lineBytes (statusLine (label.section p.name) nonce (String.ofList p.digits)) := by
    rw [lineBytes_statusLine _ _ p.canonical.all_digits, lineBytes_statusLine _ _ p.all_digits]
    exact Nat.add_le_add_left (length_toDigits_decimal_le p.digits_ne_nil p.all_digits) _
  simp only [Part.lines, Part.body, List.map_cons, List.map_append, List.sum_cons, List.sum_append,
    List.map_nil, List.sum_nil, Part.canonical_name]
  change _ + ((p.values.map lineBytes).sum + _) ≤ _
  omega

/-- A frame written back from some of the sections is no longer than the frame they were read
from. -/
theorem bytes_frameLines_le (label nonce : Word) {parts parts' : List Part}
    (h : parts'.Sublist parts) :
    ((frameLines label nonce (parts'.map Part.canonical)).map lineBytes).sum ≤
      ((frameLines label nonce parts).map lineBytes).sum := by
  have hsections :
    (((parts'.map Part.canonical).flatMap (Part.lines label nonce)).map lineBytes).sum ≤
      ((parts.flatMap (Part.lines label nonce)).map lineBytes).sum := by
    induction h with
    | slnil => exact le_rfl
    | cons p _ ih =>
      rw [List.flatMap_cons, List.map_append, List.sum_append]
      omega
    | cons_cons p _ ih =>
      have hp := p.bytes_canonical_le label nonce
      rw [List.map_cons, List.flatMap_cons, List.flatMap_cons, List.map_append, List.map_append,
        List.sum_append, List.sum_append]
      omega
  simp only [frameLines, List.cons_append, List.map_cons, List.map_append, List.sum_cons,
    List.sum_append]
  omega

/-! ## Round trips -/

theorem unbroken_lines {label nonce : Word} {p : Part}
    (h : ∀ value ∈ p.values, Unbroken value.toList) :
    ∀ line ∈ p.lines label nonce, Unbroken line.toList := by
  intro line hline
  rw [Part.lines, Part.body, List.mem_cons, List.mem_append, List.mem_singleton] at hline
  rcases hline with rfl | hline | rfl
  · exact unbroken_beginLine _ _
  · exact h line hline
  · rw [toList_statusLine, String.toList_ofList, statusLine, String.toList_append,
      String.toList_append, String.toList_empty, List.append_nil]
    refine .append (.append (unbroken_endLine _ _) ?_)
      (unbroken_of_class isBreak_of_isDigit p.all_digits)
    rw [String.toList_ofList]
    exact unbroken_of_all (by decide)

theorem unbroken_frameLines {label nonce : Word} {parts : List Part}
    (hvalues : ∀ p ∈ parts, ∀ value ∈ p.values, Unbroken value.toList) :
    ∀ line ∈ frameLines label nonce parts, Unbroken line.toList := by
  intro line hline
  rcases mem_frameLines.mp hline with rfl | rfl | ⟨p, hp, hline⟩
  · exact unbroken_beginLine label nonce
  · exact unbroken_endLine label nonce
  · exact unbroken_lines (hvalues p hp) line hline

theorem parseSections_encodeLines {label nonce : Word} {parts : List Part}
    (hvalues : ∀ p ∈ parts, ∀ value ∈ p.values, Unbroken value.toList)
    (hsize : (encodeLines (frameLines label nonce parts)).size ≤ maxShellResponseBytes) :
    parseSections (encodeLines (frameLines label nonce parts)) label nonce (parts.map Part.name) =
      .ok (readings parts ∅) :=
  parseSections_eq_ok.mpr ⟨parts, rfl,
    decodeLines_encodeLines (List.cons_ne_nil _ _) (unbroken_frameLines hvalues) hsize, rfl⟩

theorem readings_canonical (parts : List Part) :
    readings (parts.map Part.canonical) ∅ = readings parts ∅ := by
  simp only [readings, List.foldl_map, Part.canonical_name, Part.reading_canonical]

/-- Some of the sections of an answer, written back and read again. -/
theorem parseSections_sectionsAsFrame {body : ByteArray} {label nonce : Word}
    {names names' : List Word} {sections : Sections} (hnames : names.Nodup)
    (h : parseSections body label nonce names = .ok sections) (hsub : names'.Sublist names) :
    ∃ frame sections', sectionsAsFrame sections label nonce names' = .ok frame ∧
      parseSections frame label nonce names' = .ok sections' ∧ sections'.keys = names' ∧
      ∀ name ∈ names', sections'.get? name = sections.get? name := by
  obtain ⟨parts, rfl, hlines, rfl⟩ := parseSections_eq_ok.mp h
  obtain ⟨parts', hparts, rfl⟩ := List.sublist_map_iff.mp hsub
  obtain ⟨-, hunbroken, hbytes, hbody⟩ := decodeLines_eq_ok hlines
  have hframe : sectionsAsFrame (readings parts ∅) label nonce (parts'.map Part.name) =
      .ok (encodeLines (frameLines label nonce (parts'.map Part.canonical))) :=
    sectionsAsFrame_eq fun p hp => get?_readings hnames (hparts.subset hp)
  have hvalues : ∀ p ∈ parts'.map Part.canonical, ∀ value ∈ p.values, Unbroken value.toList := by
    intro p hp value hvalue
    obtain ⟨q, hq, rfl⟩ := List.mem_map.mp hp
    refine hunbroken value (mem_frameLines.mpr (.inr (.inr ⟨q, hparts.subset hq, ?_⟩)))
    rw [Part.lines, Part.body, List.mem_cons, List.mem_append]
    exact .inr (.inl hvalue)
  have hsize : (encodeLines (frameLines label nonce (parts'.map Part.canonical))).size ≤
      maxShellResponseBytes := by
    rw [size_encodeLines]
    exact (bytes_frameLines_le label nonce hparts).trans (hbytes.trans hbody)
  have hparse := parseSections_encodeLines hvalues hsize
  rw [List.map_map, readings_canonical] at hparse
  have hnodup : (parts'.map Part.name).Nodup := hnames.sublist hsub
  refine ⟨_, _, hframe, hparse, ?_, ?_⟩
  · rw [Dict.keys, entries_readings hnodup, List.map_map]
    rfl
  · intro name hname
    obtain ⟨p, hp, rfl⟩ := List.mem_map.mp hname
    rw [get?_readings hnodup hp, get?_readings hnames (hparts.subset hp)]

/-- A reading whose frame says the same as the reading. -/
structure Clean (reading : Reading) : Prop where
  status : reading.2 ≤ 999
  unbroken : ∀ value ∈ reading.1, Unbroken value.toList
  plain : ∀ value ∈ reading.1, isMarker value = false

theorem exists_parts {entries : List (Word × Reading)} (h : ∀ e ∈ entries, Clean e.2) :
    ∃ parts : List Part, entries = parts.map (fun p => (p.name, p.reading)) ∧
      parts.map Part.canonical = parts ∧ ∀ p ∈ parts, ∀ value ∈ p.values,
        Unbroken value.toList := by
  induction entries with
  | nil => exact ⟨[], rfl, rfl, List.forall_mem_nil _⟩
  | cons e entries ih =>
    obtain ⟨he, hentries⟩ := List.forall_mem_cons.mp h
    obtain ⟨parts, rfl, hcanonical, hvalues⟩ := ih hentries
    let p : Part := ⟨e.1, e.2.1, Nat.toDigits 10 e.2.2, he.plain, toDigits_numeral he.status⟩
    have hreading : p.reading = e.2 := Prod.ext rfl (decimal_toDigits e.2.2)
    have hp : p.canonical = p := by
      rw [Part.canonical]
      congr 1
      rw [decimal_toDigits]
    refine ⟨p :: parts, ?_, ?_, List.forall_mem_cons.mpr ⟨he.unbroken, hvalues⟩⟩
    · rw [List.map_cons, hreading]
    · rw [List.map_cons, hcanonical, hp]

/-- A dictionary of clean readings is written as the frame of its parts. -/
theorem exists_frame (label nonce : Word) {sections : Sections}
    (h : ∀ e ∈ sections.entries, Clean e.2) :
    ∃ parts : List Part, sections.entries = parts.map (fun p => (p.name, p.reading)) ∧
      sections.keys = parts.map Part.name ∧ sections = readings parts ∅ ∧
      (∀ p ∈ parts, ∀ value ∈ p.values, Unbroken value.toList) ∧
      sectionsAsFrame sections label nonce sections.keys =
        .ok (encodeLines (frameLines label nonce parts)) := by
  obtain ⟨parts, hentries, hcanonical, hvalues⟩ := exists_parts h
  have hkeys : sections.keys = parts.map Part.name := by
    rw [Dict.keys, hentries, List.map_map]
    rfl
  have hnodup : (parts.map Part.name).Nodup := by
    rw [← hkeys]
    exact sections.nodup
  have hsections : sections = readings parts ∅ := by
    rw [Dict.mk.injEq, hentries, entries_readings hnodup]
  have hget : ∀ p ∈ parts, sections.get? p.name = some p.reading := by
    intro p hp
    rw [hsections, get?_readings hnodup hp]
  have hframe : sectionsAsFrame sections label nonce (parts.map Part.name) = _ :=
    sectionsAsFrame_eq hget
  rw [hcanonical, ← hkeys] at hframe
  exact ⟨parts, hentries, hkeys, hsections, hvalues, hframe⟩

/-- A dictionary of clean readings is what its frame reads as. -/
theorem parseSections_of_clean (label nonce : Word) {sections : Sections}
    (h : ∀ e ∈ sections.entries, Clean e.2) :
    ∃ frame, sectionsAsFrame sections label nonce sections.keys = .ok frame ∧
      (frame.size ≤ maxShellResponseBytes →
        parseSections frame label nonce sections.keys = .ok sections) := by
  obtain ⟨parts, -, hkeys, hsections, hvalues, hframe⟩ := exists_frame label nonce h
  refine ⟨_, hframe, fun hsize => ?_⟩
  rw [hkeys, parseSections_encodeLines hvalues hsize, hsections]

end PanelAssistant.Adb
