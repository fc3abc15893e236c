import PanelAssistant.Usb.HttpResponses

/-!
# What arrives

A response arrives as its body however it is divided into reads, if and only if it is UTF-8, which
is so if and only if no chunk ends inside a character (`whole_iff`, `http_reader`).
-/

namespace PanelAssistant.Http

open Library Library.Text Library.Cut

variable {r : Response} {maximumBody : ℕ} {acceptedStatuses : List ℕ} {text : List Char}

/-! ## Reads -/

theorem readParts_eq_ok {values : List (List UInt8)} {maximum bytes : ℕ} {decoder : Utf8.State}
    {before : List Char} (hbytes : bytes ≤ maximum) :
    readParts maximum bytes decoder before values = .ok text ↔
      bytes + values.flatten.length ≤ maximum ∧
        ∃ s part, Utf8.decode decoder values.flatten = some (s, part) ∧
        s.needed = 0 ∧ text = before ++ part := by
  induction values generalizing bytes decoder before with
  | nil =>
    rw [readParts, List.flatten_nil, Utf8.decode]
    constructor
    · intro h
      split at h
      · rename_i hneeded
        cases h
        exact ⟨hbytes, decoder, [], rfl, hneeded, (List.append_nil _).symm⟩
      · cases h
    · rintro ⟨-, s, part, hdecode, hneeded, rfl⟩
      cases hdecode
      rw [if_pos hneeded, List.append_nil]
  | cons value values ih =>
    rw [readParts, List.flatten_cons, Utf8.decode_append, List.length_append]
    by_cases hlong : maximum < bytes + value.length
    · rw [if_pos hlong]
      refine iff_of_false (fun h => by cases h) ?_
      rintro ⟨hle, -⟩
      omega
    · rw [if_neg hlong]
      cases hvalue : Utf8.decode decoder value with
      | none =>
        refine iff_of_false (fun h => by cases h) ?_
        rintro ⟨-, s, part, hdecode, -⟩
        cases hdecode
      | some d =>
        obtain ⟨s, first⟩ := d
        simp only [Option.bind_some]
        rw [ih (not_lt.mp hlong), Nat.add_assoc]
        refine and_congr_right fun _ => ?_
        constructor
        · rintro ⟨s', part, hdecode, hneeded, rfl⟩
          refine ⟨s', first ++ part, ?_, hneeded, List.append_assoc _ _ _⟩
          rw [hdecode]
          rfl
        · rintro ⟨s', part, hdecode, hneeded, rfl⟩
          obtain ⟨⟨s'', rest⟩, hrest, heq⟩ := Option.map_eq_some_iff.mp hdecode
          cases heq
          exact ⟨s'', rest, hrest, hneeded, (List.append_assoc _ _ _).symm⟩

/-- Reading gives the text whose encoding arrives, however it is divided. -/
theorem readBounded_eq_ok {values : List (List UInt8)} :
    readBounded values 32768 = .ok text ↔
      values.flatten.length ≤ 32768 ∧ values.flatten = Utf8.encode text := by
  rw [readBounded, if_neg (by decide), readParts_eq_ok (Nat.zero_le _), Nat.zero_add]
  refine and_congr_right fun _ => ?_
  rw [← Utf8.decodeAll_eq_some, Utf8.decodeAll]
  constructor
  · rintro ⟨s, part, hdecode, hneeded, rfl⟩
    rw [hdecode]
    exact if_pos hneeded
  · intro h
    split at h
    · rename_i s part hdecode
      obtain ⟨hneeded, heq⟩ := Option.ite_none_right_eq_some.mp h
      cases heq
      exact ⟨s, text, hdecode, hneeded, rfl⟩
    · cases h

/-! ## Whole characters -/

/-- The bytes of a chunked body are UTF-8 if each chunk is, and only then. -/
theorem exists_text_iff {chunks : List Chunk} {last : Chunk} (h : Chunked chunks last) :
    (∃ text, chunkBytes chunks last = Utf8.encode text) ↔
      ∀ chunk ∈ chunks, ∃ text, chunk.data = Utf8.encode text := by
  have hpair : [13, 10] = Utf8.encode ['\r', '\n'] := by decide
  have hlast : last.bytes = Utf8.encode (last.lineText ++ blankLine) := by
    have hblank : [13, 10, 13, 10] = Utf8.encode blankLine := by decide
    rw [Utf8.encode_append, ← hblank, ← line_eq, Chunk.bytes, h.empty]
    rfl
  induction chunks with
  | nil => exact iff_of_true ⟨_, hlast⟩ (List.forall_mem_nil _)
  | cons chunk chunks ih =>
    have hrest :=
      ih ⟨(List.forall_mem_cons.mp h.sized).2, (List.forall_mem_cons.mp h.nonempty).2, h.lastSized,
      h.empty⟩
    have hbytes : chunkBytes (chunk :: chunks) last =
        Utf8.encode (chunk.lineText ++ ['\r', '\n']) ++
          (chunk.data ++ 13 :: 10 :: chunkBytes chunks last) := by
      rw [chunkBytes_cons, Chunk.bytes, Utf8.encode_append, ← line_eq, ← hpair]
      simp
    rw [List.forall_mem_cons, hbytes]
    refine Iff.trans ?_ (and_congr_right fun _ => hrest)
    constructor
    · rintro ⟨text, htext⟩
      obtain ⟨after, -, hafter⟩ := Utf8.exists_of_encode_append htext.symm
      -- the line break behind the data is ASCII, so no character goes on over it
      have hdecode := Utf8.decode_encode after
      rw [← hafter] at hdecode
      obtain ⟨data, hdata⟩ := Utf8.decode_of_ascii_next (by decide) hdecode
      refine ⟨⟨data, hdata⟩, ?_⟩
      have hcut : chunk.data ++ 13 :: 10 :: chunkBytes chunks last =
          Utf8.encode (data ++ ['\r', '\n']) ++ chunkBytes chunks last := by
        rw [Utf8.encode_append, ← hpair, hdata, List.append_assoc]
        rfl
      rw [hcut] at hafter
      obtain ⟨rest, -, hrest⟩ := Utf8.exists_of_encode_append hafter.symm
      exact ⟨rest, hrest⟩
    · rintro ⟨⟨data, hdata⟩, rest, hrest⟩
      refine ⟨chunk.lineText ++ ['\r', '\n'] ++ (data ++ ['\r', '\n'] ++ rest), ?_⟩
      simp only [Utf8.encode_append, ← hpair, ← hdata, ← hrest, List.append_assoc]
      rfl

/-- **A response is UTF-8 exactly if no chunk ends inside a character.** -/
theorem whole_iff (h : r.Acceptable maximumBody acceptedStatuses) :
    (∃ text, r.bytes = Utf8.encode text) ↔ r.Whole := by
  have hpayload : (∃ text, r.bytes = Utf8.encode text) ↔ ∃ text, r.payload = Utf8.encode text := by
    constructor
    · rintro ⟨text, htext⟩
      obtain ⟨after, -, hafter⟩ := Utf8.exists_of_encode_append htext.symm
      exact ⟨after, hafter⟩
    · rintro ⟨after, hafter⟩
      exact ⟨r.head ++ blankLine ++ after, by rw [Utf8.encode_append, ← hafter, Response.bytes]⟩
  rw [hpayload]
  obtain ⟨status, lines, body, framing⟩ := r
  cases framing with
  | endOfStream | contentLength => exact iff_of_true ⟨body, rfl⟩ trivial
  | chunked chunks last =>
    obtain ⟨-, -, hchunked, -⟩ := h.framed
    exact exists_text_iff hchunked

theorem length_body_le (h : r.Acceptable maximumBody acceptedStatuses) :
    (Utf8.encode r.body).length ≤ r.bytes.length := by
  have hpayload : (Utf8.encode r.body).length ≤ r.payload.length := by
    obtain ⟨status, lines, body, framing⟩ := r
    cases framing with
    | endOfStream | contentLength => exact le_rfl
    | chunked chunks last =>
      obtain ⟨-, -, -, hdata⟩ := h.framed
      have hle : ∀ chunks : List Chunk,
        (dataOf chunks).length ≤ (chunkBytes chunks last).length := by
        intro chunks
        induction chunks with
        | nil => exact Nat.zero_le _
        | cons chunk chunks ih =>
          rw [chunkBytes_cons, dataOf, List.flatMap_cons, ← dataOf, List.length_append,
            List.length_append, Chunk.bytes, List.length_append, List.length_cons, List.length_cons,
            List.length_append]
          omega
      change (Utf8.encode body).length ≤ (chunkBytes chunks last).length
      rw [← hdata]
      exact hle chunks
  rw [Response.bytes, List.length_append]
  omega

/-- **A response arrives as its body exactly if no chunk ends inside a character**, however it is
divided into reads. What the parser accepts is the text of one response, with the body it returns;
and it fails in one way only. -/
theorem http_reader (maximumBody : ℕ) (acceptedStatuses : List ℕ) :
    (∀ r : Response, r.Acceptable maximumBody acceptedStatuses → r.bytes.length ≤ 32768 →
      ∀ values : List (List UInt8), values.flatten = r.bytes →
        (receive values maximumBody acceptedStatuses = .ok r.body ↔ r.Whole)) ∧
    (∀ text body, parseHttp text maximumBody acceptedStatuses = .ok body →
      ∃ r : Response, r.Acceptable maximumBody acceptedStatuses ∧
        r.bytes = Utf8.encode text ∧ r.body = body ∧
        ∀ r' : Response, r'.Acceptable maximumBody acceptedStatuses →
          r'.bytes = Utf8.encode text → r' = r) ∧
    (∀ text e, parseHttp text maximumBody acceptedStatuses = .error e → e = .healthMalformed) := by
  refine ⟨fun r h hlength values hvalues => ?_, fun text body h => ?_,
    fun text e h => parseHttp_error h⟩
  · rw [← whole_iff h]
    constructor
    · intro hreceive
      unfold receive at hreceive
      split at hreceive
      · rename_i text htext
        exact ⟨text, hvalues.symm.trans (readBounded_eq_ok.mp htext).2⟩
      · cases hreceive
    · rintro ⟨text, htext⟩
      have hread : readBounded values 32768 = .ok text :=
        readBounded_eq_ok.mpr ⟨by rw [hvalues]; exact hlength, hvalues.trans htext⟩
      have hbody := length_body_le h
      simp only [receive, hread]
      exact parseHttp_response h htext (by omega)
  · obtain ⟨r, hr, hbytes, hbody⟩ := exists_response h
    exact ⟨r, hr, hbytes, hbody, fun r' hr' hbytes' => eq_of_bytes hr' hr hbytes' hbytes⟩

/-! ## A chunk that ends inside a character -/

/-- The body `é` in two chunks of one byte. -/
def dividedResponse : Response where
  status := "HTTP/1.1 200 OK".toList
  lines := ["Transfer-Encoding: chunked".toList]
  body := ['é']
  framing := .chunked [⟨false, ['1'], [0xC3]⟩, ⟨false, ['1'], [0xA9]⟩] ⟨false, ['0'], []⟩

theorem dividedResponse_acceptable : dividedResponse.Acceptable 512 [200] where
  lines := by
    refine ⟨by decide, by decide, fun line hline => ?_⟩
    have hfields : (dividedResponse.status :: dividedResponse.lines).all
      (·.all isFieldChar) = true := by
      decide
    exact List.all_eq_true.mp (List.all_eq_true.mp hfields line hline)
  status := ⟨200, by decide, by decide⟩
  count := by decide
  short := by decide
  distinct := by decide
  head := by decide
  encoding := by
    intro value h
    have hnone : dividedResponse.headers.get? contentEncoding = none := by decide
    rw [hnone] at h
    cases h
  framed := by
    have hdigit : ∀ c ∈ ['1'], isHexDigit c := List.forall_mem_singleton.mpr (by decide)
    have hshort : ['1'].length ≤ 8 := by decide
    have hone : ∀ byte, (Chunk.mk false ['1'] [byte]).Sized := fun byte =>
      ⟨List.cons_ne_nil _ _, hdigit, hshort, rfl⟩
    refine ⟨⟨chunked, by decide, by decide⟩,
      by decide, ⟨?_, ?_, ?_, rfl⟩, by decide⟩
    · exact List.forall_mem_cons.mpr ⟨hone _, List.forall_mem_singleton.mpr (hone _)⟩
    · exact List.forall_mem_cons.mpr ⟨List.cons_ne_nil _ _,
        List.forall_mem_singleton.mpr (List.cons_ne_nil _ _)⟩
    · exact ⟨List.cons_ne_nil _ _, List.forall_mem_singleton.mpr (by decide), by decide, rfl⟩
  body := by decide

theorem dividedResponse_unmarked : dividedResponse.Unmarked := by
  change ∀ chunk ∈ [Chunk.mk false ['1'] [0xC3], ⟨false, ['1'], [0xA9]⟩, ⟨false, ['0'], []⟩],
    chunk.marked = false
  decide

/-- The response is one to be accepted, and does not arrive. -/
theorem divided_lost :
    dividedResponse.Acceptable 512 [200] ∧ dividedResponse.Unmarked ∧
      dividedResponse.bytes.length ≤ 32768 ∧
      receive [dividedResponse.bytes] 512 [200] = .error .healthMalformed :=
  ⟨dividedResponse_acceptable, dividedResponse_unmarked, by decide,
    by decide⟩

-- a byte order mark before a size is accepted, and no response that is not marked has these bytes
example : parseHttp
    "HTTP/1.1 200 OK\r\nTransfer-Encoding: chunked\r\n\r\n\uFEFF2\r\nok\r\n0\r\n\r\n".toList
    512 [200] = .ok ['o', 'k'] := by
  decide

end PanelAssistant.Http
