import PanelAssistant.Usb.HttpFramings

/-!
# Responses

A response is its status line, its header lines, and a body in one of three framings. Its bytes say
what it is (`eq_of_bytes`), and the parser accepts the text of a response and returns its body, and
accepts nothing else (`parseHttp_iff`). Since the whole response is decoded before it is taken
apart, a response arrives if and only if no chunk ends inside a character (`http_reader`).
-/

namespace PanelAssistant.Http

open Library Library.Text Library.Cut

/-! ## What a response is -/

inductive Framing where
  /-- The body goes on to the end of the stream. -/
  | endOfStream
  | contentLength
  | chunked (chunks : List Chunk) (last : Chunk)

structure Response where
  status : List Char
  lines : List (List Char)
  body : List Char
  framing : Framing

namespace Response

/-- The status line and the header lines. -/
def head (r : Response) : List Char := joinPair '\r' '\n' (r.status :: r.lines)

def headers (r : Response) : Headers := r.lines.filterMap header?

def payload (r : Response) : List UInt8 :=
  match r.framing with
  | .chunked chunks last => chunkBytes chunks last
  | _ => Utf8.encode r.body

def bytes (r : Response) : List UInt8 := Utf8.encode (r.head ++ blankLine) ++ r.payload

/-- The headers say how the body is framed. -/
def Framed (r : Response) : Prop :=
  match r.framing with
  | .endOfStream => r.headers.get? transferEncoding = none ∧ r.headers.get? contentLength = none
  | .contentLength => r.headers.get? transferEncoding = none ∧
      r.headers.get? contentLength = some (Nat.toDigits 10 (Utf8.encode r.body).length)
  | .chunked chunks last => (∃ transfer, r.headers.get? transferEncoding = some transfer ∧
      lowerCase transfer = chunked) ∧ r.headers.get? contentLength = none ∧
      Chunked chunks last ∧ dataOf chunks = Utf8.encode r.body

/-- No byte order mark stands before a size. -/
def Unmarked (r : Response) : Prop :=
  match r.framing with
  | .chunked chunks last => ∀ chunk ∈ chunks ++ [last], chunk.marked = false
  | _ => True

/-- No chunk ends inside a character. -/
def Whole (r : Response) : Prop :=
  match r.framing with
  | .chunked chunks _ => ∀ chunk ∈ chunks, ∃ text, chunk.data = Utf8.encode text
  | _ => True

/-- The lines are admissible. -/
structure Lines (r : Response) : Prop where
  status : (statusCode? r.status).isSome = true
  header : ∀ line ∈ r.lines, (header? line).isSome = true
  fields : ∀ line ∈ r.status :: r.lines, ∀ c ∈ line, isFieldChar c = true

/-- A response to be accepted: a status that is expected, at most 64 distinct admissible headers, a
short head, and a body of at most `maximumBody` bytes as its headers frame it. -/
structure Acceptable (maximumBody : ℕ) (acceptedStatuses : List ℕ) (r : Response) : Prop where
  lines : r.Lines
  status : ∃ code ∈ acceptedStatuses, statusCode? r.status = some code
  count : r.lines.length ≤ 64
  short : ∀ line ∈ r.lines, line.length ≤ 2048
  distinct : (r.headers.map Prod.fst).Nodup
  head : r.head.length ≤ 8192
  encoding : ∀ value, r.headers.get? contentEncoding = some value → lowerCase value = identity
  framed : r.Framed
  body : (Utf8.encode r.body).length ≤ maximumBody

end Response

variable {r r' : Response} {maximumBody : ℕ} {acceptedStatuses : List ℕ} {text body : List Char}

/-! ## Lines -/

theorem not_return_of_fields {line : List Char} (h : ∀ c ∈ line, isFieldChar c = true) :
    '\r' ∉ line := by
  intro hc
  have := h _ hc
  revert this
  decide

theorem ne_nil_of_status {line : List Char} (h : (statusCode? line).isSome = true) : line ≠ [] := by
  rintro rfl
  cases h

theorem ne_nil_of_header {line : List Char} (h : (header? line).isSome = true) : line ≠ [] := by
  rintro rfl
  cases h

namespace Response.Lines

theorem not_return (h : r.Lines) : ∀ line ∈ r.status :: r.lines, '\r' ∉ line :=
  fun line hline => not_return_of_fields (h.fields line hline)

theorem ne_nil (h : r.Lines) : ∀ line ∈ r.status :: r.lines, line ≠ [] :=
  List.forall_mem_cons.mpr ⟨ne_nil_of_status h.status,
    fun line hline => ne_nil_of_header (h.header line hline)⟩

/-- The head ends at the first blank line. -/
theorem cut_head (h : r.Lines) (rest : List Char) :
    cut blankLine (r.head ++ blankLine ++ rest) = some (r.head, rest) := by
  rw [List.append_assoc]
  exact cut_joinPair (by decide) h.not_return h.ne_nil rest

theorem split_head (h : r.Lines) : splitPair '\r' '\n' r.head = r.status :: r.lines :=
  splitPair_joinPair (List.cons_ne_nil _ _) h.not_return

end Response.Lines

/-! ## Headers -/

theorem isSome_get? (headers : Headers) (name : List Char) :
    (headers.get? name).isSome = true ↔ name ∈ headers.map Prod.fst := by
  rw [Headers.get?, Option.isSome_map, List.find?_isSome, List.mem_map]
  constructor
  · rintro ⟨header, hmem, heq⟩
    exact ⟨header, hmem, eq_of_beq heq⟩
  · rintro ⟨header, hmem, heq⟩
    exact ⟨header, hmem, beq_iff_eq.mpr heq⟩

/-- Which lines are read as headers. -/
theorem readHeaders_eq_ok {lines : List (List Char)} {done headers : Headers}
    (hdone : (done.map Prod.fst).Nodup) :
    readHeaders done lines = .ok headers ↔
      (∀ line ∈ lines, (header? line).isSome = true) ∧ (∀ line ∈ lines, line.length ≤ 2048) ∧
        ((done ++ lines.filterMap header?).map Prod.fst).Nodup ∧
        headers = done ++ lines.filterMap header? := by
  induction lines generalizing done with
  | nil =>
    rw [readHeaders, List.filterMap_nil, List.append_nil, Except.ok.injEq, eq_comm]
    simp [hdone]
  | cons line lines ih =>
    rw [readHeaders]
    cases hheader : header? line with
    | none =>
      refine iff_of_false (fun h => by cases h) ?_
      rintro ⟨hall, -⟩
      have := hall line List.mem_cons_self
      rw [hheader] at this
      cases this
    | some header =>
      simp only [List.filterMap_cons, hheader, List.forall_mem_cons, Option.isSome_some, true_and]
      have happend : done ++ header :: lines.filterMap header? =
          (done ++ [header]) ++ lines.filterMap header? := by
        rw [List.append_assoc]
        rfl
      split
      · rename_i hbad
        refine iff_of_false (fun h => by cases h) ?_
        rintro ⟨-, ⟨hlength, -⟩, hnodup, -⟩
        rcases hbad with hbad | hbad
        · omega
        · rw [isSome_get?] at hbad
          rw [List.map_append, List.map_cons, List.nodup_append] at hnodup
          exact hnodup.2.2 header.1 hbad header.1 List.mem_cons_self rfl
      · rename_i hgood
        rw [not_or, not_lt, isSome_get?] at hgood
        have hnodup : ((done ++ [header]).map Prod.fst).Nodup := by
          rw [List.map_append, List.map_singleton, List.nodup_append]
          refine ⟨hdone, List.nodup_singleton _, ?_⟩
          rintro name hname other hother rfl
          rw [List.mem_singleton] at hother
          exact hgood.2 (hother ▸ hname)
        rw [ih hnodup, happend]
        constructor
        · rintro ⟨hall, hlengths, hnodup', rfl⟩
          exact ⟨hall, ⟨hgood.1, hlengths⟩, hnodup', rfl⟩
        · rintro ⟨hall, ⟨-, hlengths⟩, hnodup', rfl⟩
          exact ⟨hall, hlengths, hnodup', rfl⟩

theorem nodup_nil_names : (([] : Headers).map Prod.fst).Nodup := List.nodup_nil

theorem readHeaders_error {lines : List (List Char)} {done : Headers} {e : HttpError}
    (h : readHeaders done lines = .error e) : e = .healthMalformed := by
  induction lines generalizing done with
  | nil => cases h
  | cons line lines ih =>
    rw [readHeaders] at h
    split at h
    · exact (Except.error.inj h).symm
    · split at h
      · exact (Except.error.inj h).symm
      · exact ih h

/-! ## Bodies -/

theorem assemble_ok (chunks : List (List UInt8)) :
    assemble chunks chunks.flatten.length = .ok chunks.flatten := by
  rw [assemble, if_neg (lt_irrefl _), Nat.sub_self, List.replicate_zero, List.append_nil]

theorem flatten_data (chunks : List Chunk) : (chunks.map Chunk.data).flatten = dataOf chunks := by
  rw [dataOf, List.flatMap_def]

theorem length_lt_chunkBytes (chunks : List Chunk) (last : Chunk) :
    chunks.length < (chunkBytes chunks last).length + 1 := by
  induction chunks with
  | nil => exact Nat.succ_pos _
  | cons chunk chunks ih =>
    rw [chunkBytes_cons, List.length_append, Chunk.bytes, List.length_append, List.length_cons,
      List.length_cons, List.length_cons]
    omega

/-- What the loop over a chunked body returns decides what is read. -/
theorem readChunked_of_chunks {chunks : List Chunk}
    (h : readChunks maximumBody ((Utf8.encode text).length + 1) (Utf8.encode text) [] 0 =
      .ok (chunks.map Chunk.data, (dataOf chunks).length)) :
    readChunked text maximumBody = match Utf8.decodeAll (dataOf chunks) with
      | some body => .ok body
      | none => .error .healthMalformed := by
  rw [← flatten_data] at h ⊢
  cases hdecode : Utf8.decodeAll (chunks.map Chunk.data).flatten with
  | none | some body => simp only [readChunked, h, bind, Except.bind, assemble_ok, hdecode]

theorem readChunked_chunks {chunks : List Chunk} {last : Chunk} (h : Chunked chunks last)
    (hbytes : Utf8.encode text = chunkBytes chunks last) (hdata : dataOf chunks = Utf8.encode body)
    (hbody : (Utf8.encode body).length ≤ maximumBody) :
    readChunked text maximumBody = .ok body := by
  have hfuel : chunks.length < (Utf8.encode text).length + 1 := by
    rw [hbytes]
    exact length_lt_chunkBytes chunks last
  have hloop : readChunks maximumBody ((Utf8.encode text).length + 1)
    (chunkBytes chunks last) [] 0 =
      .ok ([] ++ chunks.map Chunk.data, 0 + (dataOf chunks).length) := by
    refine readChunks_bytes h hfuel le_rfl ?_
    rw [hdata, Nat.zero_add]
    exact hbody
  rw [← hbytes, List.nil_append, Nat.zero_add] at hloop
  rw [readChunked_of_chunks hloop, hdata, Utf8.decodeAll_encode]

theorem exists_of_readChunked (h : readChunked text maximumBody = .ok body) :
    ∃ chunks last, Chunked chunks last ∧ Utf8.encode text = chunkBytes chunks last ∧
      dataOf chunks = Utf8.encode body := by
  cases hloop : readChunks maximumBody ((Utf8.encode text).length + 1) (Utf8.encode text) [] 0 with
  | error e =>
    simp only [readChunked, hloop] at h
    cases h
  | ok r =>
    obtain ⟨data, total⟩ := r
    obtain ⟨chunks, last, hchunked, hbytes, rfl, rfl⟩ := exists_chunks hloop
    rw [List.nil_append, Nat.zero_add] at hloop
    rw [readChunked_of_chunks hloop] at h
    refine ⟨chunks, last, hchunked, hbytes, ?_⟩
    split at h
    · rename_i decoded hdecoded
      cases h
      exact Utf8.decodeAll_eq_some.mp hdecoded
    · cases h

theorem readChunked_error {e : HttpError} (h : readChunked text maximumBody = .error e) :
    e = .healthMalformed := by
  cases hloop : readChunks maximumBody ((Utf8.encode text).length + 1) (Utf8.encode text) [] 0 with
  | error e' =>
    have herror := readChunks_error (Nat.lt_succ_self _) hloop
    simp only [readChunked, hloop] at h
    exact (Except.error.inj h).symm.trans herror
  | ok r =>
    obtain ⟨data, total⟩ := r
    obtain ⟨chunks, last, hchunked, hbytes, rfl, rfl⟩ := exists_chunks hloop
    rw [List.nil_append, Nat.zero_add] at hloop
    rw [readChunked_of_chunks hloop] at h
    split at h
    · cases h
    · exact (Except.error.inj h).symm

/-- The bytes of a chunked body say what its chunks are. -/
theorem chunkBytes_inj {chunks chunks' : List Chunk} {last last' : Chunk} (h : Chunked chunks last)
    (h' : Chunked chunks' last') (heq : chunkBytes chunks last = chunkBytes chunks' last') :
    chunks = chunks' ∧ last = last' := by
  -- two chunks at the front of the same bytes are one chunk
  have hone : ∀ {chunk chunk' : Chunk} {rest rest' : List UInt8}, chunk.Sized → chunk'.Sized →
      chunk.bytes ++ rest = chunk'.bytes ++ rest' → chunk = chunk' ∧ rest = rest' := by
    rintro ⟨marked, size, data⟩ ⟨marked', size', data'⟩ rest rest' hsized hsized' heq
    have hcut := cut_bytes hsized rest
    rw [heq, cut_bytes hsized' rest', Option.some.injEq, Prod.mk.injEq] at hcut
    obtain ⟨hline, hdata⟩ := hcut
    have hsize := congrArg decodeMarked hline
    rw [decodeMarked_line hsized, decodeMarked_line hsized'] at hsize
    simp only at hsize hdata
    subst hsize
    have hlength : data'.length = data.length := hsized'.size.symm.trans hsized.size
    obtain ⟨rfl, hrest⟩ := List.append_inj hdata hlength
    simp only [Chunk.line, List.append_cancel_right_eq] at hline
    have hmarked : marked' = marked := by
      cases marked <;> cases marked'
      · rfl
      · cases hline
      · cases hline
      · rfl
    subst hmarked
    simp only [List.cons.injEq, true_and] at hrest
    exact ⟨rfl, hrest.symm⟩
  induction chunks generalizing chunks' with
  | nil =>
    cases chunks' with
    | nil =>
      have hlast := hone h.lastSized h'.lastSized (congrArg (· ++ []) heq)
      exact ⟨rfl, hlast.1⟩
    | cons chunk' chunks' =>
      obtain ⟨hchunk, -⟩ := List.forall_mem_cons.mp h'.sized
      have hnil : last.bytes ++ [] = chunk'.bytes ++ chunkBytes chunks' last' := by
        rw [List.append_nil, ← chunkBytes_cons]
        exact heq
      obtain ⟨rfl, -⟩ := hone h.lastSized hchunk hnil
      exact absurd h.empty (h'.nonempty _ List.mem_cons_self)
  | cons chunk chunks ih =>
    obtain ⟨hchunk, hchunks⟩ := List.forall_mem_cons.mp h.sized
    cases chunks' with
    | nil =>
      have hnil : chunk.bytes ++ chunkBytes chunks last = last'.bytes ++ [] := by
        rw [List.append_nil, ← chunkBytes_cons]
        exact heq
      obtain ⟨rfl, -⟩ := hone hchunk h'.lastSized hnil
      exact absurd h'.empty (h.nonempty _ List.mem_cons_self)
    | cons chunk' chunks' =>
      obtain ⟨hchunk', hchunks'⟩ := List.forall_mem_cons.mp h'.sized
      rw [chunkBytes_cons, chunkBytes_cons] at heq
      obtain ⟨rfl, hrest⟩ := hone hchunk hchunk' heq
      obtain ⟨rfl, rfl⟩ :=
        ih ⟨hchunks, (List.forall_mem_cons.mp h.nonempty).2, h.lastSized, h.empty⟩
        ⟨hchunks', (List.forall_mem_cons.mp h'.nonempty).2, h'.lastSized, h'.empty⟩ hrest
      exact ⟨rfl, rfl⟩

theorem isLength_toDigits {n : ℕ} (h : n < 100000) : isLength (Nat.toDigits 10 n) = true := by
  have hnumeral : isNumeral (Nat.toDigits 10 n) = true := by
    rcases Nat.eq_zero_or_pos n with rfl | hpos
    · rfl
    · rw [isNumeral, isPositiveNumeral_toDigits hpos, Bool.or_true]
  rw [isLength, hnumeral, Bool.true_and, decide_eq_true_eq]
  exact (Nat.length_toDigits_le_iff (by decide) (by decide)).mpr h

/-- The body of a framed response is read back. -/
theorem readBody_framed {after : List Char} (h : r.Framed)
    (hpayload : r.payload = Utf8.encode after)
    (hbody : (Utf8.encode r.body).length ≤ maximumBody)
    (hlength : (Utf8.encode r.body).length < 100000) :
    readBody r.headers after maximumBody = .ok r.body := by
  obtain ⟨status, lines, body, framing⟩ := r
  cases framing with
  | endOfStream =>
    obtain ⟨htransfer, hcontent⟩ := h
    obtain rfl := Utf8.encode_injective hpayload
    simp only [readBody, htransfer, hcontent]
  | contentLength =>
    obtain ⟨htransfer, hcontent⟩ := h
    obtain rfl := Utf8.encode_injective hpayload
    simp only [readBody, htransfer, hcontent]
    rw [if_pos]
    rw [decimal_toDigits]
    exact ⟨isLength_toDigits hlength, hbody, rfl⟩
  | chunked chunks last =>
    obtain ⟨⟨transfer, htransfer, hlower⟩, hcontent, hchunked, hdata⟩ := h
    simp only [readBody, htransfer, hcontent, hlower, if_true]
    exact readChunked_chunks hchunked hpayload.symm hdata hbody

/-- What is read was framed by the headers. -/
theorem exists_framing {headers : Headers} {after : List Char}
    (h : readBody headers after maximumBody = .ok body) :
    ∃ framing, ∀ status lines, headers = lines.filterMap header? →
      (Response.mk status lines body framing).Framed ∧
        (Response.mk status lines body framing).payload = Utf8.encode after := by
  unfold readBody at h
  split at h
  · rename_i transfer htransfer hcontent
    split at h
    · rename_i hlower
      obtain ⟨chunks, last, hchunked, hbytes, hdata⟩ := exists_of_readChunked h
      refine ⟨.chunked chunks last, ?_⟩
      rintro status lines rfl
      exact ⟨⟨⟨transfer, htransfer, hlower⟩, hcontent, hchunked, hdata⟩, hbytes.symm⟩
    · cases h
  · cases h
  · rename_i length htransfer hcontent
    split at h
    · rename_i hlength
      cases h
      refine ⟨.contentLength, ?_⟩
      rintro status lines rfl
      refine ⟨⟨htransfer, ?_⟩, rfl⟩
      have hnumeral : isNumeral length = true := by
        have := hlength.1
        rw [isLength, Bool.and_eq_true] at this
        exact this.1
      change Headers.get? (lines.filterMap header?) contentLength = _
      rw [hcontent, ← hlength.2.2, isNumeral_toDigits_decimal hnumeral]
    · cases h
  · rename_i htransfer hcontent
    cases h
    refine ⟨.endOfStream, ?_⟩
    rintro status lines rfl
    exact ⟨⟨htransfer, hcontent⟩, rfl⟩

theorem readBody_error {headers : Headers} {after : List Char} {e : HttpError}
    (h : readBody headers after maximumBody = .error e) : e = .healthMalformed := by
  unfold readBody at h
  split at h
  · split at h
    · exact readChunked_error h
    · exact (Except.error.inj h).symm
  · exact (Except.error.inj h).symm
  · split at h
    · cases h
    · exact (Except.error.inj h).symm
  · cases h

/-! ## The parser -/

/-- The parser returns the body of a response. -/
theorem parseHttp_response (h : r.Acceptable maximumBody acceptedStatuses)
    (hbytes : r.bytes = Utf8.encode text) (hlength : (Utf8.encode r.body).length < 100000) :
    parseHttp text maximumBody acceptedStatuses = .ok r.body := by
  obtain ⟨after, rfl, hpayload⟩ := Utf8.exists_of_encode_append hbytes.symm
  obtain ⟨code, hcode, hstatus⟩ := h.status
  have hfields : (r.status :: r.lines).all (·.all isFieldChar) = true := by
    rw [List.all_eq_true]
    exact fun line hline => List.all_eq_true.mpr (h.lines.fields line hline)
  have hheaders : readHeaders [] r.lines = .ok r.headers :=
    (readHeaders_eq_ok nodup_nil_names).mpr ⟨h.lines.header, h.short, h.distinct, rfl⟩
  have hencoding : (r.headers.get? contentEncoding).any
      (fun value => decide (lowerCase value ≠ identity)) = false := by
    cases hvalue : r.headers.get? contentEncoding with
    | none => rfl
    | some value => simp [h.encoding value hvalue]
  have hbody := readBody_framed h.framed hpayload h.body hlength
  have hcount : ¬ (code ∉ acceptedStatuses ∨ 64 < r.lines.length) := by
    rw [not_or, not_not, not_lt]
    exact ⟨hcode, h.count⟩
  simp only [parseHttp, h.lines.cut_head, if_neg h.head.not_gt, h.lines.split_head,
    hfields, not_true_eq_false, if_false, hstatus, if_neg hcount, hheaders, bind, Except.bind,
    hencoding,
      Bool.false_eq_true, hbody, if_neg h.body.not_gt]

/-- What the parser accepts is a response. -/
theorem exists_response (h : parseHttp text maximumBody acceptedStatuses = .ok body) :
    ∃ r : Response, r.Acceptable maximumBody acceptedStatuses ∧ r.bytes = Utf8.encode text ∧
      r.body = body := by
  unfold parseHttp at h
  split at h
  · cases h
  · rename_i head after hcut
    split at h
    · cases h
    · rename_i hhead
      split at h
      · cases h
      · rename_i status lines hsplit
        split at h
        · cases h
        · rename_i hfields
          rw [not_not, List.all_eq_true] at hfields
          split at h
          · cases h
          · rename_i code hstatus
            split at h
            · cases h
            · rename_i hcount
              rw [not_or, not_not, not_lt] at hcount
              cases hheaders : readHeaders [] lines with
              | error e =>
                simp only [hheaders] at h
                cases h
              | ok headers =>
                obtain ⟨hall, hshort, hdistinct, rfl⟩ :=
                  (readHeaders_eq_ok nodup_nil_names).mp hheaders
                simp only [hheaders, bind, Except.bind] at h
                split at h
                · cases h
                · rename_i hencoding
                  rw [List.nil_append] at h hdistinct hencoding
                  cases hbody : readBody (lines.filterMap header?) after maximumBody with
                  | error e =>
                    simp only [hbody] at h
                    cases h
                  | ok body' =>
                    simp only [hbody] at h
                    split at h
                    · cases h
                    · rename_i hlength
                      cases h
                      obtain ⟨framing, hframing⟩ := exists_framing hbody
                      obtain ⟨hframed, hpayload⟩ := hframing status lines rfl
                      have hjoin : joinPair '\r' '\n' (status :: lines) = head := by
                        rw [← hsplit]
                        exact joinPair_splitPair head
                      refine ⟨⟨status, lines, body, framing⟩,
                        ⟨⟨?_, hall, ?_⟩, ⟨code, hcount.1, hstatus⟩, hcount.2, hshort, hdistinct, ?_,
                        ?_, hframed, not_lt.mp hlength⟩, ?_, rfl⟩
                      · rw [hstatus]
                        rfl
                      · exact fun line hline => List.all_eq_true.mp (hfields line hline)
                      · rw [Response.head, hjoin]
                        exact not_lt.mp hhead
                      · intro value hvalue
                        have hvalue' : Headers.get? (lines.filterMap header?) contentEncoding =
                          some value :=
                          hvalue
                        rw [hvalue'] at hencoding
                        simpa using hencoding
                      · rw [Response.bytes, hpayload, Response.head, hjoin, cut_eq_some hcut,
                          ← Utf8.encode_append]

/-- The parser fails in one way only. -/
theorem parseHttp_error {e : HttpError}
    (h : parseHttp text maximumBody acceptedStatuses = .error e) :
    e = .healthMalformed := by
  have hmalformed : ∀ {e : HttpError},
    (.error .healthMalformed : Except HttpError (List Char)) = .error e →
      e = .healthMalformed := fun h => (Except.error.inj h).symm
  unfold parseHttp at h
  split at h
  · exact hmalformed h
  · split at h
    · exact hmalformed h
    · split at h
      · exact hmalformed h
      · rename_i status lines _
        split at h
        · exact hmalformed h
        · split at h
          · exact hmalformed h
          · split at h
            · exact hmalformed h
            · cases hheaders : readHeaders [] lines with
              | error e' =>
                simp only [hheaders] at h
                exact (Except.error.inj h).symm.trans (readHeaders_error hheaders)
              | ok headers =>
                simp only [hheaders, bind, Except.bind] at h
                split at h
                · exact hmalformed h
                · split at h
                  · rename_i e' hbody
                    exact (Except.error.inj h).symm.trans (readBody_error hbody)
                  · split at h
                    · exact hmalformed h
                    · cases h

/-- The bytes of a response say what it is. -/
theorem eq_of_bytes (h : r.Acceptable maximumBody acceptedStatuses)
    (h' : r'.Acceptable maximumBody acceptedStatuses) (hbytes : r.bytes = Utf8.encode text)
    (hbytes' : r'.bytes = Utf8.encode text) : r = r' := by
  obtain ⟨after, rfl, hpayload⟩ := Utf8.exists_of_encode_append hbytes.symm
  obtain ⟨after', htext, hpayload'⟩ := Utf8.exists_of_encode_append hbytes'.symm
  have hcut := h.lines.cut_head after
  rw [htext, h'.lines.cut_head, Option.some.injEq, Prod.mk.injEq] at hcut
  obtain ⟨hhead, rfl⟩ := hcut
  have hsplit := h.lines.split_head
  rw [← hhead, h'.lines.split_head, List.cons.injEq] at hsplit
  obtain ⟨status, lines, body, framing⟩ := r
  obtain ⟨status', lines', body', framing'⟩ := r'
  obtain ⟨rfl, rfl⟩ : status' = status ∧ lines' = lines := hsplit
  have hpayloads : (Response.mk status' lines' body framing).payload =
      (Response.mk status' lines' body' framing').payload := hpayload.trans hpayload'.symm
  have hframed := h.framed
  have hframed' := h'.framed
  cases framing with
  | endOfStream =>
    cases framing' with
    | endOfStream =>
      obtain rfl := Utf8.encode_injective hpayloads
      rfl
    | contentLength =>
      have hnone : Headers.get? (lines'.filterMap header?) contentLength = none := hframed.2
      have hsome : Headers.get? (lines'.filterMap header?) contentLength = some _ := hframed'.2
      cases hnone.symm.trans hsome
    | chunked chunks' last' =>
      have hnone : Headers.get? (lines'.filterMap header?) transferEncoding = none := hframed.1
      obtain ⟨⟨transfer, hsome, -⟩, -⟩ := hframed'
      cases hnone.symm.trans hsome
  | contentLength =>
    cases framing' with
    | endOfStream =>
      have hnone : Headers.get? (lines'.filterMap header?) contentLength = none := hframed'.2
      have hsome : Headers.get? (lines'.filterMap header?) contentLength = some _ := hframed.2
      cases hnone.symm.trans hsome
    | contentLength =>
      obtain rfl := Utf8.encode_injective hpayloads
      rfl
    | chunked chunks' last' =>
      have hnone : Headers.get? (lines'.filterMap header?) transferEncoding = none := hframed.1
      obtain ⟨⟨transfer, hsome, -⟩, -⟩ := hframed'
      cases hnone.symm.trans hsome
  | chunked chunks last =>
    cases framing' with
    | endOfStream | contentLength =>
      have hnone : Headers.get? (lines'.filterMap header?) transferEncoding = none := hframed'.1
      obtain ⟨⟨transfer, hsome, -⟩, -⟩ := hframed
      cases hnone.symm.trans hsome
    | chunked chunks' last' =>
      obtain ⟨-, -, hchunked, hdata⟩ := hframed
      obtain ⟨-, -, hchunked', hdata'⟩ := hframed'
      obtain ⟨rfl, rfl⟩ := chunkBytes_inj hchunked hchunked' hpayloads
      obtain rfl := Utf8.encode_injective (hdata.symm.trans hdata')
      rfl

end PanelAssistant.Http
