import PanelAssistant.Usb.Http

/-!
# Framings of a body

What a response consists of: its status line and header lines, and its body as it is, with its
length, or in chunks with the digits of their sizes. The loop over chunks takes the framing off
(`readChunks_bytes`), accepts nothing else (`exists_chunks`), and ends (`readChunks_error`). A
response is UTF-8 as a whole if and only if each chunk is on its own (`whole_iff`).
-/

namespace PanelAssistant.Http

open Library Library.Text Library.Cut

/-! ## Chunks -/

/-- A byte order mark. -/
def mark : List UInt8 := [0xEF, 0xBB, 0xBF]

/-- The digits of a size, behind a byte order mark or not, and the data. -/
structure Chunk where
  marked : Bool
  size : List Char
  data : List UInt8

/-- The line of the size. -/
def Chunk.line (chunk : Chunk) : List UInt8 :=
  (if chunk.marked then mark else []) ++ Utf8.encode chunk.size

def Chunk.bytes (chunk : Chunk) : List UInt8 := chunk.line ++ 13 :: 10 :: (chunk.data ++ [13, 10])

/-- The line of the size says how much data there is. -/
structure Chunk.Sized (chunk : Chunk) : Prop where
  nonempty : chunk.size ≠ []
  digits : ∀ c ∈ chunk.size, isHexDigit c = true
  length : chunk.line.length ≤ 8
  size : parseHex chunk.size = chunk.data.length

theorem toNat_of_isHexDigit {c : Char} (h : isHexDigit c = true) :
    48 ≤ c.toNat ∧ c.toNat ≤ 102 := by
  unfold isHexDigit JsonTree.hexValue? at h
  split at h
  · rename_i hdigit
    have hdigit := isDigit_iff.mp hdigit
    omega
  · split at h
    · rename_i hlower
      have hlow : 'a'.toNat ≤ c.toNat := hlower.1
      have hhigh : c.toNat ≤ 'f'.toNat := hlower.2
      exact ⟨le_trans (by decide) hlow, hhigh⟩
    · split at h
      · rename_i hupper
        have hlow : 'A'.toNat ≤ c.toNat := hupper.1
        have hhigh : c.toNat ≤ 'F'.toNat := hupper.2
        exact ⟨le_trans (by decide) hlow, hhigh.trans (by decide)⟩
      · cases h

theorem mark_eq : mark = Utf8.encode ['\uFEFF'] := by decide

variable {chunk last : Chunk} {chunks : List Chunk} {maximumBody : ℕ}

/-- The line of a size as a text. -/
def Chunk.lineText (chunk : Chunk) : List Char :=
  (if chunk.marked then ['\uFEFF'] else []) ++ chunk.size

theorem line_eq (chunk : Chunk) : chunk.line = Utf8.encode chunk.lineText := by
  rw [Chunk.line, Chunk.lineText, Utf8.encode_append]
  cases chunk.marked with
  | false => rfl
  | true =>
    simp only [if_true]
    rw [mark_eq]

theorem not_mem_line (h : chunk.Sized) : 13 ∉ chunk.line := by
  have hsize : 13 ∉ Utf8.encode chunk.size := by
    rw [Utf8.encode_ascii fun c hc => (toNat_of_isHexDigit (h.digits c hc)).2.trans (by decide),
      List.mem_map]
    rintro ⟨c, hc, heq⟩
    have hbounds := toNat_of_isHexDigit (h.digits c hc)
    have hbyte := congrArg UInt8.toNat heq
    rw [Utf8.toNat_ofNat_lt (by omega)] at hbyte
    have : (13 : UInt8).toNat = 13 := rfl
    omega
  rw [Chunk.line, List.mem_append, not_or]
  refine ⟨?_, hsize⟩
  split
  · decide
  · exact List.not_mem_nil

theorem decodeMarked_line (h : chunk.Sized) : decodeMarked chunk.line = chunk.size := by
  rw [decodeMarked, line_eq, Utf8.lossy_encode, Chunk.lineText]
  cases chunk.marked with
  | true => rfl
  | false =>
    simp only [Bool.false_eq_true, if_false, List.nil_append]
    split
    · rename_i text heq
      have hc : '\uFEFF' ∈ chunk.size := by
        rw [heq]
        exact List.mem_cons_self
      exact absurd (h.digits _ hc) (by decide)
    · rfl

/-- What a decoded size line was. -/
theorem exists_marked {line : List UInt8} (h : ∀ c ∈ decodeMarked line, isHexDigit c = true) :
    ∃ marked : Bool, line = (if marked then mark else []) ++ Utf8.encode (decodeMarked line) := by
  have hlossy : ∀ text, decodeMarked line = text → (Utf8.lossy .start line = text ∨
      Utf8.lossy .start line = '\uFEFF' :: text) := by
    rintro _ rfl
    unfold decodeMarked
    split
    · rename_i text heq
      exact .inr heq
    · exact .inl rfl
  have hmem : Utf8.replacement ∉ decodeMarked line := fun hc => absurd (h _ hc) (by decide)
  rcases hlossy _ rfl with heq | heq
  · refine ⟨false, ?_⟩
    rw [← heq]
    refine Utf8.eq_encode_of_lossy ?_
    rw [heq]
    exact hmem
  · refine ⟨true, ?_⟩
    have hline : line = Utf8.encode (Utf8.lossy .start line) := by
      refine Utf8.eq_encode_of_lossy ?_
      rw [heq, List.mem_cons, not_or]
      exact ⟨by decide, hmem⟩
    simp only [if_true]
    rw [mark_eq, ← Utf8.encode_append, List.singleton_append, ← heq]
    exact hline

theorem cut_bytes (h : chunk.Sized) (rest : List UInt8) :
    cut [13, 10] (chunk.bytes ++ rest) = some (chunk.line, chunk.data ++ 13 :: 10 :: rest) := by
  have hbytes : chunk.bytes ++ rest = chunk.line ++
    ([13, 10] ++ (chunk.data ++ 13 :: 10 :: rest)) := by
    simp [Chunk.bytes]
  rw [hbytes, cut_append (not_mem_line h), cut_self _ _ (List.cons_ne_nil _ _)]
  simp

/-! ## The loop -/

/-- The chunks of a body and the one that ends it. -/
structure Chunked (chunks : List Chunk) (last : Chunk) : Prop where
  sized : ∀ chunk ∈ chunks, chunk.Sized
  nonempty : ∀ chunk ∈ chunks, chunk.data ≠ []
  lastSized : last.Sized
  empty : last.data = []

def dataOf (chunks : List Chunk) : List UInt8 := chunks.flatMap Chunk.data

def chunkBytes (chunks : List Chunk) (last : Chunk) : List UInt8 :=
  chunks.flatMap Chunk.bytes ++ last.bytes

theorem chunkBytes_cons (chunk : Chunk) (chunks : List Chunk) (last : Chunk) :
    chunkBytes (chunk :: chunks) last = chunk.bytes ++ chunkBytes chunks last := by
  rw [chunkBytes, List.flatMap_cons, List.append_assoc]
  rfl

theorem getElem?_data_end (data rest : List UInt8) :
    (data ++ 13 :: 10 :: rest)[data.length]? = some 13 ∧
      (data ++ 13 :: 10 :: rest)[data.length + 1]? = some 10 := by
  constructor
  · rw [List.getElem?_append_right le_rfl]
    simp
  · rw [List.getElem?_append_right (Nat.le_succ _)]
    simp

/-- The loop takes the framing off. -/
theorem readChunks_bytes (h : Chunked chunks last) {fuel : ℕ} (hfuel : chunks.length < fuel)
    {done : List (List UInt8)} {total : ℕ} (hdone : done.length ≤ total)
    (htotal : total + (dataOf chunks).length ≤ maximumBody) :
    readChunks maximumBody fuel (chunkBytes chunks last) done total =
      .ok (done ++ chunks.map Chunk.data, total + (dataOf chunks).length) := by
  induction chunks generalizing fuel done total with
  | nil =>
    obtain ⟨fuel, rfl⟩ := Nat.exists_eq_succ_of_ne_zero (Nat.ne_of_gt hfuel)
    have hlast := h.lastSized
    have hcut := cut_bytes hlast []
    rw [List.append_nil, h.empty, List.nil_append] at hcut
    have hline : 1 ≤ last.line.length := by
      have hpos := List.length_pos_iff.mpr hlast.nonempty
      rw [Chunk.line, List.length_append, Utf8.encode_ascii fun c hc =>
        (toNat_of_isHexDigit (hlast.digits c hc)).2.trans (by decide), List.length_map]
      omega
    have hsize : parseHex last.size = 0 := by rw [hlast.size, h.empty]; rfl
    have hguard : ¬ (last.line.length < 1 ∨ 8 < last.line.length ∨
        ¬ (last.size ≠ [] ∧ last.size.all isHexDigit) ∨ maximumBody < done.length) := by
      have hlength := hlast.length
      simp only [dataOf, List.flatMap_nil, List.length_nil] at htotal
      rintro (h1 | h1 | h1 | h1)
      · omega
      · omega
      · exact h1 ⟨hlast.nonempty, List.all_eq_true.mpr hlast.digits⟩
      · omega
    have hbytes : chunkBytes [] last = last.bytes := rfl
    rw [readChunks, hbytes, hcut]
    simp only [decodeMarked_line hlast, if_neg hguard, hsize, if_true]
    simp [dataOf]
  | cons chunk chunks ih =>
    obtain ⟨fuel, rfl⟩ := Nat.exists_eq_succ_of_ne_zero (Nat.ne_zero_of_lt hfuel)
    obtain ⟨hchunk, hchunks⟩ := List.forall_mem_cons.mp h.sized
    obtain ⟨hdata, hdatas⟩ := List.forall_mem_cons.mp h.nonempty
    have hpos := List.length_pos_iff.mpr hdata
    have hsum : (dataOf (chunk :: chunks)).length = chunk.data.length + (dataOf chunks).length := by
      rw [dataOf, List.flatMap_cons, List.length_append]
      rfl
    have hline : 1 ≤ chunk.line.length := by
      have hpos := List.length_pos_iff.mpr hchunk.nonempty
      rw [Chunk.line, List.length_append, Utf8.encode_ascii fun c hc =>
        (toNat_of_isHexDigit (hchunk.digits c hc)).2.trans (by decide), List.length_map]
      omega
    have hguard : ¬ (chunk.line.length < 1 ∨ 8 < chunk.line.length ∨
        ¬ (chunk.size ≠ [] ∧ chunk.size.all isHexDigit) ∨ maximumBody < done.length) := by
      have hlength := hchunk.length
      rintro (h1 | h1 | h1 | h1)
      · omega
      · omega
      · exact h1 ⟨hchunk.nonempty, List.all_eq_true.mpr hchunk.digits⟩
      · omega
    obtain ⟨hreturn, hnewline⟩ := getElem?_data_end chunk.data (chunkBytes chunks last)
    have hbounds : ¬ (maximumBody < chunk.data.length ∨ maximumBody < total + chunk.data.length ∨
        (chunk.data ++ 13 :: 10 :: chunkBytes chunks last).length < chunk.data.length + 2 ∨
        (chunk.data ++ 13 :: 10 :: chunkBytes chunks last)[chunk.data.length]? ≠ some 13 ∨
        (chunk.data ++ 13 :: 10 :: chunkBytes chunks last)[chunk.data.length + 1]? ≠ some 10) := by
      rw [hreturn, hnewline, List.length_append, List.length_cons, List.length_cons]
      rintro (h1 | h1 | h1 | h1 | h1)
      · omega
      · omega
      · omega
      · exact h1 rfl
      · exact h1 rfl
    have hdrop : (chunk.data ++ 13 :: 10 :: chunkBytes chunks last).drop (chunk.data.length + 2) =
        chunkBytes chunks last := by
      rw [← List.drop_drop, List.drop_left]
      rfl
    have hfuel' : chunks.length < fuel := Nat.lt_of_succ_lt_succ hfuel
    have hdone' : (done ++ [chunk.data]).length ≤ total + chunk.data.length := by
      rw [List.length_append, List.length_singleton]
      omega
    have hrest := ih ⟨hchunks, hdatas, h.lastSized, h.empty⟩ hfuel' hdone' (by omega)
    rw [readChunks, chunkBytes_cons, cut_bytes hchunk]
    simp only [decodeMarked_line hchunk, if_neg hguard, hchunk.size,
      if_neg hpos.ne', if_neg hbounds, hdrop, List.take_left, hrest]
    simp [hsum, Nat.add_assoc]

/-- The loop accepts a body in chunks and nothing else. -/
theorem exists_chunks {fuel : ℕ} {bytes : List UInt8} {done data : List (List UInt8)}
    {total total' : ℕ}
    (h : readChunks maximumBody fuel bytes done total = .ok (data, total')) :
    ∃ chunks last, Chunked chunks last ∧ bytes = chunkBytes chunks last ∧
      data = done ++ chunks.map Chunk.data ∧ total' = total + (dataOf chunks).length := by
  induction fuel generalizing bytes done total with
  | zero => cases h
  | succ fuel ih =>
    rw [readChunks] at h
    split at h
    · cases h
    · rename_i line rest hcut
      simp only at h
      split at h
      · cases h
      · rename_i hguard
        simp only [not_or, not_not, List.all_eq_true] at hguard
        obtain ⟨-, hlength, ⟨hnonempty, hdigits⟩, -⟩ := hguard
        obtain ⟨marked, hline⟩ := exists_marked hdigits
        have hbytes := cut_eq_some hcut
        split at h
        · rename_i hzero
          split at h
          · rename_i hrest
            cases h
            have hsized : Chunk.Sized ⟨marked, decodeMarked line, []⟩ := by
              refine ⟨hnonempty, hdigits, ?_, hzero⟩
              rw [Chunk.line, ← hline]
              omega
            refine ⟨[], ⟨marked, decodeMarked line, []⟩, ⟨?_, ?_, hsized, rfl⟩,
              ?_, by simp, by simp [dataOf]⟩
            · exact List.forall_mem_nil _
            · exact List.forall_mem_nil _
            · rw [hbytes, hrest, chunkBytes, List.flatMap_nil, List.nil_append,
                Chunk.bytes, Chunk.line, ← hline]
              simp
          · cases h
        · rename_i hzero
          split at h
          · cases h
          · rename_i hbounds
            simp only [not_or, not_lt, not_not] at hbounds
            obtain ⟨-, -, hlong, hreturn, hnewline⟩ := hbounds
            obtain ⟨chunks, last, hchunked, hrest, rfl, rfl⟩ := ih h
            have hsplit : rest = rest.take (parseHex (decodeMarked line)) ++
                13 :: 10 :: rest.drop (parseHex (decodeMarked line) + 2) := by
              obtain ⟨hlt, hreturn⟩ := List.getElem?_eq_some_iff.mp hreturn
              obtain ⟨hlt', hnewline⟩ := List.getElem?_eq_some_iff.mp hnewline
              conv_lhs => rw [← List.take_append_drop (parseHex (decodeMarked line)) rest]
              rw [List.drop_eq_getElem_cons hlt, List.drop_eq_getElem_cons hlt', hreturn, hnewline]
            have hdata : (rest.take (parseHex (decodeMarked line))).length =
                parseHex (decodeMarked line) := by
              rw [List.length_take]
              omega
            refine ⟨⟨marked, decodeMarked line, rest.take (parseHex (decodeMarked line))⟩ :: chunks,
              last, ⟨?_, ?_, hchunked.lastSized, hchunked.empty⟩, ?_, ?_, ?_⟩
            · refine List.forall_mem_cons.mpr ⟨⟨hnonempty, hdigits, ?_, hdata.symm⟩, hchunked.sized⟩
              rw [Chunk.line, ← hline]
              omega
            · refine List.forall_mem_cons.mpr ⟨?_, hchunked.nonempty⟩
              intro hnil
              have hlength := congrArg List.length hnil
              exact hzero (hdata.symm.trans hlength)
            · rw [hbytes, chunkBytes_cons, ← hrest, Chunk.bytes, Chunk.line, ← hline]
              conv_lhs => rw [hsplit]
              simp
            · simp
            · rw [dataOf, dataOf, List.flatMap_cons, List.length_append, hdata, Nat.add_assoc]

/-- The loop ends, and fails in one way only. -/
theorem readChunks_error {fuel : ℕ} {bytes : List UInt8} {done : List (List UInt8)} {total : ℕ}
    {e : HttpError} (hfuel : bytes.length < fuel)
    (h : readChunks maximumBody fuel bytes done total = .error e) : e = .healthMalformed := by
  induction fuel generalizing bytes done total with
  | zero => cases hfuel
  | succ fuel ih =>
    rw [readChunks] at h
    split at h
    · exact (Except.error.inj h).symm
    · rename_i line rest hcut
      have hlength := congrArg List.length (cut_eq_some hcut)
      simp only [List.length_append, List.length_cons, List.length_nil] at hlength
      simp only at h
      split at h
      · exact (Except.error.inj h).symm
      · split at h
        · split at h
          · cases h
          · exact (Except.error.inj h).symm
        · split at h
          · exact (Except.error.inj h).symm
          · refine ih ?_ h
            rw [List.length_drop]
            omega

end PanelAssistant.Http
