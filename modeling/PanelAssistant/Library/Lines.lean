import Mathlib.Data.List.Basic
import Mathlib.Data.String.Basic
import Mathlib.Algebra.GroupWithZero.Nat
import Mathlib.Algebra.Order.BigOperators.Group.List

/-!
# Texts of lines

The lines of a text, with every character that ends a line in Unicode, and the text that
terminates each line of a list. A list of lines without such characters comes back from its text
(`splitLines_terminate`), and the lines of a terminated text take no more bytes terminated again
than the text does (`bytes_terminate_splitLines`), since no line ending is shorter than `'\n'`.
-/

namespace Library.Lines

/-- The characters that end a line. -/
def isBreak (c : Char) : Bool :=
  [0x0A, 0x0B, 0x0C, 0x0D, 0x1C, 0x1D, 0x1E, 0x85, 0x2028, 0x2029].contains c.toNat

/-- A text that is one line. -/
def Unbroken (cs : List Char) : Prop := ∀ c ∈ cs, isBreak c = false

/-- `str.splitlines` -/
def splitLines : List Char → List (List Char)
  | [] => []
  | '\r' :: '\n' :: cs => [] :: splitLines cs
  | c :: cs =>
    if isBreak c then [] :: splitLines cs
    else match splitLines cs with
      | [] => [[c]]
      | line :: rest => (c :: line) :: rest

/-- `text.replace("\r\n", "\n")` -/
def dropReturns : List Char → List Char
  | [] => []
  | '\r' :: '\n' :: cs => '\n' :: dropReturns cs
  | c :: cs => c :: dropReturns cs

/-- Every line of a list, terminated. -/
def terminate (lines : List (List Char)) : List Char := lines.flatMap (· ++ ['\n'])

/-- The length of the encoding of a text. -/
def bytes (cs : List Char) : ℕ := (cs.map Char.utf8Size).sum

theorem unbroken_of_all {cs : List Char} (h : cs.all (fun c => !isBreak c) = true) :
    Unbroken cs := by
  intro c hc
  have hbreak := List.all_eq_true.mp h c hc
  rwa [Bool.not_eq_true'] at hbreak

theorem Unbroken.tail {c : Char} {cs : List Char} (h : Unbroken (c :: cs)) : Unbroken cs :=
  fun x hx => h x (List.mem_cons_of_mem c hx)

theorem Unbroken.append {cs cs' : List Char} (h : Unbroken cs) (h' : Unbroken cs') :
    Unbroken (cs ++ cs') := by
  intro c hc
  rcases List.mem_append.mp hc with hc | hc
  · exact h c hc
  · exact h' c hc

theorem bytes_append (cs cs' : List Char) : bytes (cs ++ cs') = bytes cs + bytes cs' := by
  rw [bytes, List.map_append, List.sum_append, bytes, bytes]

theorem bytes_cons (c : Char) (cs : List Char) : bytes (c :: cs) = c.utf8Size + bytes cs := by
  rw [bytes, List.map_cons, List.sum_cons, bytes]

theorem size_utf8Encode (cs : List Char) : cs.utf8Encode.size = bytes cs := by
  induction cs with
  | nil => rfl
  | cons c cs ih =>
    have hone : [c].utf8Encode.size = c.utf8Size := String.utf8ByteSize_singleton
    rw [List.utf8Encode_cons, ByteArray.size_append, hone, ih, bytes_cons]

theorem bytes_terminate (lines : List (List Char)) :
    bytes (terminate lines) = (lines.map fun line => bytes line + 1).sum := by
  induction lines with
  | nil => rfl
  | cons line lines ih =>
    rw [terminate, List.flatMap_cons, bytes_append, bytes_append, ← terminate, ih, List.map_cons,
      List.sum_cons]
    rfl

/-! ## One character at a time -/

theorem splitLines_cons {c : Char} (h : isBreak c = false) (cs : List Char) :
    splitLines (c :: cs) =
      match splitLines cs with
      | [] => [[c]]
      | line :: rest => (c :: line) :: rest := by
  rw [splitLines]
  · rw [h]
    rfl
  · rintro cs' rfl -
    cases h

theorem splitLines_newline (cs : List Char) : splitLines ('\n' :: cs) = [] :: splitLines cs := by
  rw [splitLines]
  · rfl
  · rintro cs' hc
    cases hc

/-- A line and its end come off the front. -/
theorem splitLines_line {line : List Char} (h : Unbroken line) (cs : List Char) :
    splitLines (line ++ '\n' :: cs) = line :: splitLines cs := by
  induction line with
  | nil => exact splitLines_newline cs
  | cons c line ih =>
    rw [List.cons_append, splitLines_cons (h c List.mem_cons_self), ih h.tail]

theorem splitLines_terminate {lines : List (List Char)} (h : ∀ line ∈ lines, Unbroken line) :
    splitLines (terminate lines) = lines := by
  induction lines with
  | nil => rfl
  | cons line lines ih =>
    rw [terminate, List.flatMap_cons, List.append_assoc, List.singleton_append,
      splitLines_line (h line List.mem_cons_self), ← terminate,
      ih fun l hl => h l (List.mem_cons_of_mem line hl)]

/-! ## The lines of a text -/

theorem unbroken_nil : Unbroken [] := by
  intro c hc
  cases hc

theorem unbroken_of_mem_splitLines {cs : List Char} :
    ∀ line ∈ splitLines cs, Unbroken line := by
  induction cs using splitLines.induct with
  | case1 =>
    intro line hline
    cases hline
  | case2 cs ih =>
    rw [splitLines]
    exact List.forall_mem_cons.mpr ⟨unbroken_nil, ih⟩
  | case3 c cs hc hbreak ih =>
    rw [splitLines, if_pos hbreak]
    · exact List.forall_mem_cons.mpr ⟨unbroken_nil, ih⟩
    · exact hc
  | case4 c cs hc hbreak hnone ih =>
    rw [splitLines_cons (eq_false_of_ne_true hbreak), hnone]
    refine List.forall_mem_singleton.mpr ?_
    intro x hx
    rw [List.mem_singleton.mp hx]
    exact eq_false_of_ne_true hbreak
  | case5 c cs hc hbreak line rest hsome ih =>
    rw [splitLines_cons (eq_false_of_ne_true hbreak), hsome]
    rw [hsome, List.forall_mem_cons] at ih
    refine List.forall_mem_cons.mpr ⟨?_, ih.2⟩
    exact List.forall_mem_cons.mpr ⟨eq_false_of_ne_true hbreak, ih.1⟩

/-- A text whose last line is terminated. -/
def Terminated (cs : List Char) : Prop := ∀ c ∈ cs.getLast?, isBreak c = true

theorem Terminated.tail {c : Char} {cs : List Char} (h : Terminated (c :: cs)) : Terminated cs := by
  intro x hx
  refine h x ?_
  cases cs with
  | nil => cases hx
  | cons d cs => exact hx

theorem splitLines_ne_nil {cs : List Char} (h : cs ≠ []) : splitLines cs ≠ [] := by
  fun_cases splitLines cs with
  | case1 => exact absurd rfl h
  | case2 cs => exact List.cons_ne_nil _ _
  | case3 c cs hc hbreak => exact List.cons_ne_nil _ _
  | case4 c cs hc hbreak hnone => exact List.cons_ne_nil _ _
  | case5 c cs hc hbreak line rest hsome => exact List.cons_ne_nil _ _

/-- No line ending is shorter than the one `terminate` writes. -/
theorem bytes_terminate_splitLines {cs : List Char} (h : Terminated cs) :
    bytes (terminate (splitLines cs)) ≤ bytes cs := by
  rw [bytes_terminate]
  induction cs using splitLines.induct with
  | case1 => exact Nat.zero_le _
  | case2 cs ih =>
    have hcs := ih h.tail.tail
    have h₁ := Char.utf8Size_pos '\r'
    have h₂ := Char.utf8Size_pos '\n'
    rw [splitLines, List.map_cons, List.sum_cons, bytes_cons, bytes_cons]
    change 0 + 1 + _ ≤ _
    omega
  | case3 c cs hc hbreak ih =>
    have hcs := ih h.tail
    have hpos := c.utf8Size_pos
    rw [splitLines, if_pos hbreak, List.map_cons, List.sum_cons, bytes_cons]
    · change 0 + 1 + _ ≤ _
      omega
    · exact hc
  | case4 c cs hc hbreak hnone ih =>
    cases cs with
    | nil => exact absurd (h c rfl) hbreak
    | cons d cs => exact absurd hnone (splitLines_ne_nil (List.cons_ne_nil d cs))
  | case5 c cs hc hbreak line rest hsome ih =>
    have hcs := ih h.tail
    rw [hsome, List.map_cons, List.sum_cons] at hcs
    rw [splitLines_cons (eq_false_of_ne_true hbreak), hsome, List.map_cons,
      List.sum_cons, bytes_cons, bytes_cons]
    omega

/-! ## Carriage returns -/

theorem dropReturns_of_not_mem {cs : List Char} (h : '\r' ∉ cs) : dropReturns cs = cs := by
  induction cs using dropReturns.induct with
  | case1 => rfl
  | case2 cs ih => exact absurd List.mem_cons_self h
  | case3 c cs hc ih =>
    rw [dropReturns, ih fun hmem => h (List.mem_cons_of_mem c hmem)]
    exact hc

theorem bytes_dropReturns_le (cs : List Char) : bytes (dropReturns cs) ≤ bytes cs := by
  induction cs using dropReturns.induct with
  | case1 => exact le_rfl
  | case2 cs ih =>
    rw [dropReturns, bytes_cons, bytes_cons, bytes_cons]
    omega
  | case3 c cs hc ih =>
    rw [dropReturns, bytes_cons, bytes_cons]
    · omega
    · exact hc

/-! ## Texts one behind the other -/

/-- The lines behind an unfinished one. -/
def glue (tail : List Char) : List (List Char) → List (List Char)
  | [] => if tail = [] then [] else [tail]
  | line :: rest => (tail ++ line) :: rest

theorem glue_nil (lines : List (List Char)) : glue [] lines = lines := by
  cases lines <;> rfl

theorem glue_glue (c : Char) (tail : List Char) (lines : List (List Char)) :
    glue [c] (glue tail lines) = glue (c :: tail) lines := by
  cases lines with
  | cons line rest => rfl
  | nil =>
    unfold glue
    by_cases htail : tail = []
    · rw [if_pos htail, htail]
    · rw [if_neg htail]
      rfl

theorem splitLines_cons_glue {c : Char} (h : isBreak c = false) (cs : List Char) :
    splitLines (c :: cs) = glue [c] (splitLines cs) := by
  rw [splitLines_cons h]
  cases splitLines cs <;> rfl

theorem splitLines_break {c : Char} (h : isBreak c = true) (hc : c ≠ '\r') (cs : List Char) :
    splitLines (c :: cs) = [] :: splitLines cs := by
  rw [splitLines, if_pos h]
  rintro cs' rfl
  exact absurd rfl hc

/-- What a text leaves to the one behind it. -/
theorem exists_splitLines_append {cs : List Char} (h : '\r' ∉ cs) :
    ∃ lines tail, ∀ cs', splitLines (cs ++ cs') = lines ++ glue tail (splitLines cs') := by
  induction cs with
  | nil => exact ⟨[], [], fun cs' => (glue_nil _).symm⟩
  | cons c cs ih =>
    rw [List.mem_cons, not_or] at h
    obtain ⟨lines, tail, hcs⟩ := ih h.2
    by_cases hbreak : isBreak c = true
    · refine ⟨[] :: lines, tail, fun cs' => ?_⟩
      rw [List.cons_append, splitLines_break hbreak (Ne.symm h.1), hcs, List.cons_append]
    · have hcons := fun cs' => splitLines_cons_glue (eq_false_of_ne_true hbreak) (cs ++ cs')
      cases lines with
      | nil =>
        refine ⟨[], c :: tail, fun cs' => ?_⟩
        rw [List.cons_append, hcons, hcs, List.nil_append, List.nil_append, glue_glue]
      | cons line lines =>
        refine ⟨(c :: line) :: lines, tail, fun cs' => ?_⟩
        rw [List.cons_append, hcons, hcs]
        rfl

/-- A text behind a line end has lines of its own. -/
theorem splitLines_append_newline {cs : List Char} (h : '\r' ∉ cs) (cs' : List Char) :
    splitLines (cs ++ '\n' :: cs') = splitLines (cs ++ ['\n']) ++ splitLines cs' := by
  obtain ⟨lines, tail, hcs⟩ := exists_splitLines_append h
  rw [hcs, hcs, splitLines_newline, splitLines_newline]
  simp only [glue, splitLines, List.append_assoc, List.cons_append, List.nil_append]

end Library.Lines
