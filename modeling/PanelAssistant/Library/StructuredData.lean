import PanelAssistant.Library.Separated

/-!
# Structured data of a log line

A structured-data element in its text form: an opening bracket, an id, parameters with quoted
values, and a closing bracket. In a value the quote, the backslash and the closing bracket stand
behind a backslash. A reader of elements stops where the written one ends, whatever follows
(`readElement_write`).
-/

namespace Library.StructuredData

open Library.Separated

/-- A character that does not stand for itself in a value. -/
def isSpecial (c : Char) : Bool := c == '"' || c == '\\' || c == ']'

/-- A character of a value as it is written. -/
def escapeChar (c : Char) : List Char := if isSpecial c then ['\\', c] else [c]

def escape (value : List Char) : List Char := value.flatMap escapeChar

/-- A value up to its closing quote, and what follows. -/
def readValue : List Char → Option (List Char × List Char)
  | [] => none
  | '"' :: rest => some ([], rest)
  | ']' :: _ => none
  | ['\\'] => none
  | '\\' :: c :: rest =>
    if isSpecial c then (readValue rest).map fun (value, rest) => (c :: value, rest) else none
  | c :: rest => (readValue rest).map fun (value, rest) => (c :: value, rest)

/-- A name and a value. -/
structure Param where
  name : List Char
  value : List Char
  deriving DecidableEq

structure Element where
  id : List Char
  params : List Param
  deriving DecidableEq

def Param.write (p : Param) : List Char := ' ' :: p.name ++ '=' :: '"' :: (escape p.value ++ ['"'])

def Element.write (e : Element) : List Char :=
  '[' :: (e.id ++ e.params.flatMap Param.write ++ [']'])

/-- At most `n` parameters, up to the closing bracket. -/
def readParams : ℕ → List Char → Option (List Param × List Char)
  | _, ']' :: rest => some ([], rest)
  | n + 1, ' ' :: text =>
    match afterFirst '=' text with
    | '"' :: quoted =>
      match readValue quoted with
      | some (value, rest) =>
        (readParams n rest).map fun (params, rest) =>
          (⟨beforeFirst '=' text, value⟩ :: params, rest)
      | none => none
    | _ => none
  | _, _ => none

/-- An element at the start of a text, and what follows. -/
def readElement : List Char → Option (Element × List Char)
  | '[' :: text =>
    let id := text.takeWhile fun c => c != ' ' && c != ']'
    (readParams text.length (text.drop id.length)).map fun (params, rest) => (⟨id, params⟩, rest)
  | _ => none

/-- An element whose names keep to what the reader takes for names. -/
structure Element.Named (e : Element) : Prop where
  id : ∀ c ∈ e.id, c ≠ ' ' ∧ c ≠ ']'
  params : ∀ p ∈ e.params, '=' ∉ p.name

theorem readValue_plain {c : Char} (h : isSpecial c = false) (rest : List Char) :
    readValue (c :: rest) = (readValue rest).map fun (value, rest) => (c :: value, rest) := by
  rw [readValue]
  · rintro rfl
    cases h
  · rintro rfl
    cases h
  · rintro rfl -
    cases h
  · rintro c' rest' rfl -
    cases h

/-- A value is read back, and no further than its closing quote. -/
theorem readValue_escape (value rest : List Char) :
    readValue (escape value ++ '"' :: rest) = some (value, rest) := by
  induction value with
  | nil => rfl
  | cons c value ih =>
    rw [escape, List.flatMap_cons, ← escape, List.append_assoc, escapeChar]
    split
    · rename_i h
      rw [List.cons_append, List.cons_append, List.nil_append, readValue, if_pos h, ih]
      rfl
    · rename_i h
      rw [List.cons_append, List.nil_append, readValue_plain (eq_false_of_ne_true h), ih]
      rfl

theorem readParams_write {params : List Param} (h : ∀ p ∈ params, '=' ∉ p.name) {n : ℕ}
    (hn : params.length ≤ n) (rest : List Char) :
    readParams n (params.flatMap Param.write ++ ']' :: rest) = some (params, rest) := by
  induction params generalizing n with
  | nil => cases n <;> rfl
  | cons p params ih =>
    obtain ⟨hp, hparams⟩ := List.forall_mem_cons.mp h
    cases n with
    | zero => cases hn
    | succ n =>
      have htext : (p :: params).flatMap Param.write ++ ']' :: rest =
          ' ' :: (p.name ++ '=' :: '"' :: (escape p.value ++
            '"' :: (params.flatMap Param.write ++ ']' :: rest))) := by
        simp [Param.write]
      rw [htext, readParams, afterFirst_append hp, beforeFirst_append hp]
      simp only
      rw [readValue_escape]
      simp only
      rw [ih hparams (Nat.le_of_succ_le_succ hn)]
      rfl

theorem length_le_length_write (params : List Param) :
    params.length ≤ (params.flatMap Param.write).length := by
  induction params with
  | nil => exact Nat.zero_le _
  | cons p params ih =>
    rw [List.flatMap_cons, List.length_append, List.length_cons, Param.write, List.length_append,
      List.length_cons]
    omega

/-- **A written element is read back, whatever follows it.** -/
theorem readElement_write {e : Element} (h : e.Named) (rest : List Char) :
    readElement (e.write ++ rest) = some (e, rest) := by
  have hstop : ∀ tail : List Char, (∃ c tail', tail = c :: tail' ∧ (c = ' ' ∨ c = ']')) →
      (e.id ++ tail).takeWhile (fun c => c != ' ' && c != ']') = e.id := by
    rintro tail ⟨c, tail', rfl, hc⟩
    rw [List.takeWhile_append_of_pos
      fun c hc => by simpa using h.id c hc, List.takeWhile_cons_of_neg,
      List.append_nil]
    rcases hc with rfl | rfl <;> simp
  have htext : e.write ++ rest =
    '[' :: (e.id ++ (e.params.flatMap Param.write ++ ']' :: rest)) := by
    simp [Element.write]
  have hnext : ∃ c tail', e.params.flatMap Param.write ++ ']' :: rest = c :: tail' ∧
      (c = ' ' ∨ c = ']') := by
    cases e.params with
    | nil => exact ⟨']', rest, rfl, .inr rfl⟩
    | cons p params => exact ⟨' ', _, rfl, .inl rfl⟩
  rw [htext, readElement]
  simp only [hstop _ hnext, List.drop_left]
  have hlength : e.params.length ≤
      (e.id ++ (e.params.flatMap Param.write ++ ']' :: rest)).length := by
    have hparams := length_le_length_write e.params
    simp only [List.length_append]
    omega
  rw [readParams_write h.params hlength]
  rfl

end Library.StructuredData
