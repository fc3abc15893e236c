import Mathlib.Data.List.Infix
import Mathlib.Data.List.TakeWhile
import PanelAssistant.Library.Text

/-!
# Lists of words in one text

Words that stand in a text with a separator between them. A program reads them by splitting the
text, or word by word off its front (`beforeFirst`, `afterFirst`), and looks for a word by its
frame: the word with a separator on either side (`framed_infix`).
-/

namespace Library.Separated

variable {separator : Char}

/-- What precedes the first separator, or the whole text. -/
def beforeFirst (separator : Char) (text : List Char) : List Char :=
  text.takeWhile (· ≠ separator)

/-- What follows the first separator. -/
def afterFirst (separator : Char) (text : List Char) : List Char :=
  (text.dropWhile (· ≠ separator)).drop 1

/-- The words, each followed by a separator. -/
def terminated (separator : Char) (words : List (List Char)) : List Char :=
  words.flatMap (· ++ [separator])

/-- A word with a separator on either side. -/
def framed (separator : Char) (word : List Char) : List Char := separator :: (word ++ [separator])

theorem not_mem_beforeFirst (text : List Char) : separator ∉ beforeFirst separator text := by
  intro h
  simpa using List.mem_takeWhile_imp h

theorem beforeFirst_append_afterFirst {text : List Char} (h : separator ∈ text) :
    beforeFirst separator text ++ separator :: afterFirst separator text = text := by
  induction text with
  | nil => cases h
  | cons c rest ih =>
    by_cases hc : c = separator
    · subst hc
      simp [beforeFirst, afterFirst]
    · have hrest : separator ∈ rest := by
        rcases List.mem_cons.mp h with heq | hrest
        · exact absurd heq.symm hc
        · exact hrest
      simpa [beforeFirst, afterFirst, hc] using ih hrest

theorem length_afterFirst_lt {text : List Char} (h : separator ∈ text) :
    (afterFirst separator text).length < text.length := by
  have hlength := congrArg List.length (beforeFirst_append_afterFirst h)
  rw [List.length_append, List.length_cons] at hlength
  omega

theorem mem_of_afterFirst_ne_nil {text : List Char} (h : afterFirst separator text ≠ []) :
    separator ∈ text := by
  by_contra hmem
  have hnone : text.dropWhile (· ≠ separator) = [] := by
    refine List.dropWhile_eq_nil_iff.mpr fun c hc => ?_
    exact decide_eq_true fun heq => hmem (heq ▸ hc)
  rw [afterFirst, hnone] at h
  exact h rfl

/-- Splitting takes the first word off. -/
theorem splitOn_of_mem {text : List Char} (h : separator ∈ text) :
    text.splitOn separator =
      beforeFirst separator text :: (afterFirst separator text).splitOn separator := by
  have hsplit := beforeFirst_append_afterFirst h
  calc text.splitOn separator =
      (beforeFirst separator text ++ separator :: afterFirst separator text).splitOn separator := by
        rw [hsplit]
    _ = _ := List.splitOn_append_cons_self_of_not_mem (not_mem_beforeFirst text) _

theorem beforeFirst_of_not_mem {text : List Char} (h : separator ∉ text) :
    beforeFirst separator text = text := by
  refine List.takeWhile_eq_self_iff.mpr fun c hc => ?_
  exact decide_eq_true fun heq => h (heq ▸ hc)

theorem dropWhile_append {word : List Char} (h : separator ∉ word) (rest : List Char) :
    (word ++ separator :: rest).dropWhile (· ≠ separator) = separator :: rest := by
  have hall : ∀ c ∈ word, decide (c ≠ separator) = true := fun c hc =>
    decide_eq_true fun heq => h (heq ▸ hc)
  rw [List.dropWhile_append_of_pos hall, List.dropWhile_cons_of_neg (by simp)]

theorem beforeFirst_append {word : List Char} (h : separator ∉ word) (rest : List Char) :
    beforeFirst separator (word ++ separator :: rest) = word := by
  have hall : ∀ c ∈ word, decide (c ≠ separator) = true := fun c hc =>
    decide_eq_true fun heq => h (heq ▸ hc)
  rw [beforeFirst, List.takeWhile_append_of_pos hall, List.takeWhile_cons_of_neg (by simp),
    List.append_nil]

theorem afterFirst_append {word : List Char} (h : separator ∉ word) (rest : List Char) :
    afterFirst separator (word ++ separator :: rest) = rest := by
  rw [afterFirst, dropWhile_append h]
  rfl

theorem not_mem_of_mem_splitOn {text word : List Char} (h : word ∈ text.splitOn separator) :
    separator ∉ word := by
  induction hlength : text.length using Nat.strong_induction_on generalizing text with
  | _ n ih =>
    by_cases hmem : separator ∈ text
    · rw [splitOn_of_mem hmem, List.mem_cons] at h
      rcases h with rfl | h
      · exact not_mem_beforeFirst text
      · exact ih _ (hlength ▸ length_afterFirst_lt hmem) h rfl
    · rw [List.splitOn_eq_singleton hmem, List.mem_singleton] at h
      exact h ▸ hmem

/-- Splitting takes every word off that a separator ends. -/
theorem splitOn_terminated {words : List (List Char)} (h : ∀ word ∈ words, separator ∉ word)
    (rest : List Char) :
    (terminated separator words ++ rest).splitOn separator = words ++ rest.splitOn separator := by
  induction words with
  | nil => rfl
  | cons word words ih =>
    obtain ⟨hword, hwords⟩ := List.forall_mem_cons.mp h
    have htext : terminated separator (word :: words) ++ rest =
        word ++ separator :: (terminated separator words ++ rest) := by
      simp [terminated]
    rw [htext, List.splitOn_append_cons_self_of_not_mem hword, ih hwords]
    rfl

/-! ## Frames -/

/-- Two words without the separator that begin one text, each before a separator. -/
theorem prefix_iff_eq {word word' rest : List Char} (hword : separator ∉ word)
    (hword' : separator ∉ word') :
    word ++ [separator] <+: word' ++ separator :: rest ↔ word = word' := by
  constructor
  · intro h
    induction word generalizing word' with
    | nil =>
      cases word' with
      | nil => rfl
      | cons c cs =>
        rw [List.nil_append, List.cons_append, List.cons_prefix_cons] at h
        exact absurd (h.1 ▸ List.mem_cons_self) hword'
    | cons c cs ih =>
      cases word' with
      | nil =>
        rw [List.nil_append, List.cons_append, List.cons_prefix_cons] at h
        exact absurd (h.1 ▸ List.mem_cons_self) hword
      | cons c' cs' =>
        rw [List.cons_append, List.cons_append, List.cons_prefix_cons] at h
        rw [List.mem_cons, not_or] at hword hword'
        rw [h.1, ih hword.2 hword'.2 h.2]
  · rintro rfl
    exact ⟨rest, by simp⟩

/-- A frame is not found inside a word. -/
theorem framed_infix_append {word word' rest : List Char} (hword' : separator ∉ word') :
    framed separator word <:+: word' ++ rest ↔ framed separator word <:+: rest := by
  induction word' with
  | nil => rfl
  | cons c cs ih =>
    rw [List.mem_cons, not_or] at hword'
    rw [List.cons_append, List.infix_cons_iff, ih hword'.2, framed, List.cons_prefix_cons]
    exact or_iff_right fun h => hword'.1 h.1

/-- A word is among the words of a text exactly when its frame is in it. -/
theorem framed_infix {word : List Char} {words : List (List Char)} (hword : separator ∉ word)
    (hwords : ∀ w ∈ words, separator ∉ w) :
    framed separator word <:+: separator :: terminated separator words ↔ word ∈ words := by
  induction words with
  | nil =>
    refine iff_of_false (fun h => ?_) List.not_mem_nil
    have hlength := h.length_le
    simp [framed, terminated] at hlength
  | cons w ws ih =>
    rw [List.forall_mem_cons] at hwords
    have htext : separator :: terminated separator (w :: ws) =
        separator :: (w ++ separator :: terminated separator ws) := by
      simp [terminated]
    rw [htext, List.infix_cons_iff, framed_infix_append hwords.1, ih hwords.2, framed,
      List.cons_prefix_cons, prefix_iff_eq hword hwords.1, List.mem_cons]
    simp

theorem terminated_eq_intercalate {words : List (List Char)} (h : words ≠ []) :
    terminated separator words = [separator].intercalate words ++ [separator] := by
  induction words with
  | nil => exact absurd rfl h
  | cons w ws ih =>
    cases ws with
    | nil => simp [terminated]
    | cons w' ws =>
      rw [List.intercalate_cons_cons, List.append_assoc, List.append_assoc,
        ← ih (List.cons_ne_nil _ _)]
      simp [terminated]

theorem intercalate_concat {words : List (List Char)} (word : List Char) (h : words ≠ []) :
    [separator].intercalate (words ++ [word]) =
      [separator].intercalate words ++ separator :: word := by
  induction words with
  | nil => exact absurd rfl h
  | cons w ws ih =>
    cases ws with
    | nil => simp [List.intercalate]
    | cons w' ws =>
      rw [List.cons_append, List.cons_append, List.intercalate_cons_cons,
        List.intercalate_cons_cons, ← List.cons_append, ih (List.cons_ne_nil _ _)]
      simp

end Library.Separated
