import Mathlib.Algebra.Order.BigOperators.Group.List
import PanelAssistant.Library.JsonSpelling

/-!
# The size of an indented document

An object is as long as its names, its values and the blanks around them
(`length_pretty_obj`), and a string is as long as the escapes of its characters. A plain string
is one character a character, and any string of the basic plane at most six.
-/

namespace Library.Json

open JsonTree

/-! ## Strings -/

/-- The characters that a string takes in a document, its quotes included. -/
@[irreducible] def width (s : String) : ℕ := (quote s).length

theorem width_eq (s : String) :
    width s = (s.toList.map fun c => (escapeChar c).length).sum + 2 := by
  rw [width, quote, List.length_append, List.length_cons, List.length_flatMap]
  rfl

theorem length_escapeChar_le_of_lt {c : Char} (h : c.toNat < 65536) :
    (escapeChar c).length ≤ 6 := by
  unfold escapeChar
  split_ifs <;> simp [unitEscape]

theorem escapeChar_of_plain {c : Char} (h : plainChar c = true) : escapeChar c = [c] := by
  simp only [plainChar, Bool.and_eq_true, decide_eq_true_eq, bne_iff_ne, ne_eq] at h
  obtain ⟨⟨⟨hlow, hhigh⟩, hquote⟩, hslash⟩ := h
  have hne : ∀ d : Char, d.toNat < 32 → c ≠ d := by
    rintro d hd rfl
    omega
  rw [escapeChar, if_neg hquote, if_neg hslash, if_neg (hne _ (by decide)),
    if_neg (hne _ (by decide)), if_neg (hne _ (by decide)), if_neg (by omega), if_neg (by omega),
    if_pos ⟨hlow, by omega⟩]

/-- A string is at most as wide as the widest of its characters lets it be. -/
theorem width_le {s : String} {k : ℕ} (h : ∀ c ∈ s.toList, (escapeChar c).length ≤ k) :
    width s ≤ k * s.length + 2 := by
  have hsum : (s.toList.map fun c => (escapeChar c).length).sum ≤ s.toList.length * k := by
    have hle := List.sum_le_card_nsmul (s.toList.map fun c => (escapeChar c).length) k
      fun n hn => by
        obtain ⟨c, hc, rfl⟩ := List.mem_map.mp hn
        exact h c hc
    simpa using hle
  rw [width_eq, ← String.length_toList, Nat.mul_comm]
  omega

theorem width_ofList {cs : List Char} (h : cs.all plainChar = true) :
    width (String.ofList cs) = cs.length + 2 := by
  rw [width_eq, String.toList_ofList]
  congr 1
  induction cs with
  | nil => rfl
  | cons c cs ih =>
    rw [List.all_cons, Bool.and_eq_true] at h
    rw [List.map_cons, List.sum_cons, ih h.2, escapeChar_of_plain h.1, List.length_singleton,
      List.length_cons, Nat.add_comm]

theorem width_of_plain {s : String} (h : plain s = true) : width s = s.length + 2 := by
  have hwidth := width_ofList h
  rwa [String.ofList_toList, String.length_toList] at hwidth

/-! ## Scalars -/

theorem length_pretty_str (n : ℕ) (s : String) : (pretty n (.str s)).length = width s := by
  rw [pretty, width]

theorem length_pretty_null (n : ℕ) : (pretty n .null).length = 4 := by
  rw [pretty]
  rfl

theorem length_pretty_bool_le (n : ℕ) (b : Bool) : (pretty n (.bool b)).length ≤ 5 := by
  cases b <;> simp [pretty]

theorem length_pretty_int_le {n : ℤ} {k : ℕ} (hk : 0 < k) (hlow : 0 ≤ n) (hhigh : n < 10 ^ k)
    (m : ℕ) : (pretty m (.int n)).length ≤ k := by
  obtain ⟨n, rfl⟩ := Int.eq_ofNat_of_zero_le hlow
  have hlt : n < 10 ^ k := by exact_mod_cast hhigh
  have htext : (toString (n : ℤ)).toList = Nat.toDigits 10 n := by
    rw [show toString (n : ℤ) = toString n from rfl, Nat.toString_eq_repr, Nat.toList_repr]
  rw [pretty, htext, Nat.length_toDigits_le_iff (by decide) hk]
  exact hlt

/-! ## Objects and arrays -/

theorem length_newline (n : ℕ) : (newline n).length = 2 * n + 1 := by
  simp [newline]

theorem length_prettyItems (n : ℕ) (a : Json) (rest : List Json) :
    (prettyItems n (a :: rest)).length + (2 * n + 2) =
      ((a :: rest).map fun a => (pretty n a).length + (2 * n + 2)).sum := by
  induction rest generalizing a with
  | nil => simp [prettyItems]
  | cons b rest ih =>
    have hrest := ih b
    rw [List.map_cons, List.sum_cons, ← hrest]
    simp only [prettyItems, List.length_append, List.length_cons, length_newline]
    omega

theorem length_prettyFields (n : ℕ) (f : String × Json) (rest : List (String × Json)) :
    (prettyFields n (f :: rest)).length + (2 * n + 2) =
      ((f :: rest).map fun f => width f.1 + (pretty n f.2).length + (2 * n + 4)).sum := by
  induction rest generalizing f with
  | nil =>
    simp only [prettyFields, List.length_append, List.length_cons, List.map_cons, List.map_nil,
      List.sum_cons, List.sum_nil, width]
    omega
  | cons g rest ih =>
    have hrest := ih g
    rw [List.map_cons, List.sum_cons, ← hrest]
    simp only [prettyFields, List.length_append, List.length_cons, length_newline, width]
    omega

/-- An array is as long as its items, each on a line of its own. -/
theorem length_pretty_arr (n : ℕ) (a : Json) (rest : List Json) :
    (pretty n (.arr (a :: rest))).length =
      ((a :: rest).map fun a => (pretty (n + 1) a).length + (2 * n + 4)).sum + (2 * n + 2) := by
  have hitems := length_prettyItems (n + 1) a rest
  rw [show 2 * (n + 1) + 2 = 2 * n + 4 by omega] at hitems
  rw [← hitems]
  simp only [pretty, List.length_append, List.length_cons, List.length_nil, length_newline]
  omega

/-- An object is as long as its names and its values, each field on a line of its own. -/
theorem length_pretty_obj (n : ℕ) (f : String × Json) (rest : List (String × Json)) :
    (pretty n (.obj (f :: rest))).length =
      (((f :: rest).map Prod.fst).map width).sum +
        (((f :: rest).map Prod.snd).map fun v => (pretty (n + 1) v).length + (2 * n + 6)).sum +
          (2 * n + 2) := by
  have hfields := length_prettyFields (n + 1) f rest
  have hsum : ∀ fields : List (String × Json),
      (fields.map fun f => width f.1 + (pretty (n + 1) f.2).length + (2 * (n + 1) + 4)).sum =
        ((fields.map Prod.fst).map width).sum +
          ((fields.map Prod.snd).map fun v => (pretty (n + 1) v).length + (2 * n + 6)).sum := by
    intro fields
    induction fields with
    | nil => rfl
    | cons f fields ih =>
      simp only [List.map_cons, List.sum_cons, ih]
      omega
  rw [hsum] at hfields
  rw [← hfields]
  simp only [pretty, List.length_append, List.length_cons, List.length_nil, length_newline]
  omega

end Library.Json
