import Mathlib.Data.List.Induction
import Mathlib.Data.String.Basic
import Mathlib.Tactic.IntervalCases

/-!
# Recognisers for small regular texts

Character classes and decimal numerals, as the full matches of the regular expressions
that only combine classes, bounded repetition and literal parts. All of them read a text
as its list of characters.
-/

namespace Library.Text

def isDigit (c : Char) : Bool := '0' ≤ c && c ≤ '9'

def isLower (c : Char) : Bool := 'a' ≤ c && c ≤ 'z'

def isUpper (c : Char) : Bool := 'A' ≤ c && c ≤ 'Z'

def isAlnum (c : Char) : Bool := isDigit c || isLower c || isUpper c

/-- `[0-9a-f]` -/
def isHex (c : Char) : Bool := isDigit c || ('a' ≤ c && c ≤ 'f')

/-- The characters that stripping a text removes. -/
def isSpace (c : Char) : Bool :=
  (9 ≤ c.toNat && c.toNat ≤ 13) || (28 ≤ c.toNat && c.toNat ≤ 32) ||
    [133, 160, 5760, 8232, 8233, 8239, 8287, 12288].contains c.toNat ||
    (8192 ≤ c.toNat && c.toNat ≤ 8202)

/-- A text without white space at its two ends. -/
def strip (cs : List Char) : List Char :=
  ((cs.dropWhile isSpace).reverse.dropWhile isSpace).reverse

/-- `[class]{low,high}` -/
def repeats (cls : Char → Bool) (low high : Nat) (cs : List Char) : Bool :=
  decide (low ≤ cs.length) && decide (cs.length ≤ high) && cs.all cls

/-- `[1-9][0-9]*` -/
def isPositiveNumeral : List Char → Bool
  | [] => false
  | c :: rest => isDigit c && c != '0' && rest.all isDigit

/-- `0|[1-9][0-9]*` -/
def isNumeral (cs : List Char) : Bool := cs == ['0'] || isPositiveNumeral cs

/-- The number a run of decimal digits spells. -/
def decimal (cs : List Char) : Nat := cs.foldl (fun n c => 10 * n + (c.toNat - '0'.toNat)) 0

/-- How many digits Python's `int` reads: `sys.int_info.default_max_str_digits`. -/
def maxIntDigits : Nat := 4300

/-- `N.N.N` with canonical numerals. -/
def isTriple (cs : List Char) : Bool :=
  match cs.splitOn '.' with
  | [a, b, c] => isNumeral a && isNumeral b && isNumeral c
  | _ => false

/-- What follows a literal at the start of a text. -/
def after? (literal : List Char) (cs : List Char) : Option (List Char) :=
  if literal.isPrefixOf cs then some (cs.drop literal.length) else none

/-- What precedes a literal at the end of a text. -/
def before? (literal : List Char) (cs : List Char) : Option (List Char) :=
  if literal.isSuffixOf cs then some (cs.take (cs.length - literal.length)) else none

theorem after?_append (literal cs : List Char) : after? literal (literal ++ cs) = some cs := by
  have hpre : literal.isPrefixOf (literal ++ cs) = true :=
    List.isPrefixOf_iff_prefix.mpr (List.prefix_append _ _)
  rw [after?, if_pos hpre, List.drop_left]

theorem before?_append (cs literal : List Char) : before? literal (cs ++ literal) = some cs := by
  have hsuffix : literal.isSuffixOf (cs ++ literal) = true :=
    List.isSuffixOf_iff_suffix.mpr (List.suffix_append _ _)
  rw [before?, if_pos hsuffix, List.length_append, Nat.add_sub_cancel, List.take_left]

/-! ## Parts of a text -/

/-- The characters of the parts of a text and the separator are the characters of the text. -/
theorem all_of_splitOn {p : Char → Bool} {separator : Char} (hp : p separator = true)
    {cs : List Char} (h : ∀ part ∈ cs.splitOn separator, part.all p = true) : cs.all p = true := by
  rw [← @List.intercalate_splitOn Char cs _ _ separator, List.all_eq_true]
  intro c hc
  generalize cs.splitOn separator = parts at h hc
  induction parts with
  | nil => simp [List.intercalate] at hc
  | cons part rest ih =>
    cases rest with
    | nil =>
      rw [List.intercalate_singleton] at hc
      exact List.all_eq_true.mp (h part List.mem_cons_self) c hc
    | cons next rest =>
      rw [List.intercalate_cons_cons, List.append_assoc, List.mem_append, List.mem_append] at hc
      rcases hc with hc | hc | hc
      · exact List.all_eq_true.mp (h part List.mem_cons_self) c hc
      · rw [List.mem_singleton] at hc
        exact hc ▸ hp
      · exact ih (fun q hq => h q (List.mem_cons_of_mem _ hq)) hc

theorem mem_intercalate {c : Char} {separator : List Char} {part : List Char}
    {parts : List (List Char)} (hpart : part ∈ parts) (hc : c ∈ part) :
    c ∈ separator.intercalate parts := by
  induction parts with
  | nil => cases hpart
  | cons first rest ih =>
    cases rest with
    | nil =>
      rw [List.intercalate_singleton]
      exact List.mem_singleton.mp hpart ▸ hc
    | cons next rest =>
      rw [List.intercalate_cons_cons, List.append_assoc, List.mem_append, List.mem_append]
      rcases List.mem_cons.mp hpart with rfl | hrest
      · exact .inl hc
      · exact .inr (.inr (ih hrest))

/-- A text is of a class with its separator exactly when its parts are. -/
theorem all_splitOn {p : Char → Bool} {separator : Char} (hp : p separator = true)
    {cs : List Char} :
    (∀ part ∈ cs.splitOn separator, part.all p = true) ↔ cs.all p = true := by
  refine ⟨all_of_splitOn hp, fun h part hpart => List.all_eq_true.mpr fun c hc => ?_⟩
  have hmem : c ∈ [separator].intercalate (cs.splitOn separator) := mem_intercalate hpart hc
  rw [List.intercalate_splitOn] at hmem
  exact List.all_eq_true.mp h c hmem

/-! ## Decimal texts -/

theorem isDigit_eq (c : Char) : isDigit c = c.isDigit := by
  simp only [isDigit, Char.isDigit, Char.le_def, ge_iff_le]

theorem decimal_toDigits (n : Nat) : decimal (Nat.toDigits 10 n) = n :=
  Nat.ofDigitChars_ten_toDigits

theorem all_isDigit_toDigits (n : Nat) : (Nat.toDigits 10 n).all isDigit = true := by
  rw [List.all_eq_true]
  intro c hc
  rw [isDigit_eq]
  exact Nat.isDigit_of_mem_toDigits (by decide) (by decide) hc

/-- The numeral of a positive number does not start with a zero. -/
theorem isPositiveNumeral_toDigits {n : Nat} (hn : 0 < n) :
    isPositiveNumeral (Nat.toDigits 10 n) = true := by
  have hhead : ∀ n : Nat, 0 < n → ∃ c rest, Nat.toDigits 10 n = c :: rest ∧ c ≠ '0' := by
    intro n
    induction n using Nat.strong_induction_on with
    | _ n ih =>
      intro hn
      rcases Nat.lt_or_ge n 10 with hlt | hge
      · refine ⟨n.digitChar, [], Nat.toDigits_of_lt_base hlt, ?_⟩
        interval_cases n <;> decide
      · obtain ⟨c, rest, heq, hc⟩ := ih (n / 10) (by omega) (by omega)
        exact ⟨c, rest ++ [(n % 10).digitChar],
          by rw [Nat.toDigits_of_base_le (by decide) hge, heq]; rfl, hc⟩
  obtain ⟨c, rest, heq, hc⟩ := hhead n hn
  have hall := all_isDigit_toDigits n
  rw [heq, List.all_cons, Bool.and_eq_true] at hall
  simp only [heq, isPositiveNumeral, hall.1, hall.2, Bool.and_true, Bool.true_and, bne_iff_ne]
  exact hc

theorem decimal_lt {cs : List Char} (h : cs.all isDigit = true) : decimal cs < 10 ^ cs.length := by
  have hfold : ∀ (cs : List Char) (n : Nat), cs.all isDigit = true →
      cs.foldl (fun n c => 10 * n + (c.toNat - '0'.toNat)) n < (n + 1) * 10 ^ cs.length := by
    intro cs
    induction cs with
    | nil =>
      intro n _
      simp
    | cons c cs ih =>
      intro n h
      rw [List.all_cons, Bool.and_eq_true] at h
      have hc : c.toNat - '0'.toNat + 1 ≤ 10 := by
        have hdigit := h.1
        simp only [isDigit, Bool.and_eq_true, decide_eq_true_eq, Char.le_def,
          UInt32.le_iff_toNat_le] at hdigit
        have hle : c.toNat ≤ 57 := hdigit.2
        have hzero : '0'.toNat = 48 := rfl
        omega
      calc _ < (10 * n + (c.toNat - '0'.toNat) + 1) * 10 ^ cs.length := ih _ h.2
        _ ≤ (10 * (n + 1)) * 10 ^ cs.length := Nat.mul_le_mul_right _ (by omega)
        _ = (n + 1) * 10 ^ (c :: cs).length := by
          rw [List.length_cons, Nat.pow_succ, Nat.mul_comm 10, Nat.mul_assoc, Nat.mul_comm 10]
  simpa [decimal] using hfold cs 0 h

/-- A canonical numeral is no longer than another one of its number. -/
theorem length_toDigits_decimal_le {cs : List Char} (hne : cs ≠ []) (h : cs.all isDigit = true) :
    (Nat.toDigits 10 (decimal cs)).length ≤ cs.length :=
  (Nat.length_toDigits_le_iff (by decide) (List.length_pos_of_ne_nil hne)).mpr (decimal_lt h)

theorem isDigit_iff {c : Char} : isDigit c = true ↔ 48 ≤ c.toNat ∧ c.toNat ≤ 57 := by
  rw [isDigit, Bool.and_eq_true, decide_eq_true_eq, decide_eq_true_eq]
  exact Iff.rfl

/-- A positive numeral spells a positive number. -/
theorem one_le_decimal {cs : List Char} (h : isPositiveNumeral cs = true) : 1 ≤ decimal cs := by
  have hfold : ∀ (cs : List Char) (n : ℕ), 1 ≤ n →
      1 ≤ cs.foldl (fun n c => 10 * n + (c.toNat - '0'.toNat)) n := by
    intro cs
    induction cs with
    | nil => exact fun _ h => h
    | cons c cs ih =>
      intro n hn
      rw [List.foldl_cons]
      exact ih _ (by omega)
  cases cs with
  | nil => cases h
  | cons c rest =>
    simp only [isPositiveNumeral, Bool.and_eq_true, bne_iff_ne, ne_eq] at h
    obtain ⟨⟨hdigit, hzero⟩, -⟩ := h
    rw [isDigit_iff] at hdigit
    have hne : c.toNat ≠ 48 := fun hc => hzero (Char.toNat_inj.mp hc)
    have hdigit0 : '0'.toNat = 48 := rfl
    rw [decimal, List.foldl_cons]
    exact hfold rest _ (by omega)

theorem digitChar_toNat {c : Char} (h : isDigit c = true) :
    (c.toNat - '0'.toNat).digitChar = c := by
  rw [isDigit_iff] at h
  have hcases : ∀ n : ℕ, n < 10 → n.digitChar = Char.ofNat (n + 48) := by decide
  have hzero : '0'.toNat = 48 := rfl
  rw [hcases _ (by omega), hzero, Nat.sub_add_cancel h.1, Char.ofNat_toNat]

/-- A positive numeral is the decimal text of its number. -/
theorem toDigits_decimal {cs : List Char} (h : isPositiveNumeral cs = true) :
    Nat.toDigits 10 (decimal cs) = cs := by
  induction cs using List.reverseRecOn with
  | nil => cases h
  | append_singleton cs c ih =>
    have hstep : decimal (cs ++ [c]) = 10 * decimal cs + (c.toNat - '0'.toNat) := by
      rw [decimal, List.foldl_append]
      rfl
    cases cs with
    | nil =>
      simp only [List.nil_append, isPositiveNumeral, Bool.and_eq_true, List.all_nil] at h
      have hdigit := isDigit_iff.mp h.1.1
      have hzero : '0'.toNat = 48 := rfl
      have hlt : decimal [c] < 10 := by
        change 10 * 0 + (c.toNat - '0'.toNat) < 10
        omega
      rw [List.nil_append, Nat.toDigits_of_lt_base hlt]
      change [(10 * 0 + (c.toNat - '0'.toNat)).digitChar] = [c]
      rw [Nat.mul_zero, Nat.zero_add, digitChar_toNat h.1.1]
    | cons d cs =>
      simp only [List.cons_append, isPositiveNumeral, Bool.and_eq_true, List.all_append,
        List.all_cons, List.all_nil, Bool.and_true] at h
      obtain ⟨hhead, hrest, hc⟩ := h
      have hpre : isPositiveNumeral (d :: cs) = true := by
        simp only [isPositiveNumeral, Bool.and_eq_true]
        exact ⟨hhead, hrest⟩
      have hdigit := isDigit_iff.mp hc
      have hzero : '0'.toNat = 48 := rfl
      have hlt : c.toNat - '0'.toNat < 10 := by omega
      rw [hstep, ← Nat.toDigits_append_toDigits (by decide) (one_le_decimal hpre) hlt, ih hpre,
        Nat.toDigits_of_lt_base hlt, digitChar_toNat hc]

theorem isNumeral_toDigits_decimal {cs : List Char} (h : isNumeral cs = true) :
    Nat.toDigits 10 (decimal cs) = cs := by
  rw [isNumeral, Bool.or_eq_true, beq_iff_eq] at h
  rcases h with rfl | h
  · rfl
  · exact toDigits_decimal h

/-- Canonical numerals of one number are one numeral. -/
theorem eq_of_decimal {cs cs' : List Char} (h : isNumeral cs = true) (h' : isNumeral cs' = true)
    (heq : decimal cs = decimal cs') : cs = cs' := by
  rw [← isNumeral_toDigits_decimal h, ← isNumeral_toDigits_decimal h', heq]

end Library.Text
