import PanelAssistant.Library.JsonSpelling
import PanelAssistant.Release

/-!
# Accepted texts are plain

Every pattern of a signed document accepts printable ASCII without quotes and backslashes only, so
every spelling of JSON writes what it accepts as it is.
-/

namespace PanelAssistant

open Library Library.Text Library.JsonTree

theorem plain_append (a b : String) : plain (a ++ b) = (plain a && plain b) := by
  rw [plain, String.toList_append, List.all_append]
  rfl

theorem plainChar_of_ne {c : Char} (hlow : 32 ≤ c.toNat) (hhigh : c.toNat < 127)
    (hquote : c.toNat ≠ 34) (hslash : c.toNat ≠ 92) : plainChar c = true := by
  have hne : ∀ d : Char, c.toNat ≠ d.toNat → (c != d) = true := by
    intro d hd
    rw [bne_iff_ne]
    rintro rfl
    exact hd rfl
  simp only [plainChar, hlow, hhigh, decide_true, hne '"' hquote, hne '\\' hslash, Bool.and_self]

theorem plainChar_of_digit {c : Char} (h : isDigit c = true) : plainChar c = true := by
  rw [isDigit_iff] at h
  exact plainChar_of_ne (by omega) (by omega) (by omega) (by omega)

theorem plainChar_of_hex {c : Char} (h : isHex c = true) : plainChar c = true := by
  rw [isHex, Bool.or_eq_true] at h
  rcases h with h | h
  · exact plainChar_of_digit h
  · rw [Bool.and_eq_true, decide_eq_true_eq, decide_eq_true_eq] at h
    have hlow : 97 ≤ c.toNat := h.1
    have hhigh : c.toNat ≤ 102 := h.2
    exact plainChar_of_ne (by omega) (by omega) (by omega) (by omega)

theorem plainChar_of_alnum {c : Char} (h : isAlnum c = true) : plainChar c = true := by
  rw [isAlnum, Bool.or_eq_true, Bool.or_eq_true] at h
  rcases h with (h | h) | h
  · exact plainChar_of_digit h
  · rw [isLower, Bool.and_eq_true, decide_eq_true_eq, decide_eq_true_eq] at h
    have hlow : 97 ≤ c.toNat := h.1
    have hhigh : c.toNat ≤ 122 := h.2
    exact plainChar_of_ne (by omega) (by omega) (by omega) (by omega)
  · rw [isUpper, Bool.and_eq_true, decide_eq_true_eq, decide_eq_true_eq] at h
    have hlow : 65 ≤ c.toNat := h.1
    have hhigh : c.toNat ≤ 90 := h.2
    exact plainChar_of_ne (by omega) (by omega) (by omega) (by omega)

theorem all_mono {p q : Char → Bool} (h : ∀ c, p c = true → q c = true) {cs : List Char}
    (hcs : cs.all p = true) : cs.all q = true := by
  rw [List.all_eq_true] at hcs ⊢
  exact fun c hc => h c (hcs c hc)

/-! ## Patterns -/

theorem plain_of_sha256 {s : String} (h : isSha256 s = true) : plain s = true := by
  simp only [isSha256, repeats, Bool.and_eq_true] at h
  exact all_mono (fun _ => plainChar_of_hex) h.2

theorem plain_of_positiveNumeral {cs : List Char} (h : isPositiveNumeral cs = true) :
    cs.all plainChar = true := by
  cases cs with
  | nil => cases h
  | cons c rest =>
    simp only [isPositiveNumeral, Bool.and_eq_true] at h
    rw [List.all_cons, plainChar_of_digit h.1.1, all_mono (fun _ => plainChar_of_digit) h.2]
    rfl

theorem plain_of_numeral {cs : List Char} (h : isNumeral cs = true) : cs.all plainChar = true := by
  rw [isNumeral, Bool.or_eq_true, beq_iff_eq] at h
  rcases h with rfl | h
  · rfl
  · exact plain_of_positiveNumeral h

theorem plain_of_triple {cs : List Char} (h : isTriple cs = true) : cs.all plainChar = true := by
  unfold isTriple at h
  split at h
  · rename_i a b c heq
    simp only [Bool.and_eq_true] at h
    apply @all_of_splitOn plainChar '.' (by decide)
    rw [heq]
    intro part hpart
    simp only [List.mem_cons, List.not_mem_nil, or_false] at hpart
    rcases hpart with rfl | rfl | rfl
    · exact plain_of_numeral h.1.1
    · exact plain_of_numeral h.1.2
    · exact plain_of_numeral h.2
  · cases h

theorem after?_eq_some {literal cs rest : List Char} (h : after? literal cs = some rest) :
    cs = literal ++ rest := by
  unfold after? at h
  split at h
  · rename_i hpre
    obtain ⟨tail, rfl⟩ := List.isPrefixOf_iff_prefix.mp hpre
    rw [← Option.some.inj h, List.drop_left]
  · cases h

theorem plain_of_rcTail {cs : List Char} (h : isRcTail cs = true) : cs.all plainChar = true := by
  simp only [isRcTail, Bool.or_eq_true, Option.any_eq_true] at h
  rcases h with ⟨rest, hrest, hnumeral⟩ | ⟨rest, hrest, hnumeral⟩ <;>
    rw [after?_eq_some hrest, List.all_append, plain_of_positiveNumeral hnumeral] <;> rfl

theorem plain_of_installTag {tag : String} (h : isInstallReleaseTag tag = true) :
    plain tag = true := by
  simp only [isInstallReleaseTag, Bool.and_eq_true, Bool.or_eq_true] at h
  rcases h.2 with h | h
  · unfold isStableTag at h
    split at h
    · rename_i rest heq
      rw [plain, heq, List.all_cons, plain_of_triple h]
      rfl
    · cases h
  · simp only [isRcReleaseTag, Bool.and_eq_true, isRcTag] at h
    have h := h.2
    split at h
    · rename_i core tail heq
      rw [Bool.and_eq_true] at h
      apply @all_of_splitOn plainChar '-' (by decide)
      rw [heq]
      intro part hpart
      simp only [List.mem_cons, List.not_mem_nil, or_false] at hpart
      rcases hpart with rfl | rfl
      · rw [List.all_cons, plain_of_triple h.1]
        rfl
      · exact plain_of_rcTail h.2
    · cases h

theorem plain_of_versionName {s : String} (h : isBuildVersionName s = true) : plain s = true := by
  unfold isBuildVersionName at h
  split at h
  · cases h
  · rename_i c rest heq
    simp only [repeats, Bool.and_eq_true] at h
    rw [plain, heq, List.all_cons, plainChar_of_alnum h.1]
    refine all_mono ?_ h.2.2
    intro x hx
    rw [Bool.or_eq_true] at hx
    rcases hx with hx | hx
    · exact plainChar_of_alnum hx
    · have hchars : "._+-".toList = ['.', '_', '+', '-'] := String.toList_ofList
      rw [List.contains_iff_mem, hchars] at hx
      simp only [List.mem_cons, List.not_mem_nil, or_false] at hx
      rcases hx with rfl | rfl | rfl | rfl <;> rfl

/-- The text before the two numbers of a database range. -/
def databaseStem : String := "hapaneld-db:v1:ha-paneld.db:"

theorem plain_of_databaseRange {s : String} {low high : List Char}
    (h : (after? databaseStem.toList s.toList).map (List.splitOn ':') = some [low, high])
    (hlow : isPositiveNumeral low = true) (hhigh : isPositiveNumeral high = true) :
    plain s = true := by
  obtain ⟨rest, hrest, hsplit⟩ := Option.map_eq_some_iff.mp h
  have hrestPlain : rest.all plainChar = true := by
    apply @all_of_splitOn plainChar ':' (by decide)
    rw [hsplit]
    intro part hpart
    simp only [List.mem_cons, List.not_mem_nil, or_false] at hpart
    rcases hpart with rfl | rfl
    · exact plain_of_positiveNumeral hlow
    · exact plain_of_positiveNumeral hhigh
  rw [plain, after?_eq_some hrest, List.all_append, hrestPlain]
  decide

theorem plain_of_databaseRangeValid {s : String} (h : databaseRangeValid s = true) :
    plain s = true := by
  unfold databaseRangeValid at h
  split at h
  · rename_i low high heq
    simp only [Bool.and_eq_true] at h
    exact plain_of_databaseRange heq h.1.1.1.1.1 h.1.1.1.1.2
  · cases h

theorem isLaunchComponent_iff {package component : String} :
    isLaunchComponent (.str package) (.str component) = true ↔
      package = packageId ∧ component ∈ launchComponents := by
  simp only [isLaunchComponent, Bool.and_eq_true, beq_iff_eq, Json.str.injEq, List.any_eq_true,
    exists_eq_right']

theorem plain_of_launchComponent {component : String} (h : component ∈ launchComponents) :
    plain component = true := by
  have hall : ∀ c ∈ launchComponents, plain c = true := by decide
  exact hall component h

end PanelAssistant
