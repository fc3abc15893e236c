import Mathlib.Data.List.Basic
import Mathlib.Tactic.Common

/-!
# Lists in which one element is replaced

What a count over a list, or a property of all its elements, becomes when one element is replaced:
the counts before and after differ by what the old and the new element count for.
-/

namespace Library.Tally

variable {α : Type} {p : α → Bool} {f : α → α} {l : List α} {i : ℕ} {a : α}

/-- The parts of a list around one of its elements. -/
theorem exists_around (h : l[i]? = some a) :
    ∃ l₁ l₂, l = l₁ ++ a :: l₂ ∧ ∀ b, l.set i b = l₁ ++ b :: l₂ := by
  induction l generalizing i with
  | nil => cases h
  | cons c l ih =>
    cases i with
    | zero =>
      cases h
      exact ⟨[], l, rfl, fun b => rfl⟩
    | succ i =>
      obtain ⟨l₁, l₂, hl, hset⟩ := ih (i := i) h
      exact ⟨c :: l₁, l₂, congrArg (c :: ·) hl, fun b => congrArg (c :: ·) (hset b)⟩

theorem countP_modify (h : l[i]? = some a) :
    (l.modify i f).countP p + (p a).toNat = l.countP p + (p (f a)).toNat := by
  induction l generalizing i with
  | nil => cases h
  | cons b l ih =>
    cases i with
    | zero =>
      cases h
      rw [List.modify_zero_cons, List.countP_cons, List.countP_cons]
      cases p a <;> cases p (f a) <;> simp
    | succ i =>
      have := ih (i := i) h
      rw [List.modify_succ_cons, List.countP_cons, List.countP_cons]
      omega

theorem countP_modify_of_eq (h : ∀ a, p (f a) = p a) : (l.modify i f).countP p = l.countP p := by
  cases hget : l[i]? with
  | none => rw [List.modify_eq_self (List.getElem?_eq_none_iff.mp hget)]
  | some a =>
    have := countP_modify (p := p) (f := f) hget
    rw [h] at this
    omega

theorem forall_mem_modify {P : α → Prop} (hget : l[i]? = some a) (h : ∀ b ∈ l, P b) (ha : P (f a)) :
    ∀ b ∈ l.modify i f, P b := by
  intro b hb
  obtain ⟨k, hk⟩ := List.mem_iff_getElem?.mp hb
  rw [List.getElem?_modify] at hk
  obtain ⟨c, hc, rfl⟩ := Option.map_eq_some_iff.mp hk
  split
  · rename_i hik
    subst hik
    rw [hget, Option.some.injEq] at hc
    exact hc ▸ ha
  · exact h c (List.mem_iff_getElem?.mpr ⟨k, hc⟩)

end Library.Tally
