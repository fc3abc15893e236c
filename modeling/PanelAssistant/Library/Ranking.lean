import Mathlib.Data.List.MinMax
import Mathlib.Data.List.Sort

/-!
# Choosing a maximum

`List.argmax` is the first of the maximal elements. It is also the head of a stable descending
sort, and it survives every filter that keeps it.
-/

namespace Library.Ranking

variable {α β : Type} [LinearOrder β] {f : α → β} {l : List α} {a m : α}

/-- The order of a stable descending sort. -/
def descending (f : α → β) (a b : α) : Prop := f b ≤ f a

instance (f : α → β) : DecidableRel (descending f) := fun _ _ => inferInstanceAs (Decidable (_ ≤ _))

/-- The head of a stable descending sort is the first maximal element. -/
theorem head?_insertionSort_descending (f : α → β) (l : List α) :
    (l.insertionSort (descending f)).head? = l.argmax f := by
  induction l with
  | nil => rfl
  | cons a rest ih =>
    rw [List.insertionSort_cons, List.argmax_cons, ← ih]
    cases rest.insertionSort (descending f) with
    | nil => rfl
    | cons b sorted =>
      simp only [List.orderedInsert, descending, List.head?_cons]
      by_cases h : f b ≤ f a
      · simp [h, not_lt.mpr h]
      · simp [h, not_le.mp h]

/-- The maximum of a list is the maximum of every part of the list that keeps it. -/
theorem argmax_filter {p : α → Bool} (hm : l.argmax f = some m) (hp : p m = true) :
    (l.filter p).argmax f = some m := by
  induction l generalizing m with
  | nil => cases hm
  | cons a rest ih =>
    rw [List.argmax_cons] at hm
    cases hrest : rest.argmax f with
    | none =>
      obtain rfl := List.argmax_eq_none.mp hrest
      simp only [hrest, Option.some.injEq] at hm
      subst hm
      simp [hp]
    | some c =>
      simp only [hrest] at hm
      split at hm
      · rename_i hlt
        obtain rfl := Option.some.inj hm
        rw [List.filter_cons]
        split
        · rw [List.argmax_cons, ih hrest hp]
          simp [hlt]
        · exact ih hrest hp
      · rename_i hge
        obtain rfl := Option.some.inj hm
        rw [List.filter_cons, if_pos hp, List.argmax_cons]
        cases hpart : (rest.filter p).argmax f with
        | none => rfl
        | some d =>
          have hd : f d ≤ f c :=
            List.le_of_mem_argmax (List.mem_of_mem_filter (List.argmax_mem hpart)) hrest
          simp [(hd.trans (not_lt.mp hge)).not_gt]

/-- No element of a list exceeds its maximum. -/
theorem le_argmax (hm : l.argmax f = some m) (ha : a ∈ l) : f a ≤ f m :=
  List.le_of_mem_argmax ha hm

/-- The maximum of a mapped list comes from a maximum of the list. -/
theorem argmax_map {γ : Type} (g : γ → α) (f : α → β) (l : List γ) :
    (l.map g).argmax f = (l.argmax (f ∘ g)).map g := by
  induction l with
  | nil => rfl
  | cons a rest ih =>
    rw [List.map_cons, List.argmax_cons, List.argmax_cons, ih]
    cases rest.argmax (f ∘ g) with
    | none => rfl
    | some c =>
      simp only [Option.map_some, Function.comp_apply]
      split <;> rfl

theorem argmax_congr {f g : α → β} (h : ∀ a ∈ l, f a = g a) : l.argmax f = l.argmax g := by
  induction l with
  | nil => rfl
  | cons a rest ih =>
    rw [List.argmax_cons, List.argmax_cons, ih fun b hb => h b (List.mem_cons_of_mem a hb)]
    cases hrest : rest.argmax g with
    | none => rfl
    | some c =>
      have hc := h c (List.mem_cons_of_mem a (List.argmax_mem hrest))
      have ha := h a List.mem_cons_self
      simp only [ha, hc]

/-! ## Places in a sorted list -/

/-- Of a sorted list the first `k` hold an element exactly when fewer than `k` stand before it. -/
theorem mem_take_iff_countP {α : Type} {R : α → α → Prop} {before : α → Bool} {l : List α} {x : α}
    (hsorted : l.Pairwise R) (hx : x ∈ l) (hself : before x = false)
    (hafter : ∀ y ∈ l, R x y → before y = false)
    (hbefore : ∀ y ∈ l, y ≠ x → R y x → before y = true) (k : ℕ) :
    x ∈ l.take k ↔ l.countP before < k := by
  induction l generalizing k with
  | nil => cases hx
  | cons a l ih =>
    obtain ⟨ha, hl⟩ := List.pairwise_cons.mp hsorted
    cases k with
    | zero => simp
    | succ k =>
      rw [List.take_succ_cons, List.mem_cons, List.countP_cons]
      by_cases hxa : x = a
      · subst hxa
        have hnone : l.countP before = 0 := by
          rw [List.countP_eq_zero]
          intro y hy hyes
          rw [hafter y (List.mem_cons_of_mem x hy) (ha y hy)] at hyes
          cases hyes
        simp [hnone, hself]
      · have hmem : x ∈ l := (List.mem_cons.mp hx).resolve_left hxa
        have hone : before a = true := hbefore a List.mem_cons_self (Ne.symm hxa) (ha x hmem)
        have hrest := ih hl hmem (fun y hy => hafter y (List.mem_cons_of_mem a hy))
          (fun y hy => hbefore y (List.mem_cons_of_mem a hy)) k
        rw [hone, if_pos rfl, or_iff_right hxa, hrest]
        omega

end Library.Ranking
