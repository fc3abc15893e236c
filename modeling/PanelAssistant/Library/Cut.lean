import Mathlib.Data.List.Basic
import Mathlib.Data.List.Infix

/-!
# Cutting at a pattern

`cut` takes a list apart at the first place where a pattern stands, and `splitPair` at every place
where two elements stand in a row. Pieces that do not hold the pattern's first element come out as
they were put together (`cut_append`, `splitPair_joinPair`).
-/

namespace Library.Cut

variable {α : Type} [DecidableEq α] {a b : α}

/-- What precedes the first place of the pattern, and what follows. -/
def cut (pattern : List α) : List α → Option (List α × List α)
  | [] => if pattern = [] then some ([], []) else none
  | c :: rest =>
    if pattern.isPrefixOf (c :: rest) then some ([], (c :: rest).drop pattern.length)
    else (cut pattern rest).map fun parts => (c :: parts.1, parts.2)

/-- The pieces between the places where `a` stands before `b`. -/
def splitPair (a b : α) : List α → List (List α)
  | [] => [[]]
  | [c] => [[c]]
  | c :: d :: rest =>
    if c = a ∧ d = b then [] :: splitPair a b rest
    else (splitPair a b (d :: rest)).modifyHead (c :: ·)

/-- Pieces with `a` and `b` between them. -/
def joinPair (a b : α) : List (List α) → List α
  | [] => []
  | [piece] => piece
  | piece :: next :: pieces => piece ++ a :: b :: joinPair a b (next :: pieces)

theorem cut_eq_some {pattern l before after : List α} (h : cut pattern l = some (before, after)) :
    l = before ++ pattern ++ after := by
  induction l generalizing before with
  | nil =>
    obtain ⟨rfl, h⟩ := Option.ite_none_right_eq_some.mp h
    cases h
    rfl
  | cons c rest ih =>
    rw [cut] at h
    split at h
    · rename_i hpre
      cases h
      exact (List.prefix_iff_eq_append.mp (List.isPrefixOf_iff_prefix.mp hpre)).symm
    · obtain ⟨⟨before', after'⟩, hrest, heq⟩ := Option.map_eq_some_iff.mp h
      cases heq
      rw [ih hrest]
      rfl

theorem cut_self (pattern rest : List α) (h : pattern ≠ []) :
    cut pattern (pattern ++ rest) = some ([], rest) := by
  cases hlist : pattern ++ rest with
  | nil => exact absurd (List.append_eq_nil_iff.mp hlist).1 h
  | cons c tail =>
    have hpre : pattern.isPrefixOf (c :: tail) = true := by
      rw [List.isPrefixOf_iff_prefix, ← hlist]
      exact List.prefix_append _ _
    rw [cut, if_pos hpre, ← hlist, List.drop_left]

/-- Elements that do not start the pattern are passed over. -/
theorem cut_append {pattern l : List α} (h : a ∉ l) (rest : List α) :
    cut (a :: pattern) (l ++ rest) =
      (cut (a :: pattern) rest).map fun parts => (l ++ parts.1, parts.2) := by
  induction l with
  | nil =>
    rw [List.nil_append]
    cases cut (a :: pattern) rest <;> rfl
  | cons c l ih =>
    rw [List.mem_cons, not_or] at h
    have hpre : (a :: pattern).isPrefixOf (c :: (l ++ rest)) = false := by
      rw [Bool.eq_false_iff, Ne, List.isPrefixOf_iff_prefix, List.cons_prefix_cons]
      exact fun hpre => h.1 hpre.1
    rw [List.cons_append, cut, hpre, ih h.2]
    cases cut (a :: pattern) rest <;> rfl

/-- A pair that no further pair follows is passed over. -/
theorem cut_pair {l : List α} (h : ∀ c rest, l = c :: rest → c ≠ a) (hne : l ≠ []) (hab : a ≠ b) :
    cut [a, b, a, b] (a :: b :: l) = (cut [a, b, a, b] l).map fun parts =>
      (a :: b :: parts.1, parts.2) := by
  obtain ⟨c, rest, rfl⟩ := List.exists_cons_of_ne_nil hne
  have hc := h c rest rfl
  have hfirst : [a, b, a, b].isPrefixOf (a :: b :: c :: rest) = false := by
    rw [Bool.eq_false_iff, Ne, List.isPrefixOf_iff_prefix]
    simp only [List.cons_prefix_cons, true_and]
    exact fun hpre => hc hpre.1.symm
  have hsecond : [a, b, a, b].isPrefixOf (b :: c :: rest) = false := by
    rw [Bool.eq_false_iff, Ne, List.isPrefixOf_iff_prefix, List.cons_prefix_cons]
    exact fun hpre => hab hpre.1
  conv_lhs => rw [cut, hfirst, cut, hsecond]
  simp only [Bool.false_eq_true, if_false, Option.map_map]
  rfl

/-- The first two pairs in a row end the pieces. -/
theorem cut_joinPair {pieces : List (List α)} (hab : a ≠ b) (hmem : ∀ piece ∈ pieces, a ∉ piece)
    (hne : ∀ piece ∈ pieces, piece ≠ []) (rest : List α) :
    cut [a, b, a, b] (joinPair a b pieces ++ ([a, b, a, b] ++ rest)) =
      some (joinPair a b pieces, rest) := by
  induction pieces with
  | nil => exact cut_self _ rest (List.cons_ne_nil _ _)
  | cons piece pieces ih =>
    obtain ⟨hpiece, hpieces⟩ := List.forall_mem_cons.mp hmem
    obtain ⟨-, hnes⟩ := List.forall_mem_cons.mp hne
    cases pieces with
    | nil =>
      rw [joinPair, cut_append hpiece, cut_self _ rest (List.cons_ne_nil _ _)]
      simp
    | cons next pieces =>
      obtain ⟨hnext, -⟩ := List.forall_mem_cons.mp hpieces
      obtain ⟨hnextne, -⟩ := List.forall_mem_cons.mp hnes
      obtain ⟨c, tail, rfl⟩ := List.exists_cons_of_ne_nil hnextne
      have hhead : ∃ l, joinPair a b ((c :: tail) :: pieces) = c :: l := by
        cases pieces with
        | nil => exact ⟨tail, rfl⟩
        | cons third pieces => exact ⟨_, rfl⟩
      obtain ⟨l, hl⟩ := hhead
      have hstart : ∀ d rest', joinPair a b ((c :: tail) :: pieces) ++
        ([a, b, a, b] ++ rest) = d :: rest' →
          d ≠ a := by
        intro d rest' heq
        rw [hl, List.cons_append, List.cons.injEq] at heq
        rw [← heq.1]
        exact fun hca => hnext (hca ▸ List.mem_cons_self)
      have hnonempty : joinPair a b ((c :: tail) :: pieces) ++ ([a, b, a, b] ++ rest) ≠ [] := by
        rw [hl]
        exact List.cons_ne_nil _ _
      rw [joinPair, List.append_assoc, List.cons_append, List.cons_append, cut_append hpiece,
        cut_pair hstart hnonempty hab, ih hpieces hnes]
      rfl

theorem splitPair_ne_nil (l : List α) : splitPair a b l ≠ [] := by
  fun_induction splitPair a b l with
  | case1 => exact List.cons_ne_nil _ _
  | case2 => exact List.cons_ne_nil _ _
  | case3 => exact List.cons_ne_nil _ _
  | case4 c d rest h ih =>
    obtain ⟨piece, pieces, hpieces⟩ := List.exists_cons_of_ne_nil ih
    rw [hpieces]
    exact List.cons_ne_nil _ _

/-- The pieces put together are the list. -/
theorem joinPair_splitPair (l : List α) : joinPair a b (splitPair a b l) = l := by
  fun_induction splitPair a b l with
  | case1 => rfl
  | case2 => rfl
  | case3 c d rest h ih =>
    obtain ⟨rfl, rfl⟩ := h
    obtain ⟨piece, pieces, hpieces⟩ :=
      List.exists_cons_of_ne_nil (splitPair_ne_nil (a := c) (b := d) rest)
    rw [hpieces] at ih ⊢
    rw [joinPair, ih]
    rfl
  | case4 c d rest h ih =>
    obtain ⟨piece, pieces, hpieces⟩ :=
      List.exists_cons_of_ne_nil (splitPair_ne_nil (a := a) (b := b) (d :: rest))
    rw [hpieces] at ih ⊢
    cases pieces with
    | nil => simpa [joinPair] using ih
    | cons next pieces => simpa [joinPair] using ih

theorem splitPair_of_not_mem {piece : List α} (h : a ∉ piece) : splitPair a b piece = [piece] := by
  fun_induction splitPair a b piece with
  | case1 => rfl
  | case2 => rfl
  | case3 c d rest hpair ih => exact absurd (hpair.1 ▸ List.mem_cons_self) h
  | case4 c d rest hpair ih =>
    rw [ih (List.not_mem_of_not_mem_cons h)]
    rfl

theorem splitPair_append {piece : List α} (h : a ∉ piece) (rest : List α) :
    splitPair a b (piece ++ a :: b :: rest) = piece :: splitPair a b rest := by
  induction piece with
  | nil => simp [splitPair]
  | cons c piece ih =>
    rw [List.mem_cons, not_or] at h
    have hstep : ∀ d tail, splitPair a b (c :: d :: tail) =
        (splitPair a b (d :: tail)).modifyHead (c :: ·) := by
      intro d tail
      rw [splitPair, if_neg fun hpair => h.1 hpair.1.symm]
    cases piece with
    | nil =>
      rw [List.singleton_append, hstep, ← List.nil_append (a :: b :: rest), ih h.2]
      rfl
    | cons d piece =>
      rw [List.cons_append, List.cons_append, hstep, ← List.cons_append, ih h.2]
      rfl

/-- **Pieces come apart as they were put together.** -/
theorem splitPair_joinPair {pieces : List (List α)} (hne : pieces ≠ [])
    (h : ∀ piece ∈ pieces, a ∉ piece) : splitPair a b (joinPair a b pieces) = pieces := by
  induction pieces with
  | nil => exact absurd rfl hne
  | cons piece pieces ih =>
    obtain ⟨hpiece, hpieces⟩ := List.forall_mem_cons.mp h
    cases pieces with
    | nil => exact splitPair_of_not_mem hpiece
    | cons next pieces =>
      rw [joinPair, splitPair_append hpiece, ih (List.cons_ne_nil _ _) hpieces]

end Library.Cut
