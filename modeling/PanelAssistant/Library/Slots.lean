import Mathlib.Data.List.Nodup

/-!
# Objects in the order in which they were made

Mutable objects that others keep references to stand in a list, and a reference is a place
in it: making an object appends it, and changing one is `List.modify`. The lemmas read a
place after either, and `Follows` says that every object is still there, in a later version.
-/

namespace Library.Slots

variable {α β : Type} {l l' : List α} {i j : Nat} {f : α → α} {a a' : α}

theorem modify_self (h : l[i]? = some a) : (l.modify i f)[i]? = some (f a) := by
  simp [h]

theorem modify_ne (h : j ≠ i) : (l.modify i f)[j]? = l[j]? := by
  simp [Ne.symm h]

/-- The places after a change: the changed one, or another as it was. -/
theorem modify_cases (h : (l.modify i f)[j]? = some a') :
    (j = i ∧ ∃ a, l[i]? = some a ∧ a' = f a) ∨ (j ≠ i ∧ l[j]? = some a') := by
  by_cases hj : j = i
  · subst hj
    rw [List.getElem?_modify_eq] at h
    obtain ⟨a, ha, rfl⟩ := Option.map_eq_some_iff.mp h
    exact Or.inl ⟨rfl, a, ha, rfl⟩
  · rw [modify_ne hj] at h
    exact Or.inr ⟨hj, h⟩

theorem map_modify {g : α → β} (h : ∀ a, l[i]? = some a → g (f a) = g a) :
    (l.modify i f).map g = l.map g := by
  apply List.ext_getElem?
  intro j
  rw [List.getElem?_map, List.getElem?_map]
  by_cases hj : j = i
  · subst hj
    cases ha : l[j]? with
    | none => simp [ha]
    | some a => rw [modify_self ha, Option.map_some, Option.map_some, h a ha]
  · rw [modify_ne hj]

theorem concat_of_some (h : l[i]? = some a) : (l ++ [a'])[i]? = some a := by
  rw [List.getElem?_append_left (List.getElem?_eq_some_iff.mp h).1, h]

/-- The places after an object was made: the new one, or an old one as it was. -/
theorem concat_cases (h : (l ++ [a])[j]? = some a') :
    (j = l.length ∧ a' = a) ∨ (j < l.length ∧ l[j]? = some a') := by
  rcases Nat.lt_trichotomy j l.length with hlt | heq | hgt
  · rw [List.getElem?_append_left hlt] at h
    exact Or.inr ⟨hlt, h⟩
  · subst heq
    rw [List.getElem?_concat_length] at h
    exact Or.inl ⟨rfl, (Option.some.inj h).symm⟩
  · rw [List.getElem?_eq_none (by simp; omega)] at h
    cases h

/-- Two objects with one key are one object, if the keys are distinct. -/
theorem eq_of_key {g : α → β} (h : (l.map g).Nodup) (ha : l[i]? = some a)
    (ha' : l[j]? = some a') (hg : g a = g a') : i = j := by
  have hi : (l.map g)[i]? = some (g a) := by rw [List.getElem?_map, ha]; rfl
  have hj : (l.map g)[j]? = some (g a) := by rw [List.getElem?_map, ha', hg]; rfl
  exact (List.getElem?_inj (List.getElem?_eq_some_iff.mp hi).1 h).mp (hi.trans hj.symm)

/-- Every object is still there, as `R` allows. -/
def Follows (R : α → α → Prop) (l l' : List α) : Prop :=
  ∀ (i : Nat) (a : α), l[i]? = some a → ∃ a', l'[i]? = some a' ∧ R a a'

variable {R : α → α → Prop}

theorem Follows.mem (h : Follows R l l') (ha : a ∈ l) : ∃ a' ∈ l', R a a' := by
  obtain ⟨i, hi⟩ := List.mem_iff_getElem?.mp ha
  obtain ⟨a', ha', hr⟩ := h i a hi
  exact ⟨a', List.mem_of_getElem? ha', hr⟩

theorem Follows.length_le (h : Follows R l l') : l.length ≤ l'.length := by
  by_contra hlt
  rw [Nat.not_le] at hlt
  obtain ⟨a', ha', -⟩ := h _ _ (List.getElem?_eq_getElem hlt)
  have := (List.getElem?_eq_some_iff.mp ha').1
  omega

theorem Follows.modify (hrefl : ∀ a, R a a) (hf : ∀ a, l[i]? = some a → R a (f a)) :
    Follows R l (l.modify i f) := by
  intro j a ha
  by_cases hj : j = i
  · subst hj
    exact ⟨f a, modify_self ha, hf a ha⟩
  · exact ⟨a, by rw [modify_ne hj, ha], hrefl a⟩

theorem Follows.concat (hrefl : ∀ a, R a a) (a : α) : Follows R l (l ++ [a]) :=
  fun _ _ ha' => ⟨_, concat_of_some ha', hrefl _⟩

end Library.Slots
