import Mathlib.Data.List.DropRight
import Mathlib.Tactic.Common

/-!
# Logs that keep their newest entries

Appending to the newest `n` entries of a log that was cut to its newest `n + 1` is cutting the whole
log to its newest `n + 1` (`keep_rtake`). What a search from the end finds in the whole log, it
finds in the cut one exactly if fewer than `n` entries lie behind it (`findSome?_rtake`).
-/

namespace Library.BoundedLog

variable {α β : Type} {l : List α}

/-- The newest `n` entries and one more. -/
def keep (n : ℕ) (l : List α) (a : α) : List α := l.rtake n ++ [a]

theorem rtake_rtake (l : List α) {m n : ℕ} (h : m ≤ n) : (l.rtake n).rtake m = l.rtake m := by
  simp only [List.rtake_eq_reverse_take_reverse, List.reverse_reverse,
    List.take_take, Nat.min_eq_left h]

theorem keep_rtake (n : ℕ) (l : List α) (a : α) :
    keep n (l.rtake (n + 1)) a = (l ++ [a]).rtake (n + 1) := by
  rw [keep, rtake_rtake l (Nat.le_succ n), List.rtake_concat_succ]

/-! ## The newest entry of a kind -/

variable (f : α → Option β)

/-- The newest entry that `f` reads. -/
def latest (l : List α) : Option β := l.reverse.findSome? f

/-- How many entries lie behind the newest one that `f` reads. -/
def behind (l : List α) : ℕ := (l.reverse.takeWhile fun a => (f a).isNone).length

theorem latest_append (l l' : List α) : latest f (l ++ l') = (latest f l').or (latest f l) := by
  rw [latest, List.reverse_append, List.findSome?_append, latest, latest]

theorem latest_concat (l : List α) (a : α) : latest f (l ++ [a]) = (f a).or (latest f l) := by
  rw [latest, List.reverse_append, List.reverse_singleton, List.singleton_append,
    List.findSome?_cons, latest]
  cases f a <;> rfl

variable {f}

theorem latest_eq_none {l : List α} : latest f l = none ↔ ∀ a ∈ l, f a = none := by
  simp [latest, List.findSome?_eq_none_iff]

theorem exists_of_latest {l : List α} {b : β} (h : latest f l = some b) :
    ∃ a ∈ l, f a = some b := by
  obtain ⟨a, ha, hb⟩ := List.exists_of_findSome?_eq_some h
  exact ⟨a, List.mem_reverse.mp ha, hb⟩

theorem findSome?_take (l : List α) (n : ℕ) :
    (l.take n).findSome? f =
      if (l.takeWhile fun a => (f a).isNone).length < n then l.findSome? f else none := by
  induction l generalizing n with
  | nil => cases n <;> rfl
  | cons a l ih =>
    cases n with
    | zero => simp
    | succ n =>
      rw [List.take_succ_cons, List.findSome?_cons, List.findSome?_cons, List.takeWhile_cons]
      cases ha : f a with
      | none => simp [ih n]
      | some b => simp

/-- What a search in the cut log finds. -/
theorem latest_rtake (l : List α) (n : ℕ) :
    latest f (l.rtake n) = if behind f l < n then latest f l else none := by
  rw [latest, List.rtake_eq_reverse_take_reverse, List.reverse_reverse,
    findSome?_take, behind, latest]

theorem latest_rtake_eq (l : List α) (n : ℕ) :
    latest f (l.rtake n) = latest f l ↔ (latest f l = none ∨ behind f l < n) := by
  rw [latest_rtake]
  by_cases h : behind f l < n
  · simp [h]
  · simp [h, eq_comm]

end Library.BoundedLog
