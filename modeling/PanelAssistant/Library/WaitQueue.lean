import Mathlib.Data.List.Basic

/-!
# Queues whose readers wait

A queue of an event loop. A reader that finds nothing waits; an item that is put in wakes the
reader that has waited longest, which runs some time later. Until then another reader may take
the item, and the woken one waits again.

The readers that wait lag behind the items: while one waits, no more items are there than readers
that were woken for them (`Lagging`).
-/

namespace Library

structure WaitQueue (α : Type) where
  items : List α
  /-- The readers that wait, the first one first. -/
  waiting : List ℕ
  /-- The readers that were woken and have not run yet. -/
  woken : List ℕ

namespace WaitQueue

variable {α : Type}

def empty : WaitQueue α := ⟨[], [], []⟩

/-- How many readers have not returned. -/
def pending (q : WaitQueue α) : ℕ := q.waiting.length + q.woken.length

/-- An item is put in, and the first reader that waits is woken. -/
def push (q : WaitQueue α) (a : α) : WaitQueue α :=
  match q.waiting with
  | [] => { q with items := q.items ++ [a] }
  | reader :: rest => ⟨q.items ++ [a], rest, q.woken ++ [reader]⟩

/-- `put_nowait`, which is refused while the queue is full. -/
def putNowait (maxSize : ℕ) (q : WaitQueue α) (a : α) : Option (WaitQueue α) :=
  if q.items.length < maxSize then some (q.push a) else none

/-- `get` up to where it returns or waits. -/
def get (q : WaitQueue α) (reader : ℕ) : Option α × WaitQueue α :=
  match q.items with
  | [] => (none, { q with waiting := q.waiting ++ [reader] })
  | a :: rest => (some a, { q with items := rest })

/-- A woken reader runs. -/
def resume (q : WaitQueue α) (reader : ℕ) : Option α × WaitQueue α :=
  if reader ∈ q.woken then { q with woken := q.woken.erase reader }.get reader else (none, q)

section

variable {q : WaitQueue α} {a : α} {reader maxSize : ℕ}

@[simp] theorem items_push : (q.push a).items = q.items ++ [a] := by
  unfold push
  split <;> rfl

theorem putNowait_of_lt (h : q.items.length < maxSize) : q.putNowait maxSize a = some (q.push a) :=
  if_pos h

/-- What a reader takes is the first item. -/
theorem get_items : (q.get reader).1.toList ++ (q.get reader).2.items = q.items := by
  unfold get
  split
  · rename_i h
    simp [h]
  · rename_i h
    simp [h]

theorem resume_items : (q.resume reader).1.toList ++ (q.resume reader).2.items = q.items := by
  unfold resume
  split
  · exact get_items
  · rfl

/-- While a reader waits, every item has a reader that was woken for it. -/
def Lagging (q : WaitQueue α) : Prop := q.waiting ≠ [] → q.items.length ≤ q.woken.length

theorem lagging_empty : (empty : WaitQueue α).Lagging := fun h => absurd rfl h

theorem Lagging.push (h : q.Lagging) : (q.push a).Lagging := by
  intro hwaiting
  unfold WaitQueue.push at hwaiting ⊢
  split at hwaiting
  · rename_i hnone
    exact absurd hnone hwaiting
  · rename_i first rest hsome
    have hle := h (by rw [hsome]; exact List.cons_ne_nil _ _)
    simp only [List.length_append, List.length_singleton]
    omega

theorem Lagging.get (h : q.Lagging) : (q.get reader).2.Lagging := by
  intro hwaiting
  unfold WaitQueue.get at hwaiting ⊢
  split at hwaiting
  · rename_i hitems
    simp only [hitems, List.length_nil, Nat.zero_le]
  · rename_i first rest hitems
    have hle := h hwaiting
    simp only [hitems, List.length_cons] at hle ⊢
    omega

theorem Lagging.resume (h : q.Lagging) : (q.resume reader).2.Lagging := by
  unfold WaitQueue.resume
  split
  · rename_i hwoken
    have hlength := List.length_erase_of_mem hwoken
    have hpos := List.length_pos_of_mem hwoken
    intro hwaiting
    cases hitems : q.items with
    | nil => simp only [WaitQueue.get, List.length_nil, Nat.zero_le]
    | cons first rest =>
      simp only [WaitQueue.get, hitems] at hwaiting ⊢
      have hle := h hwaiting
      rw [hitems, List.length_cons] at hle
      omega
  · exact h

/-- Nobody waits, and every reader that was woken finds an item. -/
structure Served (q : WaitQueue α) : Prop where
  waiting : q.waiting = []
  woken : q.woken.length ≤ q.items.length

/-- An item serves everybody while at most one reader more than items is pending. -/
theorem Lagging.served_push (h : q.Lagging) (hpending : q.pending ≤ q.items.length + 1) :
    (q.push a).Served := by
  unfold WaitQueue.push
  unfold WaitQueue.pending at hpending
  split
  · rename_i hnone
    refine ⟨hnone, ?_⟩
    simp only [hnone, List.length_nil, List.length_append, List.length_singleton] at hpending ⊢
    omega
  · rename_i first rest hsome
    have hle := h (by rw [hsome]; exact List.cons_ne_nil _ _)
    rw [hsome, List.length_cons] at hpending
    have hrest : rest.length = 0 := by omega
    refine ⟨List.length_eq_zero_iff.mp hrest, ?_⟩
    simp only [List.length_append, List.length_singleton]
    omega

theorem Served.get (h : q.Served) (hfew : q.woken.length < q.items.length) :
    (q.get reader).2.Served := by
  unfold WaitQueue.get
  split
  · rename_i hitems
    rw [hitems] at hfew
    cases hfew
  · rename_i first rest hitems
    rw [hitems, List.length_cons] at hfew
    exact ⟨h.waiting, by simp only; omega⟩

theorem Served.resume (h : q.Served) : (q.resume reader).2.Served := by
  unfold WaitQueue.resume
  split
  · rename_i hwoken
    have hlength := List.length_erase_of_mem hwoken
    have hpos := List.length_pos_of_mem hwoken
    have hle := h.woken
    exact Served.get ⟨h.waiting, by simp only; omega⟩ (by simp only; omega)
  · exact h

theorem get_isSome (h : q.items ≠ []) : (q.get reader).1.isSome = true := by
  unfold get
  split
  · rename_i hitems
    exact absurd hitems h
  · rfl

/-- A woken reader returns. -/
theorem Served.resume_isSome (h : q.Served) (hwoken : reader ∈ q.woken) :
    (q.resume reader).1.isSome = true := by
  have hpos := List.length_pos_of_mem hwoken
  have hle := h.woken
  have hitems : q.items ≠ [] := List.ne_nil_of_length_pos (by omega)
  rw [WaitQueue.resume, if_pos hwoken]
  exact get_isSome hitems

end

end WaitQueue

end Library
