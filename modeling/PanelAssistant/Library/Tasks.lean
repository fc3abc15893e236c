import PanelAssistant.Library.Runs

/-!
# Tasks over one shared state

A program of cooperative tasks: a call runs up to its first await, and a task that is woken
runs from one await to the next. Whatever happens between two awaits of a task is another
task's step, so a run is a list of moves in any order.

`run_inv` is the rule for interference: an invariant of the shared state, a property of each
task against the shared state, and a relation between any two tasks hold over every run, if
each move establishes them for the task that moved and keeps them for every other task.
-/

namespace Library.Tasks

/-- The shared state, and the tasks in the order in which they were started. -/
structure Pool (σ τ : Type) where
  shared : σ
  tasks : List τ

inductive Move (α ε : Type) where
  | start (call : α)
  | wake (i : Nat) (event : ε)

/-- What a call does up to its first await, and a task from one await to the next; `none`
where the event is not one the task waits for. -/
structure Program (σ τ α ε : Type) where
  start : σ → α → σ × τ
  wake : σ → τ → ε → Option (σ × τ)

variable {σ τ α ε : Type} (P : Program σ τ α ε)

namespace Program

def step (p : Pool σ τ) : Move α ε → Pool σ τ
  | .start call => ⟨(P.start p.shared call).1, p.tasks ++ [(P.start p.shared call).2]⟩
  | .wake i event =>
    match p.tasks[i]? with
    | none => p
    | some t =>
      match P.wake p.shared t event with
      | none => p
      | some (s, t') => ⟨s, p.tasks.set i t'⟩

/-- The pool after a run. -/
abbrev run (p : Pool σ τ) (moves : List (Move α ε)) : Pool σ τ := Runs.run P.step p moves

/-- What a move can do: nothing, start a task, or take one task to its next await. -/
inductive Moved (p : Pool σ τ) : Move α ε → Pool σ τ → Prop
  | idle (move : Move α ε) : Moved p move p
  | started (call : α) (s : σ) (t : τ) (h : P.start p.shared call = (s, t)) :
    Moved p (.start call) ⟨s, p.tasks ++ [t]⟩
  | woken (i : Nat) (event : ε) (t : τ) (s : σ) (t' : τ) (ht : p.tasks[i]? = some t)
      (h : P.wake p.shared t event = some (s, t')) :
    Moved p (.wake i event) ⟨s, p.tasks.set i t'⟩

theorem step_moved (p : Pool σ τ) (move : Move α ε) : Moved P p move (P.step p move) := by
  cases move with
  | start call => exact .started call _ _ rfl
  | wake i event =>
    simp only [step]
    split
    · exact .idle _
    · rename_i t ht
      split
      · exact .idle _
      · rename_i s t' hw
        exact .woken i event t s t' ht hw

end Program

/-! ## Membership -/

theorem mem_set_of_ne {tasks : List τ} {i : Nat} {t t' u : τ} (ht : tasks[i]? = some t)
    (hu : u ∈ tasks) : u = t ∨ u ∈ tasks.set i t' := by
  obtain ⟨k, hk⟩ := List.mem_iff_getElem?.mp hu
  by_cases h : k = i
  · subst h
    rw [ht, Option.some.injEq] at hk
    exact Or.inl hk.symm
  · right
    refine List.mem_iff_getElem?.mpr ⟨k, ?_⟩
    rw [List.getElem?_set_ne (Ne.symm h)]
    exact hk

theorem mem_set_self {tasks : List τ} {i : Nat} {t t' : τ} (ht : tasks[i]? = some t) :
    t' ∈ tasks.set i t' := by
  obtain ⟨hi, -⟩ := List.getElem?_eq_some_iff.mp ht
  exact List.mem_set hi t'

/-! ## The rule -/

/-- An invariant of the shared state, of each task, and of any two different tasks. -/
structure Inv (G : σ → Prop) (L : σ → τ → Prop) (C : τ → τ → Prop) (p : Pool σ τ) : Prop where
  shared : G p.shared
  task : ∀ (i : Nat) t, p.tasks[i]? = some t → L p.shared t
  pair : ∀ (i k : Nat) t u, p.tasks[i]? = some t → p.tasks[k]? = some u → i ≠ k → C t u

variable {G : σ → Prop} {L : σ → τ → Prop} {C : τ → τ → Prop}

theorem Inv.step (hsymm : ∀ t u, C t u → C u t)
    (hstart : ∀ s call s' t, G s → P.start s call = (s', t) →
      G s' ∧ L s' t ∧ ∀ u, L s u → L s' u ∧ C t u)
    (hwake : ∀ s t event s' t', G s → L s t → P.wake s t event = some (s', t') →
      G s' ∧ L s' t' ∧ ∀ u, L s u → C t u → L s' u ∧ C t' u)
    {p : Pool σ τ} (h : Inv G L C p) (move : Move α ε) : Inv G L C (P.step p move) := by
  have hmoved := P.step_moved p move
  generalize P.step p move = p' at hmoved ⊢
  cases hmoved with
  | idle => exact h
  | started call s t hs =>
    obtain ⟨hG, hL, hothers⟩ := hstart _ _ _ _ h.shared hs
    have hold : ∀ i u, (p.tasks ++ [t])[i]? = some u → p.tasks[i]? = some u ∨
        i = p.tasks.length ∧ u = t := by
      intro i u hu
      rcases Nat.lt_trichotomy i p.tasks.length with hi | hi | hi
      · rw [List.getElem?_append_left hi] at hu
        exact Or.inl hu
      · subst hi
        rw [List.getElem?_concat_length, Option.some.injEq] at hu
        exact Or.inr ⟨rfl, hu.symm⟩
      · rw [List.getElem?_eq_none (by simp; omega)] at hu
        cases hu
    refine ⟨hG, fun i u hu => ?_, fun i k u v hu hv hik => ?_⟩
    · rcases hold i u hu with hu | ⟨-, rfl⟩
      · exact (hothers u (h.task i u hu)).1
      · exact hL
    · rcases hold i u hu with hu' | ⟨hi, rfl⟩ <;> rcases hold k v hv with hv' | ⟨hk, rfl⟩
      · exact h.pair i k u v hu' hv' hik
      · exact hsymm _ _ (hothers u (h.task i u hu')).2
      · exact (hothers v (h.task k v hv')).2
      · exact absurd (hi.trans hk.symm) hik
  | woken i event t s t' ht hw =>
    obtain ⟨hG, hL, hothers⟩ := hwake _ _ _ _ _ h.shared (h.task i t ht) hw
    have hold : ∀ k u, (p.tasks.set i t')[k]? = some u → k ≠ i ∧ p.tasks[k]? = some u ∨
        k = i ∧ u = t' := by
      intro k u hu
      by_cases hk : k = i
      · subst hk
        rw [List.getElem?_set_self (List.getElem?_eq_some_iff.mp ht).1, Option.some.injEq] at hu
        exact Or.inr ⟨rfl, hu.symm⟩
      · rw [List.getElem?_set_ne (Ne.symm hk)] at hu
        exact Or.inl ⟨hk, hu⟩
    refine ⟨hG, fun k u hu => ?_, fun j k u v hu hv hjk => ?_⟩
    · rcases hold k u hu with ⟨hk, hu⟩ | ⟨-, rfl⟩
      · exact (hothers u (h.task k u hu) (h.pair i k t u ht hu (Ne.symm hk))).1
      · exact hL
    · rcases hold j u hu with ⟨hj, hu'⟩ | ⟨hj, rfl⟩ <;>
        rcases hold k v hv with ⟨hk, hv'⟩ | ⟨hk, rfl⟩
      · exact h.pair j k u v hu' hv' hjk
      · exact hsymm _ _ (hothers u (h.task j u hu') (h.pair i j t u ht hu' (Ne.symm hj))).2
      · exact (hothers v (h.task k v hv') (h.pair i k t v ht hv' (Ne.symm hk))).2
      · exact absurd (hj.trans hk.symm) hjk

/-- The rule for whole runs, from a pool without tasks. -/
theorem run_inv (hsymm : ∀ t u, C t u → C u t)
    (hstart : ∀ s call s' t, G s → P.start s call = (s', t) →
      G s' ∧ L s' t ∧ ∀ u, L s u → L s' u ∧ C t u)
    (hwake : ∀ s t event s' t', G s → L s t → P.wake s t event = some (s', t') →
      G s' ∧ L s' t' ∧ ∀ u, L s u → C t u → L s' u ∧ C t' u)
    {s : σ} (hs : G s) (moves : List (Move α ε)) : Inv G L C (P.run ⟨s, []⟩ moves) :=
  Runs.run_inv (Inv G L C) (fun _ move h => h.step P hsymm hstart hwake move)
    ⟨hs, by simp, by simp⟩ moves

end Library.Tasks
