import Mathlib.Data.List.Basic

/-!
# Runs of a deterministic system

`run step s actions` is the state after the actions. An invariant that every step keeps
holds after every run (`run_inv`); one that is kept only by steps that satisfy a condition
holds after every run along which the condition holds (`run_inv_along`).
-/

namespace Library.Runs

variable {σ α : Type} (step : σ → α → σ)

def run (s : σ) (actions : List α) : σ := actions.foldl step s

@[simp] theorem run_nil (s : σ) : run step s [] = s := rfl

@[simp] theorem run_cons (s : σ) (a : α) (actions : List α) :
    run step s (a :: actions) = run step (step s a) actions := rfl

theorem run_append (s : σ) (actions actions' : List α) :
    run step s (actions ++ actions') = run step (run step s actions) actions' :=
  List.foldl_append

theorem run_concat (s : σ) (actions : List α) (a : α) :
    run step s (actions ++ [a]) = step (run step s actions) a := by
  rw [run_append, run_cons, run_nil]

variable {step}

theorem run_inv (I : σ → Prop) (hstep : ∀ s a, I s → I (step s a)) {s : σ} (h : I s)
    (actions : List α) : I (run step s actions) := by
  induction actions generalizing s with
  | nil => exact h
  | cons a rest ih => exact ih (hstep s a h)

/-- The condition holds of every step of the run. -/
def Along (step : σ → α → σ) (p : σ → α → Prop) : σ → List α → Prop
  | _, [] => True
  | s, a :: rest => p s a ∧ Along step p (step s a) rest

instance Along.decidable {p : σ → α → Prop} [∀ s a, Decidable (p s a)] :
    (s : σ) → (actions : List α) → Decidable (Along step p s actions)
  | _, [] => isTrue trivial
  | s, a :: rest =>
    have : Decidable (Along step p (step s a) rest) := Along.decidable (step s a) rest
    inferInstanceAs (Decidable (p s a ∧ Along step p (step s a) rest))

theorem run_inv_along {p : σ → α → Prop} (I : σ → Prop)
    (hstep : ∀ s a, I s → p s a → I (step s a)) {s : σ} (h : I s) {actions : List α}
    (halong : Along step p s actions) : I (run step s actions) := by
  induction actions generalizing s with
  | nil => exact h
  | cons a rest ih => exact ih (hstep s a h halong.1) halong.2

theorem Along.mono {p q : σ → α → Prop} (hpq : ∀ s a, p s a → q s a) {s : σ} {actions : List α}
    (h : Along step p s actions) : Along step q s actions := by
  induction actions generalizing s with
  | nil => trivial
  | cons a rest ih => exact ⟨hpq s a h.1, ih h.2⟩

theorem Along.and {p q : σ → α → Prop} {s : σ} {actions : List α} (h : Along step p s actions)
    (h' : Along step q s actions) : Along step (fun s a => p s a ∧ q s a) s actions := by
  induction actions generalizing s with
  | nil => trivial
  | cons a rest ih => exact ⟨⟨h.1, h'.1⟩, ih h.2 h'.2⟩

theorem Along.append {p : σ → α → Prop} {s : σ} {actions actions' : List α} :
    Along step p s (actions ++ actions') ↔
      Along step p s actions ∧ Along step p (run step s actions) actions' := by
  induction actions generalizing s with
  | nil => simp [Along]
  | cons a rest ih => simp [Along, ih, and_assoc]

end Library.Runs
