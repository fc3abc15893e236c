import Mathlib.Data.List.Basic

/-!
# Computations that may raise

`check e b` raises `e` unless `b` holds. The lemmas invert a successful computation:
a successful bind is two successful parts, a successful `mapM` a successful part for each
element.
-/

namespace Library

variable {ε α β : Type}

/-- Raise `e` unless `b`. -/
def check (e : ε) (b : Bool) : Except ε Unit := if b then .ok () else .error e

@[simp] theorem check_eq_ok {e : ε} {b : Bool} {u : Unit} : check e b = .ok u ↔ b = true := by
  cases b <;> simp [check]

theorem bind_eq_ok {x : Except ε α} {f : α → Except ε β} {b : β} :
    x >>= f = .ok b ↔ ∃ a, x = .ok a ∧ f a = .ok b := by
  cases x with
  | error e => simp [bind, Except.bind]
  | ok a => simp [bind, Except.bind]

@[simp] theorem ok_bind (a : α) (f : α → Except ε β) : (Except.ok a >>= f) = f a := rfl

@[simp] theorem error_bind (e : ε) (f : α → Except ε β) : (Except.error e >>= f) = .error e := rfl

@[simp] theorem pure_eq_ok {a b : α} : (pure a : Except ε α) = .ok b ↔ a = b := by
  simp [pure, Except.pure]

@[simp] theorem throw_ne_ok {e : ε} {b : α} : ((throw e : Except ε α) = .ok b) ↔ False := by
  simp [throw, throwThe, MonadExceptOf.throw]

theorem mapM_eq_ok {f : α → Except ε β} {l : List α} {l' : List β} :
    l.mapM f = .ok l' ↔ List.Forall₂ (fun a b => f a = .ok b) l l' := by
  induction l generalizing l' with
  | nil =>
    cases l' with
    | nil => simp
    | cons b rest => exact iff_of_false (by simp) nofun
  | cons a rest ih =>
    simp only [List.mapM_cons, bind_eq_ok, pure_eq_ok, ih]
    cases l' with
    | nil => exact iff_of_false (by simp) nofun
    | cons b rest' => simp [List.forall₂_cons]

/-- What a successful `mapM` returns came from its list. -/
theorem of_mem_mapM {f : α → Except ε β} {l : List α} {l' : List β} {b : β}
    (h : l.mapM f = .ok l') (hb : b ∈ l') : ∃ a ∈ l, f a = .ok b := by
  have hrel := mapM_eq_ok.mp h
  clear h
  induction hrel with
  | nil => cases hb
  | cons hhead _ ih =>
    rcases List.mem_cons.mp hb with rfl | hmem
    · exact ⟨_, List.mem_cons_self, hhead⟩
    · obtain ⟨a, ha, hfa⟩ := ih hmem
      exact ⟨a, List.mem_cons_of_mem _ ha, hfa⟩

end Library
