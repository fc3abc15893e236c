import Mathlib.Logic.Basic

/-!
# Programs that call an environment

A `Coop` program performs calls, gets a reply of the call's own type, and returns or raises.
What a call may do is a relation `step` between states, so a reply may depend on a shared
state, on chance and on what others did before the call was served.

`Exec` runs a program and records its calls. An execution of a bind or of an attempt is one of its
parts (`exec_bind_ok`, `exec_attempt`).
-/

namespace Library

/-- A program with calls `c : Call`, replies `Reply c`, exceptions `ε` and results `α`. -/
inductive Coop (Call : Type) (Reply : Call → Type) (ε α : Type) : Type
  | ret (a : α)
  | raise (e : ε)
  | perform (c : Call) (k : Reply c → Coop Call Reply ε α)

namespace Coop

variable {Call : Type} {Reply : Call → Type} {ε α β : Type}

def bind : Coop Call Reply ε α → (α → Coop Call Reply ε β) → Coop Call Reply ε β
  | ret a, f => f a
  | raise e, _ => raise e
  | perform c k, f => perform c fun x => bind (k x) f

instance : Monad (Coop Call Reply ε) where
  pure := ret
  bind := bind

/-- Run a program to its end and return the exception it raised, if it did. -/
def attempt : Coop Call Reply ε α → Coop Call Reply ε (Except ε α)
  | ret a => ret (.ok a)
  | raise e => ret (.error e)
  | perform c k => perform c fun x => attempt (k x)

/-- Perform one call. -/
def call (c : Call) : Coop Call Reply ε (Reply c) := perform c ret

/-- Return a value or raise its exception. -/
def ofExcept : Except ε α → Coop Call Reply ε α
  | .ok a => ret a
  | .error e => raise e

/-! ## Executions -/

section

variable {σ : Type} (step : σ → (c : Call) → Reply c → σ → Prop)

/-- A program runs from a state to a state, with its calls and their replies in order. -/
inductive Exec : Coop Call Reply ε α → σ → List ((c : Call) × Reply c) → Except ε α → σ → Prop
  | ret (a : α) (s : σ) : Exec (ret a) s [] (.ok a) s
  | raise (e : ε) (s : σ) : Exec (raise e) s [] (.error e) s
  | perform (c : Call) (k : Reply c → Coop Call Reply ε α) (s : σ) (x : Reply c) (s' : σ)
      (trace : List ((c : Call) × Reply c)) (o : Except ε α) (s'' : σ) (h : step s c x s')
      (rest : Exec (k x) s' trace o s'') : Exec (perform c k) s (⟨c, x⟩ :: trace) o s''

end

section

variable {σ : Type} {step : σ → (c : Call) → Reply c → σ → Prop} {s s'' : σ}
  {trace : List ((c : Call) × Reply c)}

/-- A bind that returned is two parts that returned. -/
theorem exec_bind_ok {p : Coop Call Reply ε α} {f : α → Coop Call Reply ε β} {b : β}
    (h : Exec step (p >>= f) s trace (.ok b) s'') :
    ∃ a trace₁ trace₂ s', trace = trace₁ ++ trace₂ ∧ Exec step p s trace₁ (.ok a) s' ∧
      Exec step (f a) s' trace₂ (.ok b) s'' := by
  induction p generalizing s trace with
  | ret a => exact ⟨a, [], trace, s, rfl, .ret a s, h⟩
  | raise e => cases h
  | perform c k ih =>
    cases h with
    | perform _ _ _ x s₁ rest _ _ hstep hrest =>
      obtain ⟨a, trace₁, trace₂, s', rfl, hp, hf⟩ := ih x hrest
      exact ⟨a, ⟨c, x⟩ :: trace₁, trace₂, s', rfl, .perform c k s x s₁ trace₁ _ s' hstep hp, hf⟩

theorem exec_attempt {p : Coop Call Reply ε α} {o : Except ε (Except ε α)}
    (h : Exec step (attempt p) s trace o s'') : ∃ o', o = .ok o' ∧ Exec step p s trace o' s'' := by
  induction p generalizing s trace with
  | ret a =>
    cases h
    exact ⟨_, rfl, .ret a _⟩
  | raise e =>
    cases h
    exact ⟨_, rfl, .raise e _⟩
  | perform c k ih =>
    cases h with
    | perform _ _ _ x s₁ rest _ _ hstep hrest =>
      obtain ⟨o', rfl, hp⟩ := ih x hrest
      exact ⟨o', rfl, .perform c k s x s₁ rest o' s'' hstep hp⟩

theorem exec_call {c : Call} {x : Reply c}
    (h : Exec step (call c : Coop Call Reply ε (Reply c)) s trace (.ok x) s'') :
    trace = [⟨c, x⟩] := by
  cases h with
  | perform _ _ _ x' s₁ rest _ _ hstep hrest =>
    cases hrest
    rfl

theorem exec_ofExcept {o : Except ε α} {a : α} (h : Exec step (ofExcept o) s trace (.ok a) s'') :
    o = .ok a ∧ trace = [] := by
  cases o with
  | ok a' =>
    cases h
    exact ⟨rfl, rfl⟩
  | error e => cases h

theorem exec_pure {a b : α} (h : Exec step (pure a : Coop Call Reply ε α) s trace (.ok b) s'') :
    a = b := by
  cases h
  rfl

end

end Coop

end Library
