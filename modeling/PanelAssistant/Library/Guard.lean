import PanelAssistant.Library.Coop

/-!
# Programs that keep to a discipline

`Safe` is the guarantee of a program that shares its world with others: whatever replies come,
every call it makes is `allowed` in the view it has by then, and every end satisfies `post`. What a
reply adds to the view is a relation `serves`, so the view may know less than the world. It is
compositional (`safe_bind`, `safe_attempt`) and monotone (`safe_mono`).
-/

namespace Library.Coop

variable {Call : Type} {Reply : Call → Type} {ε α β κ : Type}

section

variable (allowed : κ → Call → Prop) (serves : κ → (c : Call) → Reply c → κ → Prop)

/-- Every reached call is allowed in its view, and every end satisfies `post`. -/
def Safe (post : Except ε α → κ → Prop) : Coop Call Reply ε α → κ → Prop
  | ret a, view => post (.ok a) view
  | raise e, view => post (.error e) view
  | perform c k, view => allowed view c ∧ ∀ x view', serves view c x view' → Safe post (k x) view'

end

variable {allowed : κ → Call → Prop} {serves : κ → (c : Call) → Reply c → κ → Prop}

theorem safe_mono {post post' : Except ε α → κ → Prop}
    (hpost : ∀ o view, post o view → post' o view)
    {p : Coop Call Reply ε α} {view : κ} (h : Safe allowed serves post p view) :
    Safe allowed serves post' p view := by
  induction p generalizing view with
  | ret a => exact hpost _ _ h
  | raise e => exact hpost _ _ h
  | perform c k ih => exact ⟨h.1, fun x view' hserves => ih x (h.2 x view' hserves)⟩

@[simp] theorem safe_pure {post : Except ε α → κ → Prop} (a : α) (view : κ) :
    Safe allowed serves post (pure a : Coop Call Reply ε α) view = post (.ok a) view := rfl

@[simp] theorem safe_ret {post : Except ε α → κ → Prop} (a : α) (view : κ) :
    Safe allowed serves post (ret a : Coop Call Reply ε α) view = post (.ok a) view := rfl

@[simp] theorem safe_raise {post : Except ε α → κ → Prop} (e : ε) (view : κ) :
    Safe allowed serves post (raise e : Coop Call Reply ε α) view = post (.error e) view := rfl

/-- A bind is safe when its first part ends where its second part is safe. -/
theorem safe_bind {mid : Except ε α → κ → Prop} {post : Except ε β → κ → Prop}
    {p : Coop Call Reply ε α} {f : α → Coop Call Reply ε β} {view : κ}
    (hp : Safe allowed serves mid p view)
    (hok : ∀ a view', mid (.ok a) view' → Safe allowed serves post (f a) view')
    (herror : ∀ e view', mid (.error e) view' → post (.error e) view') :
    Safe allowed serves post (p >>= f) view := by
  induction p generalizing view with
  | ret a => exact hok a view hp
  | raise e => exact herror e view hp
  | perform c k ih => exact ⟨hp.1, fun x view' hserves => ih x (hp.2 x view' hserves)⟩

theorem safe_attempt {post : Except ε (Except ε α) → κ → Prop} {p : Coop Call Reply ε α} {view : κ}
    (h : Safe allowed serves (fun o view => post (.ok o) view) p view) :
    Safe allowed serves post (attempt p) view := by
  induction p generalizing view with
  | ret a => exact h
  | raise e => exact h
  | perform c k ih => exact ⟨h.1, fun x view' hserves => ih x (h.2 x view' hserves)⟩

theorem safe_ofExcept {post : Except ε α → κ → Prop} {o : Except ε α} {view : κ}
    (h : post o view) : Safe allowed serves post (ofExcept o) view := by
  cases o with
  | ok a => exact h
  | error e => exact h

end Library.Coop
