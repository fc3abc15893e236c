import PanelAssistant.Library.Except
import PanelAssistant.Library.Guard

/-!
# Handlers of calls

`interpret` serves the calls of a program by programs of lower calls, which share a state. Two
things can be said of the calls of such programs. `Only` holds of them whatever the replies: it is
compositional (`only_bind`, `only_attempt`, `only_interpret`) and holds of every execution
(`only_exec`). In a world whose replies do not change a program makes one list of `calls` and has
one `outcome`, so that what it reaches is known exactly (`reaches_bind`, `sends_bind`).
-/

namespace Library.Coop

variable {Call Low : Type} {Reply : Call → Type} {LowReply : Low → Type} {ε ε' α β σ : Type}

/-! ## Whatever the replies -/

/-- Every call of every run is good. -/
def Only (good : Call → Prop) (p : Coop Call Reply ε α) : Prop :=
  Safe (fun _ c => good c) (fun _ _ _ _ => True) (fun _ _ => True) p ()

variable {good good' : Call → Prop}

theorem only_pure (a : α) : Only good (pure a : Coop Call Reply ε α) := trivial

theorem only_raise (e : ε) : Only good (raise e : Coop Call Reply ε α) := trivial

theorem only_ofExcept (o : Except ε α) : Only good (ofExcept o : Coop Call Reply ε α) :=
  safe_ofExcept trivial

theorem only_perform {c : Call} {k : Reply c → Coop Call Reply ε α} (hc : good c)
    (hk : ∀ x, Only good (k x)) : Only good (perform c k) :=
  ⟨hc, fun x _ _ => hk x⟩

theorem only_bind {p : Coop Call Reply ε α} {f : α → Coop Call Reply ε β} (hp : Only good p)
    (hf : ∀ a, Only good (f a)) : Only good (p >>= f) :=
  safe_bind hp (fun a _ _ => hf a) fun _ _ _ => trivial

theorem only_attempt {p : Coop Call Reply ε α} (hp : Only good p) : Only good (attempt p) :=
  safe_attempt hp

theorem only_mono {p : Coop Call Reply ε α} (himp : ∀ c, good c → good' c) (hp : Only good p) :
    Only good' p := by
  induction p with
  | ret a => trivial
  | raise e => trivial
  | perform c k ih => exact only_perform (himp c hp.1) fun x => ih x (hp.2 x () trivial)

/-- What holds of every call of a program holds of every call of its executions. -/
theorem only_exec {κ : Type} {step : κ → (c : Call) → Reply c → κ → Prop}
    {p : Coop Call Reply ε α} {s s' : κ} {trace : List ((c : Call) × Reply c)} {o : Except ε α}
    (hexec : Exec step p s trace o s') (hp : Only good p) : ∀ e ∈ trace, good e.1 := by
  induction hexec with
  | ret a s => exact List.forall_mem_nil _
  | raise e s => exact List.forall_mem_nil _
  | perform c k s x s' trace o s'' _ _ ih =>
    exact List.forall_mem_cons.mpr ⟨hp.1, ih (hp.2 x () trivial)⟩

/-! ## In a world -/

section

variable (world : (c : Call) → Reply c)

/-- The calls that a program makes, in order. -/
def calls : Coop Call Reply ε α → List Call
  | ret _ => []
  | raise _ => []
  | perform c k => c :: calls (k (world c))

/-- What a program returns or raises. -/
def outcome : Coop Call Reply ε α → Except ε α
  | ret a => .ok a
  | raise e => .error e
  | perform c k => outcome (k (world c))

/-- A program makes a call of a kind. -/
def Reaches (kind : Call → Prop) (p : Coop Call Reply ε α) : Prop := ∃ c ∈ calls world p, kind c

end

variable {world : (c : Call) → Reply c} {kind : Call → Prop}

/-- The calls and the outcome are those of the one execution. -/
theorem exec_calls (world : (c : Call) → Reply c) (p : Coop Call Reply ε α) :
    ∃ trace, Exec (fun (_ : Unit) c x _ => x = world c) p () trace (outcome world p) () ∧
      trace.map Sigma.fst = calls world p := by
  induction p with
  | ret a => exact ⟨[], .ret a (), rfl⟩
  | raise e => exact ⟨[], .raise e (), rfl⟩
  | perform c k ih =>
    obtain ⟨trace, hexec, htrace⟩ := ih (world c)
    exact ⟨⟨c, world c⟩ :: trace, .perform c k () (world c) () trace _ () rfl hexec,
      congrArg (c :: ·) htrace⟩

theorem only_calls {p : Coop Call Reply ε α} (hp : Only good p) : ∀ c ∈ calls world p, good c := by
  obtain ⟨trace, hexec, htrace⟩ := exec_calls world p
  rw [← htrace]
  intro c hc
  obtain ⟨e, he, rfl⟩ := List.mem_map.mp hc
  exact only_exec hexec hp e he

theorem not_reaches_of_only {p : Coop Call Reply ε α} (hp : Only (fun c => ¬ kind c) p) :
    ¬ Reaches world kind p :=
  fun ⟨c, hc, hkind⟩ => only_calls hp c hc hkind

@[simp] theorem outcome_pure (a : α) :
    outcome world (pure a : Coop Call Reply ε α) = .ok a := rfl

@[simp] theorem outcome_raise (e : ε) :
    outcome world (raise e : Coop Call Reply ε α) = .error e := rfl

@[simp] theorem outcome_perform (c : Call) (k : Reply c → Coop Call Reply ε α) :
    outcome world (perform c k) = outcome world (k (world c)) := rfl

@[simp] theorem outcome_ofExcept (o : Except ε α) :
    outcome world (ofExcept o : Coop Call Reply ε α) = o := by
  cases o <;> rfl

theorem outcome_bind (p : Coop Call Reply ε α) (f : α → Coop Call Reply ε β) :
    outcome world (p >>= f) = outcome world p >>= fun a => outcome world (f a) := by
  induction p with
  | ret a => rfl
  | raise e => rfl
  | perform c k ih => exact ih (world c)

theorem outcome_bind_eq_ok {p : Coop Call Reply ε α} {f : α → Coop Call Reply ε β} {b : β} :
    outcome world (p >>= f) = .ok b ↔
      ∃ a, outcome world p = .ok a ∧ outcome world (f a) = .ok b := by
  rw [outcome_bind, bind_eq_ok]

@[simp] theorem outcome_attempt (p : Coop Call Reply ε α) :
    outcome world (attempt p) = .ok (outcome world p) := by
  induction p with
  | ret a => rfl
  | raise e => rfl
  | perform c k ih => exact ih (world c)

theorem calls_attempt (p : Coop Call Reply ε α) : calls world (attempt p) = calls world p := by
  induction p with
  | ret a => rfl
  | raise e => rfl
  | perform c k ih => exact congrArg (c :: ·) (ih (world c))

@[simp] theorem reaches_pure (a : α) : ¬ Reaches world kind (pure a : Coop Call Reply ε α) :=
  not_reaches_of_only (only_pure a)

@[simp] theorem reaches_raise (e : ε) : ¬ Reaches world kind (raise e : Coop Call Reply ε α) :=
  not_reaches_of_only (only_raise e)

theorem reaches_perform {c : Call} {k : Reply c → Coop Call Reply ε α} :
    Reaches world kind (perform c k) ↔ kind c ∨ Reaches world kind (k (world c)) := by
  simp only [Reaches, calls, List.mem_cons, exists_eq_or_imp]

@[simp] theorem reaches_attempt {p : Coop Call Reply ε α} :
    Reaches world kind (attempt p) ↔ Reaches world kind p := by
  rw [Reaches, calls_attempt, Reaches]

theorem reaches_bind {p : Coop Call Reply ε α} {f : α → Coop Call Reply ε β} :
    Reaches world kind (p >>= f) ↔ Reaches world kind p ∨
      ∃ a, outcome world p = .ok a ∧ Reaches world kind (f a) := by
  induction p with
  | ret a =>
    constructor
    · exact fun h => .inr ⟨a, rfl, h⟩
    · rintro (h | ⟨b, hb, h⟩)
      · exact absurd h (reaches_pure a)
      · obtain rfl := Except.ok.inj hb
        exact h
  | raise e =>
    constructor
    · exact fun h => absurd h (reaches_raise e)
    · rintro (h | ⟨b, hb, -⟩)
      · exact absurd h (reaches_raise e)
      · cases hb
  | perform c k ih =>
    have hstep : Reaches world kind (perform c k >>= f) ↔
        kind c ∨ Reaches world kind (k (world c) >>= f) := reaches_perform
    rw [hstep, ih (world c), reaches_perform, or_assoc, outcome_perform]

/-! ## Handlers -/

/-- Serve the calls of a program, from a state on. -/
def interpret (serve : σ → (c : Call) → Coop Low LowReply ε' (Reply c × σ)) :
    Coop Call Reply ε α → σ → Coop Low LowReply ε' (Except ε α × σ)
  | ret a, s => ret (.ok a, s)
  | raise e, s => ret (.error e, s)
  | perform c k, s => serve s c >>= fun served => interpret serve (k served.1) served.2

variable {serve : σ → (c : Call) → Coop Low LowReply ε' (Reply c × σ)}

/-- Calls that are served by good calls only make a program of good calls. -/
theorem only_interpret {allowed : Call → Prop} {goodLow : Low → Prop}
    (hserve : ∀ s c, allowed c → Only goodLow (serve s c)) {p : Coop Call Reply ε α} {s : σ}
    (hp : Only allowed p) : Only goodLow (interpret serve p s) := by
  induction p generalizing s with
  | ret a => trivial
  | raise e => trivial
  | perform c k ih =>
    exact only_bind (hserve s c hp.1) fun served => ih served.1 (hp.2 served.1 () trivial)

theorem bind_bind {γ : Type} (p : Coop Call Reply ε α) (f : α → Coop Call Reply ε β)
    (g : β → Coop Call Reply ε γ) : p >>= f >>= g = p >>= fun a => f a >>= g := by
  induction p with
  | ret a => rfl
  | raise e => rfl
  | perform c k ih => exact congrArg (perform c) (funext ih)

/-- What is served after the first part of a bind. -/
def resume (serve : σ → (c : Call) → Coop Low LowReply ε' (Reply c × σ))
    (f : α → Coop Call Reply ε β) : Except ε α × σ → Coop Low LowReply ε' (Except ε β × σ)
  | (.ok a, s) => interpret serve (f a) s
  | (.error e, s) => ret (.error e, s)

theorem interpret_bind {p : Coop Call Reply ε α} {f : α → Coop Call Reply ε β} {s : σ} :
    interpret serve (p >>= f) s = interpret serve p s >>= resume serve f := by
  induction p generalizing s with
  | ret a => rfl
  | raise e => rfl
  | perform c k ih =>
    have hrest : (fun served : Reply c × σ => interpret serve (k served.1 >>= f) served.2) =
        fun served => interpret serve (k served.1) served.2 >>= resume serve f :=
      funext fun served => ih served.1
    calc interpret serve (perform c k >>= f) s
        = serve s c >>= fun served => interpret serve (k served.1 >>= f) served.2 := rfl
      _ = interpret serve (perform c k) s >>= resume serve f := by
        rw [hrest, interpret, bind_bind]

section

variable (below : (c : Low) → LowReply c) (serve) (kindLow : Low → Prop)

/-- The program returns `a`, and leaves the state at `s'`. -/
def Settles (p : Coop Call Reply ε α) (s : σ) (a : α) (s' : σ) : Prop :=
  outcome below (interpret serve p s) = .ok (.ok a, s')

/-- A lower call of a kind is made. -/
def Sends (p : Coop Call Reply ε α) (s : σ) : Prop := Reaches below kindLow (interpret serve p s)

end

variable {below : (c : Low) → LowReply c} {kindLow : Low → Prop}

@[simp] theorem settles_pure {a b : α} {s s' : σ} :
    Settles serve below (pure a : Coop Call Reply ε α) s b s' ↔ a = b ∧ s = s' := by
  change Except.ok (Except.ok a, s) = Except.ok (Except.ok b, s') ↔ _
  simp only [Except.ok.injEq, Prod.mk.injEq]

@[simp] theorem settles_raise {e : ε} {a : α} {s s' : σ} :
    ¬ Settles serve below (raise e : Coop Call Reply ε α) s a s' := by
  intro h
  cases h

theorem settles_perform {c : Call} {k : Reply c → Coop Call Reply ε α} {s s' : σ} {a : α} :
    Settles serve below (perform c k) s a s' ↔
      ∃ x s₁, outcome below (serve s c) = .ok (x, s₁) ∧ Settles serve below (k x) s₁ a s' := by
  rw [Settles, interpret, outcome_bind_eq_ok, Prod.exists]
  rfl

theorem settles_bind {p : Coop Call Reply ε α} {f : α → Coop Call Reply ε β} {s s' : σ} {b : β} :
    Settles serve below (p >>= f) s b s' ↔
      ∃ a s₁, Settles serve below p s a s₁ ∧ Settles serve below (f a) s₁ b s' := by
  rw [Settles, interpret_bind, outcome_bind_eq_ok]
  constructor
  · rintro ⟨⟨a | a, s₁⟩, ha, h⟩
    · cases h
    · exact ⟨a, s₁, ha, h⟩
  · rintro ⟨a, s₁, ha, h⟩
    exact ⟨(.ok a, s₁), ha, h⟩

@[simp] theorem sends_pure {a : α} {s : σ} :
    ¬ Sends serve below kindLow (pure a : Coop Call Reply ε α) s :=
  reaches_pure _

@[simp] theorem sends_raise {e : ε} {s : σ} :
    ¬ Sends serve below kindLow (raise e : Coop Call Reply ε α) s :=
  reaches_pure _

theorem sends_perform {c : Call} {k : Reply c → Coop Call Reply ε α} {s : σ} :
    Sends serve below kindLow (perform c k) s ↔ Reaches below kindLow (serve s c) ∨
      ∃ x s₁, outcome below (serve s c) = .ok (x, s₁) ∧ Sends serve below kindLow (k x) s₁ := by
  rw [Sends, interpret, reaches_bind, Prod.exists]
  rfl

theorem sends_bind {p : Coop Call Reply ε α} {f : α → Coop Call Reply ε β} {s : σ} :
    Sends serve below kindLow (p >>= f) s ↔ Sends serve below kindLow p s ∨
      ∃ a s₁, Settles serve below p s a s₁ ∧ Sends serve below kindLow (f a) s₁ := by
  rw [Sends, interpret_bind, reaches_bind]
  refine or_congr_right ?_
  constructor
  · rintro ⟨⟨a | a, s₁⟩, ha, h⟩
    · exact absurd h (reaches_pure _)
    · exact ⟨a, s₁, ha, h⟩
  · rintro ⟨a, s₁, ha, h⟩
    exact ⟨(.ok a, s₁), ha, h⟩

end Library.Coop
