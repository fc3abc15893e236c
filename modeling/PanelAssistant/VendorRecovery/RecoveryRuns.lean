import PanelAssistant.Library.Tally
import PanelAssistant.VendorRecovery.Attribution
import PanelAssistant.VendorRecovery.Recovery

/-!
# Every run of a recovery

While a session is live, nothing tries to recover from its end; once it ended, no witness for it is
taken. So its witness, the task that the witness became and the HOME that the task sent are one at
most (`Inv.once`). Only the task in `_task` can still send, and `close` cancels it (`Inv.closed`).
-/

namespace PanelAssistant.VendorRecovery

open Library Library.Runs Library.Tally Library.Text

/-! ## What may still send -/

/-- Before HOME is sent. -/
def RecoverStage.unsent : RecoverStage → Bool
  | .outcome | .refresh | .close => false
  | _ => true

/-- The work may still send HOME for a session. -/
def Work.tries (k : ℕ) : Work → Bool
  | .recover w _ stage => stage.unsent && w.context.session.id == k
  | .arm _ _ | .done => false

def Work.alive : Work → Bool
  | .done => false
  | .arm _ _ | .recover _ _ _ => true

def Press.isOf (k : ℕ) (press : Press) : Bool := press.witness.context.session.id == k

/-- A stop that the scan attributed to the vendor. -/
def Found (w : ArmedWitness) (stop : List Char) : Prop :=
  ∃ lines now, vendorStop lines w.witness now = some stop

/-- The stop that a task recovers from was found. -/
def Work.Grounded : Work → Prop
  | .recover w _ (.credentialAgain stop) => Found w stop
  | .recover w _ (.activeAgain stop) => Found w stop
  | .recover w _ (.launch stop) => Found w stop
  | _ => True

namespace State

variable (s : State)

/-- The tasks that may still send HOME for a session, and the HOMEs that were sent for it. -/
def total (k : ℕ) : ℕ := s.tasks.countP (·.work.tries k) + s.homes.countP (·.isOf k)

def armedFor (k : ℕ) : Bool := s.witness.any fun w => w.context.session.id == k

end State

structure Inv (s : State) : Prop where
  once : ∀ k, s.total k + (s.armedFor k).toNat ≤ 1
  fresh : ∀ k, s.opened ≤ k → s.total k = 0 ∧ s.armedFor k = false
  live : ∀ session, s.live = some session → session.id < s.opened ∧ s.total session.id = 0
  current : ∀ i task, s.tasks[i]? = some task → task.work.alive = true →
    task.cancelled = false → s.task = some i
  closed : s.closed = true → s.witness = none ∧ ∀ task ∈ s.tasks, task.work.alive = true →
    task.cancelled = true
  grounded : (∀ task ∈ s.tasks, task.work.Grounded) ∧ ∀ press ∈ s.homes,
    Found press.witness press.stop

/-! ## What a task can do -/

/-- What a step of a task can do: nothing, go on or end, leave a witness, or send HOME. -/
inductive Resumed (s : State) (i : ℕ) : State → Prop
  | idle : Resumed s i s
  | went (task : Task) (env : Environment) (work : Work) (hget : s.tasks[i]? = some task)
      (halive : task.work.alive = true)
      (htries : ∀ k, work.tries k = true → task.work.tries k = true ∧ task.cancelled = false)
      (hgrounded : task.work.Grounded → work.Grounded) : Resumed s i ({ s with env }.put i work)
  | armed (stage : ArmStage) (w : ArmedWitness) (hget : s.tasks[i]? =
    some ⟨.arm w.context stage, false⟩)
      (hcurrent : s.current w.context true = true) :
      Resumed s i ({ s with witness := some w }.put i .done)
  | sent (w : ArmedWitness) (claimed : Bool) (stop : List Char)
      (hget : s.tasks[i]? = some ⟨.recover w claimed (.launch stop), false⟩) :
      Resumed s i ({ s with homes := ⟨w, stop⟩ :: s.homes }.put i (.recover w claimed .outcome))

variable {s : State}

theorem arm_armed {context : Context} {stage : ArmStage} {answer : Answer} {w : ArmedWitness}
    (h : s.arm context stage answer = .armed w) :
    w.context = context ∧ s.current context true = true := by
  unfold State.arm at h
  split at h <;> try cases h
  all_goals split at h <;> try cases h
  all_goals try split at h <;> try cases h
  rename_i hcond
  simp only [Bool.and_eq_true] at hcond
  exact ⟨rfl, hcond.2⟩

theorem recover_sent {w : ArmedWitness} {stage : RecoverStage} {answer : Answer} {stop : List Char}
    (h : s.recover w stage answer = .sent stop) : stage = .launch stop := by
  unfold State.recover at h
  split at h <;> try cases h
  all_goals try split at h <;> try cases h
  all_goals try split at h <;> try cases h
  all_goals rfl

theorem found_of_stopOf? {w : ArmedWitness} {lines : List (List Char)}
    {status : ℕ} {stop : List Char}
    (h : stopOf? w lines status = some stop) : Found w stop := by
  unfold stopOf? at h
  split at h <;> try cases h
  split at h <;> try cases h
  split at h <;> try cases h
  split at h <;> try cases h
  exact ⟨_, _, h⟩

theorem recover_goto {w : ArmedWitness} (claimed : Bool) {stage stage' : RecoverStage}
    {answer : Answer}
    (h : s.recover w stage answer = .goto stage') :
    (stage'.unsent = true → stage.unsent = true) ∧
      ((Work.recover w claimed stage).Grounded → (Work.recover w claimed stage').Grounded) := by
  unfold State.recover at h
  split at h
  case h_11 =>
    -- the observation: what was found is what the task goes on with
    split at h
    · rename_i stop hstop
      split at h <;> cases h
      exact ⟨fun _ => rfl, fun _ => found_of_stopOf? hstop⟩
    · cases h
  case h_12 =>
    split at h <;> cases h
    exact ⟨fun _ => rfl, id⟩
  case h_13 =>
    split at h <;> cases h
    exact ⟨fun _ => rfl, id⟩
  case h_15 =>
    split at h <;> cases h
    exact ⟨fun hunsent => (by cases hunsent), fun _ => trivial⟩
  all_goals try split at h
  all_goals cases h
  all_goals exact ⟨fun _ => rfl, fun _ => trivial⟩

theorem recover_claimed {w : ArmedWitness} {stage : RecoverStage} {answer : Answer}
    (h : s.recover w stage answer = .claimed) : stage = .grace := by
  unfold State.recover at h
  split at h <;> try cases h
  all_goals try split at h <;> try cases h
  all_goals try split at h <;> try cases h
  all_goals rfl

theorem resume_resumed (s : State) (i : ℕ) (answer : Answer) : Resumed s i (s.resume i answer) := by
  unfold State.resume
  split
  · exact .idle
  · exact .idle
  · rename_i context stage cancelled hget
    split
    · exact .went _ s.env _ hget rfl (fun k h => by cases h) fun _ => trivial
    · rename_i hcancelled
      rw [Bool.not_eq_true] at hcancelled
      subst hcancelled
      split
      · exact .went _ s.env _ hget rfl (fun k h => by cases h) fun _ => trivial
      · exact .went _ s.env _ hget rfl (fun k h => by cases h) fun _ => trivial
      · rename_i w harm
        obtain ⟨rfl, hcurrent⟩ := arm_armed harm
        exact .armed stage w hget hcurrent
  · rename_i hget
    exact .went _ _ _ hget rfl (fun k h => by cases h) fun _ => trivial
  · rename_i w claimed stage cancelled hstage hget
    split
    · exact .went _ s.env _ hget rfl (fun k h => by cases h) fun _ => trivial
    · rename_i hcancelled
      rw [Bool.not_eq_true] at hcancelled
      subst hcancelled
      split
      · rename_i stage' hgoto
        obtain ⟨hunsent, hgrounded⟩ := recover_goto claimed hgoto
        refine .went _ s.env _ hget rfl (fun k h => ⟨?_, rfl⟩) hgrounded
        rw [Work.tries, Bool.and_eq_true] at h ⊢
        exact ⟨hunsent h.1, h.2⟩
      · exact .went _ s.env _ hget rfl (fun k h => by cases h) fun _ => trivial
      · rename_i hclaimed
        rw [recover_claimed hclaimed] at hget
        exact .went _ _ _ hget rfl (fun k h => ⟨h, rfl⟩) fun _ => trivial
      · rename_i stop hsent
        rw [recover_sent hsent] at hget
        exact .sent w claimed stop hget

/-! ## The invariant -/

theorem current_live {context : Context} (h : s.current context true = true) :
    s.live = some context.session ∧ s.closed = false := by
  simp only [State.current, Bool.and_eq_true, decide_eq_true_eq, Bool.not_eq_true'] at h
  exact ⟨h.1.2, h.1.1.1.1.1.1⟩

theorem current_ended {context : Context} (h : s.current context false = true) :
    s.live = none ∧ s.closed = false := by
  simp only [State.current, Bool.and_eq_true, decide_eq_true_eq, Bool.not_eq_true'] at h
  exact ⟨by simpa using h.1.2, h.1.1.1.1.1.1⟩

@[simp] theorem length_cancelTask (s : State) : s.cancelTask.tasks.length = s.tasks.length := by
  unfold State.cancelTask
  split
  · rfl
  · exact List.length_modify _ _ _

theorem countP_cancelTask (s : State) (k : ℕ) :
    s.cancelTask.tasks.countP (·.work.tries k) = s.tasks.countP (·.work.tries k) := by
  unfold State.cancelTask
  split
  · rfl
  · exact countP_modify_of_eq fun _ => rfl

theorem homes_cancelTask (s : State) : s.cancelTask.homes = s.homes := by
  unfold State.cancelTask
  split <;> rfl

theorem close_eq (s : State) :
    s.close = { s with closed := true, witness := none, tasks := s.cancelTask.tasks } := by
  unfold State.close State.cancelTask
  cases s.task <;> rfl

/-- Nothing is left running by the cancellation of the task in `_task`. -/
theorem cancelled_cancelTask
    (hcurrent : ∀ i task, s.tasks[i]? = some task → task.work.alive = true →
      task.cancelled = false → s.task = some i) :
    ∀ task ∈ s.cancelTask.tasks, task.work.alive = true → task.cancelled = true := by
  intro task hmem halive
  obtain ⟨i, hi⟩ := List.mem_iff_getElem?.mp hmem
  by_contra hcancelled
  rw [Bool.not_eq_true] at hcancelled
  unfold State.cancelTask at hi
  split at hi
  · rename_i hnone
    have := hcurrent i task hi halive hcancelled
    rw [hnone] at this
    cases this
  · rename_i j hj
    simp only [List.getElem?_modify] at hi
    obtain ⟨old, hold, rfl⟩ := Option.map_eq_some_iff.mp hi
    split at hcancelled
    · cases hcancelled
    · rename_i hne
      rw [if_neg hne] at halive
      have := hcurrent i old hold halive hcancelled
      rw [hj, Option.some.injEq] at this
      exact hne this

theorem grounded_cancelTask (h : ∀ task ∈ s.tasks, task.work.Grounded) :
    ∀ task ∈ s.cancelTask.tasks, task.work.Grounded := by
  intro task hmem
  unfold State.cancelTask at hmem
  split at hmem
  · exact h task hmem
  · obtain ⟨i, hi⟩ := List.mem_iff_getElem?.mp hmem
    simp only [List.getElem?_modify] at hi
    obtain ⟨old, hold, rfl⟩ := Option.map_eq_some_iff.mp hi
    split
    · exact h old (List.mem_iff_getElem?.mpr ⟨i, hold⟩)
    · exact h old (List.mem_iff_getElem?.mpr ⟨i, hold⟩)

namespace Inv

theorem initial (env : Environment) : Inv (.initial env) where
  once := fun k => Nat.zero_le 1
  fresh := fun k _ => ⟨rfl, rfl⟩
  live := fun session h => by cases h
  current := fun i task h => by cases h
  closed := fun h => by cases h
  grounded := ⟨fun task h => absurd h List.not_mem_nil, fun press h => absurd h List.not_mem_nil⟩

/-- What another session, entry or environment leaves of the invariant. -/
theorem of_eq {s' : State} (h : Inv s) (hopened : s.opened ≤ s'.opened)
    (hlive : ∀ session, s'.live = some session → session.id < s'.opened ∧ s.total session.id = 0)
    (hrest : s' = { s with env := s'.env, live := s'.live, last := s'.last, opened := s'.opened }) :
    Inv s' := by
  have htotal : ∀ k, s'.total k = s.total k := fun k => by rw [hrest]; rfl
  have harmed : ∀ k, s'.armedFor k = s.armedFor k := fun k => by rw [hrest]; rfl
  refine ⟨fun k => ?_, fun k hk => ?_, fun session hsession => ?_, ?_, ?_, ?_⟩
  · rw [htotal, harmed]
    exact h.once k
  · rw [htotal, harmed]
    exact h.fresh k (hopened.trans hk)
  · rw [htotal]
    exact hlive session hsession
  · rw [hrest]
    exact h.current
  · rw [hrest]
    exact h.closed
  · rw [hrest]
    exact h.grounded

theorem openSession (h : Inv s) (did token : String) : Inv (s.openSession did token) := by
  refine h.of_eq (Nat.le_succ _) (fun session hsession => ?_) rfl
  cases hsession
  exact ⟨Nat.lt_succ_self _, (h.fresh s.opened (Nat.le_refl _)).1⟩

theorem endSession (h : Inv s) : Inv s.endSession := by
  unfold State.endSession
  split
  · exact h
  · exact h.of_eq (Nat.le_refl _) (fun session hsession => by cases hsession) rfl

theorem dropWitness (h : Inv s) (key : Option (String × String × String × String)) :
    Inv { s with key, witness := none } where
  once := fun k => (Nat.le_add_right _ _).trans (h.once k)
  fresh := fun k hk => ⟨(h.fresh k hk).1, rfl⟩
  live := h.live
  current := h.current
  closed := fun hclosed => ⟨rfl, (h.closed hclosed).2⟩
  grounded := h.grounded

/-- A task is started in place of the last one, for an ended session that has none. -/
theorem replace (h : Inv s) (hclosed : s.closed = false) {work : Work} (hgrounded : work.Grounded)
    (hwork : ∀ k, work.tries k = true → s.total k + (s.armedFor k).toNat = 0 ∧
      k < s.opened ∧ s.live = none) :
    Inv (s.replace work) := by
  have hrest : s.replace work =
      { s with task := (s.replace work).task, tasks := (s.replace work).tasks } := by
    unfold State.replace State.cancelTask
    cases s.task <;> rfl
  have hopened : (s.replace work).opened = s.opened := by rw [hrest]
  have hlive : (s.replace work).live = s.live := by rw [hrest]
  have harmed : ∀ k, (s.replace work).armedFor k = s.armedFor k := fun k => by rw [hrest]; rfl
  have htotal : ∀ k, (s.replace work).total k = s.total k + (work.tries k).toNat := by
    intro k
    simp only [State.total, State.replace, List.countP_append, countP_cancelTask, homes_cancelTask,
      List.countP_singleton]
    cases work.tries k <;> simp; omega
  refine ⟨fun k => ?_, fun k hk => ?_, fun session hsession => ?_,
    fun i task hi halive hcancelled => ?_, fun hclosed' => ?_, fun task hmem => ?_, ?_⟩
  · rw [htotal, harmed]
    have := h.once k
    cases htries : work.tries k with
    | false => simpa using this
    | true =>
      obtain ⟨hzero, -⟩ := hwork k htries
      simp only [Bool.toNat_true]
      omega
  · rw [hopened] at hk
    obtain ⟨hzero, hnone⟩ := h.fresh k hk
    rw [htotal, harmed, hzero, hnone]
    cases htries : work.tries k with
    | false => exact ⟨rfl, rfl⟩
    | true => exact absurd (hwork k htries).2.1 (not_lt.mpr hk)
  · rw [hlive] at hsession
    obtain ⟨hlt, hzero⟩ := h.live session hsession
    rw [hopened, htotal, hzero]
    cases htries : work.tries session.id with
    | false => exact ⟨hlt, rfl⟩
    | true =>
      have hnone := (hwork session.id htries).2.2
      rw [hsession] at hnone
      cases hnone
  · -- all that was running was cancelled, so this is the new task
    have hnew : i = s.tasks.length := by
      have hold := cancelled_cancelTask h.current
      simp only [State.replace, List.getElem?_append, length_cancelTask] at hi
      split at hi
      · rw [hold task (List.mem_iff_getElem?.mpr ⟨i, hi⟩) halive] at hcancelled
        cases hcancelled
      · have := (List.getElem?_eq_some_iff.mp hi).1
        rw [List.length_singleton] at this
        omega
    rw [hnew]
    rfl
  · rw [hrest] at hclosed'
    exact absurd hclosed' (by simp [hclosed])
  · rcases List.mem_append.mp hmem with hmem | hmem
    · exact grounded_cancelTask h.grounded.1 task hmem
    · rw [List.mem_singleton.mp hmem]
      exact hgrounded
  · rw [hrest]
    exact h.grounded.2

theorem observe (h : Inv s) (snapshot : Option Snapshot) : Inv (s.observe snapshot) := by
  unfold State.observe
  split
  · exact h
  · rename_i context _
    simp only
    split
    · exact h
    · rename_i hcond
      simp only [Bool.or_eq_true, Bool.not_eq_true', not_or, Bool.not_eq_false] at hcond
      exact (h.dropWitness _).replace
        (current_live hcond.2).2 trivial fun k htries => by cases htries

theorem changed (h : Inv s) : Inv s.changed := by
  unfold State.changed
  split
  · rename_i w hw
    obtain ⟨hwitness, hcurrent⟩ := Option.filter_eq_some_iff.mp hw
    obtain ⟨hlive, hclosed⟩ := current_ended hcurrent
    refine (h.dropWitness s.key).replace hclosed trivial fun k htries => ?_
    have hk : s.armedFor k = true := by
      rw [State.armedFor, hwitness]
      exact htries
    have honce := h.once k
    rw [hk, Bool.toNat_true] at honce
    have hzero : s.total k = 0 := by omega
    refine ⟨hzero, ?_, hlive⟩
    by_contra hle
    have hnone := (h.fresh k (not_lt.mp hle)).2
    rw [hk] at hnone
    cases hnone
  · split
    · exact h.observe _
    · exact h

theorem close (h : Inv s) : Inv s.close := by
  have hrest := close_eq s
  have htotal : ∀ k, s.close.total k = s.total k := by
    intro k
    rw [hrest]
    exact congrArg (· + s.homes.countP (·.isOf k)) (countP_cancelTask s k)
  have hcancelled := cancelled_cancelTask h.current
  refine ⟨fun k => ?_, fun k hk => ?_, fun session hsession => ?_,
    fun i task hi halive hfalse => ?_, fun _ => ?_, ?_⟩
  · rw [htotal, hrest]
    exact (Nat.le_add_right _ _).trans (h.once k)
  · rw [htotal, hrest]
    rw [hrest] at hk
    exact ⟨(h.fresh k hk).1, rfl⟩
  · rw [htotal, hrest]
    rw [hrest] at hsession
    exact h.live session hsession
  · rw [hrest] at hi
    rw [hcancelled task (List.mem_iff_getElem?.mpr ⟨i, hi⟩) halive] at hfalse
    cases hfalse
  · rw [hrest]
    exact ⟨rfl, hcancelled⟩
  · rw [hrest]
    exact ⟨grounded_cancelTask h.grounded.1, h.grounded.2⟩

/-! ### Steps of a task -/

theorem total_put {i : ℕ} {task : Task} (hget : s.tasks[i]? = some task) (work : Work) (k : ℕ) :
    (s.put i work).total k + (task.work.tries k).toNat = s.total k + (work.tries k).toNat := by
  have hcount : (s.put i work).tasks.countP (·.work.tries k) + (task.work.tries k).toNat =
      s.tasks.countP (·.work.tries k) + (work.tries k).toNat := countP_modify hget
  have hhomes : (s.put i work).homes = s.homes := rfl
  rw [State.total, State.total, hhomes]
  omega

theorem current_put (h : Inv s) {i : ℕ} {task : Task} (hget : s.tasks[i]? = some task)
    (halive : task.work.alive = true) (work : Work) (k : ℕ) (new : Task)
    (hk : (s.put i work).tasks[k]? = some new) (hnew : new.work.alive = true)
    (hcancelled : new.cancelled = false) :
    s.task = some k := by
  simp only [State.put, List.getElem?_modify] at hk
  obtain ⟨old, hold, rfl⟩ := Option.map_eq_some_iff.mp hk
  split at hnew
  · rename_i hik
    subst hik
    rw [hget, Option.some.injEq] at hold
    subst hold
    exact h.current i task hget halive (by simpa using hcancelled)
  · rename_i hik
    rw [if_neg hik] at hcancelled
    exact h.current k old hold hnew hcancelled

theorem closed_put (h : Inv s) {i : ℕ} {task : Task} (hget : s.tasks[i]? = some task)
    (halive : task.work.alive = true) (work : Work) (hclosed : s.closed = true) :
    ∀ new ∈ (s.put i work).tasks, new.work.alive = true → new.cancelled = true := by
  have hall := (h.closed hclosed).2
  refine forall_mem_modify hget (fun new hnew hlive => hall new hnew hlive) fun _ => ?_
  exact hall task (List.mem_iff_getElem?.mpr ⟨i, hget⟩) halive

/-- A task goes on: it may still send no more than before. -/
theorem put (h : Inv s) {i : ℕ} {task : Task} (hget : s.tasks[i]? = some task)
    (halive : task.work.alive = true)
    {work : Work} (htries : ∀ k, work.tries k = true → task.work.tries k = true)
    (hgrounded : work.Grounded) :
    Inv (s.put i work) := by
  have htotal : ∀ k, (s.put i work).total k ≤ s.total k := by
    intro k
    have := total_put hget work k
    have hle : (work.tries k).toNat ≤ (task.work.tries k).toNat := by
      cases hk : work.tries k with
      | false => exact Nat.zero_le _
      | true => rw [htries k hk]
    omega
  refine ⟨fun k => ?_, fun k hk => ?_, fun session hsession => ?_, h.current_put hget halive work,
    fun hclosed => ⟨(h.closed hclosed).1, h.closed_put hget halive work hclosed⟩, ?_, h.grounded.2⟩
  · exact (Nat.add_le_add_right (htotal k) _).trans (h.once k)
  · exact ⟨Nat.le_zero.mp ((h.fresh k hk).1 ▸ htotal k), (h.fresh k hk).2⟩
  · exact ⟨(h.live session hsession).1,
      Nat.le_zero.mp ((h.live session hsession).2 ▸ htotal session.id)⟩
  · exact forall_mem_modify hget h.grounded.1 hgrounded

/-- A witness is left for the live session, for which nothing was tried. -/
theorem arm (h : Inv s) {w : ArmedWitness} (hcurrent : s.current w.context true = true) :
    Inv { s with witness := some w } := by
  obtain ⟨hlive, hclosed⟩ := current_live hcurrent
  obtain ⟨hlt, hzero⟩ := h.live _ hlive
  refine ⟨fun k => ?_, fun k hk => ⟨(h.fresh k hk).1, ?_⟩, h.live, h.current,
    fun hclosed' => ?_, h.grounded⟩
  · by_cases hk : w.context.session.id = k
    · subst hk
      have : (State.total { s with witness := some w } w.context.session.id) = 0 := hzero
      rw [this]
      exact (Nat.zero_add _).trans_le (Bool.toNat_le _)
    · have harmed : State.armedFor { s with witness := some w } k = false := by
        simp [State.armedFor, hk]
      rw [harmed]
      exact (Nat.le_add_right _ _).trans (h.once k)
  · simp only [State.armedFor, Option.any_some, beq_eq_false_iff_ne]
    have : s.opened ≤ k := hk
    omega
  · rw [hclosed] at hclosed'
    cases hclosed'

/-- HOME is sent in place of the task's try. -/
theorem sent (h : Inv s) {i : ℕ} {w : ArmedWitness} {claimed : Bool} {stop : List Char}
    (hget : s.tasks[i]? = some ⟨.recover w claimed (.launch stop), false⟩) :
    Inv ({ s with homes := ⟨w, stop⟩ :: s.homes }.put i (.recover w claimed .outcome)) := by
  have htotal : ∀ k,
    ({ s with homes := ⟨w, stop⟩ :: s.homes }.put i (.recover w claimed .outcome)).total k =
      s.total k := by
    intro k
    have hput := total_put hget (.recover w claimed .outcome) k
    have htry : (Work.recover w claimed (.launch stop)).tries k = (w.context.session.id == k) := rfl
    have hout : (Work.recover w claimed .outcome).tries k = false := rfl
    have hof : Press.isOf k ⟨w, stop⟩ = (w.context.session.id == k) := rfl
    simp only [State.total, State.put, List.countP_cons, htry, hout, hof] at hput ⊢
    cases hk : w.context.session.id == k <;> simp [hk] at hput ⊢ <;> omega
  refine ⟨fun k => ?_, fun k hk => ?_, fun session hsession => ?_, h.current_put hget rfl _,
    fun hclosed => ⟨(h.closed hclosed).1, h.closed_put hget rfl _ hclosed⟩, ?_, ?_⟩
  · rw [htotal]
    exact h.once k
  · rw [htotal]
    exact h.fresh k hk
  · rw [htotal]
    exact h.live session hsession
  · exact forall_mem_modify hget h.grounded.1 trivial
  · exact List.forall_mem_cons.mpr
      ⟨h.grounded.1 _ (List.mem_iff_getElem?.mpr ⟨i, hget⟩), h.grounded.2⟩

theorem resume (h : Inv s) (i : ℕ) (answer : Answer) : Inv (s.resume i answer) := by
  have hresumed := resume_resumed s i answer
  generalize s.resume i answer = s' at hresumed ⊢
  cases hresumed with
  | idle => exact h
  | went task env work hget halive htries hgrounded =>
    have henv : Inv { s with env } := h.of_eq (Nat.le_refl _) h.live rfl
    exact henv.put hget halive (fun k hk => (htries k hk).1)
      (hgrounded (h.grounded.1 task (List.mem_iff_getElem?.mpr ⟨i, hget⟩)))
  | armed stage w hget hcurrent =>
    have hdone : Inv (s.put i .done) := h.put hget rfl (fun k hk => by cases hk) trivial
    exact hdone.arm hcurrent
  | sent w claimed stop hget => exact h.sent hget

theorem step (h : Inv s) (move : Move) : Inv (step s move) := by
  cases move with
  | environment env => exact h.of_eq (Nat.le_refl _) h.live rfl
  | openSession did token => exact h.openSession did token
  | endSession => exact h.endSession
  | forgetEntry => exact h.of_eq (Nat.le_refl _) h.live rfl
  | observe snapshot => exact h.observe snapshot
  | changed => exact h.changed
  | close => exact h.close
  | resume i answer => exact h.resume i answer

end Inv

/-- No HOME was sent for a session that is live. -/
theorem Inv.ended (h : Inv s) {press : Press} (hpress : press ∈ s.homes) :
    s.live ≠ some press.witness.context.session := by
  intro hlive
  have hzero : s.homes.countP (·.isOf press.witness.context.session.id) = 0 :=
    (Nat.add_eq_zero_iff.mp (h.live _ hlive).2).2
  have hnone := List.countP_eq_zero.mp hzero press hpress
  exact hnone (beq_self_eq_true _)

/-! ## The vendor's stops -/

def uid : List Char := "1000".toList

end PanelAssistant.VendorRecovery
