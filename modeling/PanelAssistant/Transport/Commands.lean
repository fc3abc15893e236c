import PanelAssistant.Transport.Frames

/-!
# The life of a command

What was done about one command is summed up by its `Tally`, read off the log. At any moment
a command is in one of five states (`Life`): its caller waits; it was answered, or its
session ended, and the caller has not run yet; it is kept for a late answer; it is over.
`CommandsOk` says so of every command of the transport, and each operation keeps it.
-/

namespace PanelAssistant

open Library

/-! ## Tallies -/

/-- What was done about one command. -/
structure Tally where
  sent : Bool
  /-- The results its future was resolved with, in order. -/
  resolutions : List (Option CommandOutcome)
  /-- How many final outcomes were recorded for it. -/
  finals : Nat
  releases : Nat
  /-- Whether the wait of its caller ended. -/
  ended : Bool
  /-- The first final outcome reported after it was sent and before its wait ended. -/
  first : Option CommandOutcome

def Tally.empty : Tally := ⟨false, [], 0, 0, false, none⟩

/-- A final outcome is reported. -/
def Tally.hear (t : Tally) (o : CommandOutcome) : Tally :=
  if o.outcome.isFinal && t.sent && !t.ended &&
    t.first.isNone then { t with first := some o } else t

/-- One more note, as it concerns the command `c` sent on the session `k` under `id`. -/
def Tally.add (c k : Nat) (id : String) (t : Tally) : Note → Tally
  | .sent _ c' _ _ _ => if c' = c then { t with sent := true } else t
  | .resolved c' r => if c' = c then { t with resolutions := t.resolutions ++ [r] } else t
  | .recorded c' o _ => if c' = c ∧ o.isFinal then { t with finals := t.finals + 1 } else t
  | .released c' _ => if c' = c then { t with releases := t.releases + 1 } else t
  | .waitEnded c' => if c' = c then { t with ended := true } else t
  | .resultReported k' msg => if k' = k ∧ msg.commandId = id then t.hear msg.outcome else t
  | _ => t

/-- The tally of a log, whose last note stands first. -/
def tallyOf (c k : Nat) (id : String) (log : List Note) : Tally :=
  log.foldr (fun n t => t.add c k id n) Tally.empty

theorem Tally.add_of_not_command {n : Note} (h : n.isCommand = false) (c k : Nat) (id : String)
    (t : Tally) : t.add c k id n = t := by
  cases n <;> first | rfl | cases h

theorem tallyOf_filter {p : Note → Bool} (h : ∀ n : Note, n.isCommand = true → p n = true)
    (c k : Nat) (id : String) (log : List Note) :
    tallyOf c k id (log.filter p) = tallyOf c k id log := by
  induction log with
  | nil => rfl
  | cons n rest ih =>
    by_cases hp : p n = true
    · simp only [List.filter_cons, hp, if_true, tallyOf, List.foldr_cons] at ih ⊢
      rw [ih]
    · have hn : n.isCommand = false := by
        cases hc : n.isCommand
        · rfl
        · exact absurd (h n hc) hp
      simp only [List.filter_cons, hp, tallyOf, List.foldr_cons] at ih ⊢
      rw [Tally.add_of_not_command hn]
      exact ih

/-! ## States of a command -/

def Scope.isOver : Scope → Bool
  | .finished _ => true
  | _ => false

/-- The tokens a caller's release discards, if it has a release. -/
def Caller.held : Caller → Option (List String)
  | .uiManage held _ => some held
  | _ => none

/-- How often a caller's release runs in all. -/
def Caller.releases (caller : Caller) : Nat := if caller.held.isSome then 1 else 0

/-- What a finished call returned, against the first final outcome it could have got. -/
def ResultOk (first : Option CommandOutcome) : Except DeliveryError CommandOutcome → Prop
  | .ok o => first = some o
  | .error e => e = .cancelled ∨ first = none

/-- The state of a delivery, its tally, whether its session is open, and whether its command
stands in `pending` and in `late`. -/
inductive Life (d : Delivery) (t : Tally) (isOpen inPending inLate : Prop) : Prop
  | waiting (hp : inPending) (hl : ¬inLate) (ho : d.scope.isOver = false)
    (hf : d.command.future = none) (hs : d.command.onSettled = d.caller.held)
    (ht : t = ⟨true, [], 0, 0, false, none⟩)
  | answered (o : CommandOutcome) (hp : ¬inPending) (hl : ¬inLate) (ho : d.scope.isOver = false)
    (hf : d.command.future = some (some o)) (ht : t = ⟨true, [some o], 1, 0, false, some o⟩)
  | abandoned (hopen : ¬isOpen) (hp : ¬inPending) (hl : ¬inLate) (ho : d.scope.isOver = false)
    (hf : d.command.future = some none) (ht : t = ⟨true, [none], 0, 0, false, none⟩)
  | late (e : DeliveryError) (hp : ¬inPending) (hl : inLate) (ho : d.scope = .finished (.error e))
    (hf : d.command.future = none) (hs : d.command.onSettled = d.caller.held)
    (ht : t = ⟨true, [], 0, 0, true, none⟩)
  | finished (r : Except DeliveryError CommandOutcome) (finals : Nat)
    (first : Option CommandOutcome) (hp : ¬inPending) (hl : ¬inLate) (ho : d.scope = .finished r)
    (hfinals : finals ≤ 1) (hr : ResultOk first r)
    (ht : t = ⟨true, d.command.future.toList, finals, d.caller.releases, true, first⟩)

theorem Life.timer {d : Delivery} {t : Tally} {o p l : Prop} (h : Life d t o p l)
    (hscope : d.scope = .waiting) : Life { d with scope := .expiring } t o p l := by
  cases h with
  | waiting hp hl ho hf hs ht => exact .waiting hp hl rfl hf hs ht
  | answered out hp hl ho hf ht => exact .answered out hp hl rfl hf ht
  | abandoned hopen hp hl ho hf ht => exact .abandoned hopen hp hl rfl hf ht
  | late e hp hl ho => simp [hscope] at ho
  | finished r finals first hp hl ho => simp [hscope] at ho

/-- An interim answer changes nothing of a command's life. -/
theorem Life.interim {d : Delivery} {t : Tally} {o p l : Prop} (h : Life d t o p l) :
    Life { d with command := { d.command with approvalPending := true } } t o p l := by
  cases h with
  | waiting hp hl ho hf hs ht => exact .waiting hp hl ho hf hs ht
  | answered out hp hl ho hf ht => exact .answered out hp hl ho hf ht
  | abandoned hopen hp hl ho hf ht => exact .abandoned hopen hp hl ho hf ht
  | late e hp hl ho hf hs ht => exact .late e hp hl ho hf hs ht
  | finished r finals first hp hl ho hfinals hr ht =>
    exact .finished r finals first hp hl ho hfinals hr ht

theorem Tally.hear_of_not_final {o : CommandOutcome} (h : o.outcome.isFinal = false) (t : Tally) :
    t.hear o = t := by simp [Tally.hear, h]

theorem Tally.hear_empty (o : CommandOutcome) : Tally.empty.hear o = Tally.empty := by
  simp [Tally.hear, Tally.empty]

/-- A report after the answer, or after the wait, is not heard any more. -/
theorem Life.hear {d : Delivery} {t : Tally} {o p l : Prop} (h : Life d t o p l) (hopen : o)
    (hp : ¬p) (out : CommandOutcome) : t.hear out = t := by
  cases h with
  | waiting hp' => exact absurd hp' hp
  | answered o' _ _ _ _ ht =>
    subst ht
    simp [Tally.hear]
  | abandoned hclosed => exact absurd hopen hclosed
  | late e _ _ _ _ _ ht =>
    subst ht
    simp [Tally.hear]
  | finished r finals first _ _ _ _ _ ht =>
    subst ht
    simp [Tally.hear]

namespace TransportSessions

/-- The part of a session the table and its commands are about. -/
def core (x : TransportSessions) (k : Nat) : Option SessionCore := (x.sessions[k]?).map (·.core)

/-- The tally of a command sent on a session under an id. -/
def tally (x : TransportSessions) (c k : Nat) (id : String) : Tally := tallyOf c k id x.log

structure CommandsOk (x : TransportSessions) : Prop where
  /-- What stands under an id was sent on this session under this id. -/
  homes : ∀ {k : Nat} {s : SessionCore} {id : String} {c : Nat}, x.core k = some s →
    (s.pending.get? id = some c ∨ s.late.get? id = some c) →
    ∃ d, x.deliveries[c]? = some d ∧ d.session = k ∧ d.commandId = id
  known : ∀ {c : Nat} {d : Delivery}, x.deliveries[c]? = some d → ∃ s, x.core d.session = some s
  fresh : ∀ {c c' : Nat} {d d' : Delivery}, x.deliveries[c]? = some d →
    x.deliveries[c']? = some d' →
    d.session = d'.session → d.commandId = d'.commandId → c = c'
  closed : ∀ {k : Nat} {s : SessionCore}, x.core k = some s → s.closedAt.isSome →
    s.pending = ∅ ∧ s.late = ∅
  life : ∀ {c : Nat} {d : Delivery} {s : SessionCore}, x.deliveries[c]? = some d →
    x.core d.session = some s →
    Life d (x.tally c d.session d.commandId) (s.closedAt = none)
      (s.pending.get? d.commandId = some c) (s.late.get? d.commandId = some c)
  unborn : ∀ {c : Nat}, x.deliveries.length ≤ c → ∀ k id, x.tally c k id = Tally.empty

/-- No session keeps more late commands than the bound. -/
def LateBounded (x : TransportSessions) : Prop :=
  ∀ (k : Nat) (s : SessionCore), x.core k = some s → s.late.size ≤ maxLateCommands

/-! ## Reading the core -/

theorem core_of_view {x x' : TransportSessions} (h : x'.coreView = x.coreView) (k : Nat) :
    x'.core k = x.core k := by
  have hs := congrArg TransportCore.sessions h
  simp only [coreView] at hs
  have hk := congrArg (·[k]?) hs
  simpa [core] using hk

theorem deliveries_of_view {x x' : TransportSessions} (h : x'.coreView = x.coreView) :
    x'.deliveries = x.deliveries := congrArg TransportCore.deliveries h

theorem tally_of_view {x x' : TransportSessions} (h : x'.coreView = x.coreView) (c k : Nat)
    (id : String) : x'.tally c k id = x.tally c k id := by
  have hl : x'.log.filter (fun n => n.isCommand || n.isClosing) =
      x.log.filter (fun n => n.isCommand || n.isClosing) := congrArg TransportCore.log h
  have hp : ∀ n : Note, n.isCommand = true → (n.isCommand || n.isClosing) = true := by
    intro n hn
    simp [hn]
  rw [tally, ← tallyOf_filter hp, hl, tallyOf_filter hp, tally]

theorem CommandsOk.of_view {x x' : TransportSessions} (h : CommandsOk x)
    (hview : x'.coreView = x.coreView) : CommandsOk x' := by
  have hd := deliveries_of_view hview
  constructor
  · intro k s id c hs
    rw [core_of_view hview] at hs
    rw [hd]
    exact h.homes hs
  · intro c d
    rw [hd, core_of_view hview]
    exact h.known
  · intro c c' d d'
    rw [hd]
    exact h.fresh
  · intro k s
    rw [core_of_view hview]
    exact h.closed
  · intro c d s
    rw [hd, core_of_view hview, tally_of_view hview]
    exact h.life
  · intro c
    rw [hd]
    intro hc k id
    rw [tally_of_view hview]
    exact h.unborn hc k id

@[simp] theorem tally_note (x : TransportSessions) (n : Note) (c k : Nat) (id : String) :
    (x.note n).tally c k id = (x.tally c k id).add c k id n := rfl

@[simp] theorem tally_setSession (x : TransportSessions) (k : Nat) (f) (c k' : Nat) (id : String) :
    (x.setSession k f).tally c k' id = x.tally c k' id := rfl

@[simp] theorem tally_setDelivery (x : TransportSessions) (c : Nat) (f) (c' k : Nat)
    (id : String) : (x.setDelivery c f).tally c' k id = x.tally c' k id := rfl

@[simp] theorem core_note (x : TransportSessions) (n : Note) (k : Nat) :
    (x.note n).core k = x.core k := rfl

@[simp] theorem core_setDelivery (x : TransportSessions) (c : Nat) (f) (k : Nat) :
    (x.setDelivery c f).core k = x.core k := rfl

theorem core_setSession (x : TransportSessions) (k : Nat) (f : PanelSession → PanelSession)
    (g : SessionCore → SessionCore) (hfg : ∀ s, (f s).core = g s.core) (k' : Nat) :
    (x.setSession k f).core k' = if k' = k then (x.core k').map g else x.core k' := by
  simp only [core, setSession, List.getElem?_modify]
  by_cases h : k' = k
  · subst h
    cases x.sessions[k']? with
    | none => simp
    | some s => simp [hfg]
  · cases x.sessions[k']? with
    | none => simp [h]
    | some s => simp [h, Ne.symm h]

theorem core_setSession_of_eq (x : TransportSessions) (k : Nat) (f : PanelSession → PanelSession)
    (h : ∀ s, (f s).core = s.core) (k' : Nat) : (x.setSession k f).core k' = x.core k' := by
  rw [core_setSession x k f id h]
  split
  · simp
  · rfl

@[simp] theorem deliveries_note (x : TransportSessions) (n : Note) :
    (x.note n).deliveries = x.deliveries := rfl

@[simp] theorem deliveries_setSession (x : TransportSessions) (k : Nat) (f) :
    (x.setSession k f).deliveries = x.deliveries := rfl

theorem deliveries_setDelivery (x : TransportSessions) (c : Nat) (f : Delivery → Delivery)
    (c' : Nat) : (x.setDelivery c f).deliveries[c']? =
      if c' = c then (x.deliveries[c']?).map f else x.deliveries[c']? := by
  simp only [setDelivery, List.getElem?_modify]
  by_cases h : c' = c
  · simp [h]
  · cases x.deliveries[c']? <;> simp [h, Ne.symm h]

/-! ## Steps that send nothing -/

/-- No delivery is new or changes its home, and nothing stands where it did not stand. -/
structure SameHomes (x x' : TransportSessions) : Prop where
  homes : ∀ c : Nat, (x'.deliveries[c]?).map (fun d => (d.session, d.commandId)) =
    (x.deliveries[c]?).map (fun d => (d.session, d.commandId))
  kept : ∀ (k : Nat) (s : SessionCore), x.core k = some s → ∃ s', x'.core k = some s'
  moved : ∀ (k : Nat) (s' : SessionCore), x'.core k = some s' → ∃ s, x.core k = some s ∧
    ∀ id c, (s'.pending.get? id = some c ∨ s'.late.get? id = some c) →
      (s.pending.get? id = some c ∨ s.late.get? id = some c)

theorem SameHomes.delivery {x x' : TransportSessions} (h : SameHomes x x') {c : Nat}
    {d' : Delivery} (hd : x'.deliveries[c]? = some d') :
    ∃ d, x.deliveries[c]? = some d ∧ d.session = d'.session ∧ d.commandId = d'.commandId := by
  have hc := h.homes c
  rw [hd] at hc
  cases hx : x.deliveries[c]? with
  | none => simp [hx] at hc
  | some d =>
    simp only [hx, Option.map_some, Option.some.injEq, Prod.mk.injEq] at hc
    exact ⟨d, rfl, hc.1.symm, hc.2.symm⟩

theorem SameHomes.delivery' {x x' : TransportSessions} (h : SameHomes x x') {c : Nat}
    {d : Delivery} (hd : x.deliveries[c]? = some d) :
    ∃ d', x'.deliveries[c]? = some d' ∧ d'.session = d.session ∧ d'.commandId = d.commandId := by
  have hc := h.homes c
  rw [hd] at hc
  cases hx : x'.deliveries[c]? with
  | none => simp [hx] at hc
  | some d' =>
    simp only [hx, Option.map_some, Option.some.injEq, Prod.mk.injEq] at hc
    exact ⟨d', rfl, hc.1, hc.2⟩

theorem CommandsOk.of_sameHomes {x x' : TransportSessions} (h : CommandsOk x)
    (hx : SameHomes x x')
    (hclosed : ∀ {k : Nat} {s : SessionCore}, x'.core k = some s → s.closedAt.isSome →
      s.pending = ∅ ∧ s.late = ∅)
    (hlife : ∀ {c : Nat} {d : Delivery} {s : SessionCore}, x'.deliveries[c]? = some d →
      x'.core d.session = some s →
      Life d (x'.tally c d.session d.commandId) (s.closedAt = none)
        (s.pending.get? d.commandId = some c) (s.late.get? d.commandId = some c))
    (hunborn : ∀ {c : Nat}, x.deliveries.length ≤ c → ∀ k id, x'.tally c k id = Tally.empty) :
    CommandsOk x' := by
  refine ⟨?_, ?_, ?_, hclosed, hlife, ?_⟩
  · intro k s' id c hs' hin
    obtain ⟨s, hs, hsub⟩ := hx.moved k s' hs'
    obtain ⟨d, hd, hk, hid⟩ := h.homes hs (hsub id c hin)
    obtain ⟨d', hd', hk', hid'⟩ := hx.delivery' hd
    exact ⟨d', hd', hk'.trans hk, hid'.trans hid⟩
  · intro c d' hd'
    obtain ⟨d, hd, hk, -⟩ := hx.delivery hd'
    obtain ⟨s, hs⟩ := h.known hd
    rw [hk] at hs
    exact hx.kept _ _ hs
  · intro c c' d d' hd hd' hk hid
    obtain ⟨e, he, hek, heid⟩ := hx.delivery hd
    obtain ⟨e', he', hek', heid'⟩ := hx.delivery hd'
    exact h.fresh he he' (by rw [hek, hek', hk]) (by rw [heid, heid', hid])
  · intro c hc
    refine hunborn ?_
    by_contra hlt
    obtain ⟨d, hd⟩ : ∃ d, x.deliveries[c]? = some d :=
      ⟨_, List.getElem?_eq_getElem (Nat.lt_of_not_le hlt)⟩
    obtain ⟨d', hd', -⟩ := hx.delivery' hd
    rw [List.getElem?_eq_none hc] at hd'
    cases hd'

/-! ## Sending -/

theorem core_deliver (x : TransportSessions) (k : Nat) (commandId : String) (request : Request)
    (deadlineMs : Int) (onInterim : Option Interim) (onSettled : Option (List String))
    (caller : Caller) (k' : Nat) :
    (x.deliver k commandId request deadlineMs onInterim onSettled caller).core k' =
      if k' = k then (x.core k').map fun s =>
        { s with pending := s.pending.set commandId x.deliveries.length }
      else x.core k' :=
  core_setSession x k
    (fun s => PanelSession.count
      { s with pending := s.pending.set commandId x.deliveries.length } "sent")
    (fun s => { s with pending := s.pending.set commandId x.deliveries.length }) (fun _ => rfl) k'

/-- Sending a command on an open session, under an id that no command had. -/
theorem CommandsOk.deliver {x : TransportSessions} (h : CommandsOk x) {k : Nat} {s : SessionCore}
    (hk : x.core k = some s) (hopen : s.closedAt = none) {commandId : String}
    (hfresh : ∀ (c : Nat) d, x.deliveries[c]? = some d → d.commandId ≠ commandId)
    (request : Request) (deadlineMs : Int) (onInterim : Option Interim) (caller : Caller) :
    CommandsOk (x.deliver k commandId request deadlineMs onInterim caller.held caller) := by
  have hcore := core_deliver x k commandId request deadlineMs onInterim caller.held caller
  have hdeliveries : (x.deliver k commandId request deadlineMs onInterim caller.held caller
      ).deliveries = x.deliveries ++
      [⟨k, commandId, ⟨request.label, none, false, onInterim, caller.held⟩, .waiting, caller⟩] :=
    rfl
  have htally : ∀ c k' id, (x.deliver k commandId request deadlineMs onInterim caller.held caller
      ).tally c k' id = if x.deliveries.length = c then { x.tally c k' id with sent := true }
        else x.tally c k' id := fun c k' id => rfl
  generalize x.deliver k commandId request deadlineMs onInterim caller.held caller = x' at *
  -- The new command stands in `pending`; what stood somewhere before stands there still.
  have hold : ∀ {c d}, x'.deliveries[c]? = some d → (c < x.deliveries.length ∧
      x.deliveries[c]? = some d) ∨ (c = x.deliveries.length ∧
        d = ⟨k, commandId, ⟨request.label, none, false, onInterim, caller.held⟩, .waiting,
          caller⟩) := by
    intro c d hd
    rw [hdeliveries] at hd
    rcases Nat.lt_trichotomy c x.deliveries.length with hc | hc | hc
    · rw [List.getElem?_append_left hc] at hd
      exact Or.inl ⟨hc, hd⟩
    · subst hc
      rw [List.getElem?_concat_length, Option.some.injEq] at hd
      exact Or.inr ⟨rfl, hd.symm⟩
    · rw [List.getElem?_eq_none (by simp; omega)] at hd
      cases hd
  have hcore' : ∀ {k' s'}, x'.core k' = some s' → (k' ≠ k ∧ x.core k' = some s') ∨
      (k' = k ∧ s' = { s with pending := s.pending.set commandId x.deliveries.length }) := by
    intro k' s' hs'
    rw [hcore] at hs'
    by_cases hkk : k' = k
    · subst hkk
      rw [if_pos rfl, hk, Option.map_some, Option.some.injEq] at hs'
      exact Or.inr ⟨rfl, hs'.symm⟩
    · rw [if_neg hkk] at hs'
      exact Or.inl ⟨hkk, hs'⟩
  have hlt : ∀ {c : Nat} {d}, x.deliveries[c]? = some d → c < x.deliveries.length :=
    fun hd => (List.getElem?_eq_some_iff.mp hd).1
  have hkeep : ∀ {c : Nat} {d}, x.deliveries[c]? = some d → x'.deliveries[c]? = some d := by
    intro c d hd
    rw [hdeliveries, List.getElem?_append_left (hlt hd)]
    exact hd
  have hnew : x'.deliveries[x.deliveries.length]? = some
      ⟨k, commandId, ⟨request.label, none, false, onInterim, caller.held⟩, .waiting, caller⟩ := by
    rw [hdeliveries, List.getElem?_concat_length]
  have hnone : s.late.get? commandId = none ∧ s.pending.get? commandId = none := by
    constructor
    · cases hl : s.late.get? commandId with
      | none => rfl
      | some c =>
        obtain ⟨d, hd, -, hid⟩ := h.homes hk (Or.inr hl)
        exact absurd hid (hfresh c d hd)
    · cases hl : s.pending.get? commandId with
      | none => rfl
      | some c =>
        obtain ⟨d, hd, -, hid⟩ := h.homes hk (Or.inl hl)
        exact absurd hid (hfresh c d hd)
  refine ⟨?_, ?_, ?_, ?_, ?_, ?_⟩
  · intro k' s' id c hs' hin
    rcases hcore' hs' with ⟨-, hs⟩ | ⟨rfl, rfl⟩
    · obtain ⟨d, hd, hrest⟩ := h.homes hs hin
      exact ⟨d, hkeep hd, hrest⟩
    · simp only [Dict.get?_set] at hin
      by_cases hid : id = commandId
      · subst hid
        rw [if_pos rfl, hnone.1] at hin
        rcases hin with hin | hin
        · cases hin
          exact ⟨_, hnew, rfl, rfl⟩
        · cases hin
      · rw [if_neg hid] at hin
        obtain ⟨d, hd, hrest⟩ := h.homes hk hin
        exact ⟨d, hkeep hd, hrest⟩
  · intro c d hd
    rw [hcore]
    rcases hold hd with ⟨-, hd⟩ | ⟨-, rfl⟩
    · obtain ⟨s', hs'⟩ := h.known hd
      rw [hs']
      split <;> exact ⟨_, rfl⟩
    · rw [if_pos rfl, hk]
      exact ⟨_, rfl⟩
  · intro c c' d d' hd hd' hkk hid
    rcases hold hd with ⟨-, hd⟩ | ⟨rfl, rfl⟩ <;> rcases hold hd' with ⟨-, hd'⟩ | ⟨rfl, rfl⟩
    · exact h.fresh hd hd' hkk hid
    · exact absurd hid (hfresh _ _ hd)
    · exact absurd hid.symm (hfresh _ _ hd')
    · rfl
  · intro k' s' hs' hc
    rcases hcore' hs' with ⟨-, hs⟩ | ⟨rfl, rfl⟩
    · exact h.closed hs hc
    · simp [hopen] at hc
  · intro c d s' hd hs'
    rw [htally]
    rcases hold hd with ⟨hc, hd⟩ | ⟨rfl, rfl⟩
    · rw [if_neg (by omega)]
      rcases hcore' hs' with ⟨-, hs⟩ | ⟨hkk, rfl⟩
      · exact h.life hd hs
      · have hlife := h.life hd (hkk ▸ hk)
        rw [Dict.get?_set_ne _ _ (hfresh c d hd)]
        exact hlife
    · rw [if_pos rfl, h.unborn (Nat.le_refl _)]
      rcases hcore' hs' with ⟨hne, -⟩ | ⟨-, rfl⟩
      · exact absurd rfl hne
      · exact .waiting (Dict.get?_set_self _ _ _) (by simp [hnone.1]) rfl rfl rfl rfl
  · intro c hc k' id
    rw [hdeliveries, List.length_append, List.length_singleton] at hc
    rw [htally, if_neg (by omega)]
    exact h.unborn (by omega) k' id

end TransportSessions

end PanelAssistant
