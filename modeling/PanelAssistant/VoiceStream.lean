import Mathlib
import PanelAssistant.Library.Runs
import PanelAssistant.Library.WaitQueue

/-!
# A panel's Sendspin connection

`SessionSocket` of `voice_stream.py`. The session feeds what the panel sends into a bounded inbox,
and the Sendspin server receives from it. Closing puts a marker behind what was fed; where the
inbox is full it first takes off the messages at its head, which nobody has received
(`closeLoop`). So what is received is an unbroken prefix of what was fed while the connection is
not closed with a full inbox (`frames_reach_the_server`), and after an overflow it is not
(`overflow_breaks_prefix`).

A run is a list of events in the order of the event loop: calls of `feed`, `receive` and `close`,
and the moments at which a receive that was woken goes on. The events a socket sends to its panel
are left out.
-/

namespace PanelAssistant.Sendspin

open Library

/-- `MAX_INBOX` -/
def maxInbox : ℕ := 256

/-- `WSMessage` -/
inductive WSMessage where
  | text (data : String)
  | binary (data : ByteArray)
  | closed
  deriving DecidableEq

/-- The message of a frame; a text that is not UTF-8 has none, and `feed` raises. -/
def message (data : ByteArray) (text : Bool) : Option WSMessage :=
  if text then
    if h : data.IsValidUTF8 then some (.text (String.ofByteArray data h)) else none
  else some (.binary data)

structure SessionSocket where
  inbox : WaitQueue WSMessage
  closed : Bool
  /-- What calls of `receive` have returned, the first one first. -/
  returned : List WSMessage

namespace SessionSocket

def fresh : SessionSocket := ⟨.empty, false, []⟩

/-- The loop of `close_now`, on the items of the inbox: while they leave no room for the marker,
the first one is taken off. An empty inbox has room. -/
def closeLoop (waiting woken : List ℕ) : List WSMessage → WaitQueue WSMessage
  | [] => WaitQueue.push ⟨[], waiting, woken⟩ .closed
  | first :: rest =>
    match WaitQueue.putNowait maxInbox ⟨first :: rest, waiting, woken⟩ .closed with
    | some inbox => inbox
    | none => closeLoop waiting woken rest

def closeNow (s : SessionSocket) : SessionSocket :=
  if s.closed then s
  else { s with closed := true, inbox := closeLoop s.inbox.waiting s.inbox.woken s.inbox.items }

def feed (s : SessionSocket) (data : ByteArray) (text : Bool) : SessionSocket :=
  if s.closed then s
  else
    match message data text with
    | none => s
    | some message =>
      match s.inbox.putNowait maxInbox message with
      | some inbox => { s with inbox }
      | none => s.closeNow

/-- A call of `receive` up to where it returns or waits. -/
def receive (s : SessionSocket) (reader : ℕ) : SessionSocket :=
  if s.closed && s.inbox.items.isEmpty then { s with returned := s.returned ++ [.closed] }
  else
    let (message, inbox) := s.inbox.get reader
    { s with inbox, returned := s.returned ++ message.toList }

/-- A receive that was woken goes on. -/
def resume (s : SessionSocket) (reader : ℕ) : SessionSocket :=
  let (message, inbox) := s.inbox.resume reader
  { s with inbox, returned := s.returned ++ message.toList }

end SessionSocket

inductive Event where
  | feed (data : ByteArray) (text : Bool)
  | receive (reader : ℕ)
  | resume (reader : ℕ)
  | close

def step (s : SessionSocket) : Event → SessionSocket
  | .feed data text => s.feed data text
  | .receive reader => s.receive reader
  | .resume reader => s.resume reader
  | .close => s.closeNow

/-- The socket after the events. -/
def after (events : List Event) : SessionSocket := Runs.run step .fresh events

/-- The message an event feeds. -/
def Event.message : Event → Option WSMessage
  | .feed data text => Sendspin.message data text
  | _ => none

/-- The messages of the frames that were fed. -/
def fed (events : List Event) : List WSMessage := events.filterMap Event.message

/-- What was received until the connection was reported closed. -/
def delivered (events : List Event) : List WSMessage :=
  (after events).returned.takeWhile (· ≠ .closed)

/-- Where the code does what its comment says: an open connection is closed while its inbox has
room, and a receive is not pending without a message to come for it. The latter holds while at
most one receive is pending at a time. -/
def Fits (s : SessionSocket) : Event → Prop
  | .feed data text =>
    s.closed = false → (message data text).isSome = true → s.inbox.items.length < maxInbox
  | .receive _ =>
    s.closed = true → s.inbox.items ≠ [] → s.inbox.woken.length < s.inbox.items.length
  | .resume _ => True
  | .close =>
    s.closed = false →
      s.inbox.items.length < maxInbox ∧ s.inbox.pending ≤ s.inbox.items.length + 1

instance (s : SessionSocket) : (e : Event) → Decidable (Fits s e)
  | .feed _ _ => inferInstanceAs (Decidable (_ → _ → _))
  | .receive _ => inferInstanceAs (Decidable (_ → _ → _))
  | .resume _ => inferInstanceAs (Decidable True)
  | .close => inferInstanceAs (Decidable (_ → _))

theorem message_ne_closed {data : ByteArray} {text : Bool} {m : WSMessage}
    (h : message data text = some m) : m ≠ .closed := by
  unfold message at h
  split at h
  · split at h <;> cases h
    intro hc
    cases hc
  · cases h
    intro hc
    cases hc

theorem closed_not_mem_fed (events : List Event) : .closed ∉ fed events := by
  rw [fed, List.mem_filterMap]
  rintro ⟨e, -, he⟩
  cases e with
  | feed data text => exact message_ne_closed he rfl
  | receive | resume | close => cases he

/-! ## Closing -/

theorem closeLoop_of_lt {waiting woken : List ℕ} {items : List WSMessage}
    (h : items.length < maxInbox) :
    SessionSocket.closeLoop waiting woken items =
      WaitQueue.push ⟨items, waiting, woken⟩ .closed := by
  cases items with
  | nil => rfl
  | cons first rest => rw [SessionSocket.closeLoop, WaitQueue.putNowait_of_lt h]

/-! ## What a socket keeps to -/

/-- An open socket holds what was fed and not received. -/
structure Open (messages : List WSMessage) (s : SessionSocket) : Prop where
  closed : s.closed = false
  kept : s.returned ++ s.inbox.items = messages
  room : s.inbox.items.length ≤ maxInbox
  lagging : s.inbox.Lagging

/-- A closed socket holds what was fed before, and the marker; once both are received it answers
with further markers. -/
structure Ended (messages : List WSMessage) (s : SessionSocket) : Prop where
  closed : s.closed = true
  kept : ∃ k, s.returned ++ s.inbox.items = messages ++ List.replicate (k + 1) .closed ∧
    (s.inbox.items ≠ [] → k = 0)
  room : s.inbox.items.length ≤ maxInbox
  served : s.inbox.Served

section

variable {messages : List WSMessage} {s : SessionSocket} {reader : ℕ}

theorem Open.close (h : Open messages s) (hfit : Fits s .close) : Ended messages s.closeNow := by
  obtain ⟨hroom, hpending⟩ := hfit h.closed
  have hserved : (s.inbox.push .closed).Served := h.lagging.served_push hpending
  have hclose : s.closeNow = { s with closed := true, inbox := s.inbox.push .closed } := by
    rw [SessionSocket.closeNow, if_neg (by simp [h.closed]), closeLoop_of_lt hroom]
  rw [hclose]
  refine ⟨rfl, ⟨0, ?_, fun _ => rfl⟩, ?_, hserved⟩
  · rw [WaitQueue.items_push, ← List.append_assoc, h.kept]
    rfl
  · rw [WaitQueue.items_push, List.length_append, List.length_singleton]
    omega

/-- A reader leaves what is received and what is unread together as they are. -/
theorem kept_get (q : WaitQueue WSMessage) (returned : List WSMessage) :
    (returned ++ (q.get reader).1.toList) ++ (q.get reader).2.items = returned ++ q.items := by
  rw [List.append_assoc, WaitQueue.get_items]

theorem kept_resume (q : WaitQueue WSMessage) (returned : List WSMessage) :
    (returned ++ (q.resume reader).1.toList) ++ (q.resume reader).2.items =
      returned ++ q.items := by
  rw [List.append_assoc, WaitQueue.resume_items]

theorem length_get (q : WaitQueue WSMessage) : (q.get reader).2.items.length ≤ q.items.length := by
  have hitems : (q.get reader).1.toList ++ (q.get reader).2.items = q.items := q.get_items
  have := congrArg List.length hitems
  rw [List.length_append] at this
  omega

theorem length_resume (q : WaitQueue WSMessage) :
    (q.resume reader).2.items.length ≤ q.items.length := by
  have hitems : (q.resume reader).1.toList ++ (q.resume reader).2.items = q.items := q.resume_items
  have := congrArg List.length hitems
  rw [List.length_append] at this
  omega

/-- A step of an open connection that fits takes the frame that is fed, or closes it. -/
theorem open_step (h : Open messages s) {e : Event} (hfit : Fits s e) :
    Open (messages ++ fed [e]) (step s e) ∨ Ended messages (step s e) := by
  have hopen := h.closed
  cases e with
  | feed data text =>
    refine .inl ?_
    cases hmessage : message data text with
    | none =>
      have hfed : fed [.feed data text] = [] := List.filterMap_cons_none hmessage
      have hstep : step s (.feed data text) = s := by
        simp only [step, SessionSocket.feed, hopen, hmessage, Bool.false_eq_true, if_false]
      rw [hfed, List.append_nil, hstep]
      exact h
    | some m =>
      have hroom : s.inbox.items.length < maxInbox := hfit hopen (by rw [hmessage]; rfl)
      have hfed : fed [.feed data text] = [m] := List.filterMap_cons_some hmessage
      have hstep : step s (.feed data text) = { s with inbox := s.inbox.push m } := by
        simp only [step, SessionSocket.feed, hopen, hmessage, Bool.false_eq_true, if_false,
          WaitQueue.putNowait_of_lt hroom]
      rw [hfed, hstep]
      refine ⟨hopen, ?_, ?_, h.lagging.push⟩
      · rw [WaitQueue.items_push, ← List.append_assoc, h.kept]
      · rw [WaitQueue.items_push, List.length_append, List.length_singleton]
        omega
  | receive reader =>
    have hstep : step s (.receive reader) =
        { s with inbox := (s.inbox.get reader).2,
                 returned := s.returned ++ (s.inbox.get reader).1.toList } := by
      simp only [step, SessionSocket.receive, hopen, Bool.false_and, Bool.false_eq_true,
        if_false]
    rw [hstep, show fed [.receive reader] = [] from rfl, List.append_nil]
    exact .inl ⟨hopen, (kept_get _ _).trans h.kept,
      Nat.le_trans (length_get _) h.room, h.lagging.get⟩
  | resume reader =>
    rw [show fed [.resume reader] = [] from rfl, List.append_nil]
    exact .inl ⟨hopen, (kept_resume _ _).trans h.kept, Nat.le_trans (length_resume _) h.room,
      h.lagging.resume⟩
  | close => exact .inr (h.close hfit)

/-- A closed connection takes nothing. -/
theorem ended_step (h : Ended messages s) {e : Event} (hfit : Fits s e) :
    Ended messages (step s e) := by
  have hclosed := h.closed
  cases e with
  | feed data text =>
    have hstep : step s (.feed data text) = s := by
      simp only [step, SessionSocket.feed, hclosed, if_true]
    rw [hstep]
    exact h
  | receive reader =>
    obtain ⟨k, hkept, hone⟩ := h.kept
    cases hitems : s.inbox.items with
    | nil =>
      have hstep : step s (.receive reader) = { s with returned := s.returned ++ [.closed] } := by
        simp only [step, SessionSocket.receive, hclosed, hitems, List.isEmpty_nil,
          Bool.and_self, if_true]
      rw [hstep]
      refine ⟨hclosed, ⟨k + 1, ?_, fun hne => absurd hitems hne⟩, h.room, h.served⟩
      rw [hitems, List.append_nil] at hkept
      rw [hitems, List.append_nil, hkept, List.append_assoc, ← List.replicate_succ']
    | cons first rest =>
      have hne : s.inbox.items ≠ [] := by
        rw [hitems]
        exact List.cons_ne_nil _ _
      have hstep : step s (.receive reader) =
          { s with inbox := (s.inbox.get reader).2,
                   returned := s.returned ++ (s.inbox.get reader).1.toList } := by
        simp only [step, SessionSocket.receive, hclosed, hitems, List.isEmpty_cons,
          Bool.and_false, Bool.false_eq_true, if_false]
      rw [hstep]
      exact ⟨hclosed, ⟨k, (kept_get _ _).trans hkept, fun _ => hone hne⟩,
        Nat.le_trans (length_get _) h.room, h.served.get (hfit hclosed hne)⟩
  | resume reader =>
    obtain ⟨k, hkept, hone⟩ := h.kept
    refine ⟨hclosed, ⟨k, (kept_resume _ _).trans hkept, fun hne => hone fun hnil => hne ?_⟩,
      Nat.le_trans (length_resume _) h.room, h.served.resume⟩
    have hle : (s.inbox.resume reader).2.items.length ≤ s.inbox.items.length := length_resume _
    rw [hnil, List.length_nil] at hle
    exact List.length_eq_zero_iff.mp (Nat.le_zero.mp hle)
  | close =>
    have hstep : step s .close = s := by
      simp only [step, SessionSocket.closeNow, hclosed, if_true]
    rw [hstep]
    exact h

/-- What a closed socket makes of its steps: it hands out its unread messages, and when they are
gone markers. -/
def Drained (s s' : SessionSocket) : Prop :=
  ∃ n m, s'.returned = s.returned ++ s.inbox.items.take n ++ List.replicate m .closed ∧
    s'.inbox.items = s.inbox.items.drop n ∧ (m ≠ 0 → s.inbox.items.length ≤ n)

theorem Drained.refl (s : SessionSocket) : Drained s s :=
  ⟨0, 0, by simp, rfl, fun h => absurd rfl h⟩

theorem Drained.trans {s₁ s₂ s₃ : SessionSocket} (h : Drained s₁ s₂) (h' : Drained s₂ s₃) :
    Drained s₁ s₃ := by
  obtain ⟨n, m, hreturned, hitems, hall⟩ := h
  obtain ⟨n', m', hreturned', hitems', hall'⟩ := h'
  rw [hitems, List.drop_drop] at hitems'
  rw [hitems, List.length_drop] at hall'
  refine ⟨n + n', m + m', ?_, hitems', fun _ => ?_⟩
  · rw [hreturned', hreturned, hitems, List.take_add, List.replicate_add]
    by_cases hm : m = 0
    · simp [hm]
    · have hnone : s₁.inbox.items.drop n = [] := List.drop_eq_nil_of_le (hall hm)
      simp [hnone]
  · by_cases hm : m = 0
    · have := hall' (by omega)
      omega
    · have := hall hm
      omega

theorem drained_step (h : Ended messages s) (e : Event) : Drained s (step s e) := by
  have hclosed := h.closed
  cases e with
  | feed data text =>
    have hstep : step s (.feed data text) = s := by
      simp only [step, SessionSocket.feed, hclosed, if_true]
    rw [hstep]
    exact .refl s
  | receive reader =>
    cases hitems : s.inbox.items with
    | nil =>
      refine ⟨0, 1, ?_, ?_, fun _ => by simp [hitems]⟩
      · simp [step, SessionSocket.receive, hclosed, hitems]
      · simp [step, SessionSocket.receive, hclosed, hitems]
    | cons first rest =>
      refine ⟨1, 0, ?_, ?_, fun h => absurd rfl h⟩
      · simp [step, SessionSocket.receive, hitems, WaitQueue.get]
      · simp [step, SessionSocket.receive, hitems, WaitQueue.get]
  | resume reader =>
    by_cases hwoken : reader ∈ s.inbox.woken
    · have hpos := List.length_pos_of_mem hwoken
      have hserved := h.served.woken
      cases hitems : s.inbox.items with
      | nil =>
        rw [hitems, List.length_nil] at hserved
        omega
      | cons first rest =>
        refine ⟨1, 0, ?_, ?_, fun h => absurd rfl h⟩
        · simp [step, SessionSocket.resume, WaitQueue.resume, hwoken, hitems, WaitQueue.get]
        · simp [step, SessionSocket.resume, WaitQueue.resume, hwoken, hitems, WaitQueue.get]
    · have hstep : step s (.resume reader) = s := by
        simp [step, SessionSocket.resume, WaitQueue.resume, hwoken]
      rw [hstep]
      exact .refl s
  | close =>
    have hstep : step s .close = s := by
      simp only [step, SessionSocket.closeNow, hclosed, if_true]
    rw [hstep]
    exact .refl s

/-! ## Runs -/

theorem ended_run {later : List Event} (h : Ended messages s)
    (hfit : Runs.Along step Fits s later) :
    Ended messages (Runs.run step s later) :=
  Runs.run_inv_along (Ended messages) (fun _ _ hs hfits => ended_step hs hfits) h hfit

theorem drained_run {later : List Event} (h : Ended messages s)
    (hfit : Runs.Along step Fits s later) : Drained s (Runs.run step s later) := by
  induction later generalizing s with
  | nil => exact .refl s
  | cons e rest ih => exact (drained_step h e).trans (ih (ended_step h hfit.1) hfit.2)

theorem open_fresh : Open [] .fresh := ⟨rfl, rfl, Nat.zero_le _, WaitQueue.lagging_empty⟩

theorem fed_append (events events' : List Event) :
    fed (events ++ events') = fed events ++ fed events' :=
  List.filterMap_append

/-- A connection is open and holds what was fed, or it was closed at some point and holds what was
fed until then. -/
theorem open_or_ended {events : List Event} (hfit : Runs.Along step Fits .fresh events) :
    Open (fed events) (after events) ∨
      ∃ messages, messages <+: fed events ∧ Ended messages (after events) := by
  induction events using List.reverseRecOn with
  | nil => exact .inl open_fresh
  | append_singleton events e ih =>
    obtain ⟨hbefore, he, -⟩ := Runs.Along.append.mp hfit
    rw [after, Runs.run_concat, fed_append]
    rcases ih hbefore with hopen | ⟨messages, hpre, hended⟩
    · rcases open_step hopen he with hstep | hstep
      · exact .inl hstep
      · exact .inr ⟨_, List.prefix_append _ _, hstep⟩
    · exact .inr ⟨messages, hpre.trans (List.prefix_append _ _), ended_step hended he⟩

end

/-- What holds after a connection was closed, whatever happens later. -/
structure ClosedFor (before later : List Event) : Prop where
  /-- Only what was fed before is received. -/
  frames : (after (before ++ later)).returned.filter (· ≠ .closed) <+: fed before
  /-- What is received is what was unread, at most a full inbox of it, and then markers. -/
  drained : Drained (after before) (after (before ++ later))
  bounded : (after before).inbox.items.length ≤ maxInbox
  /-- The last that is unread is the marker, if it was not received before. -/
  marker : (after before).inbox.items.getLast? = some .closed ∨
    (after before).inbox.items = [] ∧ .closed ∈ (after before).returned
  /-- A receive that is called later returns at once. -/
  called : ∀ reader, ((after (before ++ later)).receive reader).returned.length =
    (after (before ++ later)).returned.length + 1
  /-- Every receive that is pending was woken, and returns when it goes on. -/
  woken : (after (before ++ later)).inbox.waiting = []
  resumed : ∀ reader ∈ (after (before ++ later)).inbox.woken,
    ((after (before ++ later)).resume reader).returned.length =
      (after (before ++ later)).returned.length + 1

section

variable {messages : List WSMessage} {s : SessionSocket}

theorem filter_messages (h : .closed ∉ messages) (k : ℕ) :
    (messages ++ List.replicate k WSMessage.closed).filter (· ≠ .closed) = messages := by
  have hall : ∀ m ∈ messages, decide (m ≠ WSMessage.closed) = true := fun m hm =>
    decide_eq_true fun heq => h (heq ▸ hm)
  rw [List.filter_append, List.filter_eq_self.mpr hall, List.filter_replicate_of_neg (by simp),
    List.append_nil]

theorem takeWhile_messages (h : .closed ∉ messages) (k : ℕ) :
    (messages ++ List.replicate k WSMessage.closed).takeWhile (· ≠ .closed) = messages := by
  have hall : ∀ m ∈ messages, decide (m ≠ WSMessage.closed) = true := fun m hm =>
    decide_eq_true fun heq => h (heq ▸ hm)
  rw [List.takeWhile_append_of_pos hall]
  cases k <;> simp [List.replicate_succ]

theorem takeWhile_append_prefix (p : WSMessage → Bool) (l l' : List WSMessage) :
    l.takeWhile p <+: (l ++ l').takeWhile p := by
  rw [List.takeWhile_append]
  split
  · exact (List.takeWhile_prefix p).trans (List.prefix_append _ _)
  · exact List.prefix_refl _

theorem Ended.filter_returned (h : Ended messages s) (hfed : .closed ∉ messages) :
    s.returned.filter (· ≠ .closed) <+: messages := by
  obtain ⟨k, hkept, -⟩ := h.kept
  have hpre : s.returned <+: messages ++ List.replicate (k + 1) .closed := ⟨_, hkept⟩
  have hfilter := hpre.filter (· ≠ .closed)
  rwa [filter_messages hfed] at hfilter

theorem Ended.marker (h : Ended messages s) :
    s.inbox.items.getLast? = some .closed ∨ s.inbox.items = [] ∧ .closed ∈ s.returned := by
  obtain ⟨k, hkept, -⟩ := h.kept
  rw [List.replicate_succ', ← List.append_assoc] at hkept
  rcases List.eq_nil_or_concat s.inbox.items with hnil | ⟨init, last, hlast⟩
  · refine .inr ⟨hnil, ?_⟩
    rw [hnil, List.append_nil] at hkept
    rw [hkept]
    exact List.mem_append_right _ (List.mem_singleton_self _)
  · refine .inl ?_
    rw [hlast, List.concat_eq_append, ← List.append_assoc] at hkept
    have hmarker := (List.append_inj' hkept rfl).2
    rw [hlast, List.concat_eq_append, List.getLast?_concat, List.singleton_inj.mp hmarker]

theorem Ended.length_receive (h : Ended messages s) (reader : ℕ) :
    (s.receive reader).returned.length = s.returned.length + 1 := by
  have hclosed := h.closed
  cases hitems : s.inbox.items with
  | nil => simp [SessionSocket.receive, hclosed, hitems]
  | cons first rest => simp [SessionSocket.receive, hitems, WaitQueue.get]

theorem Ended.length_resume (h : Ended messages s) {reader : ℕ} (hwoken : reader ∈ s.inbox.woken) :
    (s.resume reader).returned.length = s.returned.length + 1 := by
  obtain ⟨m, hm⟩ := Option.isSome_iff_exists.mp (h.served.resume_isSome hwoken)
  simp only [SessionSocket.resume, hm, Option.toList_some, List.length_append,
    List.length_singleton]

theorem Open.prefix_returned (h : Open messages s) : s.returned <+: messages := ⟨_, h.kept⟩

end

/-- In a run that fits, what is received until the connection is reported closed is an unbroken
prefix of what was fed; and from the moment at which the connection is closed nothing that is fed
is received, and every receive returns, with the marker after what was unread. -/
theorem frames_reach_the_server {events : List Event}
    (hfit : Runs.Along step Fits .fresh events) :
    delivered events <+: fed events ∧
      ∀ before later, events = before ++ later → (after before).closed = true →
        ClosedFor before later := by
  constructor
  · rcases open_or_ended hfit with hopen | ⟨messages, hpre, hended⟩
    · exact (List.takeWhile_prefix _).trans hopen.prefix_returned
    · obtain ⟨k, hkept, -⟩ := hended.kept
      have hfed : .closed ∉ messages := fun hm => closed_not_mem_fed events (hpre.subset hm)
      have htake : delivered events <+:
          ((after events).returned ++ (after events).inbox.items).takeWhile (· ≠ .closed) :=
        takeWhile_append_prefix _ _ _
      rw [hkept, takeWhile_messages hfed] at htake
      exact htake.trans hpre
  · rintro before later rfl hclosed
    obtain ⟨hbefore, hlater⟩ := Runs.Along.append.mp hfit
    rcases open_or_ended hbefore with hopen | ⟨messages, hpre, hended⟩
    · rw [hopen.closed] at hclosed
      cases hclosed
    · have hfed : .closed ∉ messages := fun hm => closed_not_mem_fed before (hpre.subset hm)
      have hafter : after (before ++ later) = Runs.run step (after before) later :=
        Runs.run_append _ _ _ _
      have hend : Ended messages (after (before ++ later)) := hafter ▸ ended_run hended hlater
      have hdrained : Drained (after before) (after (before ++ later)) :=
        hafter ▸ drained_run hended hlater
      exact ⟨(hend.filter_returned hfed).trans hpre, hdrained, hended.room, hended.marker,
        hend.length_receive, hend.served.waiting, fun _ => hend.length_resume⟩

/-- A receive waits for the first frame; the second one is unread when the connection closes. -/
def shortRun : List Event :=
  [.receive 0, .feed ⟨#[1]⟩ false, .resume 0, .feed ⟨#[2]⟩ false, .close,
    .receive 1, .feed ⟨#[3]⟩ false, .receive 2, .receive 3]

theorem shortRun_reaches_the_server :
    delivered shortRun <+: fed shortRun ∧
      ∀ before later, shortRun = before ++ later → (after before).closed = true →
        ClosedFor before later :=
  frames_reach_the_server (by refine ⟨?_, ?_, ?_, ?_, ?_, ?_, ?_, ?_, ?_, trivial⟩ <;> decide)

/-! ## An overflow -/

/-- The inbox is filled while nobody receives, one more frame is fed, and then one is received. -/
def overflow : List Event :=
  .feed ⟨#[1]⟩ false :: List.replicate 256 (.feed ⟨#[0]⟩ false) ++ [.receive 0]

theorem overflow_breaks_prefix : ¬ delivered overflow <+: fed overflow := by
  decide +kernel

end PanelAssistant.Sendspin
