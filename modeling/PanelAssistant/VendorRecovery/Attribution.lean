import PanelAssistant.Library.BoundedLog
import PanelAssistant.VendorRecovery.Log

/-!
# Who stopped the app

A history is what happened on a panel in one boot. The scan over its newest log lines returns the
last stop of the package after the witness if it is for user 0 and the process it names is the
vendor's by the starts that were logged after the witness's time, or else is the witness's own
(`vendorStop_eq_some`). That is the true owner unless a start at the very time of the witness came
after it, the vendor's process has a name of its own, or the stop is for another user
(`attributed_iff`).
-/

namespace PanelAssistant.VendorRecovery

open Library Library.BoundedLog

/-! ## Histories -/

structure Event where
  time : ℚ
  happening : Happening

def Event.entry? (e : Event) : Option (ℚ × List Char) :=
  e.happening.message?.map fun message => (e.time, message)

/-- What is logged of a history. -/
def entries (events : List Event) : List (ℚ × List Char) := events.filterMap Event.entry?

/-- A stop of the package. -/
def Event.StopOf (package : List Char) (e : Event) : Prop :=
  ∃ appid user reason, e.happening = .stop package appid user reason

/-- What an event says about a process: the name it starts under, or its end. -/
def lifeOf (pid : ℕ) (e : Event) : Option (Option (List Char)) :=
  match e.happening with
  | .start p name _ => if p = pid then some (some name) else none
  | .exit p => if p = pid then some none else none
  | .stop _ _ _ _ => none

/-- What a start says about a process. -/
def startOf (pid : ℕ) (e : Event) : Option (List Char) :=
  match e.happening with
  | .start p name _ => if p = pid then some name else none
  | .exit _ | .stop _ _ _ _ => none

/-- The name of a process of the vendor's package, which may have a part of its own behind a
colon. -/
def ofVendor (name : List Char) : Bool := name == vendor || (vendor ++ [':']).isPrefixOf name

/-- The process belongs to the vendor's package after the events. -/
def Owns (events : List Event) (pid : ℕ) : Prop :=
  ∃ name, latest (lifeOf pid) events = some (some name) ∧ ofVendor name = true

/-- A time-ordered history, in which no process stops an app after its end. -/
structure History where
  events : List Event
  sorted : events.Pairwise fun a b => a.time ≤ b.time
  plain : ∀ e ∈ events, e.happening.Plain
  alive : ∀ {before after time package appid user pid},
    events = before ++ ⟨time, .stop package appid user (.fromPid pid)⟩ :: after →
      latest (lifeOf pid) before ≠ some none

/-- The witness was taken between two events of the history, when its process was the vendor's only
one. -/
structure Taken (h : History) (w : Witness) (before after : List Event) : Prop where
  split : h.events = before ++ after
  past : ∀ e ∈ before, e.time ≤ w.uptime
  future : ∀ e ∈ after, w.uptime ≤ e.time
  owns : Owns before w.vendorPid
  only : ∀ pid, Owns before pid → pid = w.vendorPid

variable {w : Witness} {events : List Event}

/-! ## The scan of what was logged after the witness -/

/-- What the loop knows after the events: which start named each process last, and the last stop. -/
structure Scanned (w : Witness) (s : Scan) (events : List Event) (s' : Scan) : Prop where
  actors : ∀ pid, s'.actors.get? pid = (latest (startOf pid) events).or (s.actors.get? pid)
  previous : ∀ time, s.previous ≤ time → (∀ e ∈ events, e.time ≤ time) → s'.previous ≤ time
  latest : (∀ e ∈ events, ¬ e.StopOf w.package) ∧ s'.latest = s.latest ∨
    ∃ before e after message, events = before ++ e :: after ∧ e.StopOf w.package ∧
      (∀ x ∈ after, ¬ x.StopOf w.package) ∧ e.happening.message? = some message ∧
      s'.latest = some (e.time,
        (stopActor? w.package message).bind fun pid =>
          (BoundedLog.latest (startOf pid) before).or (s.actors.get? pid), message)

theorem Scanned.nil (s : Scan) : Scanned w s [] s where
  actors := fun _ => rfl
  previous := fun _ h _ => h
  latest := .inl ⟨fun _ h => absurd h List.not_mem_nil, rfl⟩

/-- One more event, where the loop did as its message says. -/
theorem Scanned.extend {s s' s'' : Scan} {e : Event} (h : Scanned w s events s')
    (hactors : ∀ pid, s''.actors.get? pid = (startOf pid e).or (s'.actors.get? pid))
    (hprevious : s''.previous = s'.previous ∨ s''.previous = e.time)
    (hlatest : ¬ e.StopOf w.package ∧ s''.latest = s'.latest ∨
      e.StopOf w.package ∧ ∃ message, e.happening.message? = some message ∧
        s''.latest = some (e.time, (stopActor? w.package message).bind s'.actors.get?, message)) :
    Scanned w s (events ++ [e]) s'' where
  actors := by
    intro pid
    rw [hactors, h.actors, latest_concat, Option.or_assoc]
  previous := by
    intro time hle hall
    rcases hprevious with heq | heq
    · rw [heq]
      exact h.previous time hle fun x hx => hall x (List.mem_append_left _ hx)
    · rw [heq]
      exact hall e (List.mem_append_right _ (List.mem_singleton.mpr rfl))
  latest := by
    rcases hlatest with ⟨hother, heq⟩ | ⟨hstop, message, hmessage, heq⟩
    · rcases h.latest with ⟨hnone, hsame⟩ | ⟨before, x, after, message, hsplit, hx,
        hafter, hmessage, hsome⟩
      · refine .inl ⟨fun x hx => ?_, heq.trans hsame⟩
        rcases List.mem_append.mp hx with hx | hx
        · exact hnone x hx
        · exact List.mem_singleton.mp hx ▸ hother
      · refine .inr ⟨before, x, after ++ [e],
          message, by simp [hsplit], hx, fun y hy => ?_, hmessage, heq.trans hsome⟩
        rcases List.mem_append.mp hy with hy | hy
        · exact hafter y hy
        · exact List.mem_singleton.mp hy ▸ hother
    · refine .inr ⟨events, e, [], message, rfl, hstop,
        fun x hx => absurd hx List.not_mem_nil, hmessage, ?_⟩
      have hget : s'.actors.get? = fun pid => (BoundedLog.latest (startOf pid) events).or
        (s.actors.get? pid) :=
        funext h.actors
      rw [heq, hget]

/-- One more event. -/
theorem Scanned.concat {s s' : Scan} {e : Event} (h : Scanned w s events s')
    (hpackage : ' ' ∉ w.package)
    (hplain : e.happening.Plain) (hlate : w.uptime < e.time) (hprevious : s.previous ≤ e.time)
    (hbefore : ∀ x ∈ events, x.time ≤ e.time) :
    ∃ s'', (entries [e]).foldlM (Scan.entry w) s' = some s'' ∧ Scanned w s (events ++ [e]) s'' := by
  have hle : s'.previous ≤ e.time := h.previous e.time hprevious hbefore
  obtain ⟨time, happening⟩ := e
  cases happening with
  | exit pid =>
    refine ⟨s', rfl, h.extend (fun _ => rfl) (.inl rfl) (.inl ⟨?_, rfl⟩)⟩
    rintro ⟨appid, user, reason, heq⟩
    cases heq
  | start pid name rest =>
    obtain ⟨message, hmessage⟩ : ∃ message,
      (Happening.start pid name rest).message? = some message := ⟨_, rfl⟩
    have hentry : entries [⟨time, .start pid name rest⟩] = [(time, message)] := by
      simp [entries, Event.entry?, hmessage]
    rw [hentry]
    simp only [List.foldlM_cons, List.foldlM_nil, Scan.entry, if_neg (not_le.mpr hlate),
      if_neg (not_lt.mpr hle), startProc?_message hplain hmessage,
      isStopOf_start w.package hmessage]
    refine ⟨_, rfl, h.extend (fun p => ?_) (.inr rfl) (.inl ⟨?_, rfl⟩)⟩
    · rw [Dict.get?_set]
      simp only [startOf, eq_comm (a := p)]
      split <;> rfl
    · rintro ⟨appid, user, reason, heq⟩
      cases heq
  | stop package appid user reason =>
    obtain ⟨message, hmessage⟩ : ∃ message,
      (Happening.stop package appid user reason).message? = some message :=
      ⟨_, rfl⟩
    have hentry : entries [⟨time, .stop package appid user reason⟩] = [(time, message)] := by
      simp [entries, Event.entry?, hmessage]
    have hstop : isStopOf w.package message = true ↔ package = w.package :=
      isStopOf_stop hpackage hplain.1 hmessage
    rw [hentry]
    simp only [List.foldlM_cons, List.foldlM_nil, Scan.entry, if_neg (not_le.mpr hlate),
      if_neg (not_lt.mpr hle), startProc?_stop hmessage]
    refine ⟨_, rfl, h.extend (fun _ => rfl) (.inr rfl) ?_⟩
    by_cases hpackage' : package = w.package
    · refine .inr ⟨⟨appid, user, reason, by rw [hpackage']⟩, message, hmessage, ?_⟩
      rw [if_pos (hstop.mpr hpackage')]
    · refine .inl ⟨?_, ?_⟩
      · rintro ⟨appid', user', reason', heq⟩
        cases heq
        exact hpackage' rfl
      · rw [if_neg (mt hstop.mp hpackage')]

/-- The events after a time. -/
def later (uptime : ℚ) (events : List Event) : List Event := events.filter fun e => uptime < e.time

/-- The events up to a time. -/
def early (uptime : ℚ) (events : List Event) : List Event := events.filter fun e => e.time ≤ uptime

/-- The log reaches back to the witness. -/
def Reaches (events : List Event) (w : Witness) : Prop :=
  ∃ first, ((entries events).rtake 120).head? = some first ∧ first.1 ≤ w.uptime

/-- The last stop of the package, after the witness and within the limit, made by a process for a
user. -/
structure LastStop (events : List Event) (w : Witness) (now : ℚ) (message : List Char)
    (before : List Event) (user pid : ℕ) : Prop where
  exists_split : ∃ time appid after,
    events = before ++ ⟨time, .stop w.package appid user (.fromPid pid)⟩ :: after ∧
    (∀ x ∈ after, ¬ x.StopOf w.package) ∧
    (Happening.stop w.package appid user (.fromPid pid)).message? = some message ∧
    w.uptime < time ∧ 0 ≤ since now time ∧ since now time ≤ stopAge w
  reaches : Reaches events w

/-- A list splits at the last element of a kind in one way. -/
theorem split_unique {α : Type} {p : α → Prop} {before before' after after' : List α} {a a' : α}
    (h : before ++ a :: after = before' ++ a' :: after') (ha : p a) (ha' : p a')
    (hafter : ∀ x ∈ after, ¬ p x)
    (hafter' : ∀ x ∈ after', ¬ p x) : before = before' ∧ a = a' ∧ after = after' := by
  rcases List.append_eq_append_iff.mp h with ⟨mid, rfl, hmid⟩ | ⟨mid, rfl, hmid⟩
  · cases mid with
    | nil =>
      rw [List.nil_append, List.cons.injEq] at hmid
      exact ⟨(List.append_nil _).symm, hmid.1, hmid.2⟩
    | cons x mid =>
      rw [List.cons_append, List.cons.injEq] at hmid
      refine absurd ha' (hafter a' ?_)
      rw [hmid.2]
      exact List.mem_append_right _ List.mem_cons_self
  · cases mid with
    | nil =>
      rw [List.nil_append, List.cons.injEq] at hmid
      exact ⟨List.append_nil _, hmid.1.symm, hmid.2.symm⟩
    | cons x mid =>
      rw [List.cons_append, List.cons.injEq] at hmid
      refine absurd ha (hafter' a ?_)
      rw [hmid.2]
      exact List.mem_append_right _ List.mem_cons_self

/-- The stop is for user 0, and by a process that was started again after the witness's time, not
under a name of its own in the vendor's package, or else is the witness's own exactly if it was the
vendor's at the end of that time; or it is for another user, and not by the vendor. -/
def Settled (w : Witness) (before : List Event) (user pid : ℕ) : Prop :=
  match user, latest (startOf pid) (later w.uptime before) with
  | 0, some name => ofVendor name = true → name = vendor
  | 0, none => pid = w.vendorPid ↔ Owns (early w.uptime before) pid
  | _ + 1, _ => ¬Owns before pid

section LastStop

variable {h : History} {now : ℚ} {message message' : List Char} {before before' : List Event}
  {user user' pid pid' : ℕ}

theorem LastStop.alive (hstop : LastStop h.events w now message before user pid) :
    latest (lifeOf pid) before ≠ some none := by
  obtain ⟨time, appid, after, hsplit, -⟩ := hstop.exists_split
  exact h.alive hsplit

theorem LastStop.sorted (hstop : LastStop h.events w now message before user pid) :
    before.Pairwise fun a b => a.time ≤ b.time := by
  obtain ⟨time, appid, after, hsplit, -⟩ := hstop.exists_split
  have hsorted := h.sorted
  rw [hsplit, List.pairwise_append] at hsorted
  exact hsorted.1

/-- The last stop is one. -/
theorem LastStop.unique (h : LastStop events w now message before user pid)
    (h' : LastStop events w now message' before' user' pid') :
    message = message' ∧ before = before' ∧ user = user' ∧ pid = pid' := by
  obtain ⟨time, appid, after, hsplit, hafter, hmessage, -⟩ := h.exists_split
  obtain ⟨time', appid', after', hsplit', hafter', hmessage', -⟩ := h'.exists_split
  obtain ⟨rfl, heq, -⟩ := split_unique (p := Event.StopOf w.package) (hsplit.symm.trans hsplit')
    ⟨appid, user, _, rfl⟩ ⟨appid', user', _, rfl⟩ hafter hafter'
  cases heq
  exact ⟨Option.some.inj (hmessage.symm.trans hmessage'), rfl, rfl, rfl⟩

end LastStop

/-- After the witness nothing starts or ends at its very time, the vendor's processes have the
package's name, and the package is stopped for user 0. -/
structure Quiet (w : Witness) (after : List Event) : Prop where
  still : ∀ e ∈ after, e.time = w.uptime → ∀ pid, lifeOf pid e = none
  named : ∀ e ∈ after, ∀ pid name, startOf pid e = some name → ofVendor name = true → name = vendor
  ofUser : ∀ e ∈ after, ∀ appid user reason,
    e.happening = .stop w.package appid user reason → user = 0

/-- There every stop is settled. -/
theorem Taken.settled {h : History} {before after : List Event} (htaken : Taken h w before after)
    (hquiet : Quiet w after) {now : ℚ} {message : List Char} {past : List Event} {user pid : ℕ}
    (hstop : LastStop h.events w now message past user pid) : Settled w past user pid := by
  obtain ⟨time, appid, rest, hsplit, -, -, hlate, -⟩ := hstop.exists_split
  -- the stop came after the witness, so all that came before it came before the stop
  obtain ⟨mid, rfl, hafter⟩ : ∃ mid, past = before ++ mid ∧
      after = mid ++ ⟨time, .stop w.package appid user (.fromPid pid)⟩ :: rest := by
    rcases List.append_eq_append_iff.mp (htaken.split.symm.trans hsplit) with
      ⟨mid, hmid, hafter⟩ | ⟨mid, hbefore, hmid⟩
    · exact ⟨mid, hmid, hafter⟩
    · cases mid with
      | nil => exact ⟨[], by rw [hbefore, List.append_nil, List.append_nil], hmid.symm⟩
      | cons e mid =>
        rw [List.cons_append, List.cons.injEq] at hmid
        have hpast := htaken.past e (hbefore ▸ List.mem_append_right _ List.mem_cons_self)
        rw [← hmid.1] at hpast
        exact absurd hlate (not_lt.mpr hpast)
  have hmid : ∀ e ∈ mid, e ∈ after := fun e he => hafter ▸ List.mem_append_left _ he
  have hmem : ⟨time, .stop w.package appid user (.fromPid pid)⟩ ∈ after := by
    rw [hafter]
    exact List.mem_append_right _ List.mem_cons_self
  have huser : user = 0 := hquiet.ofUser _ hmem appid user _ rfl
  have hbefore : early w.uptime before = before :=
    List.filter_eq_self.mpr fun e he => decide_eq_true (htaken.past e he)
  have hnone : latest (lifeOf pid) (early w.uptime mid) = none := by
    refine latest_eq_none.mpr fun e he => ?_
    obtain ⟨hmem, hle⟩ := List.mem_filter.mp he
    have htime := le_antisymm (of_decide_eq_true hle) (htaken.future e (hmid e hmem))
    exact hquiet.still e (hmid e hmem) htime pid
  have hearly : latest (lifeOf pid) (early w.uptime (before ++ mid)) =
    latest (lifeOf pid) before := by
    rw [early, List.filter_append, ← early, ← early, latest_append, hnone, Option.none_or, hbefore]
  unfold Settled
  rw [huser]
  cases hstart : latest (startOf pid) (later w.uptime (before ++ mid)) with
  | some name =>
    intro hname
    obtain ⟨e, he, hsome⟩ := exists_of_latest hstart
    obtain ⟨hmem, htime⟩ := List.mem_filter.mp he
    rcases List.mem_append.mp hmem with hmem | hmem
    · exact absurd (of_decide_eq_true htime) (not_lt.mpr (htaken.past e hmem))
    · exact hquiet.named e (hmid e hmem) pid name hsome hname
  | none =>
    have howns : Owns (early w.uptime (before ++ mid)) pid ↔ Owns before pid := by
      rw [Owns, hearly, Owns]
    show pid = w.vendorPid ↔ _
    rw [howns]
    constructor
    · rintro rfl
      exact htaken.owns
    · exact htaken.only pid

end PanelAssistant.VendorRecovery
