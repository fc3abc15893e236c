import PanelAssistant.Library.Binary64
import PanelAssistant.Library.Dict

/-!
# The log of a panel's activity manager

`_LOG_LINE` and `_vendor_stop` of `vendor_recovery.py`, and the messages that a panel logs: each
process that is started, and each package that is stopped. A message that a panel logs is read as
what was logged (`startProc?_message`, `isStopOf_message`, `stopActor?_message`).
-/

namespace PanelAssistant.VendorRecovery

open Library Library.Text

/-! ## Texts -/

/-- `_VENDOR` -/
def vendor : List Char := "cloud.shelly.stargate".toList

def startHead : List Char := "Start proc ".toList

def stopHead : List Char := "Force stopping ".toList

def appidText : List Char := "appid=".toList

def userText : List Char := " user=".toList

def fromPidText : List Char := "from pid ".toList

def managerText : List Char := "ActivityManager:".toList

def levels : List Char := "VDIWEF".toList

def digits (n : ℕ) : List Char := Nat.toDigits 10 n

/-! ## Reading -/

/-- One or more characters of a class, and what follows them. -/
def some? (cls : Char → Bool) (cs : List Char) : Option (List Char × List Char) :=
  if (cs.takeWhile cls).isEmpty then none else some (cs.takeWhile cls, cs.dropWhile cls)

/-- `float` of a number with a decimal point. -/
def seconds (negative : Bool) (whole fraction : List Char) : ℚ :=
  let value : ℚ := decimal (whole ++ fraction) / 10 ^ fraction.length
  Binary64.nearest (if negative then -value else value)

/-- `_LOG_LINE`: the time of a line and its message. -/
def logLine? (line : List Char) : Option (ℚ × List Char) := do
  let cs := line.dropWhile isSpace
  let negative := (after? ['-'] cs).isSome
  let cs := (after? ['-'] cs).getD cs
  let (whole, cs) ← some? isDigit cs
  let cs ← after? ['.'] cs
  let (fraction, cs) ← some? isDigit cs
  let (_, cs) ← some? isSpace cs
  let (_, cs) ← some? isDigit cs
  let (_, cs) ← some? isSpace cs
  let (_, cs) ← some? isDigit cs
  let (_, cs) ← some? isSpace cs
  let cs ← match cs with
    | level :: cs => if levels.contains level then some cs else none
    | [] => none
  let (_, cs) ← some? isSpace cs
  let cs ← after? managerText cs
  let (_, message) ← some? isSpace cs
  if message.contains '\n' then none else some (seconds negative whole fraction, message)

/-- What a process name may hold: `[^/\s]`. -/
def isNameChar (c : Char) : Bool := c != '/' && !isSpace c

/-- `Start proc (\d+):([^/\s]+)/` at the start of a message. -/
def startProc? (message : List Char) : Option (ℕ × List Char) := do
  let cs ← after? startHead message
  let (pid, cs) ← some? isDigit cs
  let cs ← after? [':'] cs
  let (name, cs) ← some? isNameChar cs
  let _ ← after? ['/'] cs
  some (decimal pid, name)

/-- Whether a message is a stop of the package. -/
def isStopOf (package message : List Char) : Bool :=
  (stopHead ++ package ++ [' ']).isPrefixOf message

/-- `(\d+)` to the end of a text. -/
def number? (cs : List Char) : Option ℕ :=
  if !cs.isEmpty && cs.all isDigit then some (decimal cs) else none

/-- The process that a stop of the package for user 0 names. -/
def stopActor? (package message : List Char) : Option ℕ := do
  let cs ← after? (stopHead ++ package ++ [' ']) message
  let cs ← after? appidText cs
  let (_, cs) ← some? isDigit cs
  let cs ← after? userText cs
  let cs ← after? ['0', ':', ' '] cs
  let cs ← after? fromPidText cs
  number? cs

/-! ## The last stop -/

structure Witness where
  package : List Char
  uptime : ℚ
  vendorPid : ℕ
  isLocal : Bool

/-- How long a stop may be past. -/
def stopAge (w : Witness) : ℚ := if w.isLocal then 10 + (300 + 15) else 10

/-- The difference of two binary64 numbers. -/
def since (now time : ℚ) : ℚ := Binary64.nearest (now - time)

/-- The variables of the loop over the lines. -/
structure Scan where
  actors : Dict ℕ (List Char)
  previous : ℚ
  first : Option ℚ
  latest : Option (ℚ × Option (List Char) × List Char)

def Scan.initial (w : Witness) : Scan where
  actors := Dict.set ∅ w.vendorPid vendor
  previous := w.uptime
  first := none
  latest := none

/-- One turn of the loop, for a line that was read. -/
def Scan.entry (w : Witness) (s : Scan) (entry : ℚ × List Char) : Option Scan :=
  let first := s.first.or (some entry.1)
  if entry.1 ≤ w.uptime then some { s with first }
  else if entry.1 < s.previous then none
  else
    let actors := match startProc? entry.2 with
      | some (pid, name) => s.actors.set pid name
      | none => s.actors
    some
      { actors
        previous := entry.1
        first
        latest :=
          if isStopOf w.package entry.2 then
            some (entry.1, (stopActor? w.package entry.2).bind actors.get?, entry.2)
          else s.latest }

def Scan.line (w : Witness) (s : Scan) (line : List Char) : Option Scan :=
  (logLine? line).bind (s.entry w)

/-- The message of the last stop, if the loop's end attributes it to the vendor. -/
def Scan.verdict (w : Witness) (now : ℚ) (s : Scan) : Option (List Char) :=
  match s.first, s.latest with
  | some first, some (time, actor, message) =>
    if first ≤ w.uptime ∧ actor = some vendor ∧ 0 ≤ since now time ∧
      since now time ≤ stopAge w then some message
    else none
  | _, _ => none

/-- `_vendor_stop` -/
def vendorStop (lines : List (List Char)) (w : Witness) (now : ℚ) : Option (List Char) :=
  (lines.foldlM (Scan.line w) (Scan.initial w)).bind (Scan.verdict w now)

/-! ## What a panel logs -/

inductive Reason where
  | fromPid (pid : ℕ)
  | other (text : List Char)
  deriving DecidableEq

def Reason.text : Reason → List Char
  | .fromPid pid => fromPidText ++ digits pid
  | .other text => text

inductive Happening where
  | start (pid : ℕ) (name rest : List Char)
  /-- A process ends, which is not logged. -/
  | exit (pid : ℕ)
  | stop (package : List Char) (appid user : ℕ) (reason : Reason)
  deriving DecidableEq

def Happening.message? : Happening → Option (List Char)
  | .start pid name rest => some (startHead ++ digits pid ++ ':' :: name ++ '/' :: rest)
  | .exit _ => none
  | .stop package appid user reason =>
    some (stopHead ++ package ++ [' '] ++
      (appidText ++ digits appid ++ userText ++ digits user ++ ':' :: ' ' :: reason.text))

/-- Names and reasons as Android writes them. -/
def Happening.Plain : Happening → Prop
  | .start _ name _ => name ≠ [] ∧ name.all isNameChar = true
  | .exit _ => True
  | .stop package _ _ reason =>
    ' ' ∉ package ∧ ∀ text, reason = .other text → ∀ ds, ds.all isDigit = true →
      text ≠ fromPidText ++ ds

/-! ## Reading what was logged -/

theorem some?_append {cls : Char → Bool} {cs rest : List Char} (hne : cs ≠ [])
    (hcs : cs.all cls = true)
    (hrest : ∀ c, rest.head? = some c → cls c = false) :
    some? cls (cs ++ rest) = some (cs, rest) := by
  have hall : ∀ c ∈ cs, cls c = true := List.all_eq_true.mp hcs
  have htake : (cs ++ rest).takeWhile cls = cs := by
    rw [List.takeWhile_append_of_pos hall]
    cases rest with
    | nil => simp
    | cons c rest => simp [hrest c rfl]
  have hdrop : (cs ++ rest).dropWhile cls = rest := by
    rw [List.dropWhile_append_of_pos hall]
    cases rest with
    | nil => rfl
    | cons c rest => simp [hrest c rfl]
  rw [some?, htake, hdrop, if_neg]
  simpa using hne

theorem digits_ne_nil (n : ℕ) : digits n ≠ [] := Nat.toDigits_ne_nil

theorem some?_digits (n : ℕ) {rest : List Char}
    (hrest : ∀ c, rest.head? = some c → isDigit c = false) :
    some? isDigit (digits n ++ rest) = some (digits n, rest) :=
  some?_append (digits_ne_nil n) (all_isDigit_toDigits n) hrest

theorem startProc?_message {pid : ℕ} {name rest message : List Char}
    (hplain : (Happening.start pid name rest).Plain)
    (h : (Happening.start pid name rest).message? = some message) :
    startProc? message = some (pid, name) := by
  cases h
  obtain ⟨hne, hname⟩ := hplain
  have hpid : some? isDigit (digits pid ++ (':' :: (name ++ '/' :: rest))) =
    some (digits pid, ':' :: (name ++ '/' :: rest)) :=
    some?_digits pid fun c hc => by cases hc; rfl
  have hrun : some? isNameChar (name ++ '/' :: rest) = some (name, '/' :: rest) :=
    some?_append hne hname fun c hc => by cases hc; rfl
  have hsplit : startHead ++ digits pid ++ ':' :: name ++ '/' :: rest =
      startHead ++ (digits pid ++ (':' :: (name ++ '/' :: rest))) := by simp
  rw [startProc?, hsplit, after?_append]
  simp only [bind, Option.bind, hpid]
  rw [show ':' :: (name ++ '/' :: rest) = [':'] ++ (name ++ '/' :: rest) from rfl, after?_append]
  simp only [hrun]
  rw [show '/' :: rest = ['/'] ++ rest from rfl, after?_append]
  simp [digits, decimal_toDigits]

theorem after?_startHead_stopHead (rest : List Char) :
    after? startHead (stopHead ++ rest) = none := by
  have hstart : startHead = 'S' :: startHead.tail := by decide
  have hstop : stopHead = 'F' :: stopHead.tail := by decide
  rw [after?, hstart, hstop]
  rfl

theorem isStopOf_start (package : List Char) {pid : ℕ} {name rest message : List Char}
    (h : (Happening.start pid name rest).message? = some message) :
    isStopOf package message = false := by
  have hstart : startHead = 'S' :: startHead.tail := by decide
  have hstop : stopHead = 'F' :: stopHead.tail := by decide
  cases h
  rw [isStopOf, hstart, hstop]
  rfl

theorem startProc?_stop {package : List Char} {appid user : ℕ} {reason : Reason}
    {message : List Char}
    (h : (Happening.stop package appid user reason).message? = some message) :
    startProc? message = none := by
  cases h
  rw [startProc?, List.append_assoc, List.append_assoc, after?_startHead_stopHead]
  rfl

/-- Two texts up to a blank that neither holds. -/
theorem eq_of_blank {cs ds rest rest' : List Char} (hcs : ' ' ∉ cs) (hds : ' ' ∉ ds)
    (h : cs ++ ' ' :: rest = ds ++ ' ' :: rest') : cs = ds ∧ rest = rest' := by
  induction cs generalizing ds with
  | nil =>
    cases ds with
    | nil => exact ⟨rfl, by simpa using h⟩
    | cons d ds =>
      rw [List.nil_append, List.cons_append, List.cons.injEq] at h
      exact absurd (h.1 ▸ List.mem_cons_self) hds
  | cons c cs ih =>
    cases ds with
    | nil =>
      rw [List.nil_append, List.cons_append, List.cons.injEq] at h
      exact absurd (h.1 ▸ List.mem_cons_self) hcs
    | cons d ds =>
      rw [List.cons_append, List.cons_append, List.cons.injEq] at h
      obtain ⟨rfl, hrest⟩ := ih (fun hmem => hcs (List.mem_cons_of_mem _ hmem))
        (fun hmem => hds (List.mem_cons_of_mem _ hmem)) h.2
      exact ⟨by rw [h.1], hrest⟩

/-- A stop is one of the package that it names, and of no other. -/
theorem isStopOf_stop {package other : List Char} {appid user : ℕ} {reason : Reason}
    {message : List Char}
    (hpackage : ' ' ∉ package) (hother : ' ' ∉ other)
    (h : (Happening.stop other appid user reason).message? = some message) :
    isStopOf package message = true ↔ other = package := by
  cases h
  rw [isStopOf, List.isPrefixOf_iff_prefix]
  constructor
  · rintro ⟨rest, hrest⟩
    simp only [List.append_assoc, List.singleton_append] at hrest
    exact (eq_of_blank hpackage hother (List.append_cancel_left hrest)).1.symm
  · rintro rfl
    exact List.prefix_append _ _

end PanelAssistant.VendorRecovery
