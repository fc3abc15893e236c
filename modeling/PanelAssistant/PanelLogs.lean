import Mathlib.Data.Bool.AllAny
import PanelAssistant.Library.StructuredData
import PanelAssistant.Transport.Values

/-!
# Forwarded log lines

The log batches of `transport_protocol.py` and the lines that `panel_logs.py` forwards to a syslog
receiver. A line is written with the element of its session in the middle (`syslog_eq`), so it reads
as RFC 5424 fields unless the timestamp holds a space. The text of a record is escaped only if a
line break is in it, so an escaped text may be another record's text as it stands (`text_inj_iff`).
-/

namespace PanelAssistant.PanelLogs

open Library Library.Text Library.Separated Library.StructuredData

/-! ## Batches -/

/-- `MAX_ANDROID_INTEGER` -/
def maxAndroidInteger : ℤ := 2 ^ 31 - 1

/-- What `dt_util.parse_datetime` makes of a text: a time, or none, and of a time the seconds of its
offset from UTC if it has one. -/
abbrev ParseDatetime := String → Option (Option ℚ)

structure LogRecord where
  timestamp : String
  source : String
  priority : ℤ
  tag : String
  pid : ℤ
  message : String
  deriving DecidableEq

/-- A `report_log` message. -/
structure LogReport where
  session : String
  records : List LogRecord
  dropped : ℤ

/-- `_session_token` -/
def isSessionToken (text : String) : Bool :=
  repeats (fun c => isAlnum c || c == '_' || c == '-') 1 64 text.toList

/-- `_log_timestamp` -/
def logTimestamp (parseDatetime : ParseDatetime) (value : String) : Bool :=
  isPlainString 40 value && decide (parseDatetime value = some (some 0))

/-- `_log_message` -/
def logMessage (value : String) : Bool := decide (value.utf8ByteSize ≤ 8192)

/-- The schema of one record. -/
def logRecord (parseDatetime : ParseDatetime) (item : LogRecord) : Bool :=
  logTimestamp parseDatetime item.timestamp && ["app", "system"].contains item.source &&
    decide (2 ≤ item.priority ∧ item.priority ≤ 7) && isPlainString 128 item.tag &&
    decide (0 ≤ item.pid ∧ item.pid ≤ maxAndroidInteger) && logMessage item.message

/-- `_log_batch` -/
def logBatch (records : List LogRecord) : Bool :=
  decide ((records.map fun item => item.timestamp.utf8ByteSize + item.source.utf8ByteSize +
    item.tag.utf8ByteSize + item.message.utf8ByteSize).sum ≤ 256 * 1024)

/-- `REPORT_LOG_SCHEMA` -/
def reportLog (parseDatetime : ParseDatetime) (report : LogReport) : Bool :=
  isSessionToken report.session && decide (report.records.length ≤ 200) &&
    report.records.all (logRecord parseDatetime) &&
    decide (0 ≤ report.dropped ∧ report.dropped ≤ maxAndroidInteger) && logBatch report.records

/-! ## Lines -/

/-- What a session says of its panel, as `HELLO_SCHEMA` admitted it. -/
structure LogSession where
  did : String
  appVersionCode : ℤ
  appPackage : String
  hexDid : repeats isHex 64 64 did.toList = true
  plainPackage : isPlainString 256 appPackage = true
  versionCode : 0 ≤ appVersionCode ∧ appVersionCode ≤ maxAndroidInteger

/-- `_SEVERITIES` -/
def severities : ℤ → Option ℕ
  | 2 => some 7
  | 3 => some 7
  | 4 => some 6
  | 5 => some 4
  | 6 => some 3
  | 7 => some 2
  | _ => none

def priorityLetter : ℤ → Option String
  | 2 => some "V"
  | 3 => some "D"
  | 4 => some "I"
  | 5 => some "W"
  | 6 => some "E"
  | 7 => some "F"
  | _ => none

/-- `_forward_message` -/
def forwardMessage (item : LogRecord) : Option String :=
  (priorityLetter item.priority).map fun letter =>
    item.source ++ " " ++ letter ++ "/" ++ item.tag ++ "(" ++ toString item.pid ++
      "): " ++ item.message

/-- `text.replace(c, by)` -/
def replace (c : Char) (by' : String) (text : List Char) : List Char :=
  text.flatMap fun d => if d = c then by'.toList else [d]

/-- A message with line breaks, on one line. -/
def escapeBreaks (message : List Char) : List Char :=
  replace '\n' "\\n" (replace '\r' "\\r" (replace '\\' "\\\\" message))

def hasBreak (message : List Char) : Bool := message.contains '\n' || message.contains '\r'

def escapePackage (package : List Char) : List Char :=
  replace ']' "\\]" (replace '"' "\\\"" (replace '\\' "\\\\" package))

/-- `_syslog`, `none` for the `KeyError` of a priority without a letter. -/
def syslog (session : LogSession) (item : LogRecord) : Option String := do
  let message ← forwardMessage item
  let severity ← severities item.priority
  let message := message.toList
  let message := if hasBreak message then escapeBreaks message else message
  let package := escapePackage session.appPackage.toList
  some ("<" ++ (8 + severity).repr ++ ">1 " ++ item.timestamp ++ " " ++ session.did ++
    " ha-paneld - - " ++ "[hapaneld@32473 versionCode=\"" ++ toString session.appVersionCode ++
    "\" package=\"" ++ String.ofList package ++ "\"] " ++ String.ofList message ++ "\n")

/-! ## Escapes -/

/-- A character of a message that is escaped. -/
def escapeBreak (c : Char) : List Char :=
  if c = '\\' then ['\\', '\\']
  else if c = '\r' then ['\\', 'r']
  else if c = '\n' then ['\\', 'n']
  else [c]

theorem replace_eq_flatMap {c : Char} {by' : String} {f : Char → List Char} (text : List Char) :
    replace c by' (text.flatMap f) = text.flatMap fun d => replace c by' (f d) := by
  rw [replace, List.flatMap_assoc]
  rfl

theorem escapeBreaks_eq (message : List Char) :
    escapeBreaks message = message.flatMap escapeBreak := by
  have hfirst : replace '\\' "\\\\" message =
      message.flatMap fun d => if d = '\\' then "\\\\".toList else [d] := rfl
  rw [escapeBreaks, hfirst, replace_eq_flatMap, replace_eq_flatMap]
  refine List.flatMap_congr fun c _ => ?_
  unfold escapeBreak
  by_cases hslash : c = '\\'
  · subst hslash
    decide
  · by_cases hreturn : c = '\r'
    · subst hreturn
      decide
    · by_cases hnewline : c = '\n'
      · subst hnewline
        decide
      · simp [replace, hslash, hreturn, hnewline]

theorem escapePackage_eq (package : List Char) : escapePackage package = escape package := by
  have hfirst : replace '\\' "\\\\" package =
      package.flatMap fun d => if d = '\\' then "\\\\".toList else [d] := rfl
  rw [escapePackage, hfirst, replace_eq_flatMap, replace_eq_flatMap, escape]
  refine List.flatMap_congr fun c _ => ?_
  unfold escapeChar
  by_cases hslash : c = '\\'
  · subst hslash
    decide
  · by_cases hquote : c = '"'
    · subst hquote
      decide
    · by_cases hbracket : c = ']'
      · subst hbracket
        decide
      · simp [replace, isSpecial, hslash, hquote, hbracket]

/-- What an escaped message was. -/
def unescapeBreaks : List Char → List Char
  | '\\' :: c :: rest =>
    (if c = 'r' then '\r' else if c = 'n' then '\n' else c) :: unescapeBreaks rest
  | c :: rest => c :: unescapeBreaks rest
  | [] => []

theorem unescapeBreaks_escapeBreaks (message : List Char) :
    unescapeBreaks (escapeBreaks message) = message := by
  rw [escapeBreaks_eq]
  induction message with
  | nil => rfl
  | cons c message ih =>
    rw [List.flatMap_cons, escapeBreak]
    by_cases hslash : c = '\\'
    · rw [if_pos hslash, hslash]
      change _ :: unescapeBreaks (message.flatMap escapeBreak) = _
      rw [ih]
      rfl
    · rw [if_neg hslash]
      by_cases hreturn : c = '\r'
      · rw [if_pos hreturn, hreturn]
        change _ :: unescapeBreaks (message.flatMap escapeBreak) = _
        rw [ih]
        rfl
      · rw [if_neg hreturn]
        by_cases hnewline : c = '\n'
        · rw [if_pos hnewline, hnewline]
          change _ :: unescapeBreaks (message.flatMap escapeBreak) = _
          rw [ih]
          rfl
        · rw [if_neg hnewline, List.singleton_append, unescapeBreaks, ih]
          rintro c' rest rfl
          exact absurd rfl hslash

theorem escapeBreaks_injective : Function.Injective escapeBreaks :=
  Function.LeftInverse.injective unescapeBreaks_escapeBreaks

theorem not_break_of_mem_escapeBreaks {message : List Char} {c : Char}
    (h : c ∈ escapeBreaks message) :
    c ≠ '\n' ∧ c ≠ '\r' := by
  rw [escapeBreaks_eq, List.mem_flatMap] at h
  obtain ⟨d, -, hd⟩ := h
  unfold escapeBreak at hd
  split at hd
  · simp only [List.mem_cons, List.not_mem_nil, or_false, or_self] at hd
    rw [hd]
    decide
  · split at hd
    · rcases List.mem_cons.mp hd with rfl | hd
      · decide
      · rw [List.mem_singleton.mp hd]
        decide
    · split at hd
      · rcases List.mem_cons.mp hd with rfl | hd
        · decide
        · rw [List.mem_singleton.mp hd]
          decide
      · rename_i hslash hreturn hnewline
        rw [List.mem_singleton.mp hd]
        exact ⟨hnewline, hreturn⟩

theorem hasBreak_eq_false {message : List Char} :
    hasBreak message = false ↔ ∀ c ∈ message, c ≠ '\n' ∧ c ≠ '\r' := by
  have hcontains : hasBreak message = false ↔ '\n' ∉ message ∧ '\r' ∉ message := by
    simp [hasBreak]
  rw [hcontains]
  constructor
  · rintro ⟨hnewline, hreturn⟩ c hc
    exact ⟨fun heq => hnewline (heq ▸ hc), fun heq => hreturn (heq ▸ hc)⟩
  · exact fun h => ⟨fun hc => (h _ hc).1 rfl, fun hc => (h _ hc).2 rfl⟩

theorem hasBreak_escapeBreaks (message : List Char) : hasBreak (escapeBreaks message) = false :=
  hasBreak_eq_false.mpr fun _ hc => not_break_of_mem_escapeBreaks hc

theorem escapeBreaks_append (a b : List Char) :
    escapeBreaks (a ++ b) = escapeBreaks a ++ escapeBreaks b := by
  simp only [escapeBreaks_eq, List.flatMap_append]

/-- A text without backslashes and line breaks stands for itself. -/
theorem escapeBreaks_eq_self {message : List Char} (h : hasBreak message = false)
    (hslash : '\\' ∉ message) : escapeBreaks message = message := by
  rw [escapeBreaks_eq]
  induction message with
  | nil => rfl
  | cons c message ih =>
    rw [hasBreak_eq_false, List.forall_mem_cons] at h
    rw [List.mem_cons, not_or] at hslash
    rw [List.flatMap_cons, ih (hasBreak_eq_false.mpr h.2) hslash.2, escapeBreak,
      if_neg (Ne.symm hslash.1), if_neg h.1.2, if_neg h.1.1]
    rfl

/-! ## What a line consists of -/

/-- What stands before the message in a forwarded text. -/
def forwardHead (item : LogRecord) (letter : String) : List Char :=
  item.source.toList ++ ' ' :: (letter.toList ++ '/' :: (item.tag.toList ++ '(' ::
    ((toString item.pid).toList ++ ')' :: ':' :: [' '])))

/-- The forwarded text as it stands in a line. -/
def forwardText (head message : List Char) : List Char :=
  if hasBreak (head ++ message) then escapeBreaks (head ++ message) else head ++ message

/-- The fields before the structured data. -/
def headerWords (session : LogSession) (item : LogRecord) (severity : ℕ) : List (List Char) :=
  ['<' :: ((8 + severity).repr.toList ++ ['>', '1']), item.timestamp.toList, session.did.toList,
    "ha-paneld".toList, ['-'], ['-']]

/-- The id of the structured data. -/
def elementId : List Char := "hapaneld@32473".toList

/-- The names of its parameters. -/
def versionCodeName : List Char := "versionCode".toList

def packageName : List Char := "package".toList

/-- The structured data of a session. -/
def element (session : LogSession) : Element where
  id := elementId
  params := [⟨versionCodeName, (toString session.appVersionCode).toList⟩,
    ⟨packageName, session.appPackage.toList⟩]

theorem elementId_plain : ∀ c ∈ elementId, c ≠ ' ' ∧ c ≠ ']' :=
  List.all_iff_forall_prop.mp (by decide)

theorem paramName_plain : '=' ∉ versionCodeName ∧ '=' ∉ packageName := by decide

theorem toString_of_nonneg {n : ℤ} (h : 0 ≤ n) : (toString n).toList = Nat.toDigits 10 n.toNat := by
  obtain ⟨m, rfl⟩ := Int.eq_ofNat_of_zero_le h
  exact Nat.toList_repr

theorem escape_digits (n : ℕ) : escape (Nat.toDigits 10 n) = Nat.toDigits 10 n := by
  rw [escape]
  conv_rhs => rw [← List.flatMap_singleton' (Nat.toDigits 10 n)]
  refine List.flatMap_congr fun c hc => ?_
  have hdigit := isDigit_iff.mp (List.all_eq_true.mp (all_isDigit_toDigits n) c hc)
  have hspecial : isSpecial c = false := by
    rw [isSpecial, Bool.or_eq_false_iff, Bool.or_eq_false_iff, beq_eq_false_iff_ne,
      beq_eq_false_iff_ne, beq_eq_false_iff_ne]
    refine ⟨⟨?_, ?_⟩, ?_⟩
    all_goals
      rintro rfl
      revert hdigit
      decide
  rw [escapeChar, hspecial]
  rfl

section

variable {session : LogSession} {item item' : LogRecord} {letter : String} {severity : ℕ}

/-- A line is its header, the element of its session, and the forwarded text. -/
theorem syslog_eq (session : LogSession) {item : LogRecord}
    (hletter : priorityLetter item.priority = some letter)
    (hseverity : severities item.priority = some severity) :
    ∃ line, syslog session item = some line ∧
      line.toList = terminated ' ' (headerWords session item severity) ++
        ((element session).write ++
        ' ' :: (forwardText (forwardHead item letter) item.message.toList ++ ['\n'])) := by
  have hforward : (item.source ++ " " ++ letter ++ "/" ++ item.tag ++ "(" ++ toString item.pid ++
      "): " ++ item.message).toList = forwardHead item letter ++ item.message.toList := by
    simp [forwardHead, String.toList_append]
  have hcode : escape (toString session.appVersionCode).toList =
    (toString session.appVersionCode).toList := by
    rw [toString_of_nonneg session.versionCode.1, escape_digits]
  have hopen : " ha-paneld - - ".toList =
    ' ' :: ("ha-paneld".toList ++ [' ', '-', ' ', '-', ' ']) := by
    decide
  have hid : "[hapaneld@32473 versionCode=\"".toList =
      '[' :: (elementId ++ ' ' :: (versionCodeName ++ ['=', '"'])) := by
    decide
  have hname : "\" package=\"".toList = '"' :: ' ' :: (packageName ++ ['=', '"']) := by
    decide
  have hclose : "\"] ".toList = ['"', ']', ' '] := rfl
  have hlt : "<".toList = ['<'] := rfl
  have hversion : ">1 ".toList = ['>', '1', ' '] := rfl
  have hnewline : "\n".toList = ['\n'] := rfl
  have hspace : " ".toList = [' '] := rfl
  simp only [syslog, forwardMessage, hletter, hseverity, Option.map_some, Option.bind_eq_bind,
    Option.bind_some, Option.some.injEq, exists_eq_left', String.toList_append,
      String.toList_ofList, hforward, escapePackage_eq, hopen, hid, hname, hclose, hlt, hversion,
    hnewline, hspace]
  simp only [terminated, headerWords, Element.write, Param.write, element, hcode, forwardText,
    List.flatMap_cons, List.flatMap_nil, List.append_assoc, List.cons_append, List.nil_append,
    List.append_nil]

theorem exists_letter {parseDatetime : ParseDatetime} (h : logRecord parseDatetime item = true) :
    ∃ letter severity, priorityLetter item.priority = some letter ∧
      severities item.priority = some severity ∧ letter.toList.length = 1 ∧
        hasBreak letter.toList = false ∧
        '\\' ∉ letter.toList := by
  simp only [logRecord, Bool.and_eq_true, decide_eq_true_eq] at h
  obtain ⟨⟨⟨⟨-, hlow, hhigh⟩, -⟩, -⟩, -⟩ := h
  generalize item.priority = priority at hlow hhigh
  interval_cases priority
  all_goals exact ⟨_, _, rfl, rfl, by decide, by decide, by decide⟩

theorem not_break_of_plain {maxLength : ℕ} {text : String}
    (h : isPlainString maxLength text = true) :
    ∀ c ∈ text.toList, c ≠ '\n' ∧ c ≠ '\r' := by
  rw [isPlainString, Bool.and_eq_true, Bool.not_eq_true', List.any_eq_false] at h
  intro c hc
  have hcontrol := h.2 c hc
  constructor
  · rintro rfl
    exact hcontrol (by decide)
  · rintro rfl
    exact hcontrol (by decide)

theorem not_break_of_digits (n : ℕ) :
    ∀ c ∈ Nat.toDigits 10 n, c ≠ '\n' ∧ c ≠ '\r' ∧ c ≠ '\\' ∧ c ≠ ' ' := by
  intro c hc
  have hdigit := isDigit_iff.mp (List.all_eq_true.mp (all_isDigit_toDigits n) c hc)
  refine ⟨?_, ?_, ?_, ?_⟩
  all_goals
    rintro rfl
    revert hdigit
    decide

/-- What the schema says of the parts of a forwarded text. -/
structure Parts (item : LogRecord) (letter : String) : Prop where
  source : item.source = "app" ∨ item.source = "system"
  tag : ∀ c ∈ item.tag.toList, c ≠ '\n' ∧ c ≠ '\r'
  timestamp : ∀ c ∈ item.timestamp.toList, c ≠ '\n' ∧ c ≠ '\r'
  pid : 0 ≤ item.pid
  letter : hasBreak letter.toList = false ∧ '\\' ∉ letter.toList

theorem parts_of_record {parseDatetime : ParseDatetime} (h : logRecord parseDatetime item = true)
    (hletter : hasBreak letter.toList = false ∧ '\\' ∉ letter.toList) : Parts item letter := by
  simp only [logRecord, logTimestamp, Bool.and_eq_true, decide_eq_true_eq] at h
  obtain ⟨⟨⟨⟨⟨⟨htimestamp, -⟩, hsource⟩, -⟩, htag⟩, hpid, -⟩, -⟩ := h
  refine ⟨?_, not_break_of_plain htag, not_break_of_plain htimestamp, hpid, hletter⟩
  simpa using hsource

theorem forwardHead_break (h : Parts item letter) : hasBreak (forwardHead item letter) = false := by
  rw [hasBreak_eq_false]
  intro c hc
  have hletter := hasBreak_eq_false.mp h.letter.1
  have hsource : ∀ c ∈ item.source.toList, c ≠ '\n' ∧ c ≠ '\r' := by
    rcases h.source with hsource | hsource
    · rw [hsource]
      exact List.all_iff_forall_prop.mp (by decide)
    · rw [hsource]
      exact List.all_iff_forall_prop.mp (by decide)
  have hpid := not_break_of_digits item.pid.toNat
  rw [forwardHead, toString_of_nonneg h.pid] at hc
  simp only [List.mem_append, List.mem_cons, List.not_mem_nil, or_false] at hc
  rcases hc with hc | rfl | hc | rfl | hc | rfl | hc | rfl | rfl | rfl
  · exact hsource c hc
  · decide
  · exact hletter c hc
  · decide
  · exact h.tag c hc
  · decide
  · exact ⟨(hpid c hc).1, (hpid c hc).2.1⟩
  · decide
  · decide
  · decide

theorem slash_mem_forwardHead (h : Parts item letter) :
    '\\' ∈ forwardHead item letter ↔ '\\' ∈ item.tag.toList := by
  have hsource : '\\' ∉ item.source.toList := by
    rcases h.source with hsource | hsource <;> rw [hsource] <;> decide
  have hpid : '\\' ∉ Nat.toDigits 10 item.pid.toNat :=
    fun hc => (not_break_of_digits _ _ hc).2.2.1 rfl
  rw [forwardHead, toString_of_nonneg h.pid]
  simp [hsource, h.letter.2, hpid]

theorem forwardHead_concat (item : LogRecord) (letter : String) :
    ∃ cs, forwardHead item letter = cs ++ [' '] :=
  ⟨item.source.toList ++ ' ' :: (letter.toList ++ '/' :: (item.tag.toList ++ '(' ::
    ((toString item.pid).toList ++ [')', ':']))), by simp [forwardHead]⟩

/-! ## Texts apart -/

theorem hasBreak_append {head : List Char} (h : hasBreak head = false) (message : List Char) :
    hasBreak (head ++ message) = hasBreak message := by
  have hnewline : '\n' ∉ head := fun hc => (hasBreak_eq_false.mp h _ hc).1 rfl
  have hreturn : '\r' ∉ head := fun hc => (hasBreak_eq_false.mp h _ hc).2 rfl
  simp [hasBreak, hnewline, hreturn]

/-- Backslashes in front of an escaped text do not make it the text. -/
theorem backslashes_ne {text : List Char} (hother : ∃ c ∈ text, c ≠ '\\')
    (hbreak : hasBreak text = false)
    (k : ℕ) (x y : List Char) :
    List.replicate (k + 1) '\\' ++ (escapeBreaks text ++ x) ≠ text ++ y := by
  induction text generalizing k with
  | nil =>
    obtain ⟨c, hc, -⟩ := hother
    cases hc
  | cons c text ih =>
    rw [hasBreak_eq_false, List.forall_mem_cons] at hbreak
    intro heq
    by_cases hslash : c = '\\'
    · subst hslash
      have htail : ∃ c ∈ text, c ≠ '\\' := by
        obtain ⟨c, hc, hne⟩ := hother
        rcases List.mem_cons.mp hc with rfl | hc
        · exact absurd rfl hne
        · exact ⟨c, hc, hne⟩
      have hescape : escapeBreaks ('\\' :: text) = List.replicate 2 '\\' ++ escapeBreaks text := by
        simp only [escapeBreaks_eq, List.flatMap_cons]
        rfl
      rw [hescape, List.append_assoc, ← List.append_assoc, List.replicate_append_replicate,
        show k + 1 + 2 = (k + 1) + 1 + 1 by omega, List.replicate_succ, List.cons_append,
        List.cons_append, List.cons.injEq] at heq
      exact ih htail (hasBreak_eq_false.mpr hbreak.2) (k + 1) heq.2
    · rw [List.replicate_succ, List.cons_append, List.cons_append, List.cons.injEq] at heq
      exact hslash heq.1.symm

/-- An escaped text is another text as it stands only if nothing but the line breaks and the
backslashes of its message were escaped. -/
theorem escapeBreaks_eq_append {head message message' : List Char} (hhead : hasBreak head = false)
    (hconcat : ∃ cs, head = cs ++ [' ']) :
    escapeBreaks (head ++ message) = head ++ message' ↔
      '\\' ∉ head ∧ escapeBreaks message = message' := by
  constructor
  · intro heq
    have hslash : '\\' ∉ head := by
      intro hmem
      obtain ⟨before, after, hsplit, hbefore⟩ := List.eq_append_cons_of_mem hmem
      rw [hasBreak_eq_false] at hhead
      have hplain : escapeBreaks before = before := by
        refine escapeBreaks_eq_self (hasBreak_eq_false.mpr fun c hc => hhead c ?_) hbefore
        rw [hsplit]
        exact List.mem_append_left _ hc
      have hafter : hasBreak after = false := by
        refine hasBreak_eq_false.mpr fun c hc => hhead c ?_
        rw [hsplit]
        exact List.mem_append_right _ (List.mem_cons_of_mem _ hc)
      have hother : ∃ c ∈ after, c ≠ '\\' := by
        obtain ⟨cs, hcs⟩ := hconcat
        have hlast : (before ++ '\\' :: after).getLast? = some ' ' := by
          rw [← hsplit, hcs, List.getLast?_concat]
        cases hnil : after.getLast? with
        | none =>
          rw [List.getLast?_eq_none_iff] at hnil
          rw [hnil, List.getLast?_concat] at hlast
          cases hlast
        | some c =>
          rw [List.getLast?_append, List.getLast?_cons, hnil] at hlast
          obtain rfl : c = ' ' := by simpa using hlast
          exact ⟨' ', List.mem_of_getLast? hnil, by decide⟩
      have hescape : escapeBreaks ('\\' :: after) =
        '\\' :: (List.replicate 1 '\\' ++ escapeBreaks after) := by
        simp only [escapeBreaks_eq, List.flatMap_cons]
        rfl
      rw [hsplit, escapeBreaks_append, escapeBreaks_append, hplain, hescape, List.append_assoc,
        List.append_assoc, List.append_cancel_left_eq, List.cons_append, List.cons_append,
        List.cons.injEq, List.append_assoc] at heq
      exact backslashes_ne hother hafter 0 _ _ heq.2
    refine ⟨hslash, ?_⟩
    rw [escapeBreaks_append, escapeBreaks_eq_self hhead hslash] at heq
    exact List.append_cancel_left heq
  · rintro ⟨hslash, rfl⟩
    rw [escapeBreaks_append, escapeBreaks_eq_self hhead hslash]

/-- Which messages come out as the same text. -/
theorem text_inj_iff {head message message' : List Char} (hhead : hasBreak head = false)
    (hconcat : ∃ cs, head = cs ++ [' ']) :
    forwardText head message = forwardText head message' ↔ message = message' ∨
      '\\' ∉ head ∧ (hasBreak message = true ∧ escapeBreaks message = message' ∨
        hasBreak message' = true ∧ escapeBreaks message' = message) := by
  unfold forwardText
  rw [hasBreak_append hhead, hasBreak_append hhead]
  have hplain : ∀ {message message' : List Char}, hasBreak message' = true →
      escapeBreaks message ≠ message' := by
    rintro message _ hbreak rfl
    rw [hasBreak_escapeBreaks] at hbreak
    cases hbreak
  cases hbreak : hasBreak message with
  | false =>
    cases hbreak' : hasBreak message' with
    | false =>
      simp only [Bool.false_eq_true, if_false, false_and, or_false, and_false]
      rw [List.append_cancel_left_eq]
    | true =>
      simp only [Bool.false_eq_true, if_false, if_true, false_and, false_or, true_and]
      rw [eq_comm, escapeBreaks_eq_append hhead hconcat]
      refine ⟨.inr, fun h => h.resolve_left ?_⟩
      rintro rfl
      rw [hbreak] at hbreak'
      cases hbreak'
  | true =>
    cases hbreak' : hasBreak message' with
    | false =>
      simp only [Bool.false_eq_true, if_false, if_true, false_and, or_false, true_and]
      rw [escapeBreaks_eq_append hhead hconcat]
      refine ⟨.inr, fun h => h.resolve_left ?_⟩
      rintro rfl
      rw [hbreak] at hbreak'
      cases hbreak'
    | true =>
      simp only [if_true, true_and]
      rw [escapeBreaks_injective.eq_iff, List.append_cancel_left_eq]
      refine ⟨.inl, fun h => h.resolve_right ?_⟩
      rintro ⟨-, h | h⟩
      · exact hplain hbreak' h
      · exact hplain hbreak h

end

/-! ## Forwarded lines -/

/-- One newline, at the end. -/
def OneLine (line : String) : Prop := ∃ cs, line.toList = cs ++ ['\n'] ∧ '\n' ∉ cs

/-- The first words of a line are the fields of its header. -/
def HeaderSplits (session : LogSession) (item : LogRecord) (line : String) : Prop :=
  ∃ severity, severities item.priority = some severity ∧
    (line.toList.splitOn ' ').take 6 = headerWords session item severity

/-- Behind the header stands one element, which a reader takes for the session's, and then the
message. -/
def ElementEnds (session : LogSession) (item : LogRecord) (line : String) : Prop :=
  ∃ severity rest message, severities item.priority = some severity ∧
    line.toList = terminated ' ' (headerWords session item severity) ++ rest ∧
    readElement rest = some (element session, ' ' :: message)

/-- Two records that differ in their message only. -/
def DifferInMessage (item item' : LogRecord) : Prop :=
  item' = { item with message := item'.message } ∧ item.message ≠ item'.message

/-- A record's line is well formed, and no line of a record that differs in its message only. -/
structure WellForwarded (session : LogSession) (item item' : LogRecord) (line : String) : Prop where
  forwarded : syslog session item = some line
  oneLine : OneLine line
  header : HeaderSplits session item line
  element : ElementEnds session item line
  apart : DifferInMessage item item' → syslog session item' ≠ some line

/-- A message with a line break, and the same message with its line breaks and backslashes
spelled. -/
def Spells (message message' : String) : Prop :=
  hasBreak message.toList = true ∧ escapeBreaks message.toList = message'.toList

/-- Two records whose messages come out as one text. -/
def Collides (item item' : LogRecord) : Prop :=
  DifferInMessage item item' ∧ '\\' ∉ item.tag.toList ∧
    (Spells item.message item'.message ∨ Spells item'.message item.message)

theorem named_element (session : LogSession) : (element session).Named where
  id := elementId_plain
  params := by
    simp only [element, List.mem_cons, List.not_mem_nil, or_false, forall_eq_or_imp, forall_eq]
    exact ⟨paramName_plain.1, paramName_plain.2⟩

section

variable {session : LogSession} {item item' : LogRecord} {letter : String} {severity : ℕ}

theorem not_break_forwardText (head message : List Char) :
    ∀ c ∈ forwardText head message, c ≠ '\n' ∧ c ≠ '\r' := by
  unfold forwardText
  split
  · exact fun c hc => not_break_of_mem_escapeBreaks hc
  · rename_i h
    exact hasBreak_eq_false.mp (eq_false_of_ne_true h)

theorem not_newline_escape {value : List Char} (h : '\n' ∉ value) : '\n' ∉ escape value := by
  intro hmem
  rw [escape, List.mem_flatMap] at hmem
  obtain ⟨c, hc, hmem⟩ := hmem
  unfold escapeChar at hmem
  split at hmem
  · simp only [List.mem_cons, List.not_mem_nil, or_false] at hmem
    rcases hmem with hmem | rfl
    · cases hmem
    · exact h hc
  · exact h (List.mem_singleton.mp hmem ▸ hc)

theorem not_newline_hex {text : List Char} (h : repeats isHex 64 64 text = true) : '\n' ∉ text := by
  intro hmem
  rw [repeats, Bool.and_eq_true] at h
  have hhex := List.all_eq_true.mp h.2 _ hmem
  revert hhex
  decide

theorem not_space_hex {text : List Char} (h : repeats isHex 64 64 text = true) : ' ' ∉ text := by
  intro hmem
  rw [repeats, Bool.and_eq_true] at h
  have hhex := List.all_eq_true.mp h.2 _ hmem
  revert hhex
  decide

theorem not_newline_header (h : Parts item letter) :
    '\n' ∉ terminated ' ' (headerWords session item severity) := by
  have hpri : '\n' ∉ Nat.toDigits 10 (8 + severity) := fun hc => (not_break_of_digits _ _ hc).1 rfl
  have htimestamp : '\n' ∉ item.timestamp.toList := fun hc => (h.timestamp _ hc).1 rfl
  have hdid := not_newline_hex session.hexDid
  simp [terminated, headerWords, hpri, htimestamp, hdid]

theorem not_newline_element (session : LogSession) : '\n' ∉ (element session).write := by
  have hcode : '\n' ∉ escape (toString session.appVersionCode).toList := by
    rw [toString_of_nonneg session.versionCode.1, escape_digits]
    exact fun hc => (not_break_of_digits _ _ hc).1 rfl
  have hpackage : '\n' ∉ escape session.appPackage.toList :=
    not_newline_escape fun hc => (not_break_of_plain session.plainPackage _ hc).1 rfl
  have hid : '\n' ∉ elementId := by decide
  have hname : '\n' ∉ versionCodeName := by decide
  have hname' : '\n' ∉ packageName := by decide
  simp only [Element.write, Param.write, element, List.flatMap_cons,
    List.flatMap_nil, List.mem_append, List.mem_cons, List.not_mem_nil, or_false, not_or]
  simp [-Int.toString_eq_repr, hid, hname, hname', hcode, hpackage]

theorem space_not_mem_headerWords (session : LogSession) (item : LogRecord) (severity : ℕ) :
    (∀ word ∈ headerWords session item severity, ' ' ∉ word) ↔ ' ' ∉ item.timestamp.toList := by
  have hpri : ' ' ∉ Nat.toDigits 10 (8 + severity) := fun hc =>
    (not_break_of_digits _ _ hc).2.2.2 rfl
  have hdid := not_space_hex session.hexDid
  simp [headerWords, hpri, hdid]

end

/-- A forwarded line is well formed, and unlike every line of a record that differs in its message
only, if and only if no space is in the timestamp and neither message spells the other one. -/
theorem forwarded_line_iff {parseDatetime : ParseDatetime} {report : LogReport}
    (h : reportLog parseDatetime report = true) (session : LogSession) {item : LogRecord}
    (hitem : item ∈ report.records) (item' : LogRecord) :
    (∃ line, WellForwarded session item item' line) ↔
      ' ' ∉ item.timestamp.toList ∧ ¬ Collides item item' := by
  have hrecord : ∀ {report : LogReport} {item : LogRecord}, reportLog parseDatetime report = true →
      item ∈ report.records → logRecord parseDatetime item = true := by
    intro report item h hitem
    simp only [reportLog, Bool.and_eq_true] at h
    exact List.all_eq_true.mp h.1.1.2 item hitem
  obtain ⟨letter, severity, hletter, hseverity, -, hplain⟩ := exists_letter (hrecord h hitem)
  have hparts := parts_of_record (hrecord h hitem) hplain
  obtain ⟨line, hline, htext⟩ := syslog_eq session hletter hseverity
  have hhead := forwardHead_break hparts
  have hconcat := forwardHead_concat item letter
  -- the text of the other record, when it differs in its message only
  have hother : DifferInMessage item item' → (syslog session item' = some line ↔
      forwardText (forwardHead item letter) item.message.toList =
        forwardText (forwardHead item letter) item'.message.toList) := by
    rintro ⟨hsame, -⟩
    have hletter' : priorityLetter item'.priority = some letter := by rw [hsame]; exact hletter
    have hseverity' : severities item'.priority = some severity := by rw [hsame]; exact hseverity
    obtain ⟨line', hline', htext'⟩ := syslog_eq session hletter' hseverity'
    have hsameHead : forwardHead item' letter = forwardHead item letter := by rw [hsame]; rfl
    have hsameWords : headerWords session item' severity = headerWords session item severity := by
      rw [hsame]; rfl
    rw [hsameHead, hsameWords] at htext'
    rw [hline', Option.some.injEq, ← String.toList_inj, htext, htext', List.append_cancel_left_eq,
      List.append_cancel_left_eq, List.cons.injEq, List.append_cancel_right_eq]
    simp only [true_and]
    exact eq_comm
  have hsplits : HeaderSplits session item line ↔ ' ' ∉ item.timestamp.toList := by
    rw [HeaderSplits, ← space_not_mem_headerWords session item severity]
    simp only [hseverity, Option.some.injEq, exists_eq_left']
    constructor
    · intro htake word hword
      rw [← htake] at hword
      exact not_mem_of_mem_splitOn (List.mem_of_mem_take hword)
    · intro hwords
      rw [htext, splitOn_terminated hwords]
      exact List.take_left' rfl
  have hone : OneLine line := by
    refine ⟨_, by rw [htext, ← List.append_assoc, ← List.cons_append, ← List.append_assoc], ?_⟩
    simp only [List.mem_append, List.mem_cons, not_or]
    exact ⟨⟨not_newline_header hparts, not_newline_element session⟩, by decide,
      fun hc => (not_break_forwardText _ _ _ hc).1 rfl⟩
  have helement : ElementEnds session item line :=
    ⟨severity, _, _, hseverity, htext, readElement_write (named_element session) _⟩
  have happart : (DifferInMessage item item' → syslog session item' ≠ some line) ↔
      ¬ Collides item item' := by
    rw [Collides, not_and]
    refine forall_congr' fun hdiffer => not_congr ?_
    rw [hother hdiffer, text_inj_iff hhead hconcat, slash_mem_forwardHead hparts, Spells, Spells]
    exact or_iff_right fun heq => hdiffer.2 (String.toList_inj.mp heq)
  constructor
  · rintro ⟨line', hforwarded⟩
    obtain rfl := Option.some.inj (hline.symm.trans hforwarded.forwarded)
    exact ⟨hsplits.mp hforwarded.header, happart.mp hforwarded.apart⟩
  · rintro ⟨hspace, hcollides⟩
    exact ⟨line, hline, hone, hsplits.mpr hspace, helement, happart.mpr hcollides⟩

/-! ## Two messages, one line -/

/-- A reader of UTC times, on the texts used here. -/
def sampleDatetime : ParseDatetime := fun text =>
  if text = "2024-05-01T10:00:00Z" then some (some 0) else none

def sampleSession : LogSession where
  did := "0123456789abcdef0123456789abcdef0123456789abcdef0123456789abcdef"
  appVersionCode := 7
  appPackage := "io.panelassistant.android"
  hexDid := by decide
  plainPackage := by decide
  versionCode := by decide

def sampleRecord (message : String) : LogRecord where
  timestamp := "2024-05-01T10:00:00Z"
  source := "app"
  priority := 6
  tag := "Main"
  pid := 42
  message := message

def sampleReport (message : String) : LogReport := ⟨"token", [sampleRecord message], 0⟩

theorem sampleReport_accepted : reportLog sampleDatetime (sampleReport "started") = true := by
  decide

theorem forwarded_line_plain :
    (∃ line, WellForwarded sampleSession (sampleRecord "started") (sampleRecord "stopped") line) ↔
      ' ' ∉ (sampleRecord "started").timestamp.toList ∧
        ¬ Collides (sampleRecord "started") (sampleRecord "stopped") :=
  forwarded_line_iff sampleReport_accepted sampleSession List.mem_cons_self _

/-- A line break and its spelling are forwarded as the same line. -/
theorem spelled_break_collides :
    reportLog sampleDatetime (sampleReport "a\nb") = true ∧
      reportLog sampleDatetime (sampleReport "a\\nb") = true ∧
      DifferInMessage (sampleRecord "a\nb") (sampleRecord "a\\nb") ∧
      syslog sampleSession (sampleRecord "a\nb") = syslog sampleSession (sampleRecord "a\\nb") := by
  refine ⟨by decide +kernel, by decide +kernel, ⟨rfl, by decide⟩, by decide +kernel⟩

end PanelAssistant.PanelLogs
