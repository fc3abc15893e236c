import Mathlib.Data.List.Basic

/-!
# Shell programs

The commands of a POSIX shell, over the verbs of a program's own simple commands. What a shell
program may do is decided by the simple commands in it, whichever of its branches are taken
(`verbs`), and by the files its output goes to (`outputs`).
-/

namespace Library.Shell

/-- A command. Arguments are texts, expanded by the shell when it comes to them. -/
inductive Command (Verb : Type) where
  /-- A simple command. -/
  | run (verb : Verb) (arguments : List String)
  /-- `verb arguments 'command'`, of a verb that runs a program. -/
  | runs (verb : Verb) (arguments : List String) (command : Command Verb)
  /-- `name=value` -/
  | assign (name value : String)
  /-- `name=$(command)` -/
  | capture (name : String) (command : Command Verb)
  /-- `command < file` -/
  | input (command : Command Verb) (file : String)
  /-- `command >file`, `command 2>file` or both -/
  | output (command : Command Verb) (file : String)
  /-- `first; second` -/
  | seq (first second : Command Verb)
  /-- `first && second` -/
  | and (first second : Command Verb)
  /-- `first || second` -/
  | or (first second : Command Verb)
  /-- `first | second` -/
  | pipe (first second : Command Verb)
  /-- `if test; then yes; else no; fi` -/
  | ifElse (test yes no : Command Verb)
  /-- `if test; then yes; fi` -/
  | ifThen (test yes : Command Verb)
  /-- `while test; do body; done` -/
  | loop (test body : Command Verb)
  /-- `case word in pattern) yes ;; *) no ;; esac` -/
  | choose (word pattern : String) (yes no : Command Verb)

namespace Command

variable {Verb : Type}

/-- The verbs of the simple commands, of every branch. -/
def verbs : Command Verb → List Verb
  | run verb _ => [verb]
  | runs verb _ command => verb :: command.verbs
  | assign _ _ => []
  | capture _ command => command.verbs
  | input command _ => command.verbs
  | output command _ => command.verbs
  | seq first second => first.verbs ++ second.verbs
  | and first second => first.verbs ++ second.verbs
  | or first second => first.verbs ++ second.verbs
  | pipe first second => first.verbs ++ second.verbs
  | ifElse test yes no => test.verbs ++ yes.verbs ++ no.verbs
  | ifThen test yes => test.verbs ++ yes.verbs
  | loop test body => test.verbs ++ body.verbs
  | choose _ _ yes no => yes.verbs ++ no.verbs

/-- The files that output goes to. -/
def outputs : Command Verb → List String
  | run _ _ => []
  | runs _ _ command => command.outputs
  | assign _ _ => []
  | capture _ command => command.outputs
  | input command _ => command.outputs
  | output command file => file :: command.outputs
  | seq first second => first.outputs ++ second.outputs
  | and first second => first.outputs ++ second.outputs
  | or first second => first.outputs ++ second.outputs
  | pipe first second => first.outputs ++ second.outputs
  | ifElse test yes no => test.outputs ++ yes.outputs ++ no.outputs
  | ifThen test yes => test.outputs ++ yes.outputs
  | loop test body => test.outputs ++ body.outputs
  | choose _ _ yes no => yes.outputs ++ no.outputs

/-- `first; second; …`, of at least one command -/
def sequence (first : Command Verb) (rest : List (Command Verb)) : Command Verb :=
  rest.foldl seq first

/-- The program only reads: every simple command in it does, and no output goes to a file. -/
def ReadOnly (reads : Verb → Bool) (command : Command Verb) : Prop :=
  (∀ verb ∈ command.verbs, reads verb = true) ∧ ∀ file ∈ command.outputs, file = "/dev/null"

instance (reads : Verb → Bool) (command : Command Verb) : Decidable (command.ReadOnly reads) :=
  inferInstanceAs (Decidable (_ ∧ _))

variable {reads : Verb → Bool}

theorem readOnly_run {verb : Verb} {arguments : List String} :
    (run verb arguments).ReadOnly reads ↔ reads verb = true := by
  simp [ReadOnly, verbs, outputs]

theorem readOnly_runs {verb : Verb} {arguments : List String} {command : Command Verb} :
    (runs verb arguments command).ReadOnly reads ↔ reads verb = true ∧ command.ReadOnly reads := by
  simp only [ReadOnly, verbs, outputs, List.forall_mem_cons, and_assoc]

theorem readOnly_seq {first second : Command Verb} :
    (seq first second).ReadOnly reads ↔ first.ReadOnly reads ∧ second.ReadOnly reads := by
  simp only [ReadOnly, verbs, outputs, List.mem_append, or_imp, forall_and]
  exact and_and_and_comm

theorem readOnly_sequence {first : Command Verb} {rest : List (Command Verb)} :
    (sequence first rest).ReadOnly reads ↔
      first.ReadOnly reads ∧ ∀ command ∈ rest, command.ReadOnly reads := by
  induction rest generalizing first with
  | nil => simp [sequence]
  | cons command rest ih =>
    have hstep : sequence first (command :: rest) = sequence (seq first command) rest := rfl
    rw [hstep, ih, readOnly_seq, List.forall_mem_cons, and_assoc]

end Command

end Library.Shell
