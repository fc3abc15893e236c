import PanelAssistant.Library.Shell
import PanelAssistant.Usb.Jobs
import PanelAssistant.Usb.Preflight

/-!
# The programs a preview sends to the panel

The builders of `posture.mjs`, `preflight.mjs`, `delegated-proof.mjs`, `staging-contract.mjs`,
`installed-observation.mjs` and `buildAppReady` of `install-contract.mjs`, as shell programs. All of
them but one only read (`script_readOnly`): the preparation of a staged file sets its mode
(`not_readOnly_preparation`).
-/

namespace PanelAssistant.Usb

open Library Library.Shell

/-- The verbs of the programs; `pm`, `dumpsys` and `command` with the word that follows them. -/
inductive Verb where
  | echo
  | test
  | commandV
  | getprop
  | id
  | ls
  | stat
  | wc
  | sha256sum
  | cat
  | read
  | sed
  | head
  | ss
  | netstat
  | grep
  | sleep
  | breakLoop
  | pmPath
  | pmListPackages
  | dumpsysPackage
  | su
  | chmod
  deriving DecidableEq

/-- What only reads. To ask for root is to read, if what is then run only reads. -/
def Verb.reads : Verb → Bool
  | .chmod => false
  | _ => true

abbrev Script : Type := Command Verb

def echo (text : String) : Script := .run .echo [text]

def test (arguments : List String) : Script := .run .test arguments

def quiet (command : Script) : Script := .output command "/dev/null"

/-! ## Frames -/

/-- One outer frame of named sections, each reporting its exit status. -/
def frameProgram (kind nonce : String) (sections : List (String × Script)) : Script :=
  .sequence (echo ("HAPANELD_" ++ kind ++ "_BEGIN:" ++ nonce))
    ((sections.flatMap fun (name, command) =>
      [echo ("HAPANELD_" ++ kind ++ "_" ++ name ++ "_BEGIN:" ++ nonce), command,
        echo ("HAPANELD_" ++ kind ++ "_" ++ name ++ "_END:" ++ nonce ++ ":$?")]) ++
      [echo ("HAPANELD_" ++ kind ++ "_END:" ++ nonce)])

/-- `IDENTITY_SECTIONS` -/
def identitySections : List (String × Script) :=
  [("MODEL", .run .getprop ["ro.product.model"]), ("SERIAL", .run .getprop ["ro.serialno"]),
    ("ABI", .run .getprop ["ro.product.cpu.abi"]),
    ("SDK", .run .getprop ["ro.build.version.sdk"]), ("UID", .run .id ["-u"]),
    ("SECURE", .run .getprop ["ro.secure"]), ("DEBUGGABLE", .run .getprop ["ro.debuggable"]),
    ("SU", .ifElse (quiet (.run .commandV ["su"])) (echo "present")
      (.seq (.assign "hapaneld_su_status" "$?")
        (.ifElse (test ["\"$hapaneld_su_status\"", "-eq", "1"]) (echo "absent")
          (echo "abnormal"))))]

def buildPosture (nonce : String) : Script := frameProgram "POSTURE" nonce identitySections

/-- Whether the shell can read a directory of app data. -/
def baseSection (path : String) : Script :=
  .ifElse (.or (test ["-L", path]) (test ["-d", path]))
    (.ifElse (quiet (.run .ls ["-1A", path])) (echo "readable") (echo "unreadable"))
    (echo "unreadable")

def residueSection (path : String) : Script :=
  .ifElse (.or (test ["-e", path]) (test ["-L", path])) (echo "present") (echo "absent")

/-- `SECTIONS` of `preflight.mjs` -/
def preflightSections : List (String × Script) :=
  identitySections ++ [("LIVE", .run .pmPath ["android"])] ++
    (Preflight.probedPackageIds.zipIdx.flatMap fun (packageId, i) =>
      [("PACKAGE" ++ toString i, .run .pmPath [packageId]),
        ("RETAINED" ++ toString i, .run .pmListPackages ["-u", packageId])]) ++
    (Preflight.bases.zipIdx.map fun (path, i) => ("BASE" ++ toString i, baseSection path)) ++
    Preflight.residueProbes.zipIdx.map fun (probe, i) =>
      ("RESIDUE" ++ toString i, residueSection probe.2)

def buildPreflight (nonce : String) : Script := frameProgram "PREFLIGHT" nonce preflightSections

/-- `SU_PREFIXES`, without their first word -/
def suPrefixes : List (List String) :=
  [["0"], ["0", "sh", "-c"], ["root"], ["root", "sh", "-c"], ["-c"]]

/-- The sections that root reads. -/
def delegatedSections : List (String × Script) :=
  [("UID", .run .id ["-u"])] ++
    (Preflight.bases.zipIdx.map fun (path, i) => ("BASE" ++ toString i,
      .ifElse (.and (test ["-d", path]) (quiet (.run .ls ["-1A", path]))) (echo "readable")
        (echo "unreadable"))) ++
    Preflight.residueProbes.zipIdx.map fun (probe, i) =>
      ("RESIDUE" ++ toString i, residueSection probe.2)

def buildDelegatedProof (suPrefix : List String) (nonce : String) : Script :=
  .sequence (echo ("HAPANELD_DELEGATE_BEGIN:" ++ nonce))
    [.runs .su suPrefix (frameProgram "SU" nonce delegatedSections),
      echo ("HAPANELD_DELEGATE_END:" ++ nonce ++ ":$?")]

/-! ## The staged file -/

/-- `stagingPath` -/
def stagingPath (jobId : JobId) : String := "/data/local/tmp/ha-paneld-install-" ++ jobId ++ ".apk"

/-- A directory that is one, and that the shell may enter. -/
def parentTest (parent : String) : Script :=
  .and (.and (test ["-d", parent]) (test ["!", "-L", parent])) (test ["-x", parent])

def buildPathState (nonce : String) (jobId : JobId) : Script :=
  let path := stagingPath jobId
  .seq (echo ("HAPANELD_PATH_BEGIN:" ++ nonce))
    (.ifElse
      (.and (.and (.and (parentTest "/data") (parentTest "/data/local"))
        (parentTest "/data/local/tmp"))
        (test ["-r", "/data/local/tmp"]))
      (.seq
        (.ifElse (.or (test ["-e", path]) (test ["-L", path])) (echo "present") (echo "absent"))
        (echo ("HAPANELD_PATH_END:" ++ nonce ++ ":0")))
      (echo ("HAPANELD_PATH_END:" ++ nonce ++ ":1")))

/-- Only this job's own regular file is touched. -/
def buildStagedPreparation (nonce : String) (jobId : JobId) : Script :=
  let path := stagingPath jobId
  .sequence (echo ("HAPANELD_PREPARE_BEGIN:" ++ nonce))
    [.ifThen (.and (test ["-f", path]) (test ["!", "-L", path])) (.run .chmod ["0644", path]),
      echo ("HAPANELD_PREPARE_END:" ++ nonce ++ ":$?")]

/-- Observation only: preparation above is the separate step that sets the mode. -/
def buildStagedObservation (nonce : String) (jobId : JobId) : Script :=
  let path := stagingPath jobId
  frameProgram "STAGED" nonce
    [("MODE", .run .stat ["-c", "%f", path]), ("SIZE", .input (.run .wc ["-c"]) path),
      ("SHA", .run .sha256sum [path])]

/-! ## The installed app -/

def buildInstalledObservation (nonce packageId : String) : Script :=
  .sequence (echo ("HAPANELD_INSTALLED_BEGIN:" ++ nonce))
    [.capture "hapaneld_package" (.run .pmPath [packageId]),
      .assign "hapaneld_pm_status" "$?",
      .ifElse
        (.and (test ["\"$hapaneld_pm_status\"", "-ne", "0"])
          (test ["\"$hapaneld_pm_status\"", "-ne", "1"]))
        (echo "invalid")
        (.ifElse (test ["-z", "\"$hapaneld_package\""]) (echo "absent")
          (.ifElse (test ["\"$hapaneld_pm_status\"", "-ne", "0"]) (echo "invalid")
            (.choose "\"$hapaneld_package\"" "package:/data/app/*/base.apk"
              (.seq (.assign "hapaneld_apk" "$\x7bhapaneld_package#package:\x7d")
                (.choose "\"$hapaneld_apk\"" "*[!A-Za-z0-9_./=+~-]*" (echo "invalid")
                  (.sequence (echo "present")
                    [echo "\"$hapaneld_apk\"",
                      echo ("HAPANELD_INSTALLED_MODE_BEGIN:" ++ nonce),
                      .run .stat ["-c", "%f", "\"$hapaneld_apk\""],
                      echo ("HAPANELD_INSTALLED_MODE_END:" ++ nonce ++ ":$?"),
                      echo ("HAPANELD_INSTALLED_SIZE_BEGIN:" ++ nonce),
                      .input (.run .wc ["-c"]) "\"$hapaneld_apk\"",
                      echo ("HAPANELD_INSTALLED_SIZE_END:" ++ nonce ++ ":$?"),
                      echo ("HAPANELD_INSTALLED_SHA_BEGIN:" ++ nonce),
                      .run .sha256sum ["\"$hapaneld_apk\""],
                      echo ("HAPANELD_INSTALLED_SHA_END:" ++ nonce ++ ":$?")])))
              (echo "invalid")))),
      echo ("HAPANELD_INSTALLED_END:" ++ nonce)]

/-- The listening sockets of the app's user, 8888 first. -/
def findPort : Script :=
  .capture "p" (.pipe (quiet (.run .cat ["/proc/net/tcp", "/proc/net/tcp6"]))
    (.sequence (.assign "f" "")
      [.loop (.run .read ["-r", "_", "l", "_", "s", "_", "_", "_", "o", "_"])
        (.ifThen (.and (test ["\"$s\"", "=", "0A"]) (test ["\"$o\"", "=", "\"$u\""]))
          (.sequence (.assign "q" "$((0x$\x7bl##*:\x7d))")
            [.ifThen (test ["\"$q\"", "=", "8888"])
                (.seq (.assign "f" "8888") (.run .breakLoop [])),
              .or (test ["-n", "\"$f\""]) (.assign "f" "$q")])),
        echo "\"$f\""]))

/-- Wait, read-only, for the app to be listening before the one strict health read. -/
def buildAppReady (nonce packageId : String) : Script :=
  .sequence (echo ("HAPANELD_READY_BEGIN:" ++ nonce))
    [.assign "i" "0", .assign "r" "1",
      .loop (test ["$i", "-lt", "30"])
        (.sequence (.assign "p" "")
          [.capture "u" (quiet (.run .stat ["-c", "%u", "/data/data/" ++ packageId])),
            .or (test ["-n", "\"$u\""])
              (.capture "u" (.pipe (.pipe (quiet (.run .dumpsysPackage [packageId]))
                (.run .sed ["-n", "'s/.*userId=\\([0-9]*\\).*/\\1/p'"])) (.run .head ["-n", "1"]))),
            .ifElse (.and (test ["-n", "\"$u\""]) (test ["-r", "/proc/net/tcp"])) findPort
              (.ifThen
                (.pipe (.seq (quiet (.run .ss ["-ltn"])) (quiet (.run .netstat ["-ltn"])))
                  (.run .grep ["-q", "':8888 '"]))
                (.assign "p" "8888")),
            .ifThen (test ["-n", "\"$p\""])
              (.sequence (echo "\"$p\"") [.assign "r" "0", .run .breakLoop []]),
            .assign "i" "$((i+1))", .run .sleep ["2"]]),
      echo ("HAPANELD_READY_END:" ++ nonce ++ ":$r")]

/-! ## Programs -/

/-- A program, but for its nonce. -/
inductive Program where
  | posture
  | preflight
  | delegatedProof (suPrefix : List String)
  | pathState (jobId : JobId)
  | stagedPreparation (jobId : JobId)
  | stagedObservation (jobId : JobId)
  | installedObservation (packageId : String)
  | appReady (packageId : String)
  deriving DecidableEq

def Program.script (nonce : String) : Program → Script
  | posture => buildPosture nonce
  | preflight => buildPreflight nonce
  | delegatedProof suPrefix => buildDelegatedProof suPrefix nonce
  | pathState jobId => buildPathState nonce jobId
  | stagedPreparation jobId => buildStagedPreparation nonce jobId
  | stagedObservation jobId => buildStagedObservation nonce jobId
  | installedObservation packageId => buildInstalledObservation nonce packageId
  | appReady packageId => buildAppReady nonce packageId

/-- Whatever its nonce, the program only reads. -/
def Program.ReadOnly (program : Program) : Prop :=
  ∀ nonce, (program.script nonce).ReadOnly Verb.reads

theorem readOnly_echo (text : String) : (echo text).ReadOnly Verb.reads :=
  Command.readOnly_run.mpr rfl

/-- A frame reads if its sections do. -/
theorem readOnly_frameProgram {kind nonce : String} {sections : List (String × Script)}
    (h : ∀ s ∈ sections, s.2.ReadOnly Verb.reads) :
    (frameProgram kind nonce sections).ReadOnly Verb.reads := by
  rw [frameProgram, Command.readOnly_sequence]
  refine ⟨readOnly_echo _, ?_⟩
  intro command hcommand
  rcases List.mem_append.mp hcommand with hmem | hmem
  · obtain ⟨s, hs, hpart⟩ := List.mem_flatMap.mp hmem
    rcases List.mem_cons.mp hpart with rfl | hpart
    · exact readOnly_echo _
    rcases List.mem_cons.mp hpart with rfl | hpart
    · exact h s hs
    rw [List.mem_singleton.mp hpart]
    exact readOnly_echo _
  · rw [List.mem_singleton.mp hmem]
    exact readOnly_echo _

/-- The preparation of a staged file sets its mode. -/
theorem not_readOnly_preparation (jobId : JobId) :
    ¬ (Program.stagedPreparation jobId).ReadOnly := by
  intro h
  have hverb := (h "").1 .chmod (by
    simp [Program.script, buildStagedPreparation, Command.sequence, Command.verbs])
  cases hverb

/-- Every other program only reads. -/
theorem readOnly_of_ne {program : Program} (h : ∀ jobId, program ≠ .stagedPreparation jobId) :
    program.ReadOnly := by
  intro nonce
  cases program with
  | posture => exact readOnly_frameProgram (by decide)
  | preflight => exact readOnly_frameProgram (by decide)
  | delegatedProof suPrefix =>
    rw [Program.script, buildDelegatedProof, Command.readOnly_sequence]
    refine ⟨readOnly_echo _, ?_⟩
    intro command hcommand
    rcases List.mem_cons.mp hcommand with rfl | hcommand
    · exact Command.readOnly_runs.mpr ⟨rfl, readOnly_frameProgram (by decide)⟩
    · rw [List.mem_singleton.mp hcommand]
      exact readOnly_echo _
  | pathState jobId =>
    simp [Program.script, buildPathState, Command.ReadOnly, Command.verbs, Command.outputs, echo,
      test, parentTest, Verb.reads]
  | stagedPreparation jobId => exact absurd rfl (h jobId)
  | stagedObservation jobId =>
    refine readOnly_frameProgram ?_
    simp [Command.ReadOnly, Command.verbs, Command.outputs, Verb.reads]
  | installedObservation packageId =>
    simp [Program.script, buildInstalledObservation, Command.ReadOnly, Command.sequence,
      Command.verbs, Command.outputs, echo, test, Verb.reads]
  | appReady packageId =>
    simp [Program.script, buildAppReady, findPort, quiet, Command.ReadOnly, Command.sequence,
      Command.verbs, Command.outputs, echo, test, Verb.reads]

/-- Exactly the preparation of a staged file does not only read. -/
theorem script_readOnly {program : Program} :
    program.ReadOnly ↔ ∀ jobId, program ≠ .stagedPreparation jobId :=
  ⟨fun h jobId heq => not_readOnly_preparation jobId (heq ▸ h), readOnly_of_ne⟩

end PanelAssistant.Usb
