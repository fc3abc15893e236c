import PanelAssistant.Library.Separated
import PanelAssistant.Release

/-!
# The accessibility services of a panel

The setting `enabled_accessibility_services` is one text, the enabled services with colons between
them. Three programs compute what an install makes of it: `_expected_services` of
`adb_protocol.py`, `expectedServices` of `permission-contract.mjs`, and the shell program of
`_permission_grant_command`, which works on the text from its front and looks for services with
glob patterns. Each of them refuses a text or gives the new one.
-/

namespace PanelAssistant.Accessibility

open Library Library.Text Library.Separated

/-! ## `app_identity.py`, and `app-identity.mjs` -/

/-- The launcher a build names. -/
inductive LaunchComponent where
  | oldClasses
  | newClasses
  deriving DecidableEq

/-- `_OLD_CLASSES_SUCCESSOR_LAUNCH`'s service -/
def oldService : List Char :=
  "io.panelassistant.android/io.github.maxlyth.hapaneld.input.PanelAccessibilityService".toList

def newService : List Char :=
  "io.panelassistant.android/io.panelassistant.android.input.PanelAccessibilityService".toList

def shortService : List Char := "io.panelassistant.android/.input.PanelAccessibilityService".toList

/-- `ACCESSIBILITY_COMPONENTS` -/
def component : LaunchComponent → List Char
  | .oldClasses => oldService
  | .newClasses => newService

/-- `EQUIVALENT_ACCESSIBILITY_COMPONENTS` -/
def known : LaunchComponent → List (List Char)
  | .oldClasses => [oldService]
  | .newClasses => [shortService, newService]

/-- `OBSOLETE_ACCESSIBILITY_COMPONENTS` -/
def obsolete : LaunchComponent → List (List Char)
  | .oldClasses => []
  | .newClasses => [oldService]

/-! ## The two installers -/

def isPackageChar (c : Char) : Bool := isAlnum c || c == '_' || c == '.'

/-- `[A-Za-z][A-Za-z0-9_.]*/[A-Za-z.][A-Za-z0-9_.$]*` -/
def isServiceComponent (service : List Char) : Bool :=
  match beforeFirst '/' service, afterFirst '/' service with
  | a :: package, b :: cls =>
    (isLower a || isUpper a) && package.all isPackageChar && (isLower b || isUpper b || b == '.') &&
      cls.all fun c => isPackageChar c || c == '$'
  | _, _ => false

/-- `":".join(services)` -/
def join (services : List (List Char)) : List Char := [':'].intercalate services

/-- `_expected_services` -/
def expectedServices (before : List Char) (launchComponent : LaunchComponent) :
    Option (List Char) :=
  let services := if before = [] ∨ before = "null".toList then [] else before.splitOn ':'
  if 4096 < before.length ∨ 64 < services.length ∨ ¬services.Nodup ∨
      services.all isServiceComponent = false then
    none
  else
    let services := services.filter fun name => decide (name ∉ obsolete launchComponent)
    if services.any fun name => decide (name ∈ known launchComponent) then some (join services)
    else some (join (services ++ [component launchComponent]))

/-- `value.length`, in UTF-16 code units. -/
def utf16Length (value : List Char) : ℕ :=
  (value.map fun c => if c.toNat < 0x10000 then 1 else 2).sum

/-- `validateServices` -/
def validateServices (value : List Char) : Option (List (List Char)) :=
  if 4096 < utf16Length value then none
  else if value = [] ∨ value = "null".toList then some []
  else
    let services := value.splitOn ':'
    if 64 < services.length ∨ ¬services.Nodup ∨
      services.any (fun s => !isServiceComponent s) then none
    else some services

/-- `expectedServices` of the browser. -/
def browserExpectedServices (existing : List Char) (packageId' : String)
    (launchComponent : LaunchComponent) : Option (List Char) :=
  if packageId' = packageId then
    (validateServices existing).map fun services =>
      let kept := services.filter fun service => !(obsolete launchComponent).contains service
      join (if kept.any (known launchComponent).contains then kept
        else kept ++ [component launchComponent])
  else none

/-! ## The shell program -/

/-- A shell of a panel. `${#text}` counts characters or bytes, as its locale has it; of ASCII
characters each is one. -/
structure Shell where
  length : List Char → ℕ
  length_ascii : ∀ text, (∀ c ∈ text, c.toNat < 128) → length text = text.length

/-- `printf '%s\n' "$service" | grep -Eq '^...$'`: a line matches. -/
def grepService (service : List Char) : Bool := (service.splitOn '\n').any isServiceComponent

/-- `"${after:+$after:}$service"` -/
def extend (after service : List Char) : List Char :=
  if after = [] then service else after ++ ':' :: service

/-- The loop over the services of the text that is left, with what was seen, the list so far and
the count. It gives nothing where it sets `valid=0`. -/
def scan (launchComponent : LaunchComponent) (seen after rest : List Char) (count : ℕ) :
    Option (List Char) :=
  let service := beforeFirst ':' rest
  if 64 < count + 1 ∨ grepService service = false then none
  -- `case "$seen" in *:"$service":*`
  else if framed ':' service <:+: seen then none
  else
    let after := if service ∈ obsolete launchComponent then after else extend after service
    let seen := seen ++ service ++ [':']
    if h : ':' ∈ rest then
      have := length_afterFirst_lt h
      scan launchComponent seen after (afterFirst ':' rest) (count + 1)
    else some after
termination_by rest.length

/-- The list the program of `_permission_grant_command` would write. -/
def grantedByShell (shell : Shell) (before : List Char) (launchComponent : LaunchComponent) :
    Option (List Char) :=
  let scanned :=
    if before = [] ∨ before = "null".toList then some [] else scan launchComponent [':'] [] before 0
  if shell.length before ≤ 4096 ∧ '\n' ∉ before then
    scanned.map fun after =>
      -- `case ":$after:" in *:name:*`
      if (known launchComponent).any fun name => decide (framed ':' name <:+: framed ':' after) then
        after
      else extend after (component launchComponent)
  else none

/-! ## The list that they agree on -/

/-- The services of a text. -/
def entries (before : List Char) : List (List Char) :=
  if before = [] ∨ before = "null".toList then [] else before.splitOn ':'

/-- The services that a build leaves in the list. -/
def kept (launchComponent : LaunchComponent) (services : List (List Char)) : List (List Char) :=
  services.filter fun name => decide (name ∉ obsolete launchComponent)

/-- The services after a grant. -/
def grantedEntries (launchComponent : LaunchComponent) (services : List (List Char)) :
    List (List Char) :=
  if ∃ name ∈ kept launchComponent services, name ∈ known launchComponent then
    kept launchComponent services
  else kept launchComponent services ++ [component launchComponent]

end PanelAssistant.Accessibility
