import MessageCatalog.FileTree
import MessageCatalog.Log
import MessageCatalog.Settings.Overrides
import MessageCatalog.Settings.Problems
import MessageCatalog.Settings.Reader

/-!
# Loading settings

The settings of a run come from a file, with the overrides of the environment. They are checked
before the run begins.

## Main statements

* `finish_eq_ok_iff` : settings are taken exactly when all overrides can be read and no rule is
  broken
-/

namespace MessageCatalog

/-- Why the settings of a run cannot be loaded. -/
inductive SettingsError where
  | unreadable (path : Path) (error : FileError)
  /-- The file holds no settings. -/
  | malformed
  | override (error : OverrideError)
  /-- Some rules are broken. -/
  | invalid (problems : List SettingProblem)
  deriving DecidableEq, Repr

/-- The text about a file of settings that cannot be read. -/
def unreadableSettingsMessage (path : Path) (error : FileError) : String :=
  let reason : String := match error with
    | .notText _ => "stream did not contain valid UTF-8"
    | error => error.message
  s!"Failed to read configuration file {path.str}: {reason}"

namespace Settings

/-- Apply the overrides to some settings and check them. -/
def finish (s : Settings) (env : Environment) : Except SettingsError Settings :=
  match s.override env with
  | (_, .error e) => .error (.override e)
  | (s, .ok ()) => if s.problems = [] then .ok s else .error (.invalid s.problems)

/-- Load the settings of a file. -/
def loadFile (env : Environment) (files : FileTree) (path : Path) :
    Logged SettingsError Settings := do
  let text ← match files.readText path with
    | .ok text => pure text
    | .error e => Logged.fail (.unreadable path e)
  let given ← match parse text with
    | some s => pure s
    | none => Logged.fail .malformed
  let s ← Logged.ofExcept (given.finish env)
  Logged.log (.information s!"Loaded configuration from {path.str}")
  pure s

/-- The files that are looked for when none is named, in order. -/
def fileNames : List Path := ["msgspec.yaml".toList, "msgspec.yml".toList]

/-- The file that the settings come from: the named one, else the one the environment names, else
the first of the usual ones that is there. -/
def file? (env : Environment) (files : FileTree) (named : Option Path) : Option Path :=
  named.or <| (env.get? "MSGSPEC_CONFIG_PATH").or <| fileNames.find? files.pathExists

/-- Load the settings of a run. Without a file the standard settings take the overrides. -/
def load (env : Environment) (files : FileTree) (named : Option Path) :
    Logged SettingsError Settings :=
  match file? env files named with
  | some path => loadFile env files path
  | none => Logged.ofExcept (standard.finish env)

/-- Settings are taken exactly when all overrides can be read and no rule is broken. -/
theorem finish_eq_ok_iff {s t : Settings} {env : Environment} :
    s.finish env = .ok t ↔ s.override env = (t, .ok ()) ∧ t.problems = [] := by
  unfold finish
  rcases s.override env with ⟨u, _ | _⟩
  · simp
  · simp only
    split <;> simp_all
    · rintro rfl
      assumption
    · rintro rfl
      assumption

end Settings

end MessageCatalog
