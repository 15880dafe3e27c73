import Mtop.ConfigEffect
import Mtop.Output.SnapshotMode
import Mtop.Ui.Popups

/-! The command line (`parse_args` and the start of `main`): the options, the settings that a program
starts with, and the settings file that it leaves. -/
namespace Mtop
open Cxx
set_option autoImplicit false

/-! ## Options -/

/-- All of `RuntimeOptions`. -/
structure CommandOptions extends RuntimeOptions, SettingOptions where
  help : Bool := false
  version : Bool := false
  debugInput : Bool := false
  configPath : Text := []
  debugLogPath : Text := []
  invalidViewProfile : Option Text := none

/-- The whole argument must be one number that is an `int`. -/
def parseIntArg (value : Text) : Option ℤ := parseInt value

/-- The arguments that stand alone. -/
def applyFlag (arg : Text) (options : CommandOptions) : Option CommandOptions :=
  if arg = str "--demo" then some { options with demo := true }
  else if arg = str "--help" ∨ arg = str "-h" then some { options with help := true }
  else if arg = str "--version" ∨ arg = str "-v" then some { options with version := true }
  else if arg = str "--debug-input" then some { options with debugInput := true }
  else if arg = str "--loop" then some { options with snapshotLoop := true }
  else if arg = str "--session" then some { options with session := true }
  else none

def isViewOption (arg : Text) : Bool := arg = str "-view" || arg = str "--view"

/-- A valid profile takes an earlier complaint back. -/
def applyView (value : Text) (options : CommandOptions) : CommandOptions :=
  match parseViewProfile value with
  | some profile => { options with viewProfile := some profile, invalidViewProfile := none }
  | none => { options with invalidViewProfile := some value }

/-- The arguments that take the next one as their value. -/
def applyValue (arg value : Text) (options : CommandOptions) : Option CommandOptions :=
  if arg = str "--debug-log" then some { options with debugLogPath := value }
  else if arg = str "--output" then some { options with outputPath := value }
  else if arg = str "--label" then some { options with sessionLabel := value }
  else if arg = str "--config" then some { options with configPath := value }
  else if isViewOption arg then some (applyView value options)
  else if arg = str "--snapshot" then some { options with snapshotFormat := value }
  else if arg = str "--refresh-ms" then some { options with refreshMs := parseIntArg value }
  else if arg = str "--interval-ms" then
    some { options with snapshotIntervalMs := parseIntArg value }
  else if arg = str "--count" then some { options with count := parseIntArg value }
  else if arg = str "--process-limit" then some { options with processLimit := parseIntArg value }
  else if arg = str "--theme" then some { options with theme := some value }
  else none

/-- The loop over `argv` behind the program's name; what is not known is passed over. -/
def parseArgsFrom : List Text → CommandOptions → CommandOptions
  | [], options => options
  | [arg], options =>
    match applyFlag arg options with
    | some options => options
    | none =>
      if isViewOption arg then { options with invalidViewProfile := some [] } else options
  | arg :: value :: args, options =>
    match applyFlag arg options with
    | some options => parseArgsFrom (value :: args) options
    | none =>
      match applyValue arg value options with
      | some options => parseArgsFrom args options
      | none => parseArgsFrom (value :: args) options

def parseArgs (args : List Text) : CommandOptions := parseArgsFrom args {}

/-! ## The start of the program -/

/-- What the file system says about paths: `config_default_path`, if there is a `HOME`, and the parent
of a path that has one. -/
structure PathEnv where
  defaultPath : Option Text
  parentOf : Text → Option Text

/-- One start of the program, and what the file system answers. -/
structure Invocation where
  args : List Text
  opensLoad : Bool := true
  outcomes : FileOutcomes := {}

abbrev Files : Type := Text → Option Text

inductive Launch where
  | printsHelp
  | printsVersion
  | refuses (exitCode : ℤ) (message : Text)
  | starts (options : CommandOptions) (config : AppConfig)

def PathEnv.configPath (env : PathEnv) (explicitPath : Text) : Option Text :=
  if explicitPath = [] then env.defaultPath else some explicitPath

/-- `load_config`; a path that is not there or cannot be read leaves the defaults. -/
def loadConfigAt (env : PathEnv) (files : Files) (invocation : Invocation) (explicitPath : Text) :
    AppConfig :=
  match env.configPath explicitPath with
  | none => loadConfig none
  | some path => loadConfig (if invocation.opensLoad then files path else none)

/-- `persist_view_profile` on the file of the path. -/
def persistAt (env : PathEnv) (files : Files) (outcomes : FileOutcomes) (explicitPath : Text)
    (profile : ViewProfile) : Persisted × Files :=
  match env.configPath explicitPath with
  | none => (persistViewProfile none none profile outcomes, files)
  | some path =>
    let persisted :=
      persistViewProfile (some ⟨path, env.parentOf path⟩) (files path) profile outcomes
    (persisted, Function.update files path persisted.file)

def invalidViewMessage (value : Text) : Text :=
  if value = [] then str "missing view profile after -view/--view (expected alpha or beta)\n"
  else str "invalid view profile: " ++ value ++ str " (expected alpha or beta)\n"

/-- `main` up to the sampler, and the files it leaves. -/
def launch (env : PathEnv) (files : Files) (invocation : Invocation) : Launch × Files :=
  let options := parseArgs invocation.args
  if options.help then (.printsHelp, files)
  else if options.version then (.printsVersion, files)
  else
    let config := loadConfigAt env files invocation options.configPath
    match options.invalidViewProfile with
    | some value => (.refuses 2 (invalidViewMessage value), files)
    | none =>
      match options.viewProfile with
      | none => (.starts options (options.toSettingOptions.apply config), files)
      | some profile =>
        match persistAt env files invocation.outcomes options.configPath profile with
        | (persisted, files) =>
          if persisted.ok then (.starts options (options.toSettingOptions.apply config), files)
          else
            (.refuses 1 (str "failed to persist view profile: " ++ persisted.error ++ ['\n']), files)

/-- One start after the other, on the files that the one before has left. -/
def launchAll (env : PathEnv) : List Invocation → Files → List Launch × Files
  | [], files => ([], files)
  | invocation :: invocations, files =>
    let (first, files) := launch env files invocation
    let (launches, files) := launchAll env invocations files
    (first :: launches, files)

example :
    let options := parseArgs [str "--view", str "nope", str "--refresh-ms", str "50x", str "-view",
      str " Beta", str "--demo"]
    (options.viewProfile, options.invalidViewProfile, options.refreshMs, options.demo) =
      (some .beta, none, none, true) := by
  decide +kernel

end Mtop
