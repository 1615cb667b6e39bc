import ContentTypes.Arguments
import ContentTypes.Config.Sources
import ContentTypes.Destination
import ContentTypes.Log.Filter
/-!
One run of the program, as a function of the file system, the environment and the arguments. A
run that fails before it writes leaves the file system as it was; once it writes, it attempts
every destination, and only then is the outcome decided.
-/

namespace ContentTypes

/-- What a run leaves behind. -/
structure Outcome where
  fileSystem : FileSystem
  exitCode : Nat
  /-- What is printed. -/
  output : String := ""
  /-- Why there was nothing to print. -/
  error : Option String := none
  events : List Log.Event := []

namespace Command

def succeeded : Nat := 0

def failed : Nat := 1

def misused : Nat := 2

def aborted : Nat := 101

def decimal (n : Nat) : String :=
  String.ofList (Nat.toDigits 10 n)

def summary (g : Generated) : String :=
  decimal g.declarations.length ++ " declarations (" ++ decimal (g.count .entity) ++ " entities, "
    ++ decimal (g.count .component) ++ " components), " ++ decimal g.skipped ++ " skipped\n"

def destinations (s : Settings) : List Destination :=
  ⟨"backend", s.backendOut⟩ :: if s.frontend then [⟨"frontend", s.frontendOut⟩] else []

def unknownTarget (target : String) : Log.Event :=
  { level := .warn, topic := .run, message := "ignoring unknown target `" ++ target ++ "`" }

def loadedFile (path : Path) : Log.Event :=
  { level := .debug, topic := .configuration, message := "loaded config"
    fields := [("path", path.display)] }

def skippedUnit (d : Diagnostic) : Log.Event :=
  { level := .debug, topic := .run, message := "skipped " ++ d.text }

/-- Whether the run fails for what it skipped. -/
def refuses (a : Arguments) (g : Generated) : Bool :=
  a.strict && 0 < g.skipped

def refusal (g : Generated) : Log.Event :=
  { level := .error, topic := .run
    message := decimal g.skipped ++ " schema(s) skipped in strict mode" }

/-- Writes what was generated, and decides the outcome. -/
def finish (fs : FileSystem) (a : Arguments) (s : Settings) (g : Generated)
    (events : List Log.Event) : Outcome :=
  let (fs', attempts) := Destination.writeAll fs s.fileName g.text (destinations s)
  let written := attempts.all (!·.failed)
  { fileSystem := fs'
    exitCode := if written && !refuses a g then succeeded else failed
    output := summary g
    events := events ++ g.diagnostics.map skippedUnit ++ attempts.map (·.event)
      ++ if written && refuses a g then [refusal g] else [] }

/-- The root of the project: the one that is named, or the working directory. -/
def root (fs : FileSystem) (a : Arguments) : Except OsError Path :=
  match a.root with
  | some path => .ok path
  | none => fs.workingPath

def run (fs : FileSystem) (env : Environment) (a : Arguments) : Outcome :=
  let warnings := a.unknownTargets.map unknownTarget
  match root fs a with
  | .error e =>
    { fileSystem := fs, exitCode := failed, error := some e.message, events := warnings }
  | .ok root =>
    let loading := Config.load fs env root a.config
    let events := warnings ++ loading.files.map loadedFile
    match loading.config with
    | .error e => { fileSystem := fs, exitCode := failed, error := some e.message, events }
    | .ok config =>
      let settings := (config.merge a.overrides).settings root
      match generate fs settings.schemas settings.onCollision settings.layout with
      | .error e => { fileSystem := fs, exitCode := failed, error := some e.message, events }
      | .ok g => finish fs a settings g events

def versionText : String := "strapi-types 0.2.0\n"

def helpText : String :=
  "Generate TypeScript declarations from Strapi content-type schemas\n\n"
    ++ "Usage: strapi-types [OPTIONS] [TOKENS]...\n\nOptions:\n"
    ++ String.join (Arguments.OptionName.all.map fun o => "      " ++ o.text ++ "\n")
    ++ String.join (Arguments.FlagName.all.map fun f => "      " ++ f.text ++ "\n")

/-- A run from the words of the command line; only the events that the filter admits are left.
Without a filter a run does not even start. -/
def execute (fs : FileSystem) (env : Environment) (words : List String) : Outcome :=
  match Log.Filter.ofSetting? env.filter with
  | none => { fileSystem := fs, exitCode := aborted }
  | some filter =>
    match Arguments.parse words with
    | .error .version => { fileSystem := fs, exitCode := succeeded, output := versionText }
    | .error .help => { fileSystem := fs, exitCode := succeeded, output := helpText }
    | .error (.defect d) => { fileSystem := fs, exitCode := misused, error := some d.message }
    | .ok a =>
      let outcome := run fs env a
      { outcome with events := outcome.events.filter filter.admits }

end Command
end ContentTypes
