import Retouch.Config.Decode
import Retouch.Files.Tree
import Retouch.Notice

/-!
Loading a config from a text: it must be a TOML document, hold the known settings and nothing else,
and make sense. The first of these that fails is the error. To resolve the config of a run is to
take the file that was asked for explicitly, else the one discovered nearest to a directory, in it
or above it, else the built-in settings.
-/

namespace Retouch

/-- How far a text got on the way to settings. -/
inductive TomlStage where
  /-- It is no TOML document. -/
  | grammar
  /-- It is one, and holds something other than the settings. -/
  | shape
  deriving DecidableEq, Repr

/-- Why there are no settings. `path` is the file they were to come from, if it was a file. -/
inductive ConfigError where
  | unreadable (path : Path) (cause : Fault)
  | malformed (path : Option Path) (stage : TomlStage)
  | invalid (path : Option Path) (issues : List Issue)
  deriving DecidableEq, Repr

namespace ConfigError

def located : Option Path → String
  | none => ""
  | some p => " (" ++ p.display ++ ")"

/-- The error in words; why a document is malformed is left to its reader. -/
def message : ConfigError → String
  | unreadable path cause =>
    "failed to read fixer config from " ++ path.display ++ ": " ++ cause.message
  | malformed path _ => "failed to parse fixer config" ++ located path ++ ": "
  | invalid path issues => "invalid fixer config" ++ located path ++ ": " ++ Issue.messages issues

/-- The message, then the messages of the causes behind it. -/
def chain : ConfigError → List String
  | unreadable path cause => [message (unreadable path cause), cause.message]
  | malformed path stage => [message (malformed path stage)]
  | invalid path issues => [message (invalid path issues), Issue.messages issues]

end ConfigError

namespace Config

def load (path : Option Path) (t : Text) : Except ConfigError Config :=
  match Toml.document? t with
  | none => .error (.malformed path .grammar)
  | some entries =>
    match ofEntries? entries with
    | none => .error (.malformed path .shape)
    | some config =>
      match config.issues with
      | [] => .ok config
      | issues => .error (.invalid path issues)

/-! ### Finding a settings file -/

def fileName : Path := .ofString "token-fixer.toml"

/-- The settings file nearest to a directory. -/
def discover (w : Workspace) (start : Path) : Option Path :=
  (start.ancestors.map fun p => p.join fileName).find? w.isFile

def loadFile (w : Workspace) (p : Path) : Except ConfigError Config :=
  match w.readText p with
  | .error cause => .error (.unreadable p cause)
  | .ok t => load (some p) t

def sourceOf (w : Workspace) (explicit : Option Path) (cwd : Path) : ConfigSource :=
  match explicit with
  | some p => .explicit p
  | none =>
    match discover w cwd with
    | some p => .discovered p
    | none => .defaults

/-- The settings of a run in directory `cwd`, and where they come from. -/
def resolve (w : Workspace) (explicit : Option Path) (cwd : Path) :
    Except ConfigError (Config × ConfigSource × List Notice) := do
  let source := sourceOf w explicit cwd
  let config ← match source.path? with
    | some p => loadFile w p
    | none => .ok {}
  .ok (config, source, [.configSource source])

end Config

end Retouch
