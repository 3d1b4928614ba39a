import Retouch.Files.Programs
import Retouch.Linter

/-!
Running over a file: checking a path and fixing a path. A file is written only if that was asked
for, its text changed, and nothing went wrong before.
-/

namespace Retouch

/-- Why a file could not be worked on. A file in a tree can always be written again and a directory
in it always be walked, so that there is no error of writing and none of walking. -/
inductive FileError where
  | unreadable (path : Path) (cause : Fault)
  | notText (path : Path)
  | noDiff (path : Path) (cause : DiffError)
  deriving DecidableEq, Repr

namespace FileError

def message : FileError → String
  | unreadable path cause => "Failed to read " ++ path.display ++ ": " ++ cause.message
  | notText path => path.display ++ " is not valid UTF-8"
  | noDiff path cause => "Diff failed for " ++ path.display ++ ": " ++ cause.message

/-- The message, then the messages of the causes behind it. -/
def chain : FileError → List String
  | unreadable path cause => [message (unreadable path cause), cause.message]
  | notText path => [message (notText path)]
  | noDiff path cause => message (noDiff path cause) :: cause.causes

end FileError

def Config.diffOptions (c : Config) : DiffOptions := { command := c.command }

structure FixOptions where
  write : Bool := false
  diff : Bool := false
  paint : Bool := false
  deriving DecidableEq, Repr

structure FileReport where
  path : Path
  outcome : Outcome
  /-- Violations before. -/
  fixable : Nat
  /-- Violations left. -/
  remaining : Nat
  changed : Bool
  written : Bool
  diff : Option Text
  deriving DecidableEq, Repr

namespace Workspace

def source (w : Workspace) (p : Path) : Except FileError Text :=
  match w.readText p with
  | .ok t => .ok t
  | .error .notText => .error (.notText p)
  | .error cause => .error (.unreadable p cause)

/-- Check a path: the violations of its file. -/
def checkFile (w : Workspace) (config : Config) (p : Path) : Except FileError (List Report) :=
  (w.source p).map fun t => (Linter.ofText t config).check

def tool (w : Workspace) : Diff.Tool := Diff.run w.program

/-- The comparison that the options ask for, if the text changed. -/
def comparison (tool : Diff.Tool) (config : Config) (o : FixOptions) (colours : Bool) (p : Path)
    (s : Session) (changed : Bool) : Except FileError (Option Text) :=
  if o.diff && changed then
    match s.diffBy tool (config.diffOptions.forFile p.display) o.paint colours with
    | .ok t => .ok (some t)
    | .error cause => .error (.noDiff p cause)
  else .ok none

/-- Fix a path. Besides the report, or the reason why there is none, the result is the workspace
afterwards and what was said; `tool` compares texts where the options ask for it, and `colours` says
whether painted text shows colours. -/
def fixFileBy (tool : Diff.Tool) (w : Workspace) (config : Config) (o : FixOptions) (colours : Bool)
    (p : Path) : Except FileError FileReport × Workspace × List Notice :=
  match w.source p with
  | .error e => (.error e, w, [])
  | .ok text =>
    let run := Linter.fixText text config
    let fixed := run.session.contents
    let changed := fixed != text
    let notices := run.notices ++ [.fileDone p run.outcome]
    match comparison tool config o colours p run.session changed with
    | .error e => (.error e, w, notices)
    | .ok diff =>
      let written := o.write && changed
      let report : FileReport :=
        { path := p
          outcome := run.outcome
          fixable := (Linter.ofText text config).check.length
          remaining := (Linter.ofText fixed config).check.length
          changed := changed
          written := written
          diff := diff }
      (.ok report, if written then w.writeText p fixed else w, notices)

def fixFile (w : Workspace) (config : Config) (o : FixOptions) (colours : Bool) (p : Path) :
    Except FileError FileReport × Workspace × List Notice :=
  fixFileBy w.tool w config o colours p

end Workspace

end Retouch
