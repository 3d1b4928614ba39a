import Retouch.Command.Arguments
import Retouch.Config.Load
import Retouch.Files.Tree
import Retouch.Files.Fix

/-!
The commands, fix and check, as functions on a workspace. A command returns what it printed, what it
said in its log, the workspace it leaves, and whether all is well.
-/

namespace Retouch.Command

structure Transcript where
  out : String := ""
  err : String := ""
  notices : List Notice := []

namespace Transcript

instance : Append Transcript :=
  ⟨fun a b => ⟨a.out ++ b.out, a.err ++ b.err, a.notices ++ b.notices⟩⟩

def line (s : String) : Transcript := { out := s ++ "\n" }

def errorLine (s : String) : Transcript := { err := s ++ "\n" }

def said (notices : List Notice) : Transcript := { notices := notices }

end Transcript

open Transcript

/-- An error as the messages from the outermost cause to the innermost. -/
abbrev Complaint := List String

/-! ### Fixing -/

/-- How many files were fixed, were clean, or failed. -/
structure Tally where
  fixed : Nat := 0
  clean : Nat := 0
  failed : Nat := 0
  deriving DecidableEq, Repr

def Tally.count (t : Tally) : Outcome → Tally
  | .nothingToFix => { t with clean := t.clean + 1 }
  | .converged _ => { t with fixed := t.fixed + 1 }
  | .failed _ => { t with failed := t.failed + 1 }

def fileLines (colours dryRun : Bool) (r : FileReport) : Transcript :=
  let about := " " ++ r.path.display ++ ": "
  let main : Transcript := match r.outcome with
    | .nothingToFix => line (Paint.words colours .yellow "⊙" ++ about ++ "clean")
    | .converged passes =>
      line (Paint.words colours .green "✓" ++ about ++ (if dryRun then "Would fix" else "Fixed") ++
        " " ++ toString (r.fixable - r.remaining) ++ " violations in " ++ toString passes ++ " " ++
        Outcome.passNoun passes)
    | .failed passes =>
      errorLine (Paint.words colours .red "✗" ++ about ++ "failed to fix after " ++
        toString passes ++ " passes, " ++ toString r.remaining ++ " violations remain")
  match r.diff with
  | none => main
  | some diff => main ++ line (String.ofList diff)

/-- Fix files in order up to the first that cannot be worked on; `tool` says what compares texts in
a workspace. -/
def fixAll (tool : Workspace → Diff.Tool) (config : Config) (o : FixOptions) (colours : Bool) :
    List Path → Tally → Workspace → Transcript × Workspace × Except Complaint Tally
  | [], tally, w => ({}, w, .ok tally)
  | p :: rest, tally, w =>
    match w.fixFileBy (tool w) config o colours p with
    | (.error e, after, notices) =>
      (said notices, after, .error (("fixing " ++ p.display) :: e.chain))
    | (.ok report, after, notices) =>
      let (more, last, result) :=
        fixAll tool config o colours rest (tally.count report.outcome) after
      (said notices ++ fileLines colours (!o.write) report ++ more, last, result)

def summary (colours : Bool) (t : Tally) : Transcript :=
  line "" ++ line (Paint.words colours .bold "Summary:") ++
    line ("  " ++ Paint.words colours .green (toString t.fixed) ++ " fixed") ++
    line ("  " ++ Paint.words colours .yellow (toString t.clean) ++ " clean") ++
    line ("  " ++ Paint.words colours .red (toString t.failed) ++ " failed")

/-- Fix the files that the paths stand for; all is well if none failed. -/
def fix (tool : Workspace → Diff.Tool) (config : Config) (o : FixOptions) (colours : Bool)
    (paths : List Path) (w : Workspace) : Transcript × Workspace × Except Complaint Bool :=
  let files := w.collect config.extensions paths
  let banner : Transcript :=
    if o.write then {}
    else line (Paint.words colours .cyan "[DRY RUN - no files will be written]")
  match fixAll tool config o colours files {} w with
  | (printed, after, .error e) => (banner ++ printed, after, .error e)
  | (printed, after, .ok tally) =>
    (banner ++ printed ++ summary colours tally, after, .ok (tally.failed == 0))

/-! ### Checking -/

def reportLine (colours : Bool) (p : Path) (r : Report) : Transcript :=
  line (p.display ++ ":" ++ toString r.violation.line ++ ": " ++
    Paint.words colours .dimmed ("[" ++ r.code ++ "]") ++ " " ++ r.violation.message)

/-- Check files in order up to the first that cannot be worked on; count the violations. -/
def checkAll (config : Config) (colours : Bool) (w : Workspace) :
    List Path → Nat → Transcript × Except Complaint Nat
  | [], total => ({}, .ok total)
  | p :: rest, total =>
    match w.checkFile config p with
    | .error e => ({}, .error e.chain)
    | .ok reports =>
      let printed := reports.foldl (fun t r => t ++ reportLine colours p r) {}
      let (more, result) := checkAll config colours w rest (total + reports.length)
      (printed ++ more, result)

/-- Check the files that the paths stand for; all is well if there is no violation. -/
def check (config : Config) (colours : Bool) (paths : List Path) (w : Workspace) :
    Transcript × Except Complaint Bool :=
  let files := w.collect config.extensions paths
  match checkAll config colours w files 0 with
  | (printed, .error e) => (printed, .error e)
  | (printed, .ok total) =>
    let verdict :=
      if total == 0 then Paint.words colours .green "No fixable violations found"
      else Paint.words colours .red (toString total) ++ " fixable violations in " ++
        toString files.length ++ " files"
    (printed ++ line "" ++ line verdict, .ok (total == 0))

/-! ### The program -/

def threshold (g : Globals) : Level :=
  if g.quiet then .error else if 2 ≤ g.verbose then .debug else if g.verbose = 1 then .info
  else .warn

structure Finished where
  out : String
  err : String
  log : List Notice
  workspace : Workspace
  exit : Nat

inductive Answer where
  | done (f : Finished)
  | version (text : String)
  /-- Help was asked for, or the command line makes no sense. -/
  | advice (out err : String) (exit : Nat)

def versionText : String := "token-fixer 0.1.0\n"

def complain (colours : Bool) (c : Complaint) : Transcript :=
  errorLine (Paint.words colours .boldRed "error:" ++ " " ++ ": ".intercalate c)

/-- Output, workspace and exit code of a command whose settings are known. -/
def execute (i : Invocation) (config : Config) (colours : Bool) (w : Workspace) :
    Transcript × Workspace × Nat :=
  let colours := colours && !(i.verb == .fix && i.noColor)
  let (printed, after, result) : Transcript × Workspace × Except Complaint Bool :=
    match i.verb with
    | .fix =>
      fix Workspace.tool config { write := !i.dryRun, diff := i.diff, paint := !i.noColor } colours
        i.paths w
    | .check =>
      let (printed, result) := check config colours i.paths w
      (printed, w, result)
  match result with
  | .ok true => (printed, after, 0)
  | .ok false => (printed, after, 1)
  | .error e => (printed ++ complain colours e, after, 2)

/-- Find the settings of a command, then carry it out. -/
def start (i : Invocation) (colours : Bool) (w : Workspace) : Transcript × Workspace × Nat :=
  match Config.resolve w i.globals.config w.cwdPath with
  | .error e => (complain colours e.chain, w, 2)
  | .ok (config, source, notices) =>
    let found : List Notice := match source with
      | .discovered p => [.usingConfig p]
      | _ => []
    let (printed, after, exit) := execute i config colours w
    (said (notices ++ found) ++ printed, after, exit)

/-- Answer a command line; `colours` says whether painted text shows colours. -/
def run (words : List Text) (colours : Bool) (w : Workspace) : Answer :=
  match parse words with
  | .error (.help topic) => .advice (topic.manual.render colours) "" 0
  | .error (.misuse m) => .advice "" (m.text.render colours) 2
  | .error .version => .version versionText
  | .ok i =>
    let (printed, after, exit) := start i colours w
    .done {
      out := printed.out
      err := printed.err
      log := printed.notices.filter fun n => n.level.atLeast (threshold i.globals)
      workspace := after
      exit := exit }

end Retouch.Command
