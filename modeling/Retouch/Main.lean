import Retouch.Command

/-!
The command-line program. It takes a snapshot of the files that a command can reach, runs the
command on it, and then writes the changed files and everything that was printed.
-/

namespace Retouch.Command

def placeName (place : Place) : String := "/" ++ "/".intercalate (place.map String.ofList)

/-- The places that a path passes through on its way from `here`. -/
def stops (here : Place) : List Path.Component → List Place
  | [] => []
  | .root :: rest => stops [] rest
  | .current :: rest => here :: stops here rest
  | .parent :: rest => here.dropLast :: stops here.dropLast rest
  | .name n :: rest => (here ++ [n]) :: stops (here ++ [n]) rest

/-- What is at a place, without what is below it; nothing where it cannot be read. -/
def glance (place : Place) : IO FileTree := do
  try
    let here ← IO.FS.realPath (placeName place)
    if ← here.isDir then return ⟨[], [place]⟩
    else return ⟨[(place, ← IO.FS.readBinFile here)], []⟩
  catch _ => return ⟨[], []⟩

/-- What is at a place and below it. -/
partial def scan (place : Place) : IO FileTree := do
  let top ← glance place
  if top.directories.isEmpty then return top
  else
    let here ← IO.FS.realPath (placeName place)
    let entries ← here.readDir
    entries.foldlM (fun tree e => return tree.union (← scan (place ++ [e.fileName.toList]))) top

/-- What the given paths pass through on their way from the working directory. -/
def glanceAll (cwd : Place) (paths : List Path) : IO FileTree :=
  (paths.flatMap fun p => stops cwd p.components).foldlM
    (fun tree place => return FileTree.union tree (← glance place)) ⟨[], [cwd]⟩

/-- The paths at which the settings of a command may be. -/
def settingsPaths (cwd : Place) (i : Invocation) : List Path :=
  match i.globals.config with
  | some p => [p]
  | none => (⟨⟨[], []⟩, cwd⟩ : Workspace).cwdPath.ancestors.map fun p => p.join Config.fileName

/-- The path of the program that the settings name, if the settings can be read. -/
def programPaths (w : Workspace) (i : Invocation) : List Path :=
  match Config.resolve w i.globals.config w.cwdPath with
  | .ok (config, _) => [.ofString config.command]
  | .error _ => []

/-- The files that a command can reach from the working directory. -/
def snapshot (cwd : Place) (i : Invocation) : IO Workspace := do
  let seen ← glanceAll cwd (settingsPaths cwd i ++ i.paths)
  let programs ← glanceAll cwd (programPaths ⟨seen, cwd⟩ i)
  let targets := i.paths.filterMap fun p => (cwd :: stops cwd p.components).getLast?
  let tree ← targets.foldlM (fun tree place => return FileTree.union tree (← scan place))
    (seen.union programs)
  return ⟨tree.union .system, cwd⟩

def writeChanges (old new : FileTree) : IO Unit :=
  new.files.forM fun f =>
    if old.bytes? f.1 == some f.2 then pure () else IO.FS.writeBinFile (placeName f.1) f.2

/-- Colours are on if they are forced, or if the output is a terminal and nothing forbids them. -/
def coloursWanted : IO Bool := do
  let chosen (value : Option String) : Bool := value.any (· != "0")
  if chosen (← IO.getEnv "CLICOLOR_FORCE") then return true
  else if (← IO.getEnv "NO_COLOR").isSome then return false
  else return (← IO.getEnv "CLICOLOR").all (· != "0") && (← (← IO.getStdout).isTty)

def deliver (before : FileTree) (f : Finished) : IO UInt32 := do
  writeChanges before f.workspace.tree
  f.log.forM fun n => IO.eprintln n.line
  IO.print f.out
  IO.eprint f.err
  return f.exit.toUInt32

def answer (words : List Text) (cwd : Place) : IO UInt32 := do
  let colours ← coloursWanted
  let w ← match parse words with
    | .ok i => snapshot cwd i
    | .error _ => pure ⟨.system, cwd⟩
  match run words colours w with
  | .advice out err exit =>
    IO.print out
    IO.eprint err
    return exit.toUInt32
  | .version text =>
    IO.print text
    return 0
  | .done f => deliver w.tree f

end Retouch.Command

open Retouch in
def main (args : List String) : IO UInt32 := do
  let cwd ← IO.currentDir
  let place := (Text.splitAt '/' cwd.toString.toList).filter (!·.isEmpty)
  Command.answer (args.map String.toList) place
