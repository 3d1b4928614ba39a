import Retouch.Diff.Tool
import Retouch.Files.Tree

/-!
The programs of a file system: which one a command starts, and the part of a file tree that every
system has. A command with a slash in it is a path; any other is a name among the known programs.
-/

namespace Retouch

namespace Diff.Program

def named : List (Text × Program) :=
  [("diff".toList, .compare), ("true".toList, .silent 0), ("false".toList, .silent 1),
    ("test".toList, .silent 2)]

def directories : List Place := [["bin".toList], ["usr".toList, "bin".toList]]

def places : List (Place × Program) :=
  directories.flatMap fun place => named.map fun e => (place ++ [e.1], e.2)

end Diff.Program

namespace FileTree

def systemDirectories : List Place :=
  ["dev", "etc", "home", "opt", "proc", "root", "sys", "tmp", "usr", "var"].map fun name =>
    [name.toList]

def programBytes : ByteArray := ⟨#[0x7f, 0x45, 0x4c, 0x46, 0xff]⟩

/-- What every system has: the known programs, and an empty file that stays empty. -/
def system : FileTree where
  files :=
    (["dev".toList, "null".toList], ByteArray.empty) ::
      Diff.Program.places.map fun e => (e.1, programBytes)
  directories := systemDirectories

def union (a b : FileTree) : FileTree := ⟨a.files ++ b.files, a.directories ++ b.directories⟩

end FileTree

namespace Workspace

open Diff (Program)

def programAt (w : Workspace) (p : Path) : Except Fault Program := do
  match Program.places.lookup (← w.locate p) with
  | some program => .ok program
  | none => .error .denied

/-- The program of a name. The names of directories lead to no program. -/
def programNamed (name : Text) : Except Fault Program :=
  if name == ['.'] || name == ['.', '.'] then .error .denied
  else if nameLimit < Text.byteCount name then .error .nameTooLong
  else
    match Program.named.lookup name with
    | some program => .ok program
    | none => .error .missing

def program (w : Workspace) (command : String) : Except Fault Program :=
  if command.toList.contains '/' then w.programAt (.ofString command)
  else programNamed command.toList

end Workspace

end Retouch
