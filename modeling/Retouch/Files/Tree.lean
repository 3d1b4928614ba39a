import Retouch.Path

/-!
A file tree: directories and files below a root, each known by the names that lead to it. Every
directory on the way to a listed place is there, too. The files of a command line are collected: a
directory stands for the files below it that have one of the extensions, anything else for itself.
-/

namespace Retouch

inductive Fault where
  | missing
  | directory
  | notDirectory
  | notText
  /-- What is there is not to be used in this way. -/
  | denied
  | nameTooLong
  /-- No path holds a zero character. -/
  | zeroInPath
  /-- No word of a command line holds a zero character. -/
  | zeroInWord
  deriving DecidableEq, Repr

def Fault.message : Fault → String
  | missing => "No such file or directory (os error 2)"
  | directory => "Is a directory (os error 21)"
  | notDirectory => "Not a directory (os error 20)"
  | notText => "stream did not contain valid UTF-8"
  | denied => "Permission denied (os error 13)"
  | nameTooLong => "File name too long (os error 36)"
  | zeroInPath => "file name contained an unexpected NUL byte"
  | zeroInWord => "nul byte found in provided data"

/-- The names from the root down to a place. -/
abbrev Place := List Text

/-- Files with their bytes, and directories. -/
structure FileTree where
  files : List (Place × ByteArray)
  directories : List Place

inductive Entry where
  | file (bytes : ByteArray)
  | directory

namespace FileTree

def bytes? (t : FileTree) (place : Place) : Option ByteArray := t.files.lookup place

/-- A directory stands at the place: it is the root, is listed, or leads to something listed. -/
def isDirectory (t : FileTree) (place : Place) : Bool :=
  place.isEmpty || t.directories.any (place.isPrefixOf ·) ||
    t.files.any fun f => place.isPrefixOf f.1 && place.length < f.1.length

def entry? (t : FileTree) (place : Place) : Option Entry :=
  match t.bytes? place with
  | some bytes => some (.file bytes)
  | none => if t.isDirectory place then some .directory else none

def write (t : FileTree) (place : Place) (bytes : ByteArray) : FileTree :=
  { t with files := t.files.map fun f => if f.1 == place then (place, bytes) else f }

/-- The files at any depth below a directory, by the names that lead there from it. What is listed
under something that is no name is in no directory. -/
def filesBelow (t : FileTree) (place : Place) : List Place :=
  t.files.filterMap fun f =>
    if place.isPrefixOf f.1 && place.length < f.1.length &&
        (f.1.drop place.length).all (Path.IsName ·) then
      some (f.1.drop place.length)
    else none

end FileTree

/-- A file tree that holds the whole file system, and the working directory. -/
structure Workspace where
  tree : FileTree
  cwd : Place

namespace Workspace

/-- The longest name, in bytes. -/
def nameLimit : Nat := 255

/-- The longest path, in bytes. -/
def pathLimit : Nat := 4095

/-- One name further from a place that must be a directory. The root is its own parent. -/
def step (w : Workspace) (place : Place) (piece : Text) : Except Fault Place :=
  match w.tree.entry? place with
  | none => .error .missing
  | some (.file _) => .error .notDirectory
  | some .directory =>
    if piece.isEmpty || piece == ['.'] then .ok place
    else if piece == ['.', '.'] then .ok place.dropLast
    else if nameLimit < Text.byteCount piece then .error .nameTooLong
    else
      match w.tree.entry? (place ++ [piece]) with
      | none => .error .missing
      | some _ => .ok (place ++ [piece])

/-- The place that a path leads to, and something is there. -/
def locate (w : Workspace) (p : Path) : Except Fault Place :=
  if p.text.contains '\x00' then .error .zeroInPath
  else if p.text.isEmpty then .error .missing
  else if pathLimit < Text.byteCount p.text then .error .nameTooLong
  else (Text.splitAt '/' p.text).foldlM w.step (if p.isAbsolute then [] else w.cwd)

def entry (w : Workspace) (p : Path) : Except Fault (Place × Entry) := do
  let place ← w.locate p
  match w.tree.entry? place with
  | none => .error .missing
  | some e => .ok (place, e)

def isFile (w : Workspace) (p : Path) : Bool :=
  match w.entry p with
  | .ok (_, .file _) => true
  | _ => false

def isDirectory (w : Workspace) (p : Path) : Bool :=
  match w.entry p with
  | .ok (_, .directory) => true
  | _ => false

def read (w : Workspace) (p : Path) : Except Fault ByteArray := do
  match ← w.entry p with
  | (_, .file bytes) => .ok bytes
  | (_, .directory) => .error .directory

def readText (w : Workspace) (p : Path) : Except Fault Text := do
  let bytes ← w.read p
  match String.fromUTF8? bytes with
  | none => .error .notText
  | some s => .ok s.toList

def writeText (w : Workspace) (p : Path) (t : Text) : Workspace :=
  match w.locate p with
  | .error _ => w
  | .ok place => { w with tree := w.tree.write place (String.ofList t).toUTF8 }

def cwdPath (w : Workspace) : Path :=
  w.cwd.foldl (fun p name => p.join ⟨name⟩) ⟨['/']⟩

/-! ### From paths to the files to work on -/

/-- The file has one of the extensions; an empty list admits every file. -/
def admits (extensions : List String) (p : Path) : Bool :=
  extensions.isEmpty || p.extension.any fun e => extensions.contains (String.ofList e)

def below (p : Path) (names : Place) : Path := names.foldl (fun p name => p.join ⟨name⟩) p

def expand (w : Workspace) (extensions : List String) (p : Path) : List Path :=
  match w.entry p with
  | .ok (place, .directory) =>
    ((w.tree.filesBelow place).map (below p)).filter (admits extensions)
  | _ => [p]

/-- Of neighbours with the same components, keep the first. -/
def dedup : List Path → List Path
  | p :: q :: rest => if p.same q then dedup (p :: rest) else p :: dedup (q :: rest)
  | ps => ps
termination_by ps => ps.length

/-- Collect the files that the given paths stand for. -/
def collect (w : Workspace) (extensions : List String) (paths : List Path) : List Path :=
  dedup ((paths.flatMap (w.expand extensions)).mergeSort fun p q => p.compare q != .gt)

end Workspace

end Retouch
