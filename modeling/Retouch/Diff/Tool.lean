import Retouch.Diff.Unified
import Retouch.Files.Tree
import Retouch.Paint
import Retouch.Session

/-!
Unified diffs from a diff command of the user's choice. A program that exits with status 0 or 1 has
done its work, and what it printed is the diff; a session generates one of its original text and its
contents.
-/

namespace Retouch

structure DiffOptions where
  command : String := "diff"
  oldLabel : String := "original"
  newLabel : String := "fixed"
  deriving DecidableEq, Repr

def DiffOptions.forFile (o : DiffOptions) (name : String) : DiffOptions :=
  { o with oldLabel := name, newLabel := name ++ " (fixed)" }

/-- Why there is no comparison. The texts are handed over as values, so that there is no error of a
temporary file; what a program that failed says on its error channel is left to it. -/
inductive DiffError where
  | notStarted (command : String) (cause : Fault)
  | failed (command : String) (status : Nat)
  deriving DecidableEq, Repr

namespace DiffError

/-- The error in words, up to where the program's own ones begin. -/
def message : DiffError → String
  | notStarted command cause =>
    "Failed to run diff command `" ++ command ++ "`: " ++ cause.message
  | failed command status =>
    "Diff command `" ++ command ++ "` exited with status " ++ toString status ++ ": "

/-- The messages to add after a message that ends in this error: itself and its cause. Nothing
follows what a failed program said. -/
def causes : DiffError → List String
  | notStarted command cause => [message (notStarted command cause), cause.message]
  | failed .. => []

end DiffError

namespace Diff

/-- What compares two texts: it has a comparison, or a reason why there is none. -/
abbrev Tool := DiffOptions → Text → Text → Except DiffError Text

/-- A program that can be asked to compare two texts. -/
inductive Program where
  /-- Compares texts line by line. -/
  | compare
  /-- Says nothing and exits with a fixed status. -/
  | silent (status : Nat)
  deriving DecidableEq, Repr

/-- A zero character stands among the first `n` bytes of the text. -/
def zeroWithin (n : Nat) : Text → Bool
  | [] => false
  | c :: rest => n != 0 && (c == '\x00' || zeroWithin (n - c.utf8Size) rest)

def sampleSize : Nat := 4096

def isBinary (t : Text) : Bool := zeroWithin sampleSize t

def binaryNote (o : DiffOptions) : Text :=
  ("Binary files " ++ o.oldLabel ++ " and " ++ o.newLabel ++ " differ\n").toList

def Program.run (p : Program) (o : DiffOptions) (old new : Text) : Nat × Text :=
  match p with
  | silent status => (status, [])
  | compare =>
    if old == new then (0, [])
    else if isBinary old || isBinary new then (1, binaryNote o)
    else (1, unified o.oldLabel o.newLabel old new)

/-- The words of the command line hold a zero character, which no command line can. -/
def isUnspeakable (o : DiffOptions) : Bool :=
  [o.command, o.oldLabel, o.newLabel].any fun word => word.toList.contains '\x00'

/-- The unified diff of two texts by the chosen program; `find` says which program a command
starts. -/
def run (find : String → Except Fault Program) : Tool := fun o old new =>
  if isUnspeakable o then .error (.notStarted o.command .zeroInWord)
  else
    match find o.command with
    | .error cause => .error (.notStarted o.command cause)
    | .ok program =>
      let (status, output) := program.run o old new
      if status ≤ 1 then .ok output else .error (.failed o.command status)

end Diff

namespace Session

/-- Generate a diff of the text a session was opened on and what it holds now; `paint` asks for
painted lines, which show colours where these are on. -/
def diffBy (s : Session) (tool : Diff.Tool) (o : DiffOptions) (paint colours : Bool) :
    Except DiffError Text :=
  (tool o s.initial s.contents).map fun t => if paint then Paint.diff colours t else t

def diff (s : Session) (find : String → Except Fault Diff.Program) (o : DiffOptions)
    (paint colours : Bool) : Except DiffError Text :=
  s.diffBy (Diff.run find) o paint colours

end Session

end Retouch
