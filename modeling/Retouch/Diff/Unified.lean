import Retouch.Diff.Boundary
import Retouch.Diff.Compare
import Retouch.Diff.Discard
import Retouch.Text

/-!
The comparison of two texts in unified form: changed lines with up to three unchanged lines around
them, in hunks that say which lines of either side they show.
-/

namespace Retouch.Diff

def context : Nat := 3

/-! ### Changed lines -/

def commonStart : List Text → List Text → Nat
  | a :: as, b :: bs => if a == b then commonStart as bs + 1 else 0
  | _, _ => 0

def unterminated (lines : List Text) : Bool := lines.getLast?.any fun line => line.getLast? != some '\n'

structure Flags where
  old : Array Bool
  new : Array Bool

def kept (discarded : List Bool) : List Nat :=
  (List.range discarded.length).filter fun i => !(discarded[i]?).getD false

/-- The discarded lines, and those of the others that are listed by their number among the kept. -/
def flagsOf (discarded : List Bool) (listed : List Nat) : Array Bool :=
  let real := (kept discarded).toArray
  listed.foldl (fun flags k => flags.setIfInBounds (real.getD k flags.size) true) discarded.toArray

/-- The changed lines of two sequences, their runs moved to where they read best. -/
def changedLines (old new : List Text) : Flags :=
  let oldOut := discards old new
  let newOut := discards new old
  let pick (lines : List Text) (out : List Bool) : Array Text :=
    ((kept out).filterMap fun i => lines[i]?).toArray
  let found := changes (pick old oldOut) (pick new newOut)
  let oldFlags := flagsOf oldOut found.removed
  let newFlags := flagsOf newOut found.added
  let oldMoved := moved old.toArray oldFlags newFlags
  ⟨oldMoved, moved new.toArray newFlags oldMoved⟩

/-! ### Changes -/

structure Change where
  oldAt : Nat
  newAt : Nat
  removed : Nat
  added : Nat
  deriving DecidableEq, Repr

def Change.oldEnd (c : Change) : Nat := c.oldAt + c.removed

def Change.newEnd (c : Change) : Nat := c.newAt + c.added

/-- The changes that the flags describe, from the given lines on. -/
def changesFrom (f : Flags) : Nat → Nat → Nat → List Change
  | 0, _, _ => []
  | fuel + 1, i, j =>
    if f.old.size ≤ i && f.new.size ≤ j then []
    else if flag f.old i || flag f.new j then
      let i' := skipFlagged f.old (f.old.size + 1) i
      let j' := skipFlagged f.new (f.new.size + 1) j
      ⟨i, j, i' - i, j' - j⟩ :: changesFrom f fuel i' j'
    else changesFrom f fuel (i + 1) (j + 1)

/-- The changes from one list of lines to another. Equal lines at either end are left out of the
search, except for as many as are shown around a change. -/
def changeList (old new : List Text) : List Change :=
  let ahead := commonStart old new - context
  let old' := old.drop ahead
  let new' := new.drop ahead
  let behind :=
    if unterminated old == unterminated new then
      commonStart old'.reverse new'.reverse - context
    else 0
  let old' := old'.take (old'.length - behind)
  let new' := new'.take (new'.length - behind)
  let flags := changedLines old' new'
  (changesFrom flags (old'.length + new'.length + 1) 0 0).map fun c =>
    { c with oldAt := c.oldAt + ahead, newAt := c.newAt + ahead }

/-- Changes so near to each other that the lines around them touch, together. -/
def hunks : List Change → List (List Change)
  | [] => []
  | c :: rest =>
    match hunks rest with
    | (next :: more) :: others =>
      if next.oldAt - c.oldEnd ≤ 2 * context then (c :: next :: more) :: others
      else [c] :: (next :: more) :: others
    | others => [c] :: others

/-! ### Text -/

/-- Lines `first` up to `stop`, which is excluded, as first line and count. -/
def rangeText (first stop : Nat) : String :=
  if stop ≤ first then toString stop ++ ",0"
  else if stop == first + 1 then toString stop
  else toString (first + 1) ++ "," ++ toString (stop - first)

/-- A line after its mark; a missing line feed at the end of the text is pointed out. -/
def markedLine (mark : Char) (line : Text) : Text :=
  if line.getLast? == some '\n' then mark :: line
  else mark :: line ++ "\n\\ No newline at end of file\n".toList

def markedLines (mark : Char) (lines : Array Text) (first stop : Nat) : Text :=
  (List.range' first (stop - first)).flatMap fun i => markedLine mark (lines.getD i [])

/-- The changes of a hunk from old line `pos` on, with the unchanged lines between them and those
up to line `last` at the end. -/
def body (old new : Array Text) (last : Nat) : Nat → List Change → Text
  | pos, [] => markedLines ' ' old pos last
  | pos, c :: rest =>
    markedLines ' ' old pos c.oldAt ++ markedLines '-' old c.oldAt c.oldEnd ++
      markedLines '+' new c.newAt c.newEnd ++ body old new last c.oldEnd rest

def hunkText (old new : Array Text) (hunk : List Change) : Text :=
  match hunk.head?, hunk.getLast? with
  | some first, some last =>
    let oldFirst := first.oldAt - context
    let newFirst := first.newAt - context
    let oldStop := min (last.oldEnd + context) old.size
    let newStop := min (last.newEnd + context) new.size
    ("@@ -" ++ rangeText oldFirst oldStop ++ " +" ++ rangeText newFirst newStop ++ " @@\n").toList ++
      body old new oldStop oldFirst hunk
  | _, _ => []

/-- The comparison of two texts under the given labels; nothing if they are equal. -/
def unified (oldLabel newLabel : String) (old new : Text) : Text :=
  let oldLines := Text.fullLines old
  let newLines := Text.fullLines new
  match hunks (changeList oldLines newLines) with
  | [] => []
  | hs =>
    ("--- " ++ oldLabel ++ "\n+++ " ++ newLabel ++ "\n").toList ++
      hs.flatMap (hunkText oldLines.toArray newLines.toArray)

end Retouch.Diff
