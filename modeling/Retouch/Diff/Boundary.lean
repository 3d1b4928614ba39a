import Retouch.Text

/-!
Moving runs of changed lines. A run may slide over lines equal to the one it gives up at its other
end, without changing what the comparison says. It is slid back and forth to merge with the runs
it meets, then left as far down as it goes, or where it last stood beside a change of the other
side.
-/

namespace Retouch.Diff

/-- The flag at an index; lines outside are unchanged. -/
def flag (flags : Array Bool) (i : Nat) : Bool := flags.getD i false

def flagBefore (flags : Array Bool) (i : Nat) : Bool := i != 0 && flag flags (i - 1)

/-- A run of changed lines from `start` to `stop`, and the line of the other side beside its end. -/
structure Slide where
  flags : Array Bool
  start : Nat
  stop : Nat
  beside : Nat

/-- The first index from `i` on that is not flagged. -/
def skipFlagged (flags : Array Bool) : Nat → Nat → Nat
  | 0, i => i
  | fuel + 1, i => if flag flags i then skipFlagged flags fuel (i + 1) else i

/-- The start of the flagged run that ends right before `i`. -/
def runStart (flags : Array Bool) : Nat → Nat → Nat
  | 0, i => i
  | fuel + 1, i => if flagBefore flags i then runStart flags fuel (i - 1) else i

/-- One step back on the other side: to the nearest line before that is unchanged. -/
def stepBack (other : Array Bool) (j : Nat) : Nat := runStart other (other.size + 1) j - 1

/-- Slide a run up while the line above it equals its last line. -/
def slideBack (lines : Array Text) (other : Array Bool) : Nat → Slide → Slide
  | 0, s => s
  | fuel + 1, s =>
    if s.start != 0 && lines[s.start - 1]? == lines[s.stop - 1]? then
      let flags := (s.flags.setIfInBounds (s.start - 1) true).setIfInBounds (s.stop - 1) false
      slideBack lines other fuel
        { flags := flags
          start := runStart flags (flags.size + 1) (s.start - 1)
          stop := s.stop - 1
          beside := stepBack other s.beside }
    else s

/-- Slide a run down while the line below it equals its first line. `mark` is where the run last
ended beside a change of the other side. -/
def slideOn (lines : Array Text) (other : Array Bool) : Nat → Slide → Nat → Slide × Nat
  | 0, s, mark => (s, mark)
  | fuel + 1, s, mark =>
    if s.stop != lines.size && lines[s.start]? == lines[s.stop]? then
      let flags := (s.flags.setIfInBounds s.start false).setIfInBounds s.stop true
      let stop := skipFlagged flags (flags.size + 1) (s.stop + 1)
      let beside := skipFlagged other (other.size + 1) (s.beside + 1)
      let mark := if beside != s.beside + 1 then stop else mark
      slideOn lines other fuel { flags := flags, start := s.start + 1, stop, beside } mark
    else (s, mark)

def merge (lines : Array Text) (other : Array Bool) : Nat → Slide → Slide × Nat
  | 0, s => (s, lines.size)
  | fuel + 1, s =>
    let back := slideBack lines other (lines.size + 1) s
    let mark := if flagBefore other back.beside then back.stop else lines.size
    let (on, mark) := slideOn lines other (lines.size + 1) back mark
    if on.stop - on.start == s.stop - s.start then (on, mark) else merge lines other fuel on

/-- Slide a merged run up until it ends at `mark`. -/
def slideTo (other : Array Bool) (mark : Nat) : Nat → Slide → Slide
  | 0, s => s
  | fuel + 1, s =>
    if mark < s.stop then
      slideTo other mark fuel
        { flags := (s.flags.setIfInBounds (s.start - 1) true).setIfInBounds (s.stop - 1) false
          start := s.start - 1
          stop := s.stop - 1
          beside := stepBack other s.beside }
    else s

/-- Go on past unchanged lines to the next run, keeping step on the other side. -/
def nextRun (flags other : Array Bool) (count : Nat) : Nat → Nat → Nat → Nat × Nat
  | 0, i, j => (i, j)
  | fuel + 1, i, j =>
    if i < count && !flag flags i then
      nextRun flags other count fuel (i + 1) (skipFlagged other (other.size + 1) j + 1)
    else (i, j)

/-- Move every run of one side, from line `i` on; `j` is the line of the other side beside it. -/
def moveFrom (lines : Array Text) (other : Array Bool) : Nat → Array Bool → Nat → Nat → Array Bool
  | 0, flags, _, _ => flags
  | fuel + 1, flags, i, j =>
    let (start, j) := nextRun flags other lines.size (lines.size + 1) i j
    if start == lines.size then flags
    else
      let s : Slide :=
        { flags := flags
          start := start
          stop := skipFlagged flags (flags.size + 1) (start + 1)
          beside := skipFlagged other (other.size + 1) j }
      let (merged, mark) := merge lines other (lines.size + 1) s
      let settled := slideTo other mark (lines.size + 1) merged
      moveFrom lines other fuel settled.flags settled.stop settled.beside

def moved (lines : Array Text) (flags other : Array Bool) : Array Bool :=
  moveFrom lines other (lines.size + 1) flags 0 0

end Retouch.Diff
