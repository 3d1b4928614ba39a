import Retouch.Text

/-!
Lines to leave out of a comparison before it starts. A line that the other side does not have at
all is sure to have changed. A line that the other side has very often says little; it is left out
too where it stands among lines of the first kind.
-/

namespace Retouch.Diff

/-- What is to become of a line. -/
inductive Fate where
  | keep
  /-- The other side has no such line. -/
  | drop
  /-- The other side has too many such lines. -/
  | doubtful
  deriving DecidableEq, Repr

/-- Twice per quartering of `n`: a rough square root, times `start`. -/
def doubled (start : Nat) (n : Nat) : Nat :=
  if h : n / 4 = 0 then start else doubled (2 * start) (n / 4)
termination_by n
decreasing_by omega

/-- From how many occurrences on the other side a line of `count` lines is doubtful. -/
def manyIn (count : Nat) : Nat := doubled 5 (count / 64)

/-- First view of each line, by its number of occurrences on the other side. -/
def firstFates (lines other : List Text) : List Fate :=
  let many := manyIn lines.length
  lines.map fun line =>
    let found := other.count line
    if found = 0 then .drop else if many < found then .doubtful else .keep

/-- Keep the doubtful lines before the first line that is sure. -/
def keepLeading : List Fate → List Fate
  | .doubtful :: rest => .keep :: keepLeading rest
  | rest => rest

/-- Keep runs of `least` or more doubtful lines; `run` counts those right before the given ones. -/
def keepLongRuns (least : Nat) (run : Nat) : List Fate → List Fate
  | [] => List.replicate run (if least ≤ run then .keep else .doubtful)
  | .doubtful :: rest => keepLongRuns least (run + 1) rest
  | fate :: rest =>
    List.replicate run (if least ≤ run then .keep else .doubtful) ++
      fate :: keepLongRuns least 0 rest

/-- Keep doubtful lines near an end: up to three sure lines in a row, or the first sure line from
the ninth on. `seen` counts the lines passed and `sure` the sure lines right before. -/
def keepNear (seen sure : Nat) : List Fate → List Fate
  | [] => []
  | .drop :: rest =>
    if 8 ≤ seen || sure = 2 then .drop :: rest else .drop :: keepNear (seen + 1) (sure + 1) rest
  | _ :: rest => .keep :: keepNear (seen + 1) 0 rest

/-- Settle a run of lines without kept ones that starts and ends with a sure line. -/
def settleCore (run : List Fate) : List Fate :=
  let doubts := run.count .doubtful
  if run.length < doubts * 4 then run.map fun f => if f = .doubtful then .keep else f
  else
    let least := doubled 1 (run.length / 4) + 1
    let once := keepNear 0 0 (keepLongRuns least 0 run)
    (keepNear 0 0 once.reverse).reverse

def settleRun (run : List Fate) : List Fate :=
  let front := keepLeading run
  let leading := front.takeWhile (· = .keep)
  let trailing := (keepLeading (front.drop leading.length).reverse).reverse
  let core := (trailing.reverse.dropWhile (· = .keep)).reverse
  leading ++ settleCore core ++ trailing.drop core.length

/-- Settle every run; `run` holds, in reverse, the lines since the last kept one. -/
def settle (run : List Fate) : List Fate → List Fate
  | [] => settleRun run.reverse
  | .keep :: rest => settleRun run.reverse ++ .keep :: settle [] rest
  | fate :: rest => settle (fate :: run) rest

/-- For each line, whether it is left out of the comparison with the other side. -/
def discards (lines other : List Text) : List Bool :=
  (settle [] (firstFates lines other)).map (· ≠ .keep)

end Retouch.Diff
