/-!
How a run of passes over one text ended, the fix outcome, and the words it is reported in.
-/

namespace Retouch

/-- The end of a run. -/
inductive Outcome where
  /-- There was nothing to fix, so no pass ran. -/
  | nothingToFix
  /-- The last of so many passes changed nothing and met no conflict. -/
  | converged (passes : Nat)
  | failed (passes : Nat)
  deriving DecidableEq, Repr

namespace Outcome

def passes : Outcome → Nat
  | nothingToFix => 0
  | converged n => n
  | failed n => n

def isConverged : Outcome → Bool
  | converged _ => true
  | _ => false

def isFailure : Outcome → Bool
  | failed _ => true
  | _ => false

def passNoun (n : Nat) : String := if n = 1 then "pass" else "passes"

def message : Outcome → String
  | nothingToFix => "nothing to fix"
  | converged n => "fixed in " ++ toString n ++ " " ++ passNoun n
  | failed n => "failed to converge after " ++ toString n ++ " " ++ passNoun n

end Outcome

end Retouch
