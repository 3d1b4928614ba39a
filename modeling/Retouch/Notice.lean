import Retouch.Outcome
import Retouch.Path

/-!
The log: what a run has to say about itself while it works, and where it has its settings from. A
notice is a value; its severity and its wording are decided here and nowhere else.
-/

namespace Retouch

/-- The place that settings were taken from. -/
inductive ConfigSource where
  /-- No file: the built-in settings. -/
  | defaults
  | explicit (path : Path)
  /-- The nearest file above the working directory. -/
  | discovered (path : Path)
  deriving DecidableEq, Repr

namespace ConfigSource

def path? : ConfigSource → Option Path
  | defaults => none
  | explicit p => some p
  | discovered p => some p

def describe : ConfigSource → String
  | defaults => "Defaults"
  | explicit p => "Explicit(" ++ Text.Quoted.quote p.text ++ ")"
  | discovered p => "Discovered(" ++ Text.Quoted.quote p.text ++ ")"

end ConfigSource

/-- Severity of a notice, mildest first. -/
inductive Level where
  | trace
  | debug
  | info
  | warn
  | error
  deriving DecidableEq, Repr

namespace Level

def label : Level → String
  | trace => "TRACE"
  | debug => "DEBUG"
  | info => "INFO"
  | warn => "WARN"
  | error => "ERROR"

def rank : Level → Nat
  | trace => 0
  | debug => 1
  | info => 2
  | warn => 3
  | error => 4

def atLeast (level threshold : Level) : Bool := threshold.rank ≤ level.rank

end Level

/-- One thing that happened. `source` names who asked for the edit. -/
inductive Notice where
  | rejected (source : String) (pos : Nat)
  | buffered (source : String) (pos : Nat) (content : Text)
  | outOfRange (source : String) (pos count : Nat)
  | alreadyModified (source : String) (pos : Nat)
  /-- The edit would bring back what the fix of the named pass replaced. -/
  | conflict (source : String) (pos : Nat) (content : Text) (fixedIn : Nat)
  | replaced (source : String) (pos : Nat) (before after : Text)
  | reverted (source : String) (pos : Nat) (before : Text)
  | batchStarted (source : String)
  | batchNested (source : String)
  | batchMissing (source : String)
  | batchDiscarded (source : String)
  | batchCommitted (source : String) (changes : Nat)
  | batchUndone (source : String)
  | batchRolledBack (source : String)
  | batchLostOnLoad
  | batchLostAtStart
  | nothingToFix
  | batchLeftOpen (pass : Nat)
  | progress (fixes fixable pass : Nat)
  | nextPass (fixes : Nat) (inConflict : Bool) (pass : Nat)
  | gaveUp (passes fixes : Nat)
  | violation (code : String) (row : Nat) (words : String)
  | configSource (source : ConfigSource)
  | usingConfig (path : Path)
  | fileDone (path : Path) (outcome : Outcome)
  deriving DecidableEq, Repr

namespace Notice

def level : Notice → Level
  | rejected .. => .debug
  | buffered .. => .trace
  | outOfRange .. => .warn
  | alreadyModified .. => .debug
  | conflict .. => .debug
  | replaced .. => .debug
  | reverted .. => .debug
  | batchStarted _ => .debug
  | batchNested _ => .warn
  | batchMissing _ => .warn
  | batchDiscarded _ => .debug
  | batchCommitted .. => .debug
  | batchUndone _ => .debug
  | batchRolledBack _ => .debug
  | batchLostOnLoad => .warn
  | batchLostAtStart => .warn
  | nothingToFix => .debug
  | batchLeftOpen _ => .warn
  | progress .. => .info
  | nextPass .. => .debug
  | gaveUp .. => .warn
  | violation .. => .trace
  | configSource _ => .debug
  | usingConfig _ => .info
  | fileDone .. => .info

def tag (source : String) : String := "[" ++ source ++ "] "

def tokenTag (source : String) (pos : Nat) : String :=
  tag source ++ "token " ++ toString pos ++ ": "

open Text.Quoted (quote) in
def message : Notice → String
  | rejected source pos => tokenTag source pos ++ "rejected, conflict active this pass"
  | buffered source pos content => tokenTag source pos ++ "buffered " ++ quote content
  | outOfRange source pos count =>
    tokenTag source pos ++ "out of range (" ++ toString count ++ " tokens)"
  | alreadyModified source pos => tokenTag source pos ++ "already modified, skipping"
  | conflict source pos content fixedIn =>
    tokenTag source pos ++ "conflict, " ++ quote content ++ " would undo the fix from pass " ++
      toString fixedIn
  | replaced source pos before after =>
    tokenTag source pos ++ quote before ++ " => " ++ quote after
  | reverted source pos before => tokenTag source pos ++ "reverted to " ++ quote before
  | batchStarted source => tag source ++ "changeset started"
  | batchNested source =>
    tag source ++ "changeset already open, nested changesets are not supported"
  | batchMissing source => tag source ++ "end_changeset called without an open changeset"
  | batchDiscarded source => tag source ++ "changeset discarded, conflict active this pass"
  | batchCommitted source changes =>
    tag source ++ "changeset ended: " ++ toString changes ++ " changes applied"
  | batchUndone source => tag source ++ "changeset failed to apply, rolled back"
  | batchRolledBack source => tag source ++ "changeset rolled back"
  | batchLostOnLoad => "discarding open changeset on token reload"
  | batchLostAtStart => "discarding open changeset at session start"
  | nothingToFix => "nothing to fix"
  | batchLeftOpen pass =>
    "pass " ++ toString pass ++ ": a sniff left a changeset open, rolling it back"
  | progress fixes fixable pass =>
    "fixing file: " ++ toString fixes ++ "/" ++ toString fixable ++
      " violations remaining [made " ++ toString pass ++ " " ++ Outcome.passNoun pass ++ "]"
  | nextPass fixes inConflict pass =>
    "fixed " ++ toString fixes ++ " violations" ++ (if inConflict then " (conflict)" else "") ++
      ", starting pass " ++ toString pass
  | gaveUp passes fixes =>
    "failed to fix file after " ++ toString passes ++ " passes, " ++ toString fixes ++
      " fixes still pending"
  | violation code row words => tag code ++ "line " ++ toString row ++ ": " ++ words
  | configSource source => "config source: " ++ source.describe
  | usingConfig path => "using config " ++ path.display
  | fileDone path outcome => path.display ++ ": " ++ outcome.message

def line (n : Notice) : String := n.level.label ++ " " ++ n.message

end Notice

end Retouch
