import Retouch.Rule

/-!
The fixer config: settings of a run, the built-in values they have when nothing else is said, and
what can be wrong with them.
-/

namespace Retouch

inductive Terminator where
  | lf
  | crlf
  | cr
  deriving DecidableEq, Repr

namespace Terminator

def text : Terminator → Text
  | lf => ['\n']
  | crlf => ['\r', '\n']
  | cr => ['\r']

def ofName? (name : String) : Option Terminator :=
  if name = "lf" then some lf else if name = "crlf" then some crlf
  else if name = "cr" then some cr else none

end Terminator

/-- The fixer config. -/
structure Config where
  maxPasses : Nat := Session.passLimit
  /-- The terminator of inserted lines; by default the one the text uses. -/
  terminator : Option Terminator := none
  command : String := "diff"
  /-- Extensions of the files taken from directories; none means every file. -/
  extensions : List String := []
  tabWidth : Nat := 4
  /-- The rules to run; by default all. -/
  enabled : Option (List String) := none
  deriving DecidableEq, Repr

namespace Config

def enables (c : Config) (code : String) : Bool :=
  match c.enabled with
  | none => true
  | some codes => codes.contains code

def rules (c : Config) : List Rule := (Rule.all c.tabWidth).filter fun r => c.enables r.code

end Config

/-! ### Validation -/

/-- A problem with settings that are well-formed and still make no sense. -/
inductive Issue where
  | missingField (field : String)
  | outOfRange (field : String) (bound : String)
  | unknownRule (code : String)
  | badExtension (value : String)
  deriving DecidableEq, Repr

namespace Issue

def message : Issue → String
  | missingField field => "missing required field '" ++ field ++ "'"
  | outOfRange field bound => "'" ++ field ++ "' out of range: " ++ bound
  | unknownRule code =>
    "unknown sniff '" ++ code ++ "' (known: " ++ ", ".intercalate Rule.codes ++ ")"
  | badExtension value => "invalid file extension '" ++ value ++ "' (omit the leading dot)"

def subject : Issue → String
  | missingField field => field
  | outOfRange field _ => field
  | unknownRule code => code
  | badExtension value => value

def messages (issues : List Issue) : String := "\n".intercalate (issues.map message)

end Issue

namespace Config

def isExtension (value : String) : Bool :=
  !Text.isSpaceOnly value.toList && value.toList.head? != some '.'

/-- Validate settings: all problems with them, in a fixed order. -/
def issues (c : Config) : List Issue :=
  (if c.maxPasses == 0 || Session.passLimit < c.maxPasses then
    [.outOfRange "fixer.max_passes"
      ("must be between 1 and " ++ toString Session.passLimit ++ ", got " ++ toString c.maxPasses)]
  else []) ++
  (if Text.isSpaceOnly c.command.toList then [.missingField "diff.command"] else []) ++
  (if c.tabWidth == 0 then [.outOfRange "sniffs.tab_width" "must be at least 1"] else []) ++
  ((c.enabled.getD []).filter (fun code => !Rule.codes.contains code)).map .unknownRule ++
  (c.extensions.filter (fun value => !isExtension value)).map .badExtension

end Config

end Retouch
