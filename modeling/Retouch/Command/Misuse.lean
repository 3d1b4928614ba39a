import Retouch.Command.Help

/-!
What can be wrong with a command line, and what the program says about it: the cause, a tip where
there is one, how the command is called, and where help is to be had.
-/

namespace Retouch.Command

open Markup

inductive Hint where
  | nothing
  | flag (f : Flag)
  /-- An option of a command that is named later on. -/
  | flagOf (t : Topic) (f : Flag)
  | path
  deriving DecidableEq, Repr

/-- What is wrong. Where it matters what the command line held so far, the cause tells. -/
inductive Cause where
  | unknownArgument (word : Text) (hint : Hint) (given : List Item)
  | surplusValue (value : Text) (flag : Flag) (given : List Item)
  | repeated (flag : Flag)
  | noValue (item : Item)
  | noPaths (given : List Item)
  | unknownCommand (word : Text) (similar : List Topic)
  /-- A command after the two dashes that end the options. -/
  | needlessDashes (command : Topic)
  | noCommand
  | nothingGiven
  deriving DecidableEq, Repr

structure Misuse where
  topic : Topic
  cause : Cause
  deriving DecidableEq, Repr

def listed (ms : List Markup) : Markup := (ms.intersperse (plain ", ")).flatten

def tip (m : Markup) : Markup := plain "\n\n  " ++ valid "tip:" ++ plain " " ++ m

def Hint.tip (word : Text) : Hint → Markup
  | nothing => []
  | flag f => Command.tip (plain "a similar argument exists: " ++ quoted (valid ("--" ++ f.long)))
  | flagOf t f => Command.tip (quoted (valid (t.name ++ " --" ++ f.long)) ++ plain " exists")
  | path =>
    Command.tip (plain "to pass " ++ quoted (invalid (String.ofList word)) ++
      plain " as a value, use " ++ quoted (valid ("-- " ++ String.ofList word)))

namespace Cause

def message (topic : Topic) : Cause → Markup
  | unknownArgument word hint _ =>
    plain "unexpected argument " ++ quoted (invalid (String.ofList word)) ++ plain " found" ++
      hint.tip word
  | surplusValue value flag _ =>
    plain "unexpected value " ++ quoted (invalid (String.ofList value)) ++ plain " for " ++
      quoted (literal (Item.flag flag).label) ++ plain " found; no more were expected"
  | repeated flag =>
    plain "the argument " ++ quoted (invalid (Item.flag flag).label) ++
      plain " cannot be used multiple times"
  | noValue item =>
    plain "a value is required for " ++ quoted (invalid item.label) ++
      plain " but none was supplied"
  | noPaths _ =>
    plain "the following required arguments were not provided:\n  " ++ valid Item.paths.label
  | unknownCommand word similar =>
    plain "unrecognized subcommand " ++ quoted (invalid (String.ofList word)) ++
      (match similar with
        | [] => []
        | [t] => tip (plain "a similar subcommand exists: " ++ quoted (valid t.name))
        | ts => tip (plain "some similar subcommands exist: " ++
            listed (ts.map fun t => quoted (valid t.name))))
  | needlessDashes command =>
    plain "unexpected argument " ++ quoted (invalid command.name) ++ plain " found" ++
      tip (plain "subcommand " ++ quoted (valid command.name) ++
        plain " exists; to use it, remove the " ++ quoted (invalid "--") ++ plain " before it")
  | noCommand =>
    quoted (invalid topic.call) ++
      plain " requires a subcommand but one was not provided\n  [subcommands: " ++
      listed (topic.commands.map fun t => valid t.name) ++ plain "]"
  | nothingGiven => []

/-- The items that the line of usage shows, if there is such a line. -/
def shown? : Cause → Option (List Item)
  | unknownArgument _ _ given | surplusValue _ _ given | noPaths given => some given
  | noValue _ => none
  | _ => some []

end Cause

/-- What the program says. It answers with help where nothing was given. -/
def Misuse.text (m : Misuse) : Markup :=
  match m.cause with
  | .nothingGiven => m.topic.manual
  | cause =>
    alert "error:" ++ plain " " ++ cause.message m.topic ++
      (match cause.shown? with
        | some items => plain "\n\n" ++ m.topic.usage items
        | none => []) ++
      (if m.topic.flags.contains .help then
        plain "\n\nFor more information, try " ++ quoted (literal ("--" ++ Flag.help.long)) ++
          plain ".\n"
      else plain "\n")

end Retouch.Command
