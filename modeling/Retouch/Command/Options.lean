import Retouch.Text

/-!
The commands and options of the program: what they are called, which of them are known where, and
what help says about each.
-/

namespace Retouch.Command

inductive Verb where
  | fix
  | check
  deriving DecidableEq, Repr

/-- What a command line can be about: the program as a whole, or one of its commands. -/
inductive Topic where
  | program
  | verb (v : Verb)
  | help
  deriving DecidableEq, Repr

inductive Flag where
  | config
  | verbose
  | quiet
  | dryRun
  | diff
  | noColor
  | help
  | version
  deriving DecidableEq, Repr

/-- Something that is given to the program or to a command. -/
inductive Item where
  | flag (f : Flag)
  | paths
  deriving DecidableEq, Repr

namespace Flag

def long : Flag → String
  | config => "config"
  | verbose => "verbose"
  | quiet => "quiet"
  | dryRun => "dry-run"
  | diff => "diff"
  | noColor => "no-color"
  | help => "help"
  | version => "version"

def letter? : Flag → Option Char
  | config => some 'c'
  | verbose => some 'v'
  | quiet => some 'q'
  | dryRun => some 'n'
  | diff => some 'd'
  | noColor => none
  | help => some 'h'
  | version => some 'V'

/-- What follows the name where the option is shown: a value, or a sign that it may be repeated. -/
def tail : Flag → String
  | config => " <CONFIG>"
  | verbose => "..."
  | _ => ""

def about : Flag → String
  | config => "Path to a token-fixer.toml config file"
  | verbose => "More log output (-v info, -vv debug)"
  | quiet => "Only log errors"
  | dryRun => "Dry run - show what would be changed without modifying files"
  | diff => "Show unified diff of changes"
  | noColor => "Do not colorize the diff"
  | help => "Print help"
  | version => "Print version"

end Flag

def Item.label : Item → String
  | flag f => "--" ++ f.long ++ f.tail
  | paths => "<PATHS>..."

namespace Topic

def name : Topic → String
  | program => "token-fixer"
  | verb .fix => "fix"
  | verb .check => "check"
  | help => "help"

def call : Topic → String
  | program => program.name
  | t => program.name ++ " " ++ t.name

def about : Topic → String
  | program => "Find and automatically fix whitespace violations in text files"
  | verb .fix => "Fix violations in place"
  | verb .check => "Report violations without changing files"
  | help => "Print this message or the help of the given subcommand(s)"

def commands : Topic → List Topic
  | program => [verb .fix, verb .check, help]
  | _ => []

def command? (t : Topic) (word : Text) : Option Topic :=
  t.commands.find? fun c => c.name.toList == word

/-- The options that are known: a command's own ones and then those that hold everywhere. -/
def flags : Topic → List Flag
  | program => [.config, .verbose, .quiet, .help, .version]
  | verb .fix => [.dryRun, .diff, .noColor, .config, .verbose, .quiet, .help]
  | verb .check => [.config, .verbose, .quiet, .help]
  | help => []

/-- The options in the order in which help lists them: a command's own ones take turns with those
that hold everywhere. -/
def listedFlags : Topic → List Flag
  | verb .fix => [.config, .dryRun, .diff, .verbose, .noColor, .quiet, .help]
  | t => t.flags

def takesPaths : Topic → Bool
  | verb _ => true
  | _ => false

def long? (t : Topic) (name : Text) : Option Flag := t.flags.find? fun f => f.long.toList == name

def letter? (t : Topic) (c : Char) : Option Flag := t.flags.find? fun f => f.letter? == some c

end Topic

end Retouch.Command
