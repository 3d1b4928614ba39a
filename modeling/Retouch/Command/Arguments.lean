import Retouch.Command.Misuse
import Retouch.Path
import Retouch.Text.Similarity

/-!
The command line. The program reads its own options up to the name of a command, and the command
reads the rest. Settings that hold for every command may stand before or after its name, and where
both are given, the later ones count.

The name of the settings file and the paths are held back until the next option comes or the words
end. Only then is looked whether they are right, so that an option that is not known, a value that
is not wanted, and whatever the command itself finds wrong or is asked for come first.
-/

namespace Retouch.Command

structure Globals where
  config : Option Path := none
  verbose : Nat := 0
  quiet : Bool := false
  deriving DecidableEq, Repr

/-- The later settings, with the earlier ones where nothing later was said. -/
def Globals.over (later earlier : Globals) : Globals where
  config := later.config.or earlier.config
  verbose := if later.verbose = 0 then earlier.verbose else later.verbose
  quiet := later.quiet || earlier.quiet

structure Invocation where
  verb : Verb
  globals : Globals
  paths : List Path
  dryRun : Bool
  diff : Bool
  noColor : Bool
  deriving DecidableEq, Repr

inductive Halt where
  | help (topic : Topic)
  | version
  | misuse (m : Misuse)
  deriving DecidableEq, Repr

/-- What was read and is not yet accepted. -/
inductive Waiting where
  | nothing
  /-- The option that names the settings file, with the name if it was read. -/
  | config (value : Option Text)
  | paths (words : List Text)
  deriving DecidableEq, Repr

/-- What was read so far of the arguments of the program or of a command. -/
structure Draft where
  topic : Topic
  /-- What was accepted; an option that counts up is moved to the end each time. -/
  given : List Item := []
  waiting : Waiting := .nothing
  config : Option Path := none
  verbose : Nat := 0
  paths : List Path := []
  deriving DecidableEq, Repr

namespace Draft

def has (d : Draft) (f : Flag) : Bool := d.given.contains (.flag f)

def give (d : Draft) (i : Item) : Draft :=
  if d.given.contains i then d else { d with given := d.given ++ [i] }

def withdraw (d : Draft) (i : Item) : Draft := { d with given := d.given.erase i }

def refuse (d : Draft) (cause : Cause) : Halt := .misuse ⟨d.topic, cause⟩

/-- Name the settings file, once and not empty. A second name takes the first one back. -/
def nameConfig (d : Draft) (value : Text) : Draft × Option Cause :=
  if d.has .config then (d.withdraw (.flag .config), some (.repeated .config))
  else if value.isEmpty then (d.give (.flag .config), some (.noValue (.flag .config)))
  else ({ d.give (.flag .config) with config := some ⟨value⟩ }, none)

def addPaths (d : Draft) (words : List Text) : Draft × Option Cause :=
  if words.any List.isEmpty then (d.give .paths, some (.noValue .paths))
  else ({ d.give .paths with paths := d.paths ++ words.map Path.mk }, none)

/-- Accept what waits, or say what is wrong with it. -/
def settle (d : Draft) : Draft × Option Cause :=
  let rest := { d with waiting := .nothing }
  match d.waiting with
  | .nothing => (rest, none)
  | .config none => (rest, some (.noValue (.flag .config)))
  | .config (some value) => rest.nameConfig value
  | .paths words => rest.addPaths words

def accept : Draft × Option Cause → Except Halt Draft
  | (d, none) => .ok d
  | (d, some cause) => .error (d.refuse cause)

def settled (d : Draft) : Except Halt Draft := accept d.settle

/-- An option without a value; all but the verbose one may be given once. -/
def raise (d : Draft) (f : Flag) : Except Halt Draft := do
  let d ← d.settled
  match f with
  | .help => .error (.help d.topic)
  | .version => .error .version
  | .verbose => .ok { (d.withdraw (.flag f)).give (.flag f) with verbose := d.verbose + 1 }
  | _ => if d.has f then .error (d.refuse (.repeated f)) else .ok (d.give (.flag f))

/-- The option that names the settings file, with the name or with the name to come. -/
def openConfig (d : Draft) (value : Option Text) : Except Halt Draft := do
  let d ← d.settled
  match value with
  | some name => accept (d.nameConfig name)
  | none => .ok { d with waiting := .config none }

def addWord (d : Draft) (word : Text) : Except Halt Draft :=
  match d.waiting with
  | .paths words => .ok { d with waiting := .paths (words ++ [word]) }
  | _ => do
    let d ← d.settled
    .ok { d with waiting := .paths [word] }

def globals (d : Draft) : Globals where
  config := d.config
  verbose := d.verbose
  quiet := d.has .quiet

end Draft

/-! ### Options -/

/-- Letters after a single dash. A letter that takes a value takes the rest of the word. -/
def readLetters (d : Draft) : Text → Except Halt Draft
  | [] => .ok d
  | letter :: rest =>
    match d.topic.letter? letter with
    | none =>
      let hint : Hint := if d.topic.takesPaths then .path else .nothing
      .error (d.refuse (.unknownArgument ['-', letter] hint []))
    | some .config =>
      match rest with
      | [] => d.openConfig none
      | '=' :: value => d.openConfig (some value)
      | value => d.openConfig (some value)
    | some flag => do readLetters (← d.raise flag) rest

/-- An option of a command that is named among the words and has such an option; the command that
is named first comes first. -/
def flagBelow? (t : Topic) (name : Text) (words : List Text) : Option (Topic × Flag) :=
  words.findSome? fun word => do
    let command ← t.command? word
    let flag ← (Text.closest (fun f => f.long.toList) name command.flags).getLast?
    return (command, flag)

/-- What may have been meant by a name that is not known, where `words` follow. -/
def hintFor (t : Topic) (name : Text) (words : List Text) : Hint :=
  match (Text.closest (fun f => f.long.toList) name t.flags).getLast?, flagBelow? t name words with
  | some flag, _ => .flag flag
  | none, some (command, flag) => .flagOf command flag
  | none, none => if t.takesPaths then .path else .nothing

def unknownLong (d : Draft) (name : Text) (words : List Text) : Halt :=
  let d := d.settle.1
  let hint := hintFor d.topic name words
  let given := match hint with
    | .flag f => (d.give (.flag f)).given
    | _ => d.given
  d.refuse (.unknownArgument ('-' :: '-' :: name) hint given)

/-- A name after two dashes, with or without a value; `words` follow. -/
def readLong (d : Draft) (name : Text) (value : Option Text) (words : List Text) :
    Except Halt Draft :=
  match d.topic.long? name, value with
  | none, _ => .error (unknownLong d name words)
  | some .config, value => d.openConfig value
  | some flag, none => d.raise flag
  | some flag, some value =>
    let given := ((d.withdraw .paths).give (.flag flag)).given
    .error (d.refuse (.surplusValue value flag given))

/-! ### Words -/

inductive Shape where
  /-- Two dashes, which end the options. -/
  | dashes
  | long (name : Text) (value : Option Text)
  | letters (ls : Text)
  | plain
  deriving DecidableEq, Repr

/-- The shape of a word. A single dash is a plain word. -/
def shapeOf : Text → Shape
  | ['-', '-'] => .dashes
  | '-' :: '-' :: rest =>
    .long (rest.takeWhile (· != '=')) <|
      match rest.dropWhile (· != '=') with
      | [] => none
      | _ :: value => some value
  | '-' :: letter :: letters => .letters (letter :: letters)
  | _ => .plain

def readCommand (d : Draft) : List Text → Except Halt Draft
  | [] => .ok d
  | word :: rest =>
    match shapeOf word with
    | .dashes => rest.foldlM Draft.addWord d
    | .long name value => do readCommand (← readLong d name value rest) rest
    | .letters letters => do readCommand (← readLetters d letters) rest
    | .plain =>
      if d.waiting = .config none then readCommand { d with waiting := .config (some word) } rest
      else do readCommand (← d.addWord word) rest

/-- The end of a command: nothing waits, and there is at least one path. -/
def endCommand (d : Draft) : Except Halt Draft := do
  let d ← d.settled
  if d.paths.isEmpty then .error (d.refuse (.noPaths (d.give .paths).given)) else .ok d

/-- The words after the name of the help command: the names that lead to a command. -/
def readHelp (t : Topic) : List Text → Halt
  | [] => .help t
  | word :: rest =>
    match t.command? word with
    | some command => readHelp command rest
    | none => .misuse ⟨t, .unknownCommand word []⟩

def unknownWord (t : Topic) (word : Text) : Cause :=
  .unknownCommand word (Text.closest (fun c => c.name.toList) word t.commands)

/-- The program's own arguments, and the command with the words that follow its name. -/
def readProgram (d : Draft) : List Text → Except Halt (Draft × Option (Verb × List Text))
  | [] => .ok (d, none)
  | word :: rest =>
    match shapeOf word with
    | .dashes =>
      match rest with
      | [] => .ok (d, none)
      | next :: _ =>
        .error <| d.refuse <|
          match d.topic.command? next with
          | some command => .needlessDashes command
          | none => unknownWord d.topic next
    | .long name value => do readProgram (← readLong d name value rest) rest
    | .letters letters => do readProgram (← readLetters d letters) rest
    | .plain =>
      if d.waiting = .config none then readProgram { d with waiting := .config (some word) } rest
      else
        match d.topic.command? word with
        | some (.verb v) => .ok (d, some (v, rest))
        | some .help => .error (readHelp d.topic rest)
        | _ => .error (d.refuse (unknownWord d.topic word))

/-- The command that the words of a command line ask for. -/
def parse (words : List Text) : Except Halt Invocation := do
  match ← readProgram { topic := .program } words with
  | (outer, none) =>
    let outer ← outer.settled
    .error (outer.refuse (if outer.given.isEmpty then .nothingGiven else .noCommand))
  | (outer, some (verb, rest)) =>
    let inner ← endCommand (← readCommand { topic := .verb verb } rest)
    let outer ← outer.settled
    .ok {
      verb := verb
      globals := inner.globals.over outer.globals
      paths := inner.paths
      dryRun := inner.has .dryRun
      diff := inner.has .diff
      noColor := inner.has .noColor }

end Retouch.Command
