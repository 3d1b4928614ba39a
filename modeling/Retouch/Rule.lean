import Retouch.Segment
import Retouch.Script

/-!
The four whitespace rules, which settings call sniffs: what each of them reports about a token list,
and how it mends a report.
-/

namespace Retouch

structure Violation where
  pos : Nat
  line : Nat
  message : String
  deriving DecidableEq, Repr

def Violation.on (tokens : List Text) (pos : Nat) (message : String) : Violation :=
  ⟨pos, Text.lineOf tokens pos, message⟩

namespace Rule

/-! ### Trailing blanks

No line ends in blanks. The fix empties the blank token.
-/

namespace TrailingBlanks

/-- The positions of the runs of blanks with a line terminator or nothing after them; `pos` is the
position of the first token given. -/
def badFrom (pos : Nat) : List Text → List Nat
  | [] => []
  | token :: rest =>
    if Text.isBlankRun token && rest.head?.all Text.isNewline then pos :: badFrom (pos + 1) rest
    else badFrom (pos + 1) rest

def check (tokens : List Text) : List Violation :=
  (badFrom 0 tokens).map fun pos => .on tokens pos "Whitespace found at end of line"

def fix (source : String) (pos : Nat) : Script Unit :=
  .requestAll source [.replace pos []]

end TrailingBlanks

/-! ### Tabs

Lines are indented with spaces. The fix widens every tab of the indentation to the next tab stop.
-/

namespace TabIndent

/-- The token at `pos` is a run of blanks that opens a line and holds a tab. -/
def isBad (tokens : List Text) (token : Text) (pos : Nat) : Bool :=
  token.contains '\t' && Text.isBlankRun token && Text.opensLine tokens pos

def check (tokens : List Text) : List Violation :=
  (tokens.zipIdx.filter fun (token, pos) => isBad tokens token pos).map fun (_, pos) =>
    .on tokens pos "Spaces must be used to indent lines; tabs are not allowed"

/-- Widen tabs to stops every `width` columns, starting from column `column`. A column is one byte
of the encoded text. -/
def widen (width : Nat) (column : Nat) : Text → Text
  | [] => []
  | c :: rest =>
    if c == '\t' then
      let pad := width - column % width
      Text.spaces pad ++ widen width (column + pad) rest
    else c :: widen width (column + c.utf8Size) rest

/-- The text with its tabs widened; stops are at least one column apart. -/
def expand (tabWidth : Nat) (t : Text) : Text := widen (max tabWidth 1) 0 t

def fix (tabWidth : Nat) (source : String) (tokens : List Text) (pos : Nat) : Script Unit :=
  match tokens[pos]? with
  | none => .done ()
  | some indent => .requestAll source [.replace pos (expand tabWidth indent)]

end TabIndent

/-! ### The final terminator

A text that is not empty ends in exactly one line terminator. The fix adds the missing one, or
empties all but the first of the final run.
-/

namespace FinalNewline

def finalRun (tokens : List Text) : Nat := (tokens.reverse.takeWhile Text.isNewline).length

def message (found : Nat) : String :=
  "Expected 1 newline at end of file; " ++ toString found ++ " found"

def check (tokens : List Text) : List Violation :=
  let run := finalRun tokens
  if tokens.isEmpty || run == 1 then []
  else if run == 0 then [.on tokens (tokens.length - 1) (message 0)]
  else [.on tokens (tokens.length - run) (message run)]

def fix (source : String) (tokens : List Text) (pos : Nat) : Script Unit :=
  let run := finalRun tokens
  if run == 0 then .requestAll source [.appendNewline pos]
  else .clearAll source (List.range' (tokens.length - run + 1) (run - 1))

end FinalNewline

/-! ### Blank lines

No run of more than two line terminators stands before further text. The fix empties all terminators
of the run from the third one on.
-/

namespace BlankLines

/-- The runs of more than two terminators that a further token ends, as start and end positions.
`pos` is the position of the first token given and `run` counts the terminators right before it. -/
def runsFrom (pos run : Nat) : List Text → List (Nat × Nat)
  | [] => []
  | token :: rest =>
    if Text.isNewline token then runsFrom (pos + 1) (run + 1) rest
    else (if 2 < run then [(pos - run, pos)] else []) ++ runsFrom (pos + 1) 0 rest

def runs (tokens : List Text) : List (Nat × Nat) := runsFrom 0 0 tokens

def check (tokens : List Text) : List Violation :=
  (runs tokens).map fun (start, stop) =>
    .on tokens (start + 2)
      ("Expected at most 1 empty line; found " ++ toString (stop - start - 1))

def fix (source : String) (tokens : List Text) (pos : Nat) : Script Unit :=
  .clearAll source (List.range' pos ((tokens.drop pos).takeWhile Text.isNewline).length)

end BlankLines

end Rule

/-! ### All rules -/

/-- A whitespace rule, in settings a sniff. -/
inductive Rule where
  | trailingBlanks
  /-- Tab stops are `width` columns apart. -/
  | tabIndent (width : Nat)
  | finalNewline
  | blankLines
  deriving DecidableEq, Repr

namespace Rule

def code : Rule → String
  | trailingBlanks => "whitespace.trailing"
  | tabIndent _ => "whitespace.tab_indent"
  | finalNewline => "whitespace.eof_newline"
  | blankLines => "whitespace.blank_lines"

/-- All built-in rules, in the order in which they run. -/
def all (tabWidth : Nat) : List Rule := [trailingBlanks, tabIndent tabWidth, finalNewline, blankLines]

def codes : List String := (all 1).map code

def check : Rule → List Text → List Violation
  | trailingBlanks => TrailingBlanks.check
  | tabIndent _ => TabIndent.check
  | finalNewline => FinalNewline.check
  | blankLines => BlankLines.check

/-- Mend the tokens at a reported position, in the name of the rule. -/
def fix (rule : Rule) (tokens : List Text) (pos : Nat) : Script Unit :=
  match rule with
  | trailingBlanks => TrailingBlanks.fix rule.code pos
  | tabIndent width => TabIndent.fix width rule.code tokens pos
  | finalNewline => FinalNewline.fix rule.code tokens pos
  | blankLines => BlankLines.fix rule.code tokens pos

end Rule

end Retouch
