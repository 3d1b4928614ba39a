import Retouch.Session

/-!
The helpers of a token editor: edits that compute the new content of a token. Most start from the
content that the editor sees, and a position without content answers no. Changing the indentation of
a code block starts from the committed tokens; it touches those that start a line and hold no line
break: a run of blanks is resized, anything else gets spaces in front.
-/

namespace Retouch.Session

/-- Replace a token by a function of its present content. -/
def modify (s : Session) (source : String) (pos : Nat) (f : Text → Text) : Step :=
  match s.content pos with
  | none => ⟨false, s, []⟩
  | some current => s.replace source pos (f current)

/-- Add content to a token. -/
def append (s : Session) (source : String) (pos : Nat) (text : Text) : Step :=
  s.modify source pos (· ++ text)

def prepend (s : Session) (source : String) (pos : Nat) (text : Text) : Step :=
  s.modify source pos (text ++ ·)

def appendNewline (s : Session) (source : String) (pos : Nat) : Step :=
  s.append source pos s.terminator

def prependNewline (s : Session) (source : String) (pos : Nat) : Step :=
  s.prepend source pos s.terminator

/-- Keep a substring of a token: `len` characters from character `start` on, or all of them. -/
def slice (s : Session) (source : String) (pos start : Nat) (len : Option Nat) : Step :=
  s.modify source pos fun current =>
    match len with
    | some n => (current.drop start).take n
    | none => current.drop start

/-! ### Indentation -/

def startsLine (s : Session) (pos : Nat) : Bool :=
  pos == 0 || (s.tokens[pos - 1]?).any Text.endsLine

/-- A line's first token after its indentation moved by `change` columns. -/
def shifted (change : Int) (content : Text) : Text :=
  if Text.isBlankRun content then Text.spaces (content.length + change).toNat
  else Text.spaces change.toNat ++ content

/-- The edit that a position of the range calls for, if any. -/
def shiftAt (s : Session) (change : Int) (pos : Nat) : Option (Nat × Text) :=
  if s.startsLine pos then
    match s.tokens[pos]? with
    | none => none
    | some content =>
      if content.any Text.isBreak || shifted change content == content then none
      else some (pos, shifted change content)
  else none

/-- Positions from `first` to `last` among the loaded tokens. -/
def range (s : Session) (first last : Nat) : List Nat :=
  (List.range s.tokens.length).filter fun pos => first ≤ pos && pos ≤ last

/-- Ask for several replacements in order, whatever the answers. -/
def replaceAll (source : String) : List (Nat × Text) → Session → Session × List Notice
  | [], s => (s, [])
  | (pos, content) :: rest, s =>
    let step := s.replace source pos content
    let tail := replaceAll source rest step.session
    (tail.1, step.notices ++ tail.2)

/-- Change the indentation of a code block: of the lines that start at `first` to `last`, by
`change` columns, inside the open batch, or as a batch of its own if none is open. -/
def reindent (s : Session) (source : String) (first last : Nat) (change : Int) : Step :=
  let edits := (s.range first last).filterMap (s.shiftAt change)
  if s.batchOpen then
    let done := replaceAll source edits s
    ⟨true, done.1, done.2⟩
  else
    let opened := s.beginBatch source
    if opened.accepted then
      let done := replaceAll source edits opened.session
      let closed := done.1.endBatch source
      ⟨closed.accepted, closed.session, opened.notices ++ done.2 ++ closed.notices⟩
    else ⟨false, opened.session, opened.notices⟩

end Retouch.Session
