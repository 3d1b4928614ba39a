import Retouch.Text.Alphanumeric

/-!
The tokenizer: cutting text into tokens. A token is one line terminator, a maximal run of blanks, a
maximal run of word characters, or a single other character; together the tokens are the text.
-/

namespace Retouch.Text

def isWord (c : Char) : Bool := c == '_' || isAlphanumeric c

/-- A character goes into the token that starts with the character after it. -/
def joins (c next : Char) : Bool :=
  (isBlank c && isBlank next) || (isWord c && isWord next) || (c == '\r' && next == '\n')

/-- Put one character in front of tokenized text. -/
def attach (c : Char) : List Text → List Text
  | (next :: token) :: rest =>
    if joins c next then (c :: next :: token) :: rest else [c] :: (next :: token) :: rest
  | tokens => [c] :: tokens

/-- Tokenize a text. -/
def segment : Text → List Text
  | [] => []
  | c :: rest => attach c (segment rest)

/-- The line, counted from one, on which the token at `pos` starts. -/
def lineOf : List Text → Nat → Nat
  | [], _ => 1
  | _ :: _, 0 => 1
  | token :: rest, pos + 1 => lineOf rest pos + if endsLine token then 1 else 0

/-- The token at `pos` is the first of the text or follows a line terminator. -/
def opensLine (tokens : List Text) (pos : Nat) : Bool :=
  pos == 0 || (tokens[pos - 1]?).any isNewline

end Retouch.Text
