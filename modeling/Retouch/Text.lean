/-!
Text as a list of characters: the two kinds of character that the whitespace rules look at, blanks
(space and tab) and breaks (line feed and carriage return); lines; white space at large; and text in
double quotes, as logs show it.
-/

namespace Retouch

/-- A piece of text: a token, a line, a whole file. -/
abbrev Text := List Char

namespace Text

def isBreak (c : Char) : Bool := c == '\n' || c == '\r'

def isBlank (c : Char) : Bool := c == ' ' || c == '\t'

def spaces (n : Nat) : Text := List.replicate n ' '

def endsLine (t : Text) : Bool := t.getLast?.any isBreak

def isBlankRun (t : Text) : Bool := !t.isEmpty && t.all isBlank

def isNewline (t : Text) : Bool := t == ['\n'] || t == ['\r', '\n'] || t == ['\r']

/-- A carriage return is directly followed by a line feed somewhere in the text. -/
def hasCrLf : Text → Bool
  | '\r' :: '\n' :: _ => true
  | _ :: rest => hasCrLf rest
  | [] => false

/-- The terminator that new lines of the text take: the two-character one as soon as it occurs, else
a lone carriage return if there is one, else a line feed. -/
def dominantTerminator (t : Text) : Text :=
  if hasCrLf t then ['\r', '\n'] else if t.contains '\r' then ['\r'] else ['\n']

def byteCount (t : Text) : Nat := t.foldl (fun n c => n + c.utf8Size) 0

/-- Split at every `sep`; the separator belongs to no piece, and there is always one piece. -/
def splitAt (sep : Char) : Text → List Text
  | [] => [[]]
  | c :: rest =>
    match splitAt sep rest with
    | [] => [[c]]
    | piece :: pieces => if c == sep then [] :: piece :: pieces else (c :: piece) :: pieces

/-! ### Lines cut at line feeds -/

def dropReturn (line : Text) : Text :=
  if line.getLast? == some '\r' then line.dropLast else line

/-- The last piece, unless it is empty. -/
def unfinished (pieces : List Text) : List Text :=
  match pieces.getLast? with
  | none => []
  | some [] => []
  | some line => [line]

/-- The lines of a text. A line feed ends a line, together with a carriage return right before it;
an empty rest after the last line feed is no line. -/
def lines (t : Text) : List Text :=
  let pieces := splitAt '\n' t
  pieces.dropLast.map dropReturn ++ unfinished pieces

/-- The lines of a text, each with the line feed that ends it. -/
def fullLines (t : Text) : List Text :=
  let pieces := splitAt '\n' t
  pieces.dropLast.map (· ++ ['\n']) ++ unfinished pieces

def joinLines (lines : List Text) : Text := ['\n'].intercalate lines

/-! ### White space -/

/-- The character has the `White_Space` property. -/
def isWhitespace (c : Char) : Bool :=
  let n := c.toNat
  (0x09 ≤ n && n ≤ 0x0d) || n == 0x20 || n == 0x85 || n == 0xa0 || n == 0x1680 ||
    (0x2000 ≤ n && n ≤ 0x200a) || n == 0x2028 || n == 0x2029 || n == 0x202f || n == 0x205f ||
    n == 0x3000

def isSpaceOnly (t : Text) : Bool := t.all isWhitespace

/-! ### Quoted text -/

namespace Quoted

/-- A character by its code point, in lower-case hexadecimal. -/
def codePoint (c : Char) : Text :=
  ['\\', 'u', '\x7b'] ++ Nat.toDigits 16 c.toNat ++ ['\x7d']

/-- C0 controls, delete, and C1 controls. -/
def isControl (c : Char) : Bool := c.toNat < 0x20 || (0x7f ≤ c.toNat && c.toNat < 0xa0)

def escape (c : Char) : Text :=
  if c == '\x00' then ['\\', '0']
  else if c == '\t' then ['\\', 't']
  else if c == '\n' then ['\\', 'n']
  else if c == '\r' then ['\\', 'r']
  else if c == '"' then ['\\', '"']
  else if c == '\\' then ['\\', '\\']
  else if isControl c then codePoint c
  else [c]

def quote (t : Text) : String := String.ofList ('"' :: t.flatMap escape ++ ['"'])

end Quoted

end Text

end Retouch
