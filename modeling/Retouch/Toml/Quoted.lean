import Retouch.Toml.Number

/-!
Strings of a TOML document: between quotes with escapes, or between apostrophes without, on one
line or, with the mark tripled, on several. Each reader gets the text after the opening mark and
returns the string and what follows the closing mark.
-/

namespace Retouch.Toml

/-- A control character that neither strings nor comments may hold. -/
def isForbidden (c : Char) : Bool := (c.toNat < 0x20 && c != '\t') || c.toNat == 0x7f

/-- The character with the given hexadecimal digits, if there is one. -/
def scalar? (digits : Text) : Option Char :=
  if digits.all (isDigit 16) then
    let n := numeral 16 digits
    if n < 0xd800 || (0xdfff < n && n < 0x110000) then some (Char.ofNat n) else none
  else none

def escape? : Text → Option (Char × Text)
  | 'b' :: rest => some ('\x08', rest)
  | 't' :: rest => some ('\t', rest)
  | 'n' :: rest => some ('\n', rest)
  | 'f' :: rest => some ('\x0c', rest)
  | 'r' :: rest => some ('\r', rest)
  | 'e' :: rest => some ('\x1b', rest)
  | '"' :: rest => some ('"', rest)
  | '\\' :: rest => some ('\\', rest)
  | 'x' :: a :: b :: rest => (scalar? [a, b]).map (·, rest)
  | 'u' :: a :: b :: c :: d :: rest => (scalar? [a, b, c, d]).map (·, rest)
  | 'U' :: a :: b :: c :: d :: e :: f :: g :: h :: rest =>
    (scalar? [a, b, c, d, e, f, g, h]).map (·, rest)
  | _ => none

def push (c : Char) (read : Text × Text) : Text × Text := (c :: read.1, read.2)

/-- The rest of a string between quotes; `fuel` bounds its length. -/
def basic? : Nat → Text → Option (Text × Text)
  | 0, _ => none
  | _, [] => none
  | _, '"' :: rest => some ([], rest)
  | fuel + 1, '\\' :: rest => do
    let (c, rest) ← escape? rest
    (basic? fuel rest).map (push c)
  | fuel + 1, c :: rest => if isForbidden c then none else (basic? fuel rest).map (push c)

def literal? : Text → Option (Text × Text)
  | [] => none
  | c :: rest =>
    if c == '\x27' then some ([], rest)
    else if isForbidden c then none
    else (literal? rest).map (push c)

/-- Skip the line break right after a tripled mark. -/
def skipFirstBreak : Text → Text
  | '\n' :: rest => rest
  | '\r' :: '\n' :: rest => rest
  | rest => rest

/-- A run of marks inside a string on several lines: three close it, and up to two more before them
belong to the string. -/
def closing? (mark : Char) (t : Text) : Option (Text × Text) :=
  let run := (t.takeWhile (· == mark)).length
  if run < 3 then none
  else if run ≤ 5 then some (List.replicate (run - 3) mark, t.drop run)
  else some (List.replicate 2 mark, t.drop 5)

def skipSpace : Text → Text
  | ' ' :: rest => skipSpace rest
  | '\t' :: rest => skipSpace rest
  | '\n' :: rest => skipSpace rest
  | '\r' :: '\n' :: rest => skipSpace rest
  | rest => rest

/-- After a backslash at the end of a line: skip blanks and breaks, of which there is at least
one. -/
def continued? (t : Text) : Option Text :=
  match t.dropWhile Text.isBlank with
  | '\n' :: rest => some (skipSpace rest)
  | '\r' :: '\n' :: rest => some (skipSpace rest)
  | _ => none

/-- The rest of a string between tripled marks; escapes count only if `escapes` is set. -/
def multiline? (mark : Char) (escapes : Bool) : Nat → Text → Option (Text × Text)
  | 0, _ => none
  | _, [] => none
  | fuel + 1, c :: rest =>
    if c == mark then
      match closing? mark (c :: rest) with
      | some done => some done
      | none => (multiline? mark escapes fuel rest).map (push c)
    else if c == '\\' && escapes then
      match continued? rest with
      | some rest => multiline? mark escapes fuel rest
      | none => do
        let (e, rest) ← escape? rest
        (multiline? mark escapes fuel rest).map (push e)
    else if c == '\n' then (multiline? mark escapes fuel rest).map (push c)
    else if c == '\r' then
      match rest with
      | '\n' :: rest => (multiline? mark escapes fuel rest).map fun read => push '\r' (push '\n' read)
      | _ => none
    else if isForbidden c then none
    else (multiline? mark escapes fuel rest).map (push c)

def lineString? : Text → Option (Text × Text)
  | '"' :: rest => basic? (rest.length + 1) rest
  | '\x27' :: rest => literal? rest
  | _ => none

def string? (t : Text) : Option (Text × Text) :=
  match t with
  | '"' :: '"' :: '"' :: rest =>
    let body := skipFirstBreak rest
    multiline? '"' true (body.length + 1) body
  | '\x27' :: '\x27' :: '\x27' :: rest =>
    let body := skipFirstBreak rest
    multiline? '\x27' false (body.length + 1) body
  | _ => lineString? t

end Retouch.Toml
