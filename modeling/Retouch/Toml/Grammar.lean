import Retouch.Toml.Moment
import Retouch.Toml.Quoted

/-!
Keys, values and lines of a TOML document, and the whole of it. Readers take the rest of the input
and return what they read with the new rest, or nothing if the input has no such form. The lines are
taken in order; no table is opened twice and no key is given twice.
-/

namespace Retouch.Toml

/-! ### Blanks, comments, ends of lines -/

def skipBlanks (t : Text) : Text := t.dropWhile Text.isBlank

/-- Skip blanks, breaks and comments; the flag says that the text starts inside a comment. -/
def skipFiller : Bool → Text → Option Text
  | _, [] => some []
  | _, '\n' :: rest => skipFiller false rest
  | _, '\r' :: '\n' :: rest => skipFiller false rest
  | true, c :: rest => if isForbidden c then none else skipFiller true rest
  | false, '#' :: rest => skipFiller true rest
  | false, c :: rest => if Text.isBlank c then skipFiller false rest else some (c :: rest)

/-- What follows the end of the line, before which only blanks and a comment may stand. -/
def endLine : Bool → Text → Option Text
  | _, [] => some []
  | _, '\n' :: rest => some rest
  | _, '\r' :: '\n' :: rest => some rest
  | true, c :: rest => if isForbidden c then none else endLine true rest
  | false, '#' :: rest => endLine true rest
  | false, c :: rest => if Text.isBlank c then endLine false rest else none

/-- How many names a key may have, and how deep arrays and inline tables may be nested. -/
def depthLimit : Nat := 80

/-! ### Keys -/

def isBare (c : Char) : Bool := c.isAlphanum || c == '_' || c == '-'

def name? (t : Text) : Option (Text × Text) :=
  match t with
  | [] => none
  | c :: _ =>
    if isBare c then some (t.takeWhile isBare, t.dropWhile isBare) else lineString? t

/-- A key: names with dots between them, blanks allowed around each. -/
def key? : Nat → Text → Option (List Text × Text)
  | 0, _ => none
  | fuel + 1, t => do
    let (name, rest) ← name? (skipBlanks t)
    match skipBlanks rest with
    | '.' :: rest => (key? fuel rest).map fun read => (name :: read.1, read.2)
    | rest => some ([name], rest)

/-- A key that is not too long, and the blanks around it. -/
def keyPath? (t : Text) : Option (List Text × Text) :=
  (key? (t.length + 1) t).filter fun read => read.1.length ≤ depthLimit

/-! ### Values -/

def isPlain (c : Char) : Bool := c.isAlphanum || c == '_' || c == '-' || c == '+' || c == '.' || c == ':'

def plain? (t : Text) : Option Value :=
  if t == ['t', 'r', 'u', 'e'] then some (.boolean true)
  else if t == ['f', 'a', 'l', 's', 'e'] then some (.boolean false)
  else
    match integer? t with
    | some n => some (.integer n)
    | none => if isFloat t then some .float else if isMoment t then some .moment else none

/-- A plain value; a date may go on, after one space, with a time. -/
def plainValue? (t : Text) : Option (Value × Text) :=
  let word := t.takeWhile isPlain
  let rest := t.dropWhile isPlain
  match rest with
  | ' ' :: more =>
    if isDate word && more.head?.any (isDigit 10) then
      let time := more.takeWhile isPlain
      if isMoment (word ++ ' ' :: time) then some (.moment, more.dropWhile isPlain) else none
    else (plain? word).map (·, rest)
  | _ => (plain? word).map (·, rest)

mutual

/-- A value; `depth` is how many brackets it may still open, and `fuel` bounds its length. -/
def value? (depth : Nat) : Nat → Text → Option (Value × Text)
  | 0, _ => none
  | fuel + 1, t =>
    match t with
    | '[' :: rest =>
      if depth = 0 then none
      else (items? (depth - 1) fuel rest).map fun read => (.array read.1, read.2)
    | '\x7b' :: rest =>
      if depth = 0 then none
      else (pairs? (depth - 1) fuel [] rest).map fun read => (.table .inline read.1, read.2)
    | c :: rest =>
      if c == '"' || c == '\x27' then (string? (c :: rest)).map fun read => (.string read.1, read.2)
      else plainValue? (c :: rest)
    | [] => none

def items? (depth : Nat) : Nat → Text → Option (List Value × Text)
  | 0, _ => none
  | fuel + 1, t => do
    match ← skipFiller false t with
    | ']' :: rest => some ([], rest)
    | t =>
      let (item, t) ← value? depth fuel t
      match ← skipFiller false t with
      | ',' :: rest => (items? depth fuel rest).map fun read => (item :: read.1, read.2)
      | ']' :: rest => some ([item], rest)
      | _ => none

/-- The pairs of an inline table up to its brace, added to those read so far. Lines may end anywhere
but inside a key. -/
def pairs? (depth : Nat) : Nat → Entries → Text → Option (Entries × Text)
  | 0, _, _ => none
  | fuel + 1, entries, t => do
    match ← skipFiller false t with
    | '\x7d' :: rest => some (entries, rest)
    | t =>
      let (path, t) ← keyPath? t
      let key ← path.getLast?
      let t ← after? '=' (← skipFiller false t)
      let (value, t) ← value? depth fuel (← skipFiller false t)
      let entries ← entries.addDotted? key value path.dropLast
      match ← skipFiller false t with
      | ',' :: rest => pairs? depth fuel entries rest
      | '\x7d' :: rest => some (entries, rest)
      | _ => none

end

/-! ### Lines -/

inductive Line where
  | header (path : List Text)
  /-- A header in double brackets. -/
  | nextHeader (path : List Text)
  | pair (path : List Text) (value : Value)

/-- The text after the closing bracket of a header and its line. -/
def header? (close : Text) (t : Text) : Option (List Text × Text) := do
  let (path, rest) ← keyPath? t
  if rest.take close.length == close then
    (endLine false (rest.drop close.length)).map (path, ·)
  else none

def line? (t : Text) : Option (Line × Text) :=
  match t with
  | '[' :: '[' :: rest => (header? [']', ']'] rest).map fun read => (.nextHeader read.1, read.2)
  | '[' :: rest => (header? [']'] rest).map fun read => (.header read.1, read.2)
  | t => do
    let (path, t) ← keyPath? t
    let t ← after? '=' t
    let (value, t) ← value? depthLimit (2 * t.length + 2) (skipBlanks t)
    (endLine false t).map (.pair path value, ·)

/-- All lines; `fuel` bounds their number. -/
def lines? : Nat → Text → Option (List Line)
  | 0, _ => none
  | fuel + 1, t => do
    match ← skipFiller false t with
    | [] => some []
    | t =>
      let (line, rest) ← line? t
      (lines? fuel rest).map (line :: ·)

/-! ### The document -/

structure Draft where
  entries : Entries
  current : List Text

def Draft.add? (d : Draft) : Line → Option Draft
  | .header path => do
    let key ← path.getLast?
    let entries ← d.entries.within? (Entries.open? key) path.dropLast
    some ⟨entries, path⟩
  | .nextHeader path => do
    let key ← path.getLast?
    let entries ← d.entries.within? (Entries.openNext? key) path.dropLast
    some ⟨entries, path⟩
  | .pair path value => do
    let key ← path.getLast?
    let entries ← d.entries.within? (Entries.addDotted? key value path.dropLast) d.current
    some { d with entries := entries }

/-- A byte order mark may stand before the document. -/
def skipMark : Text → Text
  | '\ufeff' :: rest => rest
  | t => t

/-- The entries of a document, or nothing if the text is not one. -/
def document? (t : Text) : Option Entries := do
  let t := skipMark t
  let lines ← lines? (t.length + 1) t
  let draft ← lines.foldlM Draft.add? ⟨[], []⟩
  some draft.entries

end Retouch.Toml
