import Retouch.Toml.Number

/-!
Dates and times of a TOML document: a date, a time, or both with or without an offset. Seconds may
be left out, and every field is checked against the calendar.
-/

namespace Retouch.Toml

/-- A number of exactly so many decimal digits, and what follows it. -/
def fixedDigits? (count : Nat) (t : Text) : Option (Nat × Text) :=
  let digits := t.take count
  if digits.length == count && digits.all (isDigit 10) then some (numeral 10 digits, t.drop count)
  else none

/-- What follows the character, if the text starts with it. -/
def after? (c : Char) : Text → Option Text
  | [] => none
  | first :: rest => if first == c then some rest else none

def isLeap (year : Nat) : Bool := (year % 4 == 0 && year % 100 != 0) || year % 400 == 0

def daysIn (year month : Nat) : Nat :=
  if month == 2 then (if isLeap year then 29 else 28)
  else if month == 4 || month == 6 || month == 9 || month == 11 then 30
  else 31

def date? (t : Text) : Option Text := do
  let (year, t) ← fixedDigits? 4 t
  let t ← after? '-' t
  let (month, t) ← fixedDigits? 2 t
  let t ← after? '-' t
  let (day, t) ← fixedDigits? 2 t
  if 1 ≤ month && month ≤ 12 && 1 ≤ day && day ≤ daysIn year month then some t else none

def fraction? : Text → Option Text
  | '.' :: rest => if rest.head?.any (isDigit 10) then some (rest.dropWhile (isDigit 10)) else none
  | rest => some rest

def time? (t : Text) : Option Text := do
  let (hour, t) ← fixedDigits? 2 t
  let t ← after? ':' t
  let (minute, t) ← fixedDigits? 2 t
  if 23 < hour || 59 < minute then none
  match t with
  | ':' :: rest =>
    let (second, rest) ← fixedDigits? 2 rest
    if 60 < second then none
    fraction? rest
  | _ => some t

/-- Nothing, or an offset from universal time. -/
def isOffset : Text → Bool
  | [] => true
  | ['Z'] => true
  | ['z'] => true
  | sign :: rest =>
    (sign == '+' || sign == '-') &&
      (match fixedDigits? 2 rest with
      | some (hour, ':' :: rest) =>
        match fixedDigits? 2 rest with
        | some (minute, []) => hour ≤ 23 && minute ≤ 59
        | _ => false
      | _ => false)

def isDate (t : Text) : Bool := date? t == some []

/-- The text is a date, a time, or a date and a time with or without an offset. -/
def isMoment (t : Text) : Bool :=
  match date? t with
  | some [] => true
  | some (sep :: rest) =>
    (sep == 'T' || sep == 't' || sep == ' ') && ((time? rest).any isOffset)
  | none => time? t == some []

end Retouch.Toml
