import Retouch.Toml.Value

/-!
Numbers of a TOML document. Digits may be grouped by single underscores; integers fit in 64 bits
with sign; a float must not overflow double precision.
-/

namespace Retouch.Toml

def digitValue? (c : Char) : Option Nat :=
  if '0' ≤ c && c ≤ '9' then some (c.toNat - '0'.toNat)
  else if 'a' ≤ c && c ≤ 'f' then some (c.toNat - 'a'.toNat + 10)
  else if 'A' ≤ c && c ≤ 'F' then some (c.toNat - 'A'.toNat + 10)
  else none

def isDigit (base : Nat) (c : Char) : Bool := (digitValue? c).any (· < base)

/-- The digits of a group without its underscores, each of which must stand between two digits. -/
def ungroup? (base : Nat) : Text → Option Text
  | [] => none
  | [c] => if isDigit base c then some [c] else none
  | c :: '_' :: rest => if isDigit base c then (ungroup? base rest).map (c :: ·) else none
  | c :: rest => if isDigit base c then (ungroup? base rest).map (c :: ·) else none

def numeral (base : Nat) (digits : Text) : Nat :=
  digits.foldl (fun n c => n * base + (digitValue? c).getD 0) 0

/-- Cut off a sign; the flag says that it is a minus. -/
def unsign : Text → Bool × Text
  | '-' :: rest => (true, rest)
  | '+' :: rest => (false, rest)
  | rest => (false, rest)

def fits (n : Int) : Bool := -0x8000000000000000 ≤ n && n < 0x8000000000000000

/-- Digits of the part before the point: a group without a leading zero. -/
def whole? (t : Text) : Option Text :=
  match ungroup? 10 t with
  | some ['0'] => some ['0']
  | some ('0' :: _) => none
  | digits => digits

/-- An integer; `none` if the text is not one. -/
def integer? (t : Text) : Option Int :=
  let number (n : Int) : Option Int := if fits n then some n else none
  match t with
  | '0' :: 'x' :: rest => (ungroup? 16 rest).bind fun digits => number (numeral 16 digits)
  | '0' :: 'o' :: rest => (ungroup? 8 rest).bind fun digits => number (numeral 8 digits)
  | '0' :: 'b' :: rest => (ungroup? 2 rest).bind fun digits => number (numeral 2 digits)
  | _ =>
    let (negative, rest) := unsign t
    (whole? rest).bind fun digits =>
      number (if negative then -(numeral 10 digits : Int) else numeral 10 digits)

/-- `mantissa * 10 ^ exponent` rounds to an infinity in double precision. Exponents far outside the
range are decided by the number of digits alone. -/
def overflows (mantissa : Nat) (exponent : Int) : Bool :=
  let magnitude := exponent + (Nat.toDigits 10 mantissa).length
  if mantissa == 0 || magnitude < 300 then false
  else if 400 < magnitude then true
  else
    let limit := Nat.pow 2 1024 - Nat.pow 2 970
    if 0 ≤ exponent then limit ≤ mantissa * Nat.pow 10 exponent.toNat
    else limit * Nat.pow 10 (-exponent).toNat ≤ mantissa

/-- A decimal fraction or a power of ten, in the form the grammar asks for. -/
def isDecimalFloat (t : Text) : Bool :=
  let body := (unsign t).2
  let isMark := fun c : Char => c == 'e' || c == 'E'
  let mantissa := body.takeWhile (!isMark ·)
  let power := body.dropWhile (!isMark ·)
  let front := mantissa.takeWhile (· != '.')
  let back := mantissa.dropWhile (· != '.')
  let fraction? : Option Text := match back with
    | [] => some []
    | _ :: digits => ungroup? 10 digits
  let exponent? : Option Int := match power with
    | [] => some 0
    | _ :: rest =>
      let (negative, digits) := unsign rest
      (ungroup? 10 digits).map fun ds =>
        if negative then -(numeral 10 ds : Int) else numeral 10 ds
  match whole? front, fraction?, exponent? with
  | some whole, some fraction, some exponent =>
    !(back.isEmpty && power.isEmpty) &&
      !overflows (numeral 10 (whole ++ fraction)) (exponent - fraction.length)
  | _, _, _ => false

/-- A float, the infinities and the undefined number included. -/
def isFloat (t : Text) : Bool :=
  let body := (unsign t).2
  body == ['i', 'n', 'f'] || body == ['n', 'a', 'n'] || isDecimalFloat t

end Retouch.Toml
