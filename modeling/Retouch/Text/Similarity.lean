import Retouch.Text

/-!
How alike two texts are. Equal characters that stand near each other are paired; the more of each
text is paired, and the fewer pairs cross, the more alike the texts are. The measure is an exact
fraction between nothing and one.
-/

namespace Retouch

/-- A fraction; the denominator is never zero. -/
structure Likeness where
  part : Nat
  whole : Nat
  deriving DecidableEq, Repr

namespace Likeness

def atMost (a b : Likeness) : Bool := a.part * b.whole ≤ b.part * a.whole

/-- So alike that one may have been meant for the other. -/
def isClose (a : Likeness) : Bool := atMost ⟨7, 10⟩ a

end Likeness

namespace Text

/-- The first free place in `b`, at most `reach` away from `i`, that holds the character. -/
def partner? (b : Text) (reach : Nat) (taken : List Nat) (i : Nat) (c : Char) : Option Nat :=
  (List.range (min b.length (i + reach + 1))).find? fun j =>
    i - reach ≤ j && b[j]? == some c && !taken.contains j

/-- The characters that find a partner in `b`, and the places of all partners. -/
def pairUp (b : Text) (reach : Nat) : Nat → List Nat → Text → Text × List Nat
  | _, taken, [] => ([], taken)
  | i, taken, c :: rest =>
    match partner? b reach taken i c with
    | none => pairUp b reach (i + 1) taken rest
    | some j =>
      let (paired, places) := pairUp b reach (i + 1) (j :: taken) rest
      (c :: paired, places)

def likeness (a b : Text) : Likeness :=
  let (paired, places) := pairUp b (max a.length b.length / 2 - 1) 0 [] a
  let partners := (List.range b.length).filterMap fun j => if places.contains j then b[j]? else none
  let crossed := ((paired.zip partners).filter fun p => p.1 != p.2).length / 2
  let n := paired.length
  if a.isEmpty && b.isEmpty then ⟨1, 1⟩
  else if n = 0 then ⟨0, 1⟩
  else
    ⟨n * n * b.length + n * n * a.length + (n - crossed) * a.length * b.length,
      3 * a.length * b.length * n⟩

/-- Those of the choices that are close to the text, the closest last; of two that are equally
close the later one comes later. -/
def closest {α : Type} (name : α → Text) (t : Text) (choices : List α) : List α :=
  let rated := choices.map fun x => (likeness t (name x), x)
  ((rated.filter fun r => r.1.isClose).mergeSort fun r s => r.1.atMost s.1).map Prod.snd

end Text

end Retouch
