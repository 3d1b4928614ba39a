import Retouch.Text

/-!
The lines in which two sequences differ, by meeting in the middle: two searches, from both ends,
look for the furthest point that each number of edits reaches on every diagonal, until they touch.
The sequences are then split where they touch. Diagonal `d` holds the points with `x - y = d`.
-/

namespace Retouch.Diff

structure Pair where
  old : Array Text
  new : Array Text

def Pair.same (p : Pair) (x y : Int) : Bool :=
  match p.old[x.toNat]?, p.new[y.toNat]? with
  | some a, some b => a == b
  | _, _ => false

/-- The part of both sequences under comparison: `x` runs from `left` to `right`, `y` from `top`
to `bottom`, the upper bounds excluded. -/
structure Window where
  left : Int
  right : Int
  top : Int
  bottom : Int

/-- The furthest `x` on every diagonal; `base` is the index of diagonal zero. -/
structure Frontier where
  base : Int
  cells : Array Int

namespace Frontier

def get (f : Frontier) (d : Int) : Int := f.cells.getD (d + f.base).toNat 0

def set (f : Frontier) (d x : Int) : Frontier :=
  { f with cells := f.cells.setIfInBounds (d + f.base).toNat x }

end Frontier

/-- A search from one end: the frontier and the diagonals it has reached. -/
structure Search where
  frontier : Frontier
  low : Int
  high : Int

/-- Follow equal lines forward along a diagonal. -/
def slideDown (p : Pair) (w : Window) : Nat → Int → Int → Int
  | 0, x, _ => x
  | fuel + 1, x, y =>
    if x < w.right && y < w.bottom && p.same x y then slideDown p w fuel (x + 1) (y + 1) else x

/-- Follow equal lines backward along a diagonal. -/
def slideUp (p : Pair) (w : Window) : Nat → Int → Int → Int
  | 0, x, _ => x
  | fuel + 1, x, y =>
    if w.left < x && w.top < y && p.same (x - 1) (y - 1) then slideUp p w fuel (x - 1) (y - 1)
    else x

def diagonals (low high : Int) : List Int :=
  (List.range ((high - low).toNat / 2 + 1)).filterMap fun i : Nat =>
    let d := high - 2 * (i : Int)
    if low ≤ d then some d else none

/-- Give a search one more diagonal on each side, or one less where the window ends. -/
def Search.widen (s : Search) (w : Window) (unreached : Int) : Search :=
  let first := w.left - w.bottom
  let last := w.right - w.top
  let below : Search :=
    if first < s.low then
      { s with low := s.low - 1, frontier := s.frontier.set (s.low - 2) unreached }
    else { s with low := s.low + 1 }
  if s.high < last then
    { below with high := s.high + 1, frontier := below.frontier.set (s.high + 2) unreached }
  else { below with high := s.high - 1 }

/-- One more edit from the start, diagonal by diagonal, up to a point that `meets` accepts. -/
def sweepDown (p : Pair) (w : Window) (meets : Int → Int → Bool) :
    List Int → Frontier → Frontier × Option (Int × Int)
  | [], f => (f, none)
  | d :: rest, f =>
    let before := f.get (d - 1)
    let after := f.get (d + 1)
    let start := if before < after then after else before + 1
    let x := slideDown p w (w.right - start).toNat start (start - d)
    let f := f.set d x
    if meets d x then (f, some (x, x - d)) else sweepDown p w meets rest f

/-- One more edit from the end, diagonal by diagonal, up to a point that `meets` accepts. -/
def sweepUp (p : Pair) (w : Window) (meets : Int → Int → Bool) :
    List Int → Frontier → Frontier × Option (Int × Int)
  | [], f => (f, none)
  | d :: rest, f =>
    let before := f.get (d - 1)
    let after := f.get (d + 1)
    let start := if before < after then before else after - 1
    let x := slideUp p w (start - w.left).toNat start (start - d)
    let f := f.set d x
    if meets d x then (f, some (x, x - d)) else sweepUp p w meets rest f

/-- Let both searches spend one edit after another until they meet. -/
def meet (p : Pair) (w : Window) (beyond : Int) : Nat → Search → Search → Option (Int × Int)
  | 0, _, _ => none
  | fuel + 1, down, up =>
    let odd := ((w.left - w.top) - (w.right - w.bottom)) % 2 != 0
    let down := down.widen w (-1)
    let meetsUp (d x : Int) : Bool :=
      odd && up.low ≤ d && d ≤ up.high && up.frontier.get d ≤ x
    match sweepDown p w meetsUp (diagonals down.low down.high) down.frontier with
    | (_, some point) => some point
    | (frontier, none) =>
      let down := { down with frontier := frontier }
      let up := up.widen w beyond
      let meetsDown (d x : Int) : Bool :=
        !odd && down.low ≤ d && d ≤ down.high && x ≤ down.frontier.get d
      match sweepUp p w meetsDown (diagonals up.low up.high) up.frontier with
      | (_, some point) => some point
      | (frontier, none) => meet p w beyond fuel down { up with frontier := frontier }

/-- A point through which a shortest way from corner to corner leads. -/
def middle (p : Pair) (w : Window) : Option (Int × Int) :=
  let size := p.old.size + p.new.size + 3
  let blank : Frontier := ⟨p.new.size + 1, Array.replicate size 0⟩
  let start := w.left - w.top
  let goal := w.right - w.bottom
  meet p w (size + 1) (size + 1) ⟨blank.set start w.left, start, start⟩
    ⟨blank.set goal w.right, goal, goal⟩

structure Changes where
  removed : List Nat
  added : List Nat

def Window.trimStart (p : Pair) : Nat → Window → Window
  | 0, w => w
  | fuel + 1, w =>
    if w.left < w.right && w.top < w.bottom && p.same w.left w.top then
      trimStart p fuel { w with left := w.left + 1, top := w.top + 1 }
    else w

def Window.trimEnd (p : Pair) : Nat → Window → Window
  | 0, w => w
  | fuel + 1, w =>
    if w.left < w.right && w.top < w.bottom && p.same (w.right - 1) (w.bottom - 1) then
      trimEnd p fuel { w with right := w.right - 1, bottom := w.bottom - 1 }
    else w

def upTo (first last : Int) : List Nat := List.range' first.toNat (last - first).toNat

/-- The changed lines of a window; `fuel` bounds the number of splits. -/
def changesIn (p : Pair) : Nat → Window → Changes
  | 0, _ => ⟨[], []⟩
  | fuel + 1, w =>
    let size := p.old.size + p.new.size
    let w := (w.trimStart p size).trimEnd p size
    if w.left == w.right then ⟨[], upTo w.top w.bottom⟩
    else if w.top == w.bottom then ⟨upTo w.left w.right, []⟩
    else
      match middle p w with
      | none => ⟨upTo w.left w.right, upTo w.top w.bottom⟩
      | some (x, y) =>
        let first := changesIn p fuel { w with right := x, bottom := y }
        let second := changesIn p fuel { w with left := x, top := y }
        ⟨first.removed ++ second.removed, first.added ++ second.added⟩

def changes (old new : Array Text) : Changes :=
  changesIn ⟨old, new⟩ (old.size + new.size + 1) ⟨0, old.size, 0, new.size⟩

end Retouch.Diff
