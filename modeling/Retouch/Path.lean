import Retouch.Text

/-!
Paths with `/` between their names. A path keeps the text it was written with; its components
say which paths are the same and which comes first, whatever extra slashes and dots the text holds.
-/

namespace Retouch

structure Path where
  text : Text
  deriving DecidableEq, Repr

namespace Path

def ofString (s : String) : Path := ⟨s.toList⟩

def display (p : Path) : String := String.ofList p.text

/-! ### Components -/

inductive Component where
  | root
  | current
  | parent
  | name (n : Text)
  deriving DecidableEq, Repr

/-- The pieces between slashes, the last one first. -/
def pieces (p : Path) : List Text := (Text.splitAt '/' p.text).reverse

def isAbsolute (p : Path) : Bool := p.text.head? == some '/'

/-- A piece counts as a component unless it is empty, or a dot that is not the path's first piece;
`before` holds the pieces to its left. -/
def counts (piece : Text) (before : List Text) : Bool :=
  !piece.isEmpty && (piece != ['.'] || before.isEmpty)

def Component.ofPiece (piece : Text) : Component :=
  if piece == ['.'] then .current else if piece == ['.', '.'] then .parent else .name piece

/-- Components of the given pieces, the last one first. -/
def componentsOf : List Text → List Component
  | [] => []
  | piece :: before =>
    if counts piece before then Component.ofPiece piece :: componentsOf before
    else componentsOf before

def components (p : Path) : List Component :=
  (if p.isAbsolute then [.root] else []) ++ (componentsOf p.pieces).reverse

/-- The text can name an entry of a directory. -/
def IsName (n : Text) : Prop := n ≠ [] ∧ '/' ∉ n ∧ n ≠ ['.'] ∧ n ≠ ['.', '.']

instance : DecidablePred IsName := fun _ => inferInstanceAs (Decidable (_ ∧ _))

/-! ### Order -/

/-- Component order: the root, then the dot, then the double dot, then names by code point. -/
def Component.compare : Component → Component → Ordering
  | .root, .root => .eq
  | .root, _ => .lt
  | _, .root => .gt
  | .current, .current => .eq
  | .current, _ => .lt
  | _, .current => .gt
  | .parent, .parent => .eq
  | .parent, _ => .lt
  | _, .parent => .gt
  | .name a, .name b => compareOfLessAndEq a b

def compareComponents : List Component → List Component → Ordering
  | [], [] => .eq
  | [], _ :: _ => .lt
  | _ :: _, [] => .gt
  | a :: as, b :: bs => (a.compare b).then (compareComponents as bs)

def compare (p q : Path) : Ordering := compareComponents p.components q.components

def same (p q : Path) : Bool := p.components == q.components

/-! ### Joining and taking apart -/

/-- The path `q` as seen from the directory `p`. -/
def join (p q : Path) : Path :=
  if q.isAbsolute || p.text.isEmpty then q
  else if p.text.getLast? == some '/' then ⟨p.text ++ q.text⟩
  else ⟨p.text ++ '/' :: q.text⟩

/-- Drop pieces that are no component from the right end. -/
def trimPieces : List Text → List Text
  | [] => []
  | piece :: before => if counts piece before then piece :: before else trimPieces before

/-- The text of the given pieces, last one first; `absolute` keeps the leading slash. -/
def ofPieces (absolute : Bool) (rev : List Text) : Path :=
  match trimPieces rev with
  | [] => if absolute then ⟨['/']⟩ else ⟨[]⟩
  | kept => ⟨['/'].intercalate kept.reverse⟩

/-- Every directory above the given pieces, nearest first. -/
def above (absolute : Bool) : List Text → List Path
  | [] => []
  | piece :: before =>
    if counts piece before then ofPieces absolute before :: above absolute before
    else above absolute before

/-- The path itself and every directory above it, nearest first. -/
def ancestors (p : Path) : List Path := p :: above p.isAbsolute p.pieces

def fileName (p : Path) : Option Text :=
  match componentsOf p.pieces with
  | .name n :: _ => some n
  | _ => none

/-- What follows the last dot of the file name. A name whose only dot is its first character has no
extension. -/
def extension (p : Path) : Option Text :=
  match p.fileName with
  | none => none
  | some name =>
    let ext := (name.reverse.takeWhile (· != '.')).reverse
    let stem := name.take (name.length - ext.length - 1)
    if ext.length == name.length || stem.isEmpty then none else some ext

end Path

end Retouch
