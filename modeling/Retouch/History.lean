import Retouch.Slots
import Retouch.Text

/-!
The fix history of a session. Marks belong to the token list that is loaded now: each fixed position
with the content it held before. Records, the old values, outlive reloads: for each position ever
fixed, the two latest contents asked for and the pass of the last one, which is what tells an
oscillation.
-/

namespace Retouch

/-- The old values of one position, from its latest accepted edits. -/
structure Record where
  /-- What the last but one accepted edit asked for; after the first edit, what it found. -/
  previous : Text
  /-- What the latest accepted edit asked for. -/
  recent : Text
  pass : Nat
  deriving DecidableEq, Repr

/-- How an edit relates to earlier edits of its position. -/
inductive Verdict where
  | firstFix
  | updated
  | conflict
  deriving DecidableEq, Repr

structure History where
  marks : Slots Text
  records : Slots Record

namespace History

def empty : History := ⟨∅, ∅⟩

instance : EmptyCollection History := ⟨empty⟩

def isFixed (h : History) (pos : Nat) : Bool := h.marks.contains pos

def fixedCount (h : History) : Nat := h.marks.size

/-- Mark a position as fixed, saving the content it held before. -/
def mark (h : History) (pos : Nat) (before : Text) : History :=
  { h with marks := h.marks.insert pos before }

/-- Remove a position's mark, handing back the saved content. -/
def takeMark (h : History) (pos : Nat) : Option Text × History :=
  (h.marks.get? pos, { h with marks := h.marks.erase pos })

def clearMarks (h : History) : History := { h with marks := ∅ }

def record? (h : History) (pos : Nat) : Option Record := h.records.get? pos

/-- Check and record an edit of `pos` from `current` to `content` in pass `pass`. It is a conflict,
and not recorded, if the latest accepted edit is of the pass before and its record has exactly this
content as the previous one. -/
def judge (h : History) (pos : Nat) (current content : Text) (pass : Nat) : Verdict × History :=
  match h.records.get? pos with
  | none => (.firstFix, { h with records := h.records.insert pos ⟨current, content, pass⟩ })
  | some r =>
    if r.previous = content ∧ r.pass + 1 = pass then (.conflict, h)
    else (.updated, { h with records := h.records.insert pos ⟨r.recent, content, pass⟩ })

end History

end Retouch
