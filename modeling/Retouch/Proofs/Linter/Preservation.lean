import Retouch.Proofs.Linter.Touch
import Retouch.Proofs.Text.Lines

/-!
What a run keeps. No touch reaches inside a line: it changes blanks at the edges of a line, or
terminators where an empty line or the end of the text is. So the lines that hold anything keep all
they hold, in order.
-/

namespace Retouch

namespace Text

variable {t a b : Text}

def strip (t : Text) : Text := (t.dropWhile isBlank).rdropWhile isBlank

/-- The stripped lines of a text, without empty ones. The text is cut at every break; between the
two breaks of one terminator that leaves an empty line more. -/
def cores (text : Text) : List Text := ((text.splitOnP isBreak).map strip).filter (· ≠ [])

def isSolid (c : Char) : Bool := !isBlank c && !isBreak c

theorem strip_append (blank : ∀ c ∈ t, isBlank c) (line : Text) : strip (line ++ t) = strip line := by
  rw [strip, List.dropWhile_append]
  split
  case isTrue empty =>
    rw [strip, List.isEmpty_iff.mp empty, List.dropWhile_eq_nil_iff.mpr blank]
  case isFalse => exact rdropWhile_append_of_forall blank

theorem strip_prepend (blank : ∀ c ∈ t, isBlank c) (line : Text) : strip (t ++ line) = strip line := by
  rw [strip, List.dropWhile_append_of_pos blank, strip]

theorem cores_append_cons {c : Char} (breaks : isBreak c) (a b : Text) :
    cores (a ++ c :: b) = cores a ++ cores b := by
  rw [cores, List.splitOnP_append_cons a b breaks, List.map_append, List.filter_append, cores, cores]

theorem cores_nil : cores [] = [] := rfl

theorem cores_append_newline (newline : isNewline t) (a b : Text) :
    cores (a ++ t ++ b) = cores a ++ cores b := by
  rw [List.append_assoc]
  rcases isNewline_iff.mp newline with rfl | rfl | rfl
  · exact cores_append_cons rfl a b
  · rw [List.cons_append, cores_append_cons rfl, List.singleton_append,
      ← List.nil_append ('\n' :: b), cores_append_cons rfl, cores_nil, List.nil_append]
  · exact cores_append_cons rfl a b

theorem filter_isSolid (empty : ∀ c ∈ t, isBlank c ∨ isBreak c) : t.filter isSolid = [] := by
  rw [List.filter_eq_nil_iff]
  intro c member
  rcases empty c member with blank | breaks
  · simp [isSolid, blank]
  · simp [isSolid, breaks]

end Text

namespace Linter

open Text (isNewline)

variable {trims : Bool} {width : Nat} {terminator a b : Text}

theorem Touch.cores (touch : Touch trims width terminator a b) (ends : isNewline terminator) :
    Text.cores b = Text.cores a := by
  have unbroken {t : Text} (blank : ∀ c ∈ t, Text.isBlank c) : ∀ c ∈ t, Text.isBreak c = false :=
    fun c member => Text.isBreak_of_isBlank (blank c member)
  have closed {t : Text} (newline : isNewline t) (text : Text) :
      Text.cores (text ++ t) = Text.cores text := by
    simpa [Text.cores_nil] using Text.cores_append_newline newline text []
  cases touch with
  | trim blank last =>
    unfold Text.cores
    rw [Text.map_lines_trim (unbroken blank) last (Text.strip_append blank)]
  | indent blank opens =>
    unfold Text.cores
    rw [Text.map_lines_indent (unbroken blank) (unbroken (isBlank_expand blank)) opens]
    intro line
    rw [Text.strip_prepend blank, Text.strip_prepend (isBlank_expand blank)]
  | @squeeze left u v t right newlines =>
    rw [Text.cores_append_newline (newlines v (by simp)),
      Text.cores_append_newline (newlines t (by simp)), closed (newlines v (by simp))]
  | @shorten left u t right newlines =>
    rw [Text.cores_append_newline (newlines u (by simp)),
      Text.cores_append_newline (newlines t (by simp)), closed (newlines u (by simp))]
  | finish => rw [closed ends]

theorem Touch.filter_isSolid (touch : Touch trims width terminator a b)
    (ends : isNewline terminator) : b.filter Text.isSolid = a.filter Text.isSolid := by
  have blanks {t : Text} (blank : ∀ c ∈ t, Text.isBlank c) : t.filter Text.isSolid = [] :=
    Text.filter_isSolid fun c member => Or.inl (blank c member)
  have breaks {t : Text} (newline : isNewline t) : t.filter Text.isSolid = [] :=
    Text.filter_isSolid fun _ member => Or.inr (Text.isBreak_of_mem newline member)
  cases touch with
  | trim blank => simp [blanks blank]
  | indent blank => simp [blanks blank, blanks (isBlank_expand blank)]
  | @squeeze left u v t right newlines => simp [breaks (newlines t (by simp))]
  | @shorten left u t right newlines => simp [breaks (newlines t (by simp))]
  | finish => simp [breaks ends]

/-- Wherever the run stops, the stripped lines that hold anything are the same before and after, and
so are the characters other than blanks and breaks. -/
theorem fixText_cores (text : Text) (config : Config) :
    Text.cores (fixText text config).session.contents = Text.cores text ∧
      (fixText text config).session.contents.filter Text.isSolid = text.filter Text.isSolid := by
  have ends := session_terminator text config
  have touches := touches_fixText text config
  generalize (fixText text config).session.contents = result at touches
  induction touches with
  | refl => exact ⟨rfl, rfl⟩
  | tail _ touch ih =>
    obtain ⟨cores, solid⟩ := ih
    exact ⟨(touch.cores ends).trans cores, (touch.filter_isSolid ends).trans solid⟩

end Linter

end Retouch
