import Retouch.Proofs.Linter.Sufficiency
import Retouch.Proofs.Text.Terminators

/-!
Lines by tokens and lines by characters. A line is counted by the tokens that end in a break, its
start is told by the terminator before it, and neither asks what a terminator is made of. On the
tokens of a text both are what the characters say; `lines_agree` adds that the linter reports each
violation at a token of the text and on the line where this token starts.
-/

namespace Retouch

open Text (endsLine isNewline lineOf opensLine segment terminators WellCut)

variable {text : Text} {tokens : List Text} {pos : Nat}

namespace Text

def covered (text : Text) (pos : Nat) : Text := ((segment text).take pos).flatten

theorem endsLine_of_isLexeme {t : Text} (lexeme : isLexeme t) : endsLine t = isNewline t := by
  have single : WellCut [t] := wellCut_cons.mpr ⟨lexeme, by simp, wellCut_nil⟩
  simpa using single.endsLine_flatten

theorem lineOf_eq_countP (tokens : List Text) (pos : Nat) :
    lineOf tokens pos = 1 + (tokens.take pos).countP endsLine := by
  induction tokens generalizing pos with
  | nil => simp [lineOf]
  | cons t rest ih =>
    cases pos with
    | zero => simp [lineOf]
    | succ pos => rw [lineOf, ih, List.take_succ_cons, List.countP_cons, Nat.add_assoc]

namespace WellCut

variable (cut : WellCut tokens)

include cut

theorem take (pos : Nat) : WellCut (tokens.take pos) := by
  rw [← tokens.take_append_drop pos] at cut
  exact cut.append.1

theorem endsLine_eq {t : Text} (member : t ∈ tokens) : endsLine t = isNewline t :=
  endsLine_of_isLexeme (cut.lexemes t member)

theorem countP_endsLine : tokens.countP endsLine = terminators tokens.flatten := by
  rw [← countP_segment, cut.segment_flatten]
  exact List.countP_congr fun t member => by rw [cut.endsLine_eq member]

theorem lineOf_eq (pos : Nat) :
    lineOf tokens pos = 1 + terminators (tokens.take pos).flatten := by
  rw [lineOf_eq_countP, (cut.take pos).countP_endsLine]

/-- No terminator has a part on either side of a token's edge. -/
theorem terminators_split (pos : Nat) : terminators (tokens.take pos).flatten +
    terminators (tokens.drop pos).flatten = terminators tokens.flatten := by
  have split := tokens.take_append_drop pos
  have rest : WellCut (tokens.drop pos) := by
    rw [← split] at cut
    exact cut.append.2
  rw [← (cut.take pos).countP_endsLine, ← rest.countP_endsLine, ← cut.countP_endsLine,
    ← List.countP_append, split]

theorem flatten_eq_nil_iff : tokens.flatten = [] ↔ tokens = [] := by
  rw [← segment_eq_nil_iff, cut.segment_flatten]

theorem opensLine_iff (inside : pos ≤ tokens.length) : opensLine tokens pos ↔
    (tokens.take pos).flatten = [] ∨ endsLine (tokens.take pos).flatten := by
  rw [Rule.opensLine_eq inside, List.head?_reverse, (cut.take pos).flatten_eq_nil_iff,
    (cut.take pos).endsLine_flatten]
  rcases (tokens.take pos).eq_nil_or_concat with none | ⟨front, t, some⟩
  · simp [none]
  · simp [some]

/-- The editor looks for a break at the end of the token before, the linter for a terminator. -/
theorem startsLine_eq {s : Session} (loaded : s.tokens = tokens) (pos : Nat) :
    s.startsLine pos = opensLine tokens pos := by
  unfold Session.startsLine opensLine
  rw [loaded]
  cases read : tokens[pos - 1]? with
  | none => rfl
  | some t => rw [Option.any_some, Option.any_some, cut.endsLine_eq (List.mem_of_getElem? read)]

end WellCut

end Text

namespace Rule

variable {rule : Rule} {v : Violation}

theorem line_of_mem_check (reported : v ∈ rule.check tokens) : v.line = lineOf tokens v.pos := by
  cases rule with
  | trailingBlanks =>
    obtain ⟨q, -, rfl⟩ := List.mem_map.mp reported
    rfl
  | tabIndent width =>
    obtain ⟨q, -, rfl⟩ := List.mem_map.mp reported
    rfl
  | finalNewline =>
    simp only [check, FinalNewline.check] at reported
    split at reported
    · cases reported
    · split at reported
      · obtain rfl := List.mem_singleton.mp reported
        rfl
      · obtain rfl := List.mem_singleton.mp reported
        rfl
  | blankLines =>
    obtain ⟨q, -, rfl⟩ := List.mem_map.mp reported
    rfl

theorem pos_lt_of_mem_check (reported : v ∈ rule.check tokens) : v.pos < tokens.length := by
  cases rule with
  | trailingBlanks =>
    obtain ⟨q, bad, rfl⟩ := List.mem_map.mp reported
    have wished : trailingBlanks.wishAt [] [] tokens q = some [] :=
      wishAt_trailingBlanks_iff.mpr ⟨rfl, bad⟩
    exact lt_of_wishAt wished
  | tabIndent width =>
    obtain ⟨⟨t, q⟩, bad, rfl⟩ := List.mem_map.mp reported
    have read := List.mem_zipIdx_iff_getElem?.mp (List.mem_filter.mp bad).1
    exact (List.getElem?_eq_some_iff.mp read).1
  | finalNewline =>
    rcases pos_of_finalNewline reported with ⟨-, last⟩ | ⟨some, start⟩ <;> omega
  | blankLines =>
    obtain ⟨⟨start, stop⟩, member, rfl⟩ := List.mem_map.mp reported
    have found := BlankLines.mem_runs.mp member
    have long := found.long
    have inside := found.inside
    simp only [Violation.on]
    omega

end Rule

namespace Linter

/-- The line of a token is one more than the number of terminators in the text before it, and a
violation has the line of its token. Linter and editor agree on which tokens start a line. -/
theorem lines_agree (text : Text) :
    (∀ pos, lineOf (segment text) pos = 1 + terminators (Text.covered text pos) ∧
      terminators (Text.covered text pos) + terminators ((segment text).drop pos).flatten =
        terminators text) ∧
    (∀ pos ≤ (segment text).length, ∀ s : Session, s.tokens = segment text →
      (opensLine (segment text) pos ↔
        Text.covered text pos = [] ∨ endsLine (Text.covered text pos)) ∧
      (s.startsLine pos ↔ Text.covered text pos = [] ∨ endsLine (Text.covered text pos))) ∧
    ∀ l : Linter, l.tokens = segment text → ∀ r ∈ l.check,
      r.violation.pos < (segment text).length ∧
      r.violation.line = 1 + terminators (Text.covered text r.violation.pos) := by
  have cut := Text.wellCut_segment text
  refine ⟨fun pos => ⟨cut.lineOf_eq pos, ?_⟩, ?_, ?_⟩
  · rw [Text.covered, cut.terminators_split, Text.flatten_segment]
  · intro pos inside s loaded
    have opens := cut.opensLine_iff inside
    rw [cut.startsLine_eq loaded]
    exact ⟨opens, opens⟩
  · rintro ⟨rules, tokens⟩ rfl r member
    obtain ⟨rule, -, member⟩ := List.mem_flatMap.mp member
    obtain ⟨v, reported, rfl⟩ := List.mem_map.mp member
    refine ⟨Rule.pos_lt_of_mem_check reported, ?_⟩
    exact (Rule.line_of_mem_check reported).trans (cut.lineOf_eq _)

end Linter

end Retouch
