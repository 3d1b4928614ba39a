import Mathlib.Data.List.SplitBy
import Retouch.Proofs.Text.Segment

/-!
Line terminators as characters see them and as tokens see them. A break and any other character
never share a token, so a text can be cut into tokens part by part where the one meets the other;
`countP_segment` counts the terminator tokens of a text by its characters.
-/

namespace Retouch.Text

variable {t a b : Text} {ts us : List Text} {c d : Char}

/-- How many line terminators a text holds. A carriage return before a line feed ends none. -/
def terminators : Text → Nat
  | [] => 0
  | c :: rest =>
    terminators rest + if isBreak c && !(c == '\r' && rest.head? == some '\n') then 1 else 0

/-! ### Cutting part by part -/

theorem isBreak_eq_of_joins (joint : joins c d) : isBreak c = isBreak d := by
  rcases joins_iff.mp joint with ⟨first, second⟩ | ⟨first, second⟩ | ⟨rfl, rfl⟩
  · rw [isBreak_of_isBlank first, isBreak_of_isBlank second]
  · have solid {c : Char} (word : isWord c) : isBreak c = false := by
      by_contra breaks
      rw [isWord_of_isBreak (eq_true_of_ne_false breaks)] at word
      cases word
    rw [solid first, solid second]
  · rfl

theorem segment_append (apart : ∀ c ∈ a.getLast?, ∀ d ∈ b.head?, isBreak c ≠ isBreak d) :
    segment (a ++ b) = segment a ++ segment b := by
  rw [segment_eq_splitBy, segment_eq_splitBy, segment_eq_splitBy]
  refine List.splitBy_append fun c last d first => ?_
  by_contra joint
  exact apart c last d first (isBreak_eq_of_joins (eq_true_of_ne_false joint))

theorem segment_append_of_breaks (other : endsLine a = false) (breaks : ∀ c ∈ b, isBreak c) :
    segment (a ++ b) = segment a ++ segment b := by
  refine segment_append fun c last d first => ?_
  have plain : isBreak c = false := by simpa [endsLine, Option.mem_def.mp last] using other
  rw [plain, breaks d (List.mem_of_mem_head? first)]
  exact Bool.false_ne_true

theorem segment_of_isNewline (newline : isNewline t) : segment t = [t] := by
  rcases isNewline_iff.mp newline with rfl | rfl | rfl <;> decide

theorem isNewline_of_mem_segment (breaks : ∀ c ∈ a, isBreak c) (member : t ∈ segment a) :
    isNewline t := by
  have lexeme := (wellCut_segment a).lexemes t member
  have first := List.head_mem (ne_nil_of_isLexeme lexeme)
  refine (kind_of_mem lexeme first).1 (breaks _ ?_)
  rw [← flatten_segment a]
  exact List.mem_flatten_of_mem member first

theorem segment_eq_nil_iff : segment a = [] ↔ a = [] := by
  rw [segment_eq_splitBy, List.splitBy_eq_nil]

/-! ### Both ends of a token list -/

theorem WellCut.append (cut : WellCut (ts ++ us)) : WellCut ts ∧ WellCut us := by
  obtain ⟨first, second⟩ := List.forall_mem_append.mp cut.lexemes
  obtain ⟨apart, apart', -⟩ := List.isChain_append.mp cut.apart
  exact ⟨⟨first, apart⟩, ⟨second, apart'⟩⟩

theorem WellCut.endsLine_flatten (cut : WellCut ts) :
    endsLine ts.flatten = ts.getLast?.any isNewline := by
  rcases ts.eq_nil_or_concat with rfl | ⟨front, t, rfl⟩
  · rfl
  · have lexeme := cut.lexemes t (by simp)
    have some := ne_nil_of_isLexeme lexeme
    have last := List.getLast_mem some
    have breaks : isBreak (t.getLast some) = isNewline t :=
      Bool.eq_iff_iff.mpr ⟨(kind_of_mem lexeme last).1, fun newline => isBreak_of_mem newline last⟩
    simp [endsLine, List.getLast?_append, List.getLast?_eq_some_getLast some, breaks]

theorem WellCut.opens_flatten (cut : WellCut ts) :
    (∃ c ∈ ts.flatten.head?, isBreak c = false) ↔ ∃ t ∈ ts.head?, isNewline t = false := by
  cases ts with
  | nil => simp
  | cons t ts =>
    have lexeme := (wellCut_cons.mp cut).1
    cases t with
    | nil => exact (ne_nil_of_isLexeme lexeme rfl).elim
    | cons c t => simp [(isLexeme_cons lexeme).1]

/-! ### Counting -/

/-- The tokens of a text hold as many terminators as its characters say. -/
theorem countP_segment (text : Text) : (segment text).countP isNewline = terminators text := by
  induction text with
  | nil => rfl
  | cons c rest ih =>
    have cut := wellCut_segment (c :: rest)
    have cut' := wellCut_segment rest
    have whole := flatten_segment rest
    rw [segment] at cut ⊢
    rw [terminators, ← ih]
    cases tokens : segment rest with
    | nil =>
      obtain rfl := segment_eq_nil_iff.mp tokens
      simp [attach, List.countP_cons, (isLexeme_cons (isLexeme_singleton c)).1]
    | cons first others =>
      rw [tokens] at cut cut' whole
      obtain ⟨d, token, rfl⟩ := List.exists_cons_of_ne_nil
        (ne_nil_of_isLexeme (wellCut_cons.mp cut').1)
      have head : rest.head? = some d := by
        rw [← whole]
        rfl
      have next := (isLexeme_cons (wellCut_cons.mp cut').1).1
      by_cases joint : joins c d
      · -- The first token grows and stays of its kind; no terminator ends at `c`.
        simp only [attach, joint, if_true] at cut ⊢
        have grown := (isLexeme_cons (wellCut_cons.mp cut).1).1
        have same := isBreak_eq_of_joins joint
        have none : (isBreak c && !(c == '\r' && rest.head? == some '\n')) = false := by
          rcases joins_iff.mp joint with ⟨blank, -⟩ | ⟨word, -⟩ | ⟨rfl, rfl⟩
          · simp [isBreak_of_isBlank blank]
          · by_contra breaks
            have breaks := (Bool.and_eq_true_iff.mp (eq_true_of_ne_false breaks)).1
            simp [isWord_of_isBreak breaks] at word
          · simp [head]
        rw [none, List.countP_cons, List.countP_cons, grown, next, same]
        simp
      · simp only [attach, joint] at cut ⊢
        have alone : (c == '\r' && rest.head? == some '\n') = false := by
          by_contra both
          have both := eq_true_of_ne_false both
          rw [head] at both
          refine joint (joins_iff.mpr (Or.inr (Or.inr ?_)))
          simpa using both
        have single := (isLexeme_cons (isLexeme_singleton c)).1
        rw [alone]
        simp [List.countP_cons, single]

theorem length_segment_of_breaks (breaks : ∀ c ∈ a, isBreak c) :
    (segment a).length = terminators a := by
  rw [← countP_segment, eq_comm, List.countP_eq_length]
  exact fun t member => isNewline_of_mem_segment breaks member

end Retouch.Text
