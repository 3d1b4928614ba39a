import Retouch.Proofs.Rule.Wish

/-!
Trailing blanks and indentation as conditions on the text. A character alone, with what follows it
or with what its line starts with, decides whether it is in place; for tokens as cutting leaves
them, the rules have nothing to wish iff every character is.
-/

namespace Retouch

namespace Text

variable {t rest : Text} {lead : Bool}

/-- No blank stands before a break or at the end. -/
def trimmed : Text → Bool
  | [] => true
  | c :: rest => !(isBlank c && rest.head?.all isBreak) && trimmed rest

/-- No tab stands in an indentation; `lead` says whether the text starts in one. -/
def untabbed : Bool → Text → Bool
  | _, [] => true
  | lead, c :: rest => !(lead && c == '\t') && untabbed (isBreak c || lead && isBlank c) rest

/-! ### Trailing blanks -/

theorem trimmed_append (solid : ∀ c ∈ t, isBlank c = false) :
    trimmed (t ++ rest) = trimmed rest := by
  induction t with
  | nil => rfl
  | cons c t ih =>
    obtain ⟨first, solid⟩ := List.forall_mem_cons.mp solid
    simp [trimmed, first, ih solid]

theorem trimmed_append_of_isBlankRun (blanks : isBlankRun t) :
    trimmed (t ++ rest) = (!rest.head?.all isBreak && trimmed rest) := by
  obtain ⟨some, blank⟩ := isBlankRun_iff.mp blanks
  induction t with
  | nil => exact (some rfl).elim
  | cons c t ih =>
    obtain ⟨first, blank⟩ := List.forall_mem_cons.mp blank
    cases t with
    | nil => simp [trimmed, first]
    | cons d t =>
      have next := isBreak_of_isBlank (blank d List.mem_cons_self)
      have later := ih (isBlankRun_iff.mpr ⟨by simp, blank⟩) (by simp) blank
      rw [List.cons_append, trimmed, later]
      simp [next]

/-! ### Tabs in the indentation -/

theorem untabbed_append_of_isNewline (newline : isNewline t) :
    untabbed lead (t ++ rest) = untabbed true rest := by
  rcases isNewline_iff.mp newline with rfl | rfl | rfl <;> cases lead <;>
    simp [untabbed, isBreak]

theorem untabbed_append_of_isBlankRun (blanks : isBlankRun t) :
    untabbed lead (t ++ rest) = (!(lead && t.contains '\t') && untabbed lead rest) := by
  obtain ⟨-, blank⟩ := isBlankRun_iff.mp blanks
  clear blanks
  induction t with
  | nil => simp
  | cons c t ih =>
    obtain ⟨first, blank⟩ := List.forall_mem_cons.mp blank
    have next := isBreak_of_isBlank first
    rw [List.cons_append, untabbed, next, first, Bool.false_or, Bool.and_true, ih blank,
      List.contains_cons]
    cases lead <;> simp [Bool.and_assoc, Bool.beq_comm]

theorem untabbed_append_of_solid (some : t ≠ [])
    (solid : ∀ c ∈ t, isBlank c = false ∧ isBreak c = false) :
    untabbed lead (t ++ rest) = untabbed false rest := by
  induction t generalizing lead with
  | nil => exact (some rfl).elim
  | cons c t ih =>
    obtain ⟨⟨blank, breaks⟩, solid⟩ := List.forall_mem_cons.mp solid
    have tab : (c == '\t') = false := by
      simp only [isBlank, Bool.or_eq_false_iff] at blank
      exact blank.2
    rw [List.cons_append, untabbed, tab, blank, breaks]
    cases t with
    | nil => simp
    | cons d t => simpa using ih (by simp) solid

theorem untabbed_eq_of_head (lead lead' : Bool) (head : rest.head?.all fun c => !isBlank c) :
    untabbed lead rest = untabbed lead' rest := by
  cases rest with
  | nil => rfl
  | cons c rest =>
    have blank : isBlank c = false := by simpa using head
    have tab : (c == '\t') = false := by
      simp only [isBlank, Bool.or_eq_false_iff] at blank
      exact blank.2
    simp [untabbed, tab, blank]

end Text

/-! ### Rules and texts -/

namespace Rule

open Text (isNewline isBlankRun WellCut)

variable {terminator : Text} {before after tokens : List Text}

theorem forall_wishAt_cons {rule : Rule} {t : Text} :
    (∀ pos, rule.wishAt terminator before (t :: after) pos = none) ↔
      rule.wish terminator before t after = none ∧
        ∀ pos, rule.wishAt terminator (t :: before) after pos = none := by
  constructor
  · intro none
    exact ⟨none 0, fun pos => none (pos + 1)⟩
  · rintro ⟨here, later⟩ pos
    cases pos with
    | zero => exact here
    | succ pos => exact later pos

theorem trailingBlanks_iff (cut : WellCut tokens) :
    (∀ pos, trailingBlanks.wishAt terminator before tokens pos = none) ↔
      Text.trimmed tokens.flatten := by
  induction tokens generalizing before with
  | nil => simp [wishAt, Text.trimmed]
  | cons t after ih =>
    obtain ⟨lexeme, _, cut⟩ := Text.wellCut_cons.mp cut
    rw [forall_wishAt_cons, ih cut, List.flatten_cons, wish]
    cases blanks : isBlankRun t with
    | true =>
      rw [Text.trimmed_append_of_isBlankRun blanks, cut.head?_flatten.1]
      simp
    | false =>
      have solid : ∀ c ∈ t, Text.isBlank c = false := by
        intro c member
        by_contra blank
        simp [(Text.kind_of_mem lexeme member).2.1 (eq_true_of_ne_false blank)] at blanks
      rw [Text.trimmed_append solid]
      simp

theorem tabIndent_iff {width : Nat} (cut : WellCut tokens) :
    (∀ pos, (tabIndent width).wishAt terminator before tokens pos = none) ↔
      Text.untabbed (before.head?.all isNewline) tokens.flatten := by
  induction tokens generalizing before with
  | nil => simp [wishAt, Text.untabbed]
  | cons t after ih =>
    obtain ⟨lexeme, next, cut⟩ := Text.wellCut_cons.mp cut
    rw [forall_wishAt_cons, ih cut, List.flatten_cons, wish, List.head?_cons, Option.all_some]
    cases newline : isNewline t with
    | true =>
      rw [Text.untabbed_append_of_isNewline newline]
      simp [isBlankRun_of_isNewline newline]
    | false =>
      cases blanks : isBlankRun t with
      | true =>
        have head : after.flatten.head?.all fun c => !Text.isBlank c := by
          rw [cut.head?_flatten.2]
          exact Text.head?_of_isBlankRun blanks next
        rw [Text.untabbed_append_of_isBlankRun blanks,
          Text.untabbed_eq_of_head false (before.head?.all isNewline) head]
        cases before.head?.all isNewline <;> simp
      | false =>
        rw [Text.untabbed_append_of_solid (Text.ne_nil_of_isLexeme lexeme)
          (Text.solid_of_isLexeme lexeme newline blanks)]
        simp

end Rule

end Retouch
