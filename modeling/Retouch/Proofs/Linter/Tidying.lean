import Retouch.Proofs.Linter.Mending
import Retouch.Proofs.Rule.Tidy

/-!
What one pass leaves of blanks. The rules that look at blanks come first, so that nothing blocks
them: whatever the text was, after a pass no blank trails and no tab indents. `wanted_of_newline`,
`wanted_of_blank` and `wanted_of_solid` say what a pass does to each kind of token.
-/

namespace Retouch.Linter

open Text (isNewline isBlankRun isLexeme WellCut)

variable {on : Rule → Bool} {width : Nat} {terminator t : Text} {before after tokens : List Text}

/-! ### Kinds of token -/

/-- A terminator between these tokens is one too many. -/
def surplus (on : Rule → Bool) (before after : List Text) : Bool :=
  if after.all isNewline then on .finalNewline && before.head?.any isNewline
  else on .blankLines && 2 ≤ (before.takeWhile isNewline).length

theorem findSome?_filter_cons {α β : Type} {p : α → Bool} {f : α → Option β} (a : α) (l : List α) :
    ((a :: l).filter p).findSome? f = (if p a then f a else none).or ((l.filter p).findSome? f) := by
  by_cases holds : p a
  · rw [List.filter_cons_of_pos holds, if_pos holds, List.findSome?_cons]
    cases f a <;> rfl
  · rw [List.filter_cons_of_neg holds, if_neg holds, Option.none_or]

theorem wanted_eq : wanted ((Rule.all width).filter on) terminator before t after =
    (if on .trailingBlanks then Rule.trailingBlanks.wish terminator before t after else none).or
    ((if on (.tabIndent width) then (Rule.tabIndent width).wish terminator before t after
      else none).or
    ((if on .finalNewline then Rule.finalNewline.wish terminator before t after else none).or
    (if on .blankLines then Rule.blankLines.wish terminator before t after else none))) := by
  rw [wanted, Rule.all]
  simp only [findSome?_filter_cons, List.filter_nil, List.findSome?_nil, Option.or_none]

theorem wanted_of_newline (newline : isNewline t) :
    wanted ((Rule.all width).filter on) terminator before t after =
      if surplus on before after then some [] else none := by
  have solid := Rule.isBlankRun_of_isNewline newline
  rw [wanted_eq, surplus]
  cases last : after.all isNewline <;> cases on .finalNewline <;> cases on .blankLines <;>
    simp [Rule.wish, newline, solid, last]

theorem wanted_of_blank (blanks : isBlankRun t) :
    wanted ((Rule.all width).filter on) terminator before t after =
      if on .trailingBlanks && after.head?.all isNewline then some []
      else if on (.tabIndent width) && (t.contains '\t' && before.head?.all isNewline) then
        some (Rule.TabIndent.expand width t)
      else if on .finalNewline && after.isEmpty then some (t ++ terminator) else none := by
  have newline : isNewline t = false := by
    by_contra newline
    simp [Rule.isBlankRun_of_isNewline (eq_true_of_ne_false newline)] at blanks
  rw [wanted_eq]
  simp only [Rule.wish, newline, blanks, Bool.true_and, Bool.and_true, Bool.false_and,
    Bool.false_eq_true, if_false]
  generalize after.head?.all isNewline = trails
  generalize (t.contains '\t' && before.head?.all isNewline) = tabbed
  generalize after.isEmpty = last
  cases on .trailingBlanks <;> cases on (.tabIndent width) <;> cases on .finalNewline <;>
    cases on .blankLines <;> cases trails <;> cases tabbed <;> cases last <;> rfl

theorem wanted_of_solid (newline : isNewline t = false) (blanks : isBlankRun t = false) :
    wanted ((Rule.all width).filter on) terminator before t after =
      if on .finalNewline && after.isEmpty then some (t ++ terminator) else none := by
  rw [wanted_eq]
  cases on .finalNewline <;> simp [Rule.wish, newline, blanks]

/-! ### Widened tabs -/

theorem mem_widen {stop column : Nat} {c : Char} (member : c ∈ Rule.TabIndent.widen stop column t) :
    c = ' ' ∨ c ∈ t ∧ c ≠ '\t' := by
  induction t generalizing column with
  | nil => simp [Rule.TabIndent.widen] at member
  | cons d t ih =>
    rw [Rule.TabIndent.widen] at member
    split at member
    · rcases List.mem_append.mp member with pad | later
      · exact Or.inl (List.eq_of_mem_replicate pad)
      · exact (ih later).imp_right fun h => ⟨List.mem_cons_of_mem d h.1, h.2⟩
    · rename_i other
      rcases List.mem_cons.mp member with rfl | later
      · exact Or.inr ⟨List.mem_cons_self, by simpa using other⟩
      · exact (ih later).imp_right fun h => ⟨List.mem_cons_of_mem d h.1, h.2⟩

theorem expand_ne_nil (some : t ≠ []) : Rule.TabIndent.expand width t ≠ [] := by
  cases t with
  | nil => exact (some rfl).elim
  | cons c t =>
    rw [Rule.TabIndent.expand, Rule.TabIndent.widen]
    split
    · have pad : max width 1 - 0 % max width 1 ≠ 0 := by
        rw [Nat.zero_mod]
        omega
      intro empty
      exact pad ((List.replicate_eq_nil_iff _).mp (List.append_eq_nil_iff.mp empty).1)
    · simp

theorem isBlank_expand (blank : ∀ c ∈ t, Text.isBlank c) :
    ∀ c ∈ Rule.TabIndent.expand width t, Text.isBlank c := by
  intro c member
  rcases mem_widen member with rfl | ⟨member, -⟩
  · rfl
  · exact blank c member

theorem isBlankRun_expand (blanks : isBlankRun t) : isBlankRun (Rule.TabIndent.expand width t) := by
  obtain ⟨some, blank⟩ := Text.isBlankRun_iff.mp blanks
  exact Text.isBlankRun_iff.mpr ⟨expand_ne_nil some, isBlank_expand blank⟩

theorem contains_expand : (Rule.TabIndent.expand width t).contains '\t' = false := by
  rw [List.contains_eq_mem, decide_eq_false_iff_not]
  intro member
  rcases mem_widen member with space | ⟨_, other⟩
  · exact absurd space (by decide)
  · exact other rfl

/-! ### After a pass -/

theorem isBlank_of_newline (newline : isNewline t) : ∀ c ∈ t, Text.isBlank c = false := by
  intro c member
  by_contra blank
  simpa [Text.isBreak_of_isBlank (eq_true_of_ne_false blank)] using
    Text.isBreak_of_mem newline member

theorem head?_mended_of_solid (lexeme : isLexeme t) (newline : isNewline t = false)
    (blanks : isBlankRun t = false) :
    (mended ((Rule.all width).filter on) terminator before (t :: after)).flatten.head?.all
      Text.isBreak = false := by
  rw [mended, wanted_of_solid newline blanks, List.flatten_cons]
  cases t with
  | nil => exact (Text.ne_nil_of_isLexeme lexeme rfl).elim
  | cons c t =>
    rw [(Text.isLexeme_cons lexeme).1] at newline
    split <;> exact newline

theorem trimmed_mended (trailing : on .trailingBlanks) (ends : isNewline terminator)
    (cut : WellCut tokens) :
    Text.trimmed (mended ((Rule.all width).filter on) terminator before tokens).flatten := by
  induction tokens generalizing before with
  | nil => rfl
  | cons t after ih =>
    obtain ⟨lexeme, next, cut'⟩ := Text.wellCut_cons.mp cut
    have later : Text.trimmed
        (mended ((Rule.all width).filter on) terminator (t :: before) after).flatten := ih cut'
    rw [mended, List.flatten_cons]
    cases newline : isNewline t with
    | true =>
      rw [wanted_of_newline newline]
      split
      · exact later
      · rwa [Option.getD_none, Text.trimmed_append (isBlank_of_newline newline)]
    | false =>
      cases blanks : isBlankRun t with
      | true =>
        rw [wanted_of_blank blanks, trailing, Bool.true_and]
        cases after with
        | nil => exact later
        | cons u rest =>
          obtain ⟨lexeme', -, -⟩ := Text.wellCut_cons.mp cut'
          cases newline' : isNewline u with
          | true => simpa [newline'] using later
          | false =>
            have blanks' : isBlankRun u = false := by
              simpa using Text.head?_of_isBlankRun blanks next
            rw [List.head?_cons, Option.all_some, newline', if_neg Bool.false_ne_true,
              List.isEmpty_cons, Bool.and_false, if_neg Bool.false_ne_true]
            split
            · rw [Option.getD_some, Text.trimmed_append_of_isBlankRun (isBlankRun_expand blanks),
                head?_mended_of_solid lexeme' newline' blanks', later]
              rfl
            · rw [Option.getD_none, Text.trimmed_append_of_isBlankRun blanks,
                head?_mended_of_solid lexeme' newline' blanks', later]
              rfl
      | false =>
        have solid := Text.solid_of_isLexeme lexeme newline blanks
        rw [wanted_of_solid newline blanks]
        split
        · rw [Option.getD_some, List.append_assoc, Text.trimmed_append fun c h => (solid c h).1,
            Text.trimmed_append (isBlank_of_newline ends)]
          exact later
        · rwa [Option.getD_none, Text.trimmed_append fun c h => (solid c h).1]

theorem untabbed_mended (tabs : on (.tabIndent width)) (ends : isNewline terminator)
    (cut : WellCut tokens) {lead : Bool} (leads : lead = true →
      before.head?.all isNewline = true ∨ tokens.head?.all (fun t => !isBlankRun t) = true) :
    Text.untabbed lead
      (mended ((Rule.all width).filter on) terminator before tokens).flatten := by
  -- The scan may think itself in an indentation where the tokens do not, but only before a token
  -- that is not blank.
  induction tokens generalizing before lead with
  | nil => rfl
  | cons t after ih =>
    obtain ⟨lexeme, next, cut⟩ := Text.wellCut_cons.mp cut
    rw [mended, List.flatten_cons]
    cases newline : isNewline t with
    | true =>
      have later (lead : Bool) : Text.untabbed lead
          (mended ((Rule.all width).filter on) terminator (t :: before) after).flatten :=
        ih cut (fun _ => Or.inl newline)
      rw [wanted_of_newline newline]
      split
      · exact later lead
      · rw [Option.getD_none, Text.untabbed_append_of_isNewline newline]
        exact later true
    | false =>
      cases blanks : isBlankRun t with
      | true =>
        have indent : lead = true → before.head?.all isNewline = true := by
          intro led
          rcases leads led with opens | other
          · exact opens
          · simp [blanks] at other
        have later : Text.untabbed lead
            (mended ((Rule.all width).filter on) terminator (t :: before) after).flatten :=
          ih cut (fun _ => Or.inr (Text.head?_of_isBlankRun blanks next))
        rw [wanted_of_blank blanks, tabs, Bool.true_and]
        split
        case isTrue => exact later
        case isFalse =>
          split
          case isTrue =>
            rw [Option.getD_some, Text.untabbed_append_of_isBlankRun (isBlankRun_expand blanks),
              contains_expand, Bool.and_false, later]
            rfl
          case isFalse untabbed =>
            have clean : (lead && t.contains '\t') = false := by
              cases lead with
              | false => rfl
              | true => simpa [indent rfl] using untabbed
            split
            case isTrue last =>
              obtain rfl : after = [] := by simpa using (Bool.and_eq_true_iff.mp last).2
              rw [Option.getD_some, List.append_assoc, Text.untabbed_append_of_isBlankRun blanks,
                clean, Text.untabbed_append_of_isNewline ends]
              rfl
            case isFalse =>
              rw [Option.getD_none, Text.untabbed_append_of_isBlankRun blanks, clean, later]
              rfl
      | false =>
        have later : Text.untabbed false
            (mended ((Rule.all width).filter on) terminator (t :: before) after).flatten :=
          ih cut (fun led => by simp at led)
        have some := Text.ne_nil_of_isLexeme lexeme
        have solid := Text.solid_of_isLexeme lexeme newline blanks
        rw [wanted_of_solid newline blanks]
        split
        case isTrue last =>
          obtain rfl : after = [] := by simpa using (Bool.and_eq_true_iff.mp last).2
          rw [Option.getD_some, List.append_assoc, Text.untabbed_append_of_solid some solid,
            Text.untabbed_append_of_isNewline ends]
          rfl
        case isFalse =>
          rw [Option.getD_none, Text.untabbed_append_of_solid some solid]
          exact later

end Retouch.Linter
