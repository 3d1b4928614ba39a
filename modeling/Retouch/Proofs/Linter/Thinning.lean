import Retouch.Proofs.Linter.Tidying

/-!
A pass over a text whose blanks are in place. Then only terminators go, and never the first of a
run, so that what is left is cut as it was before: no two tokens come to touch that would join.
`thinned` lists it, and nothing about its terminators is left to wish.
-/

namespace Retouch.Linter

open Text (isNewline isBlankRun isLexeme WellCut)
open Rule (forall_wishAt_cons)

variable {on : Rule → Bool} {width : Nat} {terminator t : Text}
  {before shown after tokens : List Text}

/-- The tokens that a pass leaves if it finds nothing wrong with blanks. -/
def thinned (on : Rule → Bool) (terminator : Text) : List Text → List Text → List Text
  | _, [] => []
  | before, t :: after =>
    if isNewline t then
      if surplus on before after then thinned on terminator (t :: before) after
      else t :: thinned on terminator (t :: before) after
    else if on .finalNewline && after.isEmpty then [t, terminator]
    else t :: thinned on terminator (t :: before) after

theorem wanted_of_other (newline : isNewline t = false)
    (trailing : on .trailingBlanks = true →
      Rule.trailingBlanks.wish terminator before t after = none)
    (tabs : on (.tabIndent width) = true →
      (Rule.tabIndent width).wish terminator before t after = none) :
    wanted ((Rule.all width).filter on) terminator before t after =
      if on .finalNewline && after.isEmpty then some (t ++ terminator) else none := by
  cases blanks : isBlankRun t with
  | false => exact wanted_of_solid newline blanks
  | true =>
    simp only [Rule.wish, blanks, Bool.true_and, Bool.and_true, ite_eq_right_iff, reduceCtorEq,
      imp_false] at trailing tabs
    rw [wanted_of_blank blanks, if_neg, if_neg]
    · rw [Bool.and_eq_true]
      exact fun h => tabs h.1 h.2
    · rw [Bool.and_eq_true]
      exact fun h => trailing h.1 h.2

theorem flatten_mended
    (trailing : on .trailingBlanks = true →
      ∀ pos, Rule.trailingBlanks.wishAt terminator before tokens pos = none)
    (tabs : on (.tabIndent width) = true →
      ∀ pos, (Rule.tabIndent width).wishAt terminator before tokens pos = none) :
    (mended ((Rule.all width).filter on) terminator before tokens).flatten =
      (thinned on terminator before tokens).flatten := by
  induction tokens generalizing before with
  | nil => rfl
  | cons t after ih =>
    rw [mended, thinned, List.flatten_cons,
      ih (fun holds => (forall_wishAt_cons.mp (trailing holds)).2)
        (fun holds => (forall_wishAt_cons.mp (tabs holds)).2)]
    cases newline : isNewline t with
    | true =>
      rw [wanted_of_newline newline, if_pos rfl]
      split <;> rfl
    | false =>
      rw [wanted_of_other newline (fun holds => (forall_wishAt_cons.mp (trailing holds)).1)
        (fun holds => (forall_wishAt_cons.mp (tabs holds)).1), if_neg Bool.false_ne_true]
      split
      case isTrue last =>
        obtain rfl : after = [] := by simpa using (Bool.and_eq_true_iff.mp last).2
        simp [thinned]
      case isFalse => rfl

/-! ### What is left -/

theorem all_thinned : (thinned on terminator before tokens).all isNewline =
    tokens.all isNewline := by
  induction tokens generalizing before with
  | nil => rfl
  | cons t after ih =>
    rw [thinned, List.all_cons]
    cases newline : isNewline t with
    | true =>
      rw [if_pos rfl]
      split
      · rw [ih, Bool.true_and]
      · rw [List.all_cons, newline, ih]
    | false =>
      rw [if_neg Bool.false_ne_true]
      split <;> simp [newline]

theorem length_takeWhile_cons (newline : isNewline t) :
    ((t :: before).takeWhile isNewline).length = (before.takeWhile isNewline).length + 1 := by
  rw [List.takeWhile_cons_of_pos newline, List.length_cons]

theorem length_takeWhile_eq_zero (opens : before.head?.any isNewline = false) :
    (before.takeWhile isNewline).length = 0 := by
  cases before with
  | nil => rfl
  | cons t before =>
    rw [List.takeWhile_cons_of_neg (by simpa using opens), List.length_nil]

theorem surplus_of_opens (opens : before.head?.any isNewline = false) :
    surplus on before after = false := by
  unfold surplus
  rw [opens, length_takeWhile_eq_zero opens]
  split <;> simp

theorem any_of_surplus (drops : surplus on before after) :
    before.head?.any isNewline = true := by
  by_contra opens
  rw [surplus_of_opens (eq_false_of_ne_true opens)] at drops
  cases drops

theorem thinned_ne_nil (some : tokens ≠ []) (opens : before.head?.any isNewline = false) :
    thinned on terminator before tokens ≠ [] := by
  cases tokens with
  | nil => exact (some rfl).elim
  | cons t after =>
    rw [thinned, surplus_of_opens opens]
    repeat' split
    all_goals simp_all

theorem finalNewline_thinned (final : on .finalNewline) (ends : isNewline terminator)
    (same : shown.head?.any isNewline = before.head?.any isNewline) :
    ∀ pos, Rule.finalNewline.wishAt terminator shown (thinned on terminator before tokens) pos =
      none := by
  induction tokens generalizing before shown with
  | nil => exact fun _ => rfl
  | cons t after ih =>
    rw [thinned]
    cases newline : isNewline t with
    | true =>
      rw [if_pos rfl]
      split
      case isTrue drops =>
        apply ih
        rw [same, any_of_surplus drops, List.head?_cons, Option.any_some, newline]
      case isFalse stays =>
        refine forall_wishAt_cons.mpr ⟨?_, ih rfl⟩
        rw [Rule.wish, if_pos newline, all_thinned, same, if_neg]
        intro drops
        obtain ⟨all, run⟩ := Bool.and_eq_true_iff.mp drops
        simp [surplus, all, final, run] at stays
    | false =>
      rw [if_neg Bool.false_ne_true, final, Bool.true_and]
      split
      case isTrue =>
        refine forall_wishAt_cons.mpr ⟨?_, forall_wishAt_cons.mpr ⟨?_, fun _ => rfl⟩⟩
        · simp [Rule.wish, newline]
        · simp [Rule.wish, ends, newline]
      case isFalse more =>
        refine forall_wishAt_cons.mpr ⟨?_, ih rfl⟩
        have left : thinned on terminator (t :: before) after ≠ [] :=
          thinned_ne_nil (by simpa using more) newline
        simp [Rule.wish, newline, left]

theorem wishAt_blankLines_of_all (all : tokens.all isNewline) :
    ∀ pos, Rule.blankLines.wishAt terminator shown tokens pos = none := by
  induction tokens generalizing shown with
  | nil => exact fun _ => rfl
  | cons t after ih =>
    obtain ⟨-, all⟩ := Bool.and_eq_true_iff.mp (List.all_cons ▸ all)
    refine forall_wishAt_cons.mpr ⟨?_, ih all⟩
    simp only [Rule.wish, all, Bool.not_true, Bool.and_false, Bool.false_and, Bool.false_eq_true,
      if_false]

theorem blankLines_thinned (lines : on .blankLines) (ends : isNewline terminator)
    (same : tokens.all isNewline = true ∨ (shown.takeWhile isNewline).length =
      min (before.takeWhile isNewline).length 2) :
    ∀ pos, Rule.blankLines.wishAt terminator shown (thinned on terminator before tokens) pos =
      none := by
  -- As long as more text follows, a run is shown as it is read, but for at most two terminators.
  induction tokens generalizing before shown with
  | nil => exact fun _ => rfl
  | cons t after ih =>
    cases all : (t :: after).all isNewline with
    | true =>
      apply wishAt_blankLines_of_all
      rw [all_thinned, all]
    | false =>
      have same := same.resolve_left (by simp [all])
      rw [thinned]
      cases newline : isNewline t with
      | true =>
        have further : after.all isNewline = false := by
          simpa only [List.all_cons, newline, Bool.true_and] using all
        have drops : surplus on before after =
            decide (2 ≤ (before.takeWhile isNewline).length) := by
          simp [surplus, further, lines]
        rw [if_pos rfl, drops]
        split
        case isTrue third =>
          have third := of_decide_eq_true third
          refine ih (Or.inr ?_)
          rw [same, length_takeWhile_cons newline]
          omega
        case isFalse early =>
          have early := of_decide_eq_false (eq_false_of_ne_true early)
          refine forall_wishAt_cons.mpr ⟨?_, ih (Or.inr ?_)⟩
          · have short : ¬2 ≤ (shown.takeWhile isNewline).length := by omega
            simp [Rule.wish, short]
          · rw [length_takeWhile_cons newline, length_takeWhile_cons newline]
            omega
      | false =>
        rw [if_neg Bool.false_ne_true]
        have here : ∀ rest, Rule.blankLines.wish terminator shown t rest = none := by
          simp [Rule.wish, newline]
        split
        case isTrue =>
          exact forall_wishAt_cons.mpr ⟨here _, wishAt_blankLines_of_all (by simp [ends])⟩
        case isFalse =>
          refine forall_wishAt_cons.mpr ⟨here _, ih (Or.inr ?_)⟩
          rw [length_takeWhile_eq_zero (by simpa using newline),
            length_takeWhile_eq_zero (by simpa using newline)]
          rfl

/-! ### How it is cut -/

theorem surplus_cons {u : Text} (newline : isNewline t) (newline' : isNewline u)
    (drops : surplus on before (u :: after)) : surplus on (t :: before) after := by
  unfold surplus at drops ⊢
  rw [List.all_cons, newline', Bool.true_and] at drops
  split at drops
  case isTrue all =>
    rw [if_pos all]
    simpa [newline] using (Bool.and_eq_true_iff.mp drops).1
  case isFalse further =>
    rw [if_neg further, length_takeWhile_cons newline]
    obtain ⟨lines, third⟩ := Bool.and_eq_true_iff.mp drops
    have third := of_decide_eq_true third
    simp only [lines, Bool.true_and, decide_eq_true_eq]
    omega

theorem head?_thinned_of_surplus (newline : isNewline t) (drops : surplus on before after) :
    ∀ u ∈ (thinned on terminator (t :: before) after).head?, isNewline u = false := by
  induction after generalizing t before with
  | nil => simp [thinned]
  | cons u rest ih =>
    intro head member
    rw [thinned] at member
    cases newline' : isNewline u with
    | true =>
      have again := surplus_cons newline newline' drops
      rw [if_pos newline', if_pos again] at member
      exact ih newline' again head member
    | false =>
      rw [if_neg (ne_true_of_eq_false newline')] at member
      obtain rfl : u = head := by
        split at member <;> simpa using member
      exact newline'

/-- What comes to stand first stood there before, or it follows a terminator and is none. -/
theorem head?_thinned {u : Text} (member : u ∈ (thinned on terminator before tokens).head?) :
    tokens.head? = some u ∨ isNewline u = false ∧ before.head?.any isNewline = true := by
  cases tokens with
  | nil => simp [thinned] at member
  | cons t after =>
    rw [thinned] at member
    split at member
    case isTrue newline =>
      split at member
      case isTrue drops =>
        exact Or.inr ⟨head?_thinned_of_surplus newline drops u member, any_of_surplus drops⟩
      case isFalse => exact Or.inl member
    case isFalse =>
      split at member <;> exact Or.inl member

theorem wellCut_thinned (ends : isNewline terminator) (cut : WellCut tokens) :
    WellCut (thinned on terminator before tokens) := by
  induction tokens generalizing before with
  | nil => exact cut
  | cons t after ih =>
    obtain ⟨lexeme, next, cut⟩ := Text.wellCut_cons.mp cut
    rw [thinned]
    cases newline : isNewline t with
    | true =>
      rw [if_pos rfl]
      split
      · exact ih cut
      · refine Text.wellCut_cons.mpr ⟨lexeme, fun u member => ?_, ih cut⟩
        rcases head?_thinned member with same | ⟨other, -⟩
        · exact next u same
        · exact (Text.staysApart_of_newline newline other).1
    | false =>
      rw [if_neg Bool.false_ne_true]
      split
      · have last : isLexeme terminator := by simp [isLexeme, ends]
        refine Text.wellCut_cons.mpr ⟨lexeme, fun u member => ?_,
          Text.wellCut_cons.mpr ⟨last, by simp, Text.wellCut_nil⟩⟩
        obtain rfl : terminator = u := by simpa using member
        exact (Text.staysApart_of_newline ends newline).2
      · refine Text.wellCut_cons.mpr ⟨lexeme, fun u member => ?_, ih cut⟩
        rcases head?_thinned member with same | ⟨-, opens⟩
        · exact next u same
        · simp [newline] at opens

end Retouch.Linter
