import Mathlib.Logic.Relation
import Retouch.Proofs.Linter.Sweeping

/-!
What a run can do to a text. Every pass rewrites the text from the left, one token at a time, and
`Touch` lists all that it can do at a token; so a property of texts that no touch changes is the
same before and after a run, whatever rules are on and wherever the run stops.
-/

namespace Retouch.Linter

open Relation (ReflTransGen)
open Text (isBreak isBlank isNewline isBlankRun isLexeme WellCut segment)

variable {on : Rule → Bool} {width : Nat} {terminator t left : Text}
  {before after tokens : List Text}

/-- A change at one place of a text; `trims` says whether blanks at the end of a line go. -/
inductive Touch (trims : Bool) (width : Nat) (terminator : Text) : Text → Text → Prop
  | trim {left t right : Text} (blank : ∀ c ∈ t, isBlank c) (ends : right.head?.all isBreak) :
    Touch trims width terminator (left ++ t ++ right) (left ++ right)
  | indent {left t right : Text} (blank : ∀ c ∈ t, isBlank c) (opens : left.getLast?.all isBreak) :
    Touch trims width terminator (left ++ t ++ right)
      (left ++ Rule.TabIndent.expand width t ++ right)
  /-- The third terminator of a run goes. -/
  | squeeze {left u v t right : Text} (newlines : ∀ w ∈ [u, v, t], isNewline w) :
    Touch trims width terminator (left ++ u ++ v ++ t ++ right) (left ++ u ++ v ++ right)
  /-- The second terminator of the final run goes. -/
  | shorten {left u t right : Text} (newlines : ∀ w ∈ [u, t], isNewline w)
    (last : ∀ c ∈ right, isBreak c) :
    Touch trims width terminator (left ++ u ++ t ++ right) (left ++ u ++ right)
  | finish {left t : Text} (some : t ≠ []) (unbroken : ∀ c ∈ t, isBreak c = false)
    (solid : trims = true → ∀ c ∈ t, isBlank c = false) :
    Touch trims width terminator (left ++ t) (left ++ t ++ terminator)

def EndsIn : Nat → Text → Prop
  | 0, _ => True
  | n + 1, text => ∃ left t, isNewline t ∧ EndsIn n left ∧ text = left ++ t

theorem EndsIn.of_le {m n : Nat} {text : Text} (ends : EndsIn n text) (le : m ≤ n) :
    EndsIn m text := by
  induction n generalizing m text with
  | zero =>
    obtain rfl := Nat.le_zero.mp le
    trivial
  | succ n ih =>
    cases m with
    | zero => trivial
    | succ m =>
      obtain ⟨left, t, newline, ends, same⟩ := ends
      exact ⟨left, t, newline, ih ends (Nat.le_of_succ_le_succ le), same⟩

theorem EndsIn.getLast? {text : Text} (ends : EndsIn 1 text) : text.getLast?.all isBreak := by
  obtain ⟨left, t, newline, -, rfl⟩ := ends
  rcases Text.isNewline_iff.mp newline with rfl | rfl | rfl <;> simp [isBreak]

theorem isBreak_of_all (all : after.all isNewline) : ∀ c ∈ after.flatten, isBreak c := by
  intro c member
  obtain ⟨t, listed, member⟩ := List.mem_flatten.mp member
  exact Text.isBreak_of_mem (List.all_eq_true.mp all t listed) member

/-- How many terminators a pass leaves at least of a run that it has read up to here. -/
def kept (before tokens : List Text) : Nat :=
  min (before.takeWhile isNewline).length (if tokens.all isNewline then 1 else 2)

theorem endsIn_of_surplus (ends : EndsIn (kept before (t :: after)) left) (newline : isNewline t)
    (drops : surplus on before after) :
    EndsIn (if after.all isNewline then 1 else 2) left := by
  have some : 1 ≤ (before.takeWhile isNewline).length := by
    have run := any_of_surplus drops
    cases before with
    | nil => cases run
    | cons u before =>
      rw [length_takeWhile_cons (by simpa using run)]
      omega
  refine ends.of_le ?_
  unfold kept
  unfold surplus at drops
  rw [List.all_cons, newline, Bool.true_and]
  split at drops
  case isTrue all =>
    rw [if_pos all]
    omega
  case isFalse further =>
    have third := of_decide_eq_true (Bool.and_eq_true_iff.mp drops).2
    rw [if_neg further]
    omega

theorem opens_of_kept (opens : before = [] → left = [])
    (ends : EndsIn (kept before (t :: after)) left) (indents : before.head?.all isNewline) :
    left.getLast?.all isBreak := by
  cases before with
  | nil =>
    rw [opens rfl]
    rfl
  | cons u before =>
    refine (ends.of_le ?_).getLast?
    unfold kept
    rw [length_takeWhile_cons (by simpa using indents)]
    split <;> omega

/-! ### One token -/

variable (on width terminator)

theorem touch_finish {trims : Bool} (some : t ≠ []) (unbroken : ∀ c ∈ t, isBreak c = false)
    (solid : trims = true → ∀ c ∈ t, isBlank c = false) (last : after.isEmpty) :
    ReflTransGen (Touch trims width terminator) (left ++ t ++ after.flatten)
      (left ++ (t ++ terminator) ++ after.flatten) := by
  obtain rfl := List.isEmpty_iff.mp last
  rw [List.flatten_nil, List.append_nil, List.append_nil, ← List.append_assoc]
  exact .single (.finish some unbroken solid)

theorem touch_wanted (cut : WellCut (t :: after)) (opens : before = [] → left = [])
    (ends : EndsIn (kept before (t :: after)) left) :
    ReflTransGen (Touch (on .trailingBlanks) width terminator) (left ++ t ++ after.flatten)
      (left ++ (wanted ((Rule.all width).filter on) terminator before t after).getD t ++
        after.flatten) := by
  obtain ⟨lexeme, -, cut⟩ := Text.wellCut_cons.mp cut
  cases newline : isNewline t with
  | true =>
    rw [wanted_of_newline newline]
    split
    case isFalse => exact .refl
    case isTrue drops =>
      have ends := endsIn_of_surplus ends newline drops
      rw [Option.getD_some, List.append_nil]
      cases all : after.all isNewline with
      | true =>
        rw [all] at ends
        obtain ⟨left, u, newline', -, rfl⟩ := ends
        exact .single (.shorten (by simp [newline, newline']) (isBreak_of_all all))
      | false =>
        rw [all] at ends
        obtain ⟨_, v, second, ⟨left, u, first, -, rfl⟩, rfl⟩ := ends
        exact .single (.squeeze (by simp [newline, first, second]))
  | false =>
    have unbroken : ∀ c ∈ t, isBreak c = false := by
      intro c member
      by_contra breaks
      rw [(Text.kind_of_mem lexeme member).1 (eq_true_of_ne_false breaks)] at newline
      cases newline
    have some := Text.ne_nil_of_isLexeme lexeme
    cases blanks : isBlankRun t with
    | true =>
      have blank := (Text.isBlankRun_iff.mp blanks).2
      rw [wanted_of_blank blanks]
      split
      case isTrue trails =>
        rw [Option.getD_some, List.append_nil]
        refine .single (.trim blank ?_)
        rw [cut.head?_flatten.1]
        exact (Bool.and_eq_true_iff.mp trails).2
      case isFalse stays =>
        split
        case isTrue tabbed =>
          simp only [Bool.and_eq_true] at tabbed
          exact .single (.indent blank (opens_of_kept opens ends tabbed.2.2))
        case isFalse =>
          split
          case isTrue last =>
            have ended := (Bool.and_eq_true_iff.mp last).2
            refine touch_finish width terminator some unbroken (fun trims => ?_) ended
            simp [trims, List.isEmpty_iff.mp ended] at stays
          case isFalse => exact .refl
    | false =>
      rw [wanted_of_solid newline blanks]
      split
      case isTrue last =>
        have solid := Text.solid_of_isLexeme lexeme newline blanks
        exact touch_finish width terminator some unbroken (fun _ c member => (solid c member).1)
          (Bool.and_eq_true_iff.mp last).2
      case isFalse => exact .refl

theorem endsIn_wanted (ends : EndsIn (kept before (t :: after)) left) :
    EndsIn (kept (t :: before) after)
      (left ++ (wanted ((Rule.all width).filter on) terminator before t after).getD t) := by
  cases newline : isNewline t with
  | false =>
    unfold kept
    rw [length_takeWhile_eq_zero (by simpa using newline), Nat.zero_min]
    trivial
  | true =>
    rw [wanted_of_newline newline]
    split
    case isTrue drops =>
      rw [Option.getD_some, List.append_nil]
      exact (endsIn_of_surplus ends newline drops).of_le (Nat.min_le_right _ _)
    case isFalse =>
      have one_more : EndsIn (kept before (t :: after) + 1) (left ++ t) :=
        ⟨left, t, newline, ends, rfl⟩
      refine one_more.of_le ?_
      unfold kept
      rw [length_takeWhile_cons newline, List.all_cons, newline, Bool.true_and]
      omega

/-! ### All tokens -/

theorem touches_mended (cut : WellCut tokens) (opens : before = [] → left = [])
    (ends : EndsIn (kept before tokens) left) :
    ReflTransGen (Touch (on .trailingBlanks) width terminator) (left ++ tokens.flatten)
      (left ++ (mended ((Rule.all width).filter on) terminator before tokens).flatten) := by
  -- The text left of the scan is already as the pass leaves it, the rest still as it was.
  induction tokens generalizing before left with
  | nil => exact .refl
  | cons t after ih =>
    have later := ih (Text.wellCut_cons.mp cut).2.2 (by simp)
      (endsIn_wanted on width terminator ends)
    rw [mended, List.flatten_cons, List.flatten_cons, ← List.append_assoc, ← List.append_assoc]
    exact (touch_wanted on width terminator cut opens ends).trans later

theorem touches_sweptText (text : Text) :
    ReflTransGen (Touch (on .trailingBlanks) width terminator) text
      (sweptText ((Rule.all width).filter on) terminator text) := by
  have start : EndsIn (kept [] (segment text)) [] := by
    rw [kept, List.takeWhile_nil, List.length_nil, Nat.zero_min]
    trivial
  have touches := touches_mended on width terminator (Text.wellCut_segment text) (fun _ => rfl) start
  rwa [Text.flatten_segment] at touches

/-- A run changes the text by touches only. -/
theorem touches_fixText (text : Text) (config : Config) :
    ReflTransGen (Touch (config.enables Rule.trailingBlanks.code) config.tabWidth
        ((ofText text config).session config).terminator)
      text (fixText text config).session.contents := by
  rw [fixText_contents]
  generalize min config.maxPasses 2 = passes
  generalize ((ofText text config).session config).terminator = terminator
  induction passes with
  | zero => exact .refl
  | succ passes ih =>
    rw [Function.iterate_succ_apply']
    exact ih.trans
      (touches_sweptText (fun rule => config.enables rule.code) config.tabWidth terminator _)

end Retouch.Linter
