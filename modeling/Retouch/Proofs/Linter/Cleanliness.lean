import Mathlib.Data.List.DropRight
import Retouch.Linter
import Retouch.Proofs.Rule.Tidy
import Retouch.Proofs.Text.Terminators

/-!
What the rules ask of a text, in terms of its characters. The rules look at tokens and at the tokens
beside them; `Rule.Holds` says the same of a text without cutting it, and `check_eq_nil_iff_holds`
that the linter reports nothing iff every rule that is on holds.
-/

namespace Retouch

open Text (isBreak isBlank isNewline endsLine terminators segment WellCut)

/-- The condition of a rule on a text. -/
def Rule.Holds (text : Text) : Rule → Prop
  -- A blank is followed by a character, and that is no break.
  | trailingBlanks =>
    ∀ left c right, text = left ++ c :: right → isBlank c → ∃ d ∈ right.head?, isBreak d = false
  -- Something other than blanks stands before a tab on its line.
  | tabIndent _ =>
    ∀ left right, text = left ++ '\t' :: right →
      ∃ c ∈ left.rtakeWhile (fun c => !isBreak c), isBlank c = false
  | finalNewline =>
    text = [] ∨ ∃ body last, text = body ++ last ∧ isNewline last ∧ endsLine body = false
  -- No maximal run of breaks that makes up three terminators has a character after it.
  | blankLines =>
    ¬∃ left run right, text = left ++ run ++ right ∧ (∀ c ∈ run, isBreak c) ∧ 3 ≤ terminators run ∧
      endsLine left = false ∧ ∃ c ∈ right.head?, isBreak c = false

variable {text : Text} {tokens front back : List Text}

namespace Text

/-! ### Blanks -/

theorem forall_split_cons {P : Text → Char → Text → Prop} {c : Char} {rest : Text} :
    (∀ left d right, c :: rest = left ++ d :: right → P left d right) ↔
      P [] c rest ∧ ∀ left d right, rest = left ++ d :: right → P (c :: left) d right := by
  constructor
  · intro all
    refine ⟨all [] c rest rfl, fun left d right split => all (c :: left) d right ?_⟩
    rw [split, List.cons_append]
  · rintro ⟨first, later⟩ left d right split
    cases left with
    | nil =>
      obtain ⟨rfl, rfl⟩ := List.cons.inj split
      exact first
    | cons e left =>
      obtain ⟨rfl, rest⟩ := List.cons.inj split
      exact later left d right rest

theorem trimmed_iff_holds : trimmed text ↔ Rule.trailingBlanks.Holds text := by
  induction text with
  | nil => simp [trimmed, Rule.Holds]
  | cons c rest ih =>
    simp only [Rule.Holds] at ih ⊢
    rw [forall_split_cons, ← ih, trimmed, Bool.and_eq_true]
    refine and_congr_left fun _ => ?_
    cases rest with
    | nil => simp
    | cons d rest => simp [imp_iff_not_or]

def indents (left : Text) : Bool := (left.rtakeWhile fun c => !isBreak c).all isBlank

theorem indents_concat (left : Text) (c : Char) :
    indents (left ++ [c]) = (isBreak c || indents left && isBlank c) := by
  unfold indents
  rw [List.rtakeWhile_concat]
  cases isBreak c <;> simp

theorem untabbed_indents_iff (left rest : Text) : untabbed (indents left) rest ↔
    ∀ front d right, rest = front ++ d :: right → d = '\t' → indents (left ++ front) = false := by
  induction rest generalizing left with
  | nil => simp [untabbed]
  | cons c rest ih =>
    rw [untabbed, ← indents_concat, Bool.and_eq_true, ih, forall_split_cons]
    refine and_congr ?_ ?_
    · rw [List.append_nil]
      cases indents left <;> simp
    · simp only [List.append_assoc, List.singleton_append]

theorem untabbed_iff_holds {width : Nat} :
    untabbed true text ↔ (Rule.tabIndent width).Holds text := by
  have start := untabbed_indents_iff [] text
  unfold Rule.Holds
  rw [show indents [] = true from rfl] at start
  rw [start]
  refine forall_congr' fun left => ⟨fun all right split => ?_, fun all d right split tab => ?_⟩
  · simpa [indents] using all '\t' right split rfl
  · subst tab
    simpa [indents] using all right split

end Text

namespace Rule

/-! ### The final terminator -/

theorem finalRun_append (newlines : ∀ t ∈ back, isNewline t)
    (other : front.getLast?.any isNewline = false) :
    FinalNewline.finalRun (front ++ back) = back.length := by
  unfold FinalNewline.finalRun
  rw [List.reverse_append, List.takeWhile_append_of_pos (by simpa using newlines),
    List.length_append, List.length_reverse]
  rw [← List.head?_reverse] at other
  cases rest : front.reverse with
  | nil => rfl
  | cons t rest =>
    have other : isNewline t = false := by simpa [rest] using other
    simp [other]

theorem finalNewline_check_eq_nil_iff :
    FinalNewline.check tokens = [] ↔ tokens = [] ∨ FinalNewline.finalRun tokens = 1 := by
  unfold FinalNewline.check
  by_cases none : tokens = []
  · simp [none]
  · by_cases single : FinalNewline.finalRun tokens = 1
    · simp [single]
    · simp only [none, single, List.isEmpty_iff, Bool.or_eq_true, beq_iff_eq, or_self, if_false,
        iff_false]
      split <;> simp

theorem finalNewline_check_iff_holds (text : Text) :
    FinalNewline.check (segment text) = [] ↔ finalNewline.Holds text := by
  rw [finalNewline_check_eq_nil_iff, Text.segment_eq_nil_iff]
  refine or_congr_right ⟨fun single => ?_, ?_⟩
  · have split := List.rdropWhile_append_rtakeWhile (p := isNewline) (l := segment text)
    obtain ⟨last, run⟩ : ∃ last, (segment text).rtakeWhile isNewline = [last] := by
      rw [← List.length_eq_one_iff, ← single, FinalNewline.finalRun, List.rtakeWhile,
        List.length_reverse]
    have newline : isNewline last := List.mem_rtakeWhile_imp (l := segment text) (by simp [run])
    rw [run] at split
    have cut := (split ▸ Text.wellCut_segment text).append.1
    refine ⟨((segment text).rdropWhile isNewline).flatten, last, ?_, newline, ?_⟩
    · have whole := Text.flatten_segment text
      rw [← split] at whole
      simpa using whole.symm
    · rw [cut.endsLine_flatten]
      by_contra ends
      obtain ⟨t, final, newline⟩ := (Option.any_eq_true _ _).mp (eq_true_of_ne_false ends)
      obtain ⟨some, rfl⟩ := List.mem_getLast?_eq_getLast final
      exact List.rdropWhile_last_not isNewline (segment text) some newline
  · rintro ⟨body, last, rfl, newline, other⟩
    rw [Text.segment_append_of_breaks other fun _ => Text.isBreak_of_mem newline,
      Text.segment_of_isNewline newline,
      finalRun_append (List.forall_mem_singleton.mpr newline)
        (by rw [← (Text.wellCut_segment body).endsLine_flatten, Text.flatten_segment, other])]
    rfl

/-! ### Blank lines -/

theorem exists_isRun_iff_append : (∃ start stop, BlankLines.IsRun tokens start stop) ↔
    ∃ front run back, tokens = front ++ run ++ back ∧ (∀ t ∈ run, isNewline t) ∧ 3 ≤ run.length ∧
      front.getLast?.any isNewline = false ∧ ∃ t ∈ back.head?, isNewline t = false := by
  constructor
  · rintro ⟨start, stop, found⟩
    have long := found.long
    have inside := found.inside
    have rest :
        (tokens.drop start).take (stop - start) ++ tokens.drop stop = tokens.drop start := by
      have split := List.take_append_drop (stop - start) (tokens.drop start)
      rwa [List.drop_drop, show start + (stop - start) = stop by omega] at split
    refine ⟨tokens.take start, (tokens.drop start).take (stop - start), tokens.drop stop,
      ?_, ?_, ?_, ?_, tokens[stop], ?_, ?_⟩
    · rw [List.append_assoc, rest, List.take_append_drop]
    · intro t member
      obtain ⟨i, read⟩ := List.mem_iff_getElem?.mp member
      rw [List.getElem?_take, List.getElem?_drop] at read
      split at read
      case isTrue below =>
        have newline := found.newlines (start + i) (by omega) (by omega)
        simpa [BlankLines.newlineAt, read] using newline
      case isFalse => cases read
    · rw [List.length_take, List.length_drop]
      omega
    · rw [← List.head?_reverse, head?_reverse_take (by omega)]
      rcases found.starts with zero | other
      · simp [zero]
      · split
        · rfl
        · simpa [BlankLines.newlineAt] using other
    · rw [List.head?_drop]
      exact List.getElem?_eq_getElem inside
    · simpa [BlankLines.newlineAt, inside] using found.ends
  · rintro ⟨front, run, back, rfl, newlines, long, other, t, first, further⟩
    obtain ⟨back, rfl⟩ := List.head?_eq_some_iff.mp first
    refine ⟨front.length, front.length + run.length, ⟨by omega, by simp, ?_, ?_, ?_⟩⟩
    · intro i above below
      have read : (front ++ run ++ t :: back)[i]? = run[i - front.length]? := by
        rw [List.getElem?_append_left (by simpa using below), List.getElem?_append_right above]
      have within : i - front.length < run.length := by omega
      rw [BlankLines.newlineAt, read, List.getElem?_eq_getElem within]
      exact newlines _ (List.getElem_mem within)
    · simp [BlankLines.newlineAt, further]
    · rcases front.eq_nil_or_concat with rfl | ⟨front, u, rfl⟩
      · exact Or.inl rfl
      · right
        simpa [BlankLines.newlineAt] using other

theorem blankLines_check_iff_holds (text : Text) :
    BlankLines.check (segment text) = [] ↔ blankLines.Holds text := by
  have runs : BlankLines.check (segment text) = [] ↔
      ¬∃ start stop, BlankLines.IsRun (segment text) start stop := by
    rw [BlankLines.check, List.map_eq_nil_iff, List.eq_nil_iff_forall_not_mem]
    simp only [Prod.forall, BlankLines.mem_runs, not_exists]
  rw [runs, exists_isRun_iff_append]
  refine not_congr ⟨?_, ?_⟩
  · rintro ⟨front, run, back, split, newlines, long, other, further⟩
    have cut := split ▸ Text.wellCut_segment text
    obtain ⟨cut, third⟩ := cut.append
    obtain ⟨first, second⟩ := cut.append
    have breaks : ∀ c ∈ run.flatten, isBreak c := by
      intro c member
      obtain ⟨t, listed, member⟩ := List.mem_flatten.mp member
      exact Text.isBreak_of_mem (newlines t listed) member
    refine ⟨front.flatten, run.flatten, back.flatten, ?_, breaks, ?_, ?_, ?_⟩
    · rw [← Text.flatten_segment text, split, List.flatten_append, List.flatten_append]
    · rw [← Text.length_segment_of_breaks breaks, second.segment_flatten]
      exact long
    · rw [first.endsLine_flatten]
      exact other
    · exact third.opens_flatten.mpr further
  · rintro ⟨left, run, right, rfl, breaks, long, other, further⟩
    have some : run ≠ [] := by
      rintro rfl
      cases long
    have apart : ∀ c ∈ (left ++ run).getLast?, ∀ d ∈ right.head?, isBreak c ≠ isBreak d := by
      intro c last d first
      obtain ⟨e, first', plain⟩ := further
      obtain rfl := Option.mem_unique first first'
      rw [List.getLast?_append_of_ne_nil _ some] at last
      rw [plain, breaks c (List.mem_of_mem_getLast? last)]
      exact Bool.true_eq_false.mp
    refine ⟨segment left, segment run, segment right, ?_, ?_, ?_, ?_, ?_⟩
    · rw [Text.segment_append apart, Text.segment_append_of_breaks other breaks]
    · exact fun t member => Text.isNewline_of_mem_segment breaks member
    · rw [Text.length_segment_of_breaks breaks]
      exact long
    · rw [← (Text.wellCut_segment left).endsLine_flatten, Text.flatten_segment]
      exact other
    · rw [← (Text.wellCut_segment right).opens_flatten, Text.flatten_segment]
      exact further

/-! ### All rules -/

theorem check_iff_holds (rule : Rule) (text : Text) :
    rule.check (segment text) = [] ↔ rule.Holds text := by
  have cut := Text.wellCut_segment text
  cases rule with
  | trailingBlanks =>
    rw [check_eq_nil_iff _ [], trailingBlanks_iff cut, Text.flatten_segment, Text.trimmed_iff_holds]
  | tabIndent width =>
    rw [check_eq_nil_iff _ [], tabIndent_iff cut, Text.flatten_segment]
    exact Text.untabbed_iff_holds
  | finalNewline => exact finalNewline_check_iff_holds text
  | blankLines => exact blankLines_check_iff_holds text

end Rule

namespace Linter

/-- Whatever the text and the settings: a linter for them reports nothing iff every rule that the
settings enable holds of the text. -/
theorem check_eq_nil_iff_holds (text : Text) (config : Config) :
    (ofText text config).check = [] ↔
      ∀ rule ∈ Rule.all config.tabWidth, config.enables rule.code = true → rule.Holds text := by
  have clean : (ofText text config).check = [] ↔
      ∀ rule ∈ config.rules, rule.check (segment text) = [] := by
    simp [check, ofText]
  rw [clean, Config.rules]
  simp only [List.mem_filter, and_imp, Rule.check_iff_holds]

end Linter

end Retouch
