import Retouch.Proofs.Linter.Touch
import Retouch.Proofs.Linter.NormalForm

/-!
What a run makes of a text with line feeds. No touch changes the normal form of the text, and the
text that a run leaves is its own normal form; so it is the normal form of the text the run began
with.
-/

namespace Retouch

namespace Text

variable {t text : Text}

theorem segment_append_feed {left : Text} (feeds : '\r' ∉ left) (right : Text) :
    segment (left ++ '\n' :: right) = segment left ++ ['\n'] :: segment right := by
  have plain : isBlankRun ['\n'] = false ∧ isWordRun ['\n'] = false := by decide
  have first := wellCut_segment left
  have second := wellCut_segment right
  refine segment_eq_iff.mpr ⟨by simp, ?_, ?_⟩
  · rw [List.forall_mem_append, List.forall_mem_cons]
    exact ⟨first.lexemes, isLexeme_singleton '\n', second.lexemes⟩
  · refine List.isChain_append.mpr ⟨first.apart, List.isChain_cons.mpr ⟨?_, second.apart⟩, ?_⟩
    · intro u _
      simp [staysApart, plain]
    · intro u member v head
      obtain rfl : ['\n'] = v := by simpa using head
      have other : u ≠ ['\r'] := by
        rintro rfl
        refine feeds ?_
        rw [← flatten_segment left]
        exact List.mem_flatten_of_mem (List.mem_of_mem_getLast? member) (List.mem_singleton_self _)
      simp [staysApart, plain, other]

theorem segment_feed (right : Text) : segment ('\n' :: right) = ['\n'] :: segment right :=
  segment_append_feed List.not_mem_nil right

theorem eq_feed_of_isNewline (newline : isNewline t) (feeds : '\r' ∉ t) : t = ['\n'] := by
  rcases isNewline_iff.mp newline with rfl | rfl | rfl
  · rfl
  · simp at feeds
  · simp at feeds

theorem eq_feed_of_newlines {run : List Text} (newlines : ∀ t ∈ run, isNewline t)
    (feeds : '\r' ∉ run.flatten) : ∀ t ∈ run, t = ['\n'] := by
  intro t member
  refine eq_feed_of_isNewline (newlines t member) fun other => feeds ?_
  exact List.mem_flatten_of_mem member other

theorem hasCrLf_eq_false (feeds : '\r' ∉ text) : hasCrLf text = false := by
  fun_induction hasCrLf text with
  | case1 => simp at feeds
  | case2 c rest _ ih => exact ih fun member => feeds (List.mem_cons_of_mem c member)
  | case3 => rfl

theorem eq_feed_of_mem {c : Char} (feeds : '\r' ∉ text) (member : c ∈ text) (breaks : isBreak c) :
    c = '\n' := by
  have other : c ≠ '\r' := ne_of_mem_of_not_mem member feeds
  simpa [isBreak, other] using breaks

theorem all_feed {c? : Option Char} (feeds : '\r' ∉ text) (member : ∀ c ∈ c?, c ∈ text)
    (breaks : c?.all isBreak) : c?.all (· == '\n') := by
  cases c? with
  | none => rfl
  | some c => simpa using eq_feed_of_mem feeds (member c rfl) (by simpa using breaks)

end Text

namespace Linter

open Relation (ReflTransGen)
open Text (isNewline isBreak segment normalForm)

variable {width : Nat} {terminator text a b : Text}

/-! ### Touches -/

theorem Touch.mem {trims : Bool} {c : Char} (touch : Touch trims width terminator a b)
    (member : c ∈ b) : c ∈ a ∨ c = ' ' ∨ c ∈ terminator := by
  cases touch with
  | trim => grind
  | indent =>
    simp only [List.mem_append] at member ⊢
    rcases member with (left | pad) | right
    · exact Or.inl (Or.inl (Or.inl left))
    · rcases mem_widen pad with space | ⟨same, -⟩
      · exact Or.inr (Or.inl space)
      · exact Or.inl (Or.inl (Or.inr same))
    · exact Or.inl (Or.inr right)
  | squeeze => grind
  | shorten => grind
  | finish => grind

theorem Touch.normalForm (touch : Touch true width ['\n'] a b) (feeds : '\r' ∉ a) :
    normalForm width b = normalForm width a := by
  cases touch with
  | @trim left t right blank ends =>
    refine (Text.normalForm_trim blank (Text.all_feed feeds (fun c head => ?_) ends)).symm
    exact List.mem_append_right _ (List.mem_of_mem_head? head)
  | @indent left t right blank opens =>
    refine Text.normalForm_indent blank (Text.all_feed feeds (fun c last => ?_) opens)
    exact List.mem_append_left _ (List.mem_append_left _ (List.mem_of_mem_getLast? last))
  | @squeeze left u v t right newlines =>
    have run : '\r' ∉ [u, v, t].flatten := by
      simp only [List.mem_append, not_or] at feeds
      simp [feeds]
    obtain ⟨rfl, rfl, rfl⟩ : u = ['\n'] ∧ v = ['\n'] ∧ t = ['\n'] := by
      simpa using Text.eq_feed_of_newlines newlines run
    simpa using (Text.normalForm_squeeze left right).symm
  | @shorten left u t right newlines last =>
    have run : '\r' ∉ [u, t].flatten := by
      simp only [List.mem_append, not_or] at feeds
      simp [feeds]
    obtain ⟨rfl, rfl⟩ : u = ['\n'] ∧ t = ['\n'] := by
      simpa using Text.eq_feed_of_newlines newlines run
    have rest : ∀ c ∈ right, c = '\n' := fun c member =>
      Text.eq_feed_of_mem feeds (List.mem_append_right _ member) (last c member)
    simpa using (Text.normalForm_shorten left rest).symm
  | @finish left t some unbroken solid =>
    refine Text.normalForm_finish left some (fun c member => ?_) (solid rfl)
    exact (Bool.or_eq_false_iff.mp (unbroken c member)).1

theorem normalForm_of_touches (touches : ReflTransGen (Touch true width ['\n']) a b)
    (feeds : '\r' ∉ a) : '\r' ∉ b ∧ normalForm width b = normalForm width a := by
  induction touches with
  | refl => exact ⟨feeds, rfl⟩
  | tail _ touch ih =>
    obtain ⟨feeds, same⟩ := ih
    refine ⟨fun member => ?_, (touch.normalForm feeds).trans same⟩
    simpa [feeds] using touch.mem member

/-! ### Clean texts -/

theorem Clean.wish {rules : List Rule} (clean : Clean rules text) {rule : Rule}
    (member : rule ∈ rules) {front back : List Text} {t : Text}
    (cut : segment text = front ++ t :: back) :
    rule.wish terminator front.reverse t back = none := by
  have none := (Rule.check_eq_nil_iff rule terminator _).mp (clean rule member) front.length
  rwa [cut, Rule.wishAt_append, List.append_nil] at none

theorem Clean.ends (clean : Clean (Rule.all width) text) (feeds : '\r' ∉ text) :
    text = [] ∨ ∃ left, text = left ++ ['\n'] := by
  have whole := Text.flatten_segment text
  rcases (segment text).eq_nil_or_concat with none | ⟨front, t, cut⟩
  · rw [none] at whole
    exact Or.inl whole.symm
  · rw [List.concat_eq_append] at cut
    rw [cut, List.flatten_append, List.flatten_singleton] at whole
    have nothing : Rule.finalNewline.wish ['\n'] front.reverse t [] = none :=
      clean.wish (by simp [Rule.all]) cut
    have newline : isNewline t := by
      by_contra other
      simp [Rule.wish, other] at nothing
    have same : t = ['\n'] := by
      refine Text.eq_feed_of_isNewline newline fun other => feeds ?_
      rw [← whole]
      exact List.mem_append_right _ other
    exact Or.inr ⟨front.flatten, by rw [← whole, same]⟩

theorem Clean.ends_once (clean : Clean (Rule.all width) text) (feeds : '\r' ∉ text) (left : Text) :
    text ≠ left ++ ['\n', '\n'] := by
  rintro rfl
  have first : '\r' ∉ left := by simpa using feeds
  have cut : segment (left ++ ['\n', '\n']) = (segment left ++ [['\n']]) ++ ['\n'] :: [] := by
    rw [Text.segment_append_feed first, Text.segment_feed, List.append_assoc]
    rfl
  have nothing : Rule.finalNewline.wish ['\n'] (segment left ++ [['\n']]).reverse ['\n'] [] = none :=
    clean.wish (by simp [Rule.all]) cut
  simp [Rule.wish, isNewline] at nothing

theorem Clean.not_thrice (clean : Clean (Rule.all width) text) (feeds : '\r' ∉ text)
    (left right : Text) : text ≠ left ++ '\n' :: '\n' :: '\n' :: right := by
  rintro rfl
  obtain ⟨first, last⟩ : '\r' ∉ left ∧ '\r' ∉ right := by simpa using feeds
  have cut : segment (left ++ '\n' :: '\n' :: '\n' :: right) =
      (segment left ++ [['\n'], ['\n']]) ++ ['\n'] :: segment right := by
    rw [Text.segment_append_feed first, Text.segment_feed, Text.segment_feed, List.append_assoc]
    rfl
  have nothing : Rule.blankLines.wish ['\n'] (segment left ++ [['\n'], ['\n']]).reverse ['\n']
      (segment right) = none :=
    clean.wish (by simp [Rule.all]) cut
  have feed : isNewline ['\n'] := rfl
  have all : (segment right).all isNewline := by simpa [Rule.wish, feed] using nothing
  -- Then the three open the final run, which is too long.
  obtain ⟨n, rfl⟩ : ∃ n, right = List.replicate n '\n' := by
    refine ⟨right.length, List.eq_replicate_of_mem fun c member => ?_⟩
    exact Text.eq_feed_of_mem last member (isBreak_of_all all c (by rwa [Text.flatten_segment]))
  have shifted : '\n' :: '\n' :: '\n' :: List.replicate n '\n' =
      List.replicate (n + 1) '\n' ++ ['\n', '\n'] :=
    (List.replicate_append_replicate (n := n + 1) (m := 2)).symm
  refine clean.ends_once feeds (left ++ List.replicate (n + 1) '\n') ?_
  rw [shifted, List.append_assoc]

theorem Clean.tidy (clean : Clean (Rule.all width) text) : Tidy (fun _ => true) width text where
  trimmed _ := by
    rw [← Text.flatten_segment text, ← Rule.trailingBlanks_iff (Text.wellCut_segment text)]
    exact (Rule.check_eq_nil_iff _ ['\n'] _).mp (clean _ (by simp [Rule.all]))
  untabbed _ := by
    have untabbed := (Rule.tabIndent_iff (Text.wellCut_segment text)).mp
      ((Rule.check_eq_nil_iff (.tabIndent width) ['\n'] _).mp (clean _ (by simp [Rule.all])))
    rwa [Text.flatten_segment] at untabbed

/-- After the first line of a clean text no two empty lines stand in a row. -/
theorem Clean.isChain_lines {left : Text} (clean : Clean (Rule.all width) (left ++ ['\n']))
    (feeds : '\r' ∉ left ++ ['\n']) :
    (left.splitOn '\n').tail.IsChain fun line next => line ≠ [] ∨ next ≠ [] := by
  rw [List.isChain_iff_forall_rel_of_append_cons_cons]
  intro line next front back cut
  by_contra both
  obtain ⟨rfl, rfl⟩ : line = [] ∧ next = [] := by simpa using both
  obtain ⟨first, rest, lines⟩ := List.exists_cons_of_ne_nil (List.splitOn_ne_nil '\n' left)
  -- The line before the two empty ones ends in a line feed, too.
  obtain ⟨init, last, split⟩ := (first :: front).eq_nil_or_concat.resolve_left (by simp)
  have whole := Text.flatMap_splitOn left
  rw [lines, List.tail_cons] at cut
  rw [lines, cut, ← List.cons_append, split, List.concat_eq_append] at whole
  refine clean.not_thrice feeds (init.flatMap (· ++ ['\n']) ++ last)
    (back.flatMap (· ++ ['\n'])) ?_
  rw [← whole]
  simp

theorem Clean.normalForm_eq (clean : Clean (Rule.all width) text) (feeds : '\r' ∉ text) :
    normalForm width text = text := by
  have tidy := clean.tidy
  have lines : (text.splitOn '\n').map (Text.tidyLine width) = text.splitOn '\n' :=
    Text.map_tidyLine_of_tidy (tidy.trimmed rfl) (tidy.untabbed rfl)
  rcases clean.ends feeds with rfl | ⟨left, rfl⟩
  · rfl
  · rw [normalForm, lines, Text.splitOn_append_feed, List.splitOn_nil]
    rcases left.eq_nil_or_concat with rfl | ⟨front, c, split⟩
    · rfl
    · rw [List.concat_eq_append] at split
      have other : c ≠ '\n' := by
        rintro rfl
        exact clean.ends_once feeds front (by simp [split])
      obtain ⟨above, line, cut⟩ := Text.splitOn_append_unbroken front (t := [c]) (by simpa using other)
      rw [← split] at cut
      have last : ∀ some : left.splitOn '\n' ≠ [], (left.splitOn '\n').getLast some ≠ [] := by
        simp [cut]
      have shown : (left.splitOn '\n' ++ [[]]).all List.isEmpty = false := by simp [cut]
      rw [shown, if_neg Bool.false_ne_true,
        Text.layout_append_of_forall (List.forall_mem_singleton.mpr rfl),
        Text.layout_eq_self last (clean.isChain_lines feeds), Text.flatMap_splitOn]

/-! ### Runs -/

theorem session_terminator_feed {config : Config} (feeds : '\r' ∉ text)
    (feed : config.terminator = none ∨ config.terminator = some .lf) :
    ((ofText text config).session config).terminator = ['\n'] := by
  unfold session
  rcases feed with feed | feed
  · rw [feed]
    show Text.dominantTerminator (segment text).flatten = ['\n']
    rw [Text.flatten_segment, Text.dominantTerminator, Text.hasCrLf_eq_false feeds]
    simp [feeds]
  · rw [feed]
    rfl

/-- With all rules on and three passes or more, a run over a text without carriage returns leaves
the normal form of the text, if inserted lines end in line feeds. -/
theorem fixText_normalForm (text : Text) (config : Config) (feeds : '\r' ∉ text)
    (enabled : ∀ code ∈ Rule.codes, config.enables code = true)
    (feed : config.terminator = none ∨ config.terminator = some .lf)
    (enough : 3 ≤ config.maxPasses) :
    (fixText text config).session.contents = normalForm config.tabWidth text := by
  have ends := session_terminator_feed feeds feed
  have rules : config.rules = Rule.all config.tabWidth := by
    refine List.filter_eq_self.mpr fun rule member => enabled rule.code ?_
    obtain rfl | rfl | rfl | rfl := (by simpa [Rule.all] using member :
      rule = .trailingBlanks ∨ rule = .tabIndent config.tabWidth ∨ rule = .finalNewline ∨
        rule = .blankLines)
    all_goals simp [Rule.codes, Rule.all, Rule.code]
  have touches := touches_fixText text config
  rw [ends, enabled Rule.trailingBlanks.code (by simp [Rule.codes, Rule.all])] at touches
  obtain ⟨feeds', same⟩ := normalForm_of_touches touches feeds
  have clean := clean_fixText text config (Nat.le_of_succ_le enough)
  rw [rules] at clean
  rw [← same, clean.normalForm_eq feeds']

/-- Empty and blank lines at the start and further down, blanks at the end of a line, tabs after
blanks, and no terminator after the last line. -/
def ragged : Text :=
  ['\n', '\n', ' ', '\n', '\t', 'a', ' ', 'b', '\t', '\n', '\n', '\t', '\n', '\n', ' ', '\t', 'c']

theorem fixText_normalForm_ragged :
    '\r' ∉ ragged ∧ (∀ code ∈ Rule.codes, ({} : Config).enables code = true) ∧
      ({} : Config).terminator = none ∧ 3 ≤ ({} : Config).maxPasses ∧
      normalForm 4 ragged = ['\n', '\n', ' ', ' ', ' ', ' ', 'a', ' ', 'b', '\n', '\n',
        ' ', ' ', ' ', ' ', 'c', '\n'] ∧
      (fixText ragged {}).session.contents = ['\n', '\n', ' ', ' ', ' ', ' ', 'a', ' ', 'b', '\n',
        '\n', ' ', ' ', ' ', ' ', 'c', '\n'] := by
  have feeds : '\r' ∉ ragged := by decide
  have enabled : ∀ code ∈ Rule.codes, ({} : Config).enables code = true := fun _ _ => rfl
  have enough : 3 ≤ ({} : Config).maxPasses := by decide
  have form : normalForm 4 ragged = ['\n', '\n', ' ', ' ', ' ', ' ', 'a', ' ', 'b', '\n', '\n',
      ' ', ' ', ' ', ' ', 'c', '\n'] := by decide +kernel
  refine ⟨feeds, enabled, rfl, enough, form, ?_⟩
  exact (fixText_normalForm ragged {} feeds enabled (Or.inl rfl) enough).trans form

end Linter

end Retouch
