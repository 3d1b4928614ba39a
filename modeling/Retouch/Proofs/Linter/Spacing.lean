import Retouch.Proofs.Linter.Normalization
import Retouch.Proofs.Linter.Sweeping
import Retouch.Proofs.Text.Rows

/-!
Empty lines. The rule for blank lines counts terminators and not lines: two are left of a run.
Behind a line these are the end of that line and one empty line. At the beginning of the text no
line stands before the run, and two empty lines are left there.
-/

namespace Retouch.Linter

open Text (isNewline segment rows Row)

variable {rules : List Rule} {text : Text} {above below : List Row} {row next : Row}

theorem Clean.spaced (clean : Clean rules text) (listed : .blankLines ∈ rules)
    (cut : rows text = above ++ row :: next :: below) (empty : row.line = [])
    (empty' : next.line = []) (further : ∃ later ∈ below, later.line ≠ []) : above = [] := by
  obtain ⟨later, member, some⟩ := further
  rcases above.eq_nil_or_concat with none | ⟨front, last, rfl⟩
  · exact none
  rw [List.concat_eq_append] at cut
  have ruled := cut ▸ Text.ruled_rows text
  have first : isNewline last.ending := by
    rw [List.append_assoc] at ruled
    exact ruled.isNewline_ending (by simp)
  have second : isNewline row.ending := ruled.isNewline_ending (by simp)
  have third : isNewline next.ending := by
    rw [List.append_cons] at ruled
    exact ruled.isNewline_ending (List.ne_nil_of_mem member)
  have tokens : segment text = (front.flatMap Row.tokens ++ segment last.line ++
      [last.ending, row.ending]) ++ next.ending :: below.flatMap Row.tokens := by
    rw [Text.segment_eq_flatMap, cut]
    simp [Row.tokens, empty, empty', Text.segment_of_isNewline, first, second, third, Text.segment]
  have solid : (below.flatMap Row.tokens).all isNewline = false := by
    obtain ⟨t, inside⟩ := List.exists_mem_of_ne_nil _ (mt Text.segment_eq_nil_iff.mp some)
    have unbroken : ∀ c ∈ later.line, Text.isBreak c = false := ruled.unbroken (by simp [member])
    refine List.all_eq_false.mpr ⟨t, ?_, ?_⟩
    · exact List.mem_flatMap.mpr ⟨later, member, List.mem_append_left _ inside⟩
    · rw [Text.isNewline_of_mem_unbroken unbroken inside]
      exact Bool.false_ne_true
  -- So the third terminator would be one too many.
  have nothing : Rule.blankLines.wish ['\n'] _ next.ending (below.flatMap Row.tokens) = none :=
    clean.wish listed tokens
  simp [Rule.wish, first, second, third, solid] at nothing

/-- If blank lines are mended and there are two passes or more, then two empty lines in a row with
text after them are the first two lines of the result, and the next line is not empty. -/
theorem fixText_spacing (text : Text) (config : Config)
    (enabled : config.enables Rule.blankLines.code = true) (enough : 2 ≤ config.maxPasses)
    (cut : rows (fixText text config).session.contents = above ++ row :: next :: below)
    (empty : row.line = []) (empty' : next.line = []) (further : ∃ later ∈ below, later.line ≠ []) :
    above = [] ∧ ∃ third ∈ below.head?, third.line ≠ [] := by
  have clean := clean_fixText text config enough
  have listed : .blankLines ∈ config.rules := List.mem_filter.mpr ⟨by simp [Rule.all], enabled⟩
  refine ⟨clean.spaced listed cut empty empty' further, ?_⟩
  obtain ⟨later, member, some⟩ := further
  obtain ⟨third, rest, rfl⟩ := List.exists_cons_of_ne_nil (List.ne_nil_of_mem member)
  refine ⟨third, rfl, fun empty'' => ?_⟩
  -- Otherwise the second and the third line are two in a row that do not come first.
  have again : ∃ later ∈ rest, later.line ≠ [] := by
    rcases List.mem_cons.mp member with rfl | member
    · exact (some empty'').elim
    · exact ⟨later, member, some⟩
  rw [List.append_cons] at cut
  have none := clean.spaced listed cut empty' empty'' again
  simp at none

theorem fixText_spacing_leading :
    rows (fixText ['\n', '\t', '\n', '\n', 'a', '\n', '\n', '\n', 'b'] {}).session.contents =
        [] ++ ⟨[], ['\n']⟩ :: ⟨[], ['\n']⟩ ::
          [⟨['a'], ['\n']⟩, ⟨[], ['\n']⟩, ⟨['b'], ['\n']⟩, ⟨[], []⟩] ∧
      ∃ third ∈ [(⟨['a'], ['\n']⟩ : Row), ⟨[], ['\n']⟩, ⟨['b'], ['\n']⟩, ⟨[], []⟩].head?,
        third.line ≠ [] := by
  have cut : rows (fixText ['\n', '\t', '\n', '\n', 'a', '\n', '\n', '\n', 'b'] {}).session.contents =
      [] ++ ⟨[], ['\n']⟩ :: ⟨[], ['\n']⟩ ::
        [⟨['a'], ['\n']⟩, ⟨[], ['\n']⟩, ⟨['b'], ['\n']⟩, ⟨[], []⟩] := by decide +kernel
  exact ⟨cut, (fixText_spacing _ {} rfl (by decide) cut rfl rfl (by decide)).2⟩

/-- Two empty lines at the beginning stay. -/
theorem fixText_leaves_two :
    ∃ row next below, rows (fixText ['\n', '\n', 'a', '\n'] {}).session.contents =
        row :: next :: below ∧
      row.line = [] ∧ next.line = [] ∧ ∃ later ∈ below, later.line ≠ [] :=
  ⟨⟨[], ['\n']⟩, ⟨[], ['\n']⟩, [⟨['a'], ['\n']⟩, ⟨[], []⟩], by decide +kernel, rfl, rfl, by decide⟩

end Retouch.Linter
