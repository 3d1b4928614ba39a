import Mathlib.Data.List.Destutter
import Retouch.Proofs.Linter.Tidying
import Retouch.Proofs.Text.Lines

/-!
The normal form of a text whose lines end in line feeds. It is a function of the lines alone: each
line is tidied by itself, then empty lines are thinned out. What a pass may do to a text, it does
not change; texts with nothing to report are their own normal form.
-/

namespace Retouch.Text

variable {width : Nat} {t line : Text} {front back lines : List Text}

/-- The column after a character, with tab stops every `width` columns. -/
def advance (width column : Nat) (c : Char) : Nat :=
  if c == '\t' then (column / width + 1) * width else column + 1

/-- The line without the blanks at its end, and with spaces up to the column it is indented to. -/
def tidyLine (width : Nat) (line : Text) : Text :=
  let trimmed := line.rdropWhile isBlank
  spaces ((trimmed.takeWhile isBlank).foldl (advance (max width 1)) 0) ++ trimmed.dropWhile isBlank

/-- The lines up to the last that is not empty, with at most two of the empty ones they start with
and one of each further group of empty ones. -/
def layout (lines : List Text) : List Text :=
  let body := lines.rdropWhile List.isEmpty
  (body.takeWhile List.isEmpty).take 2 ++
    (body.dropWhile List.isEmpty).destutter fun line next => line ≠ [] ∨ next ≠ []

def normalForm (width : Nat) (text : Text) : Text :=
  let lines := (text.splitOn '\n').map (tidyLine width)
  if lines.all List.isEmpty then if '\n' ∈ text then ['\n'] else []
  else (layout lines).flatMap (· ++ ['\n'])

/-! ### Indentation -/

theorem foldl_advance_spaces (width column n : Nat) :
    (spaces n).foldl (advance width) column = column + n := by
  induction n generalizing column with
  | zero => rfl
  | succ n ih =>
    rw [spaces, List.replicate_succ, List.foldl_cons, ← spaces, ih]
    simp only [advance, Char.reduceBEq, Bool.false_eq_true, if_false]
    omega

theorem advance_tab {stop : Nat} (positive : 0 < stop) (column : Nat) :
    advance stop column '\t' = column + (stop - column % stop) := by
  have parts := Nat.div_add_mod column stop
  have small := Nat.mod_lt column positive
  simp only [advance, BEq.rfl, if_true, Nat.add_mul, Nat.mul_comm (column / stop)]
  omega

theorem spaces_append_widen {stop : Nat} (positive : 0 < stop) (blank : ∀ c ∈ t, isBlank c)
    (column : Nat) : spaces column ++ Rule.TabIndent.widen stop column t =
      spaces (t.foldl (advance stop) column) := by
  induction t generalizing column with
  | nil => simp [Rule.TabIndent.widen]
  | cons c t ih =>
    obtain ⟨first, blank⟩ := List.forall_mem_cons.mp blank
    rw [List.foldl_cons, ← ih blank, Rule.TabIndent.widen]
    rcases (by simpa [isBlank] using first : c = ' ' ∨ c = '\t') with rfl | rfl
    · have size : ' '.utf8Size = 1 := rfl
      simp [advance, spaces, List.replicate_succ', size]
    · rw [advance_tab positive, BEq.rfl, if_pos rfl, ← List.append_assoc, spaces, spaces, spaces,
        List.replicate_append_replicate]

theorem eq_spaces_of_untabbed (blank : ∀ c ∈ t, isBlank c) (untabbed : '\t' ∉ t) :
    t = spaces t.length := by
  refine List.eq_replicate_of_mem fun c member => ?_
  rcases (by simpa [isBlank] using blank c member : c = ' ' ∨ c = '\t') with rfl | rfl
  · rfl
  · exact (untabbed member).elim

theorem expand_eq_spaces (blank : ∀ c ∈ t, isBlank c) :
    Rule.TabIndent.expand width t = spaces (t.foldl (advance (max width 1)) 0) :=
  spaces_append_widen (by omega) blank 0

/-! ### Single lines -/

theorem tidyLine_nil (width : Nat) : tidyLine width [] = [] := rfl

theorem tidyLine_append (blank : ∀ c ∈ t, isBlank c) (line : Text) :
    tidyLine width (line ++ t) = tidyLine width line := by
  rw [tidyLine, rdropWhile_append_of_forall blank, tidyLine]

theorem tidyLine_append_left (blank : ∀ c ∈ t, isBlank c) (solid : ∃ c ∈ line, isBlank c = false) :
    tidyLine width (t ++ line) = spaces (((line.rdropWhile isBlank).takeWhile isBlank).foldl
        (advance (max width 1)) (t.foldl (advance (max width 1)) 0)) ++
      (line.rdropWhile isBlank).dropWhile isBlank := by
  have left : line.rdropWhile isBlank ≠ [] := by
    rw [Ne, List.rdropWhile_eq_nil_iff]
    intro blank
    obtain ⟨c, member, solid⟩ := solid
    rw [blank c member] at solid
    cases solid
  rw [tidyLine, rdropWhile_append_of_ne_nil left, List.takeWhile_append_of_pos blank,
    List.dropWhile_append_of_pos blank, List.foldl_append]

theorem tidyLine_expand (blank : ∀ c ∈ t, isBlank c) (line : Text) :
    tidyLine width (t ++ line) = tidyLine width (Rule.TabIndent.expand width t ++ line) := by
  have blank' : ∀ c ∈ Rule.TabIndent.expand width t, isBlank c := Linter.isBlank_expand blank
  by_cases solid : ∃ c ∈ line, isBlank c = false
  · rw [tidyLine_append_left blank solid, tidyLine_append_left blank' solid, expand_eq_spaces blank,
      foldl_advance_spaces, Nat.zero_add]
  · have rest : ∀ c ∈ line, isBlank c := by simpa using solid
    have none {u : Text} (blank : ∀ c ∈ u, isBlank c) : tidyLine width u = [] :=
      tidyLine_append blank []
    rw [tidyLine_append rest, tidyLine_append rest, none blank, none blank']

theorem tidyLine_ne_nil (solid : ∃ c ∈ line, isBlank c = false) : tidyLine width line ≠ [] := by
  obtain ⟨c, member, solid⟩ := solid
  have body : c ∈ line.rdropWhile isBlank := by
    rw [← List.rdropWhile_append_rtakeWhile (p := isBlank) (l := line)] at member
    refine (List.mem_append.mp member).resolve_right fun trails => ?_
    rw [List.mem_rtakeWhile_imp trails] at solid
    cases solid
  have core : c ∈ (line.rdropWhile isBlank).dropWhile isBlank := by
    rw [← List.takeWhile_append_dropWhile (p := isBlank) (l := line.rdropWhile isBlank)] at body
    refine (List.mem_append.mp body).resolve_left fun indents => ?_
    rw [List.mem_takeWhile_imp indents] at solid
    cases solid
  exact List.append_ne_nil_of_right_ne_nil _ (List.ne_nil_of_mem core)

theorem tidyLine_eq_self (trimmed : ∀ some : line ≠ [], isBlank (line.getLast some) = false)
    (untabbed : '\t' ∉ line.takeWhile isBlank) : tidyLine width line = line := by
  have whole : line.rdropWhile isBlank = line := List.rdropWhile_eq_self_iff.mpr (by simpa using trimmed)
  have indent : line.takeWhile isBlank = spaces (line.takeWhile isBlank).length :=
    eq_spaces_of_untabbed (fun _ member => List.mem_takeWhile_imp member) untabbed
  rw [tidyLine, whole, indent, foldl_advance_spaces, Nat.zero_add, ← indent,
    List.takeWhile_append_dropWhile]

/-! ### Empty lines -/

theorem layout_append_of_forall (empty : ∀ line ∈ back, line = []) :
    layout (front ++ back) = layout front := by
  have empty : ∀ line ∈ back, line.isEmpty := by simpa using empty
  rw [layout, rdropWhile_append_of_forall empty, layout]

theorem destutter'_append_empty (line : Text) (front back : List Text) :
    (front ++ [] :: [] :: back).destutter' (fun line next => line ≠ [] ∨ next ≠ []) line =
      (front ++ [] :: back).destutter' (fun line next => line ≠ [] ∨ next ≠ []) line := by
  induction front generalizing line with
  | nil =>
    by_cases some : line = []
    · simp [List.destutter', some]
    · simp [List.destutter', some]
  | cons next front ih =>
    rw [List.cons_append, List.cons_append, List.destutter', List.destutter', ih, ih]

/-- Of two empty lines in a row, one does not matter if a line stands before them. -/
theorem layout_squeeze (some : front ≠ []) :
    layout (front ++ [] :: [] :: back) = layout (front ++ [] :: back) := by
  by_cases empty : ∀ line ∈ back, line = []
  · rw [layout_append_of_forall (by simpa using empty), layout_append_of_forall (by simpa using empty)]
  · have left : back.rdropWhile List.isEmpty ≠ [] := by
      rw [Ne, List.rdropWhile_eq_nil_iff]
      simpa using empty
    have cut (more : List Text) : (front ++ more ++ back).rdropWhile List.isEmpty =
        front ++ more ++ back.rdropWhile List.isEmpty := rdropWhile_append_of_ne_nil left
    have first := cut [[], []]
    have second := cut [[]]
    simp only [List.append_assoc, List.cons_append, List.nil_append] at first second
    rw [layout, layout, first, second]
    generalize back.rdropWhile List.isEmpty = back
    -- The group leads the text, where two stay of three or more, or one stays of it anyway.
    by_cases leads : ∀ line ∈ front, line.isEmpty
    · simp only [List.takeWhile_append_of_pos leads, List.dropWhile_append_of_pos leads]
      cases front with
      | nil => exact (some rfl).elim
      | cons line front => cases front <;> simp
    · have more : front.dropWhile List.isEmpty ≠ [] := by
        rwa [Ne, List.dropWhile_eq_nil_iff]
      have short : (front.takeWhile List.isEmpty).length ≠ front.length := by
        have parts := congrArg List.length
          (List.takeWhile_append_dropWhile (p := List.isEmpty) (l := front))
        rw [List.length_append] at parts
        have some := List.length_pos_of_ne_nil more
        omega
      obtain ⟨line, rest, body⟩ := List.exists_cons_of_ne_nil more
      simp only [List.takeWhile_append, List.dropWhile_append, if_neg short, body,
        List.isEmpty_cons, Bool.false_eq_true, if_false, List.cons_append, List.destutter_cons']
      rw [destutter'_append_empty]

theorem layout_eq_self (last : ∀ some : lines ≠ [], lines.getLast some ≠ [])
    (chain : lines.tail.IsChain fun line next => line ≠ [] ∨ next ≠ []) : layout lines = lines := by
  have whole : lines.rdropWhile List.isEmpty = lines :=
    List.rdropWhile_eq_self_iff.mpr (by simpa using last)
  have further : (lines.dropWhile List.isEmpty).IsChain fun line next => line ≠ [] ∨ next ≠ [] := by
    cases lines with
    | nil => exact chain
    | cons line rest =>
      by_cases empty : line = []
      · rw [List.dropWhile_cons_of_pos (by simpa using empty)]
        exact List.IsChain.suffix chain (List.dropWhile_suffix _)
      · rw [List.dropWhile_cons_of_neg (by simpa using empty)]
        exact List.isChain_cons.mpr ⟨fun _ _ => Or.inl empty, chain⟩
  have few : (lines.takeWhile List.isEmpty).length ≤ 2 := by
    match lines, chain with
    | [], _ => simp
    | [_], _ => exact Nat.le_succ_of_le (List.takeWhile_sublist _).length_le
    | [_, _], _ => exact (List.takeWhile_sublist _).length_le
    | first :: second :: third :: rest, chain =>
      obtain ⟨apart, -⟩ := List.isChain_cons_cons.mp chain
      by_contra more
      rw [Nat.not_le, ← Nat.succ_le_iff, Rule.BlankLines.le_length_takeWhile_iff (by simp)] at more
      simp at more
      simp [more] at apart
  rw [layout, whole, List.take_of_length_le few, List.destutter_of_isChain _ _ further,
    List.takeWhile_append_dropWhile]

/-! ### Lines of a text -/

theorem splitOn_append_feed (a b : Text) :
    (a ++ '\n' :: b).splitOn '\n' = a.splitOn '\n' ++ b.splitOn '\n' :=
  List.splitOnP_append_cons a b rfl

theorem splitOn_eq_singleton (unbroken : ∀ c ∈ line, (c == '\n') = false) :
    line.splitOn '\n' = [line] :=
  List.splitOnP_eq_singleton unbroken

theorem splitOn_append_unbroken (left : Text) (unbroken : ∀ c ∈ t, (c == '\n') = false) :
    ∃ lines line, (left ++ t).splitOn '\n' = lines ++ [line ++ t] := by
  rcases unbroken_or_last (· == '\n') left with whole | ⟨rest, c, line, rfl, breaks, whole⟩
  · refine ⟨[], left, ?_⟩
    rw [splitOn_eq_singleton (List.forall_mem_append.mpr ⟨whole, unbroken⟩), List.nil_append]
  · obtain rfl : c = '\n' := by simpa using breaks
    refine ⟨rest.splitOn '\n', line, ?_⟩
    rw [List.append_assoc, List.cons_append, splitOn_append_feed,
      splitOn_eq_singleton (List.forall_mem_append.mpr ⟨whole, unbroken⟩)]

theorem flatMap_splitOn (text : Text) :
    (text.splitOn '\n').flatMap (· ++ ['\n']) = text ++ ['\n'] := by
  induction text using lines_induction (· == '\n') with
  | whole line unbroken => rw [splitOn_eq_singleton unbroken, List.flatMap_singleton]
  | cut line c rest unbroken breaks ih =>
    obtain rfl : c = '\n' := by simpa using breaks
    rw [splitOn_append_feed, splitOn_eq_singleton unbroken, List.flatMap_append, ih,
      List.flatMap_singleton]
    simp

theorem trimmed_of_append {a b : Text} (whole : trimmed (a ++ b)) : trimmed b := by
  induction a with
  | nil => exact whole
  | cons c a ih => exact ih (Bool.and_eq_true_iff.mp whole).2

theorem untabbed_of_append_feed {lead : Bool} {a b : Text} (whole : untabbed lead (a ++ '\n' :: b)) :
    untabbed true b := by
  induction a generalizing lead with
  | nil => exact (Bool.and_eq_true_iff.mp whole).2
  | cons c a ih => exact ih (Bool.and_eq_true_iff.mp whole).2

theorem tidyLine_of_tidy (right : Text) (trimmed : trimmed (line ++ right))
    (ends : right.head?.all isBreak) (untabbed : untabbed true (line ++ right)) :
    tidyLine width line = line := by
  apply tidyLine_eq_self
  · intro some
    rw [← List.dropLast_append_getLast some, List.append_assoc] at trimmed
    have last := trimmed_of_append trimmed
    simp only [Text.trimmed, List.singleton_append, ends, Bool.and_true, Bool.and_eq_true] at last
    simpa using last.1
  · intro tab
    have blanks : isBlankRun (line.takeWhile isBlank) :=
      isBlankRun_iff.mpr ⟨List.ne_nil_of_mem tab, fun c member => List.mem_takeWhile_imp member⟩
    rw [← List.takeWhile_append_dropWhile (p := isBlank) (l := line), List.append_assoc,
      untabbed_append_of_isBlankRun blanks] at untabbed
    simp [tab] at untabbed

theorem map_tidyLine_of_tidy {text : Text} (trimmed : trimmed text) (untabbed : untabbed true text) :
    (text.splitOn '\n').map (tidyLine width) = text.splitOn '\n' := by
  induction text using lines_induction (· == '\n') with
  | whole line unbroken =>
    rw [← line.append_nil] at trimmed untabbed
    rw [splitOn_eq_singleton unbroken, List.map_singleton, tidyLine_of_tidy [] trimmed rfl untabbed]
  | cut line c rest unbroken breaks ih =>
    obtain rfl : c = '\n' := by simpa using breaks
    have later : Text.trimmed rest := trimmed_of_append (a := line ++ ['\n']) (by simpa using trimmed)
    rw [splitOn_append_feed, splitOn_eq_singleton unbroken, List.map_append, List.map_singleton,
      ih later (untabbed_of_append_feed untabbed), tidyLine_of_tidy _ trimmed rfl untabbed]

/-! ### Changes that the normal form does not see -/

section Changes

variable {left right : Text}

theorem normalForm_congr {a b : Text}
    (lines : (a.splitOn '\n').map (tidyLine width) = (b.splitOn '\n').map (tidyLine width))
    (feeds : '\n' ∈ a ↔ '\n' ∈ b) : normalForm width a = normalForm width b := by
  unfold normalForm
  simp only [lines, feeds]

theorem not_feed_of_isBlank (blank : ∀ c ∈ t, isBlank c) : ∀ c ∈ t, (c == '\n') = false := by
  intro c member
  rcases (by simpa [isBlank] using blank c member : c = ' ' ∨ c = '\t') with rfl | rfl <;> rfl

theorem normalForm_trim (blank : ∀ c ∈ t, isBlank c) (ends : right.head?.all (· == '\n')) :
    normalForm width (left ++ t ++ right) = normalForm width (left ++ right) := by
  have unbroken := not_feed_of_isBlank blank
  refine normalForm_congr (map_lines_trim unbroken ends (tidyLine_append blank)) ?_
  have none : '\n' ∉ t := fun member => by simpa using unbroken _ member
  simp [none]

theorem normalForm_indent (blank : ∀ c ∈ t, isBlank c) (opens : left.getLast?.all (· == '\n')) :
    normalForm width (left ++ Rule.TabIndent.expand width t ++ right) =
      normalForm width (left ++ t ++ right) := by
  have unbroken := not_feed_of_isBlank blank
  have unbroken' : ∀ c ∈ Rule.TabIndent.expand width t, (c == '\n') = false :=
    not_feed_of_isBlank (Linter.isBlank_expand blank)
  refine normalForm_congr (map_lines_indent unbroken' unbroken opens ?_) ?_
  · exact fun line => (tidyLine_expand blank line).symm
  · have none : '\n' ∉ t := fun member => by simpa using unbroken _ member
    have none' : '\n' ∉ Rule.TabIndent.expand width t := fun member => by
      simpa using unbroken' _ member
    simp [none, none']

theorem splitOn_feed (text : Text) : ('\n' :: text).splitOn '\n' = [] :: text.splitOn '\n' :=
  splitOn_append_feed [] text

theorem normalForm_squeeze (left right : Text) :
    normalForm width (left ++ '\n' :: '\n' :: '\n' :: right) =
      normalForm width (left ++ '\n' :: '\n' :: right) := by
  have some : (left.splitOn '\n').map (tidyLine width) ≠ [] := by simp
  unfold normalForm
  simp only [splitOn_append_feed, splitOn_feed, List.map_append, List.map_cons, tidyLine_nil,
    layout_squeeze some]
  simp

theorem empty_of_mem_splitOn (feeds : ∀ c ∈ right, c = '\n') :
    ∀ line ∈ right.splitOn '\n', line = [] := by
  induction right with
  | nil => simp [List.splitOn_nil]
  | cons c right ih =>
    obtain ⟨rfl, later⟩ := List.forall_mem_cons.mp feeds
    rw [splitOn_feed]
    exact List.forall_mem_cons.mpr ⟨rfl, ih later⟩

theorem normalForm_shorten (left : Text) (feeds : ∀ c ∈ right, c = '\n') :
    normalForm width (left ++ '\n' :: '\n' :: right) = normalForm width (left ++ '\n' :: right) := by
  have empty : ∀ line ∈ (right.splitOn '\n').map (tidyLine width), line = [] := by
    intro line member
    obtain ⟨line, listed, rfl⟩ := List.mem_map.mp member
    rw [empty_of_mem_splitOn feeds line listed, tidyLine_nil]
  unfold normalForm
  simp only [splitOn_append_feed, splitOn_feed, List.map_append, List.map_cons, tidyLine_nil,
    layout_append_of_forall empty, layout_append_of_forall (List.forall_mem_cons.mpr ⟨rfl, empty⟩)]
  simp

theorem normalForm_finish (left : Text) (some : t ≠ []) (unbroken : ∀ c ∈ t, (c == '\n') = false)
    (solid : ∀ c ∈ t, isBlank c = false) :
    normalForm width (left ++ t ++ ['\n']) = normalForm width (left ++ t) := by
  have shown : (((left ++ t).splitOn '\n').map (tidyLine width)).all List.isEmpty = false := by
    obtain ⟨lines, line, cut⟩ := splitOn_append_unbroken left unbroken
    have member : line ++ t ∈ (left ++ t).splitOn '\n' := by simp [cut]
    refine List.all_eq_false.mpr ⟨_, List.mem_map_of_mem member, ?_⟩
    obtain ⟨c, rest, rfl⟩ := List.exists_cons_of_ne_nil some
    have first : ∃ d ∈ line ++ c :: rest, isBlank d = false :=
      ⟨c, by simp, solid c List.mem_cons_self⟩
    simpa using tidyLine_ne_nil first
  unfold normalForm
  simp only [splitOn_append_feed, List.splitOn_nil, List.map_append, List.map_singleton,
    tidyLine_nil, List.all_append, shown, layout_append_of_forall (List.forall_mem_singleton.mpr rfl)]
  rfl

end Changes

end Retouch.Text
