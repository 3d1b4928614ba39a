import Retouch.Proofs.Linter.NormalForm
import Retouch.Proofs.Linter.Sweeping

/-!
What lines look like with tab stops. With tabs in the indentation as the only thing to mend, a run
writes the indentation of each line as spaces up to the same column. So the line looks as it did,
and tabs further inside it, which stay, still reach the stops that they reached.
-/

namespace Retouch

namespace Text

variable {width : Nat} {t : Text}

/-- How text shows from a column on, with tab stops every `width` columns. -/
def rendered (width column : Nat) : Text → Text
  | [] => []
  | c :: rest =>
    let next := advance width column c
    (if c == '\t' then spaces (next - column) else [c]) ++ rendered width next rest

def expandIndent (width : Nat) (line : Text) : Text :=
  Rule.TabIndent.expand width (line.takeWhile isBlank) ++ line.dropWhile isBlank

def Row.expanded (width : Nat) (row : Row) : Row := { row with line := expandIndent width row.line }

/-! ### Rendering -/

theorem rendered_append (width column : Nat) (t rest : Text) : rendered width column (t ++ rest) =
    rendered width column t ++ rendered width (t.foldl (advance width) column) rest := by
  induction t generalizing column with
  | nil => rfl
  | cons c t ih =>
    rw [List.cons_append, rendered, rendered, ih, List.foldl_cons, List.append_assoc]

theorem spaces_append_rendered {stop : Nat} (positive : 0 < stop) (blank : ∀ c ∈ t, isBlank c)
    (column : Nat) :
    spaces column ++ rendered stop column t = spaces (t.foldl (advance stop) column) := by
  induction t generalizing column with
  | nil => simp [rendered]
  | cons c t ih =>
    obtain ⟨first, blank⟩ := List.forall_mem_cons.mp blank
    rw [List.foldl_cons, ← ih blank, rendered, ← List.append_assoc]
    congr 1
    rcases (by simpa [isBlank] using first : c = ' ' ∨ c = '\t') with rfl | rfl
    · simp [advance, spaces, List.replicate_succ']
    · rw [advance_tab positive, BEq.rfl, if_pos rfl, Nat.add_sub_cancel_left, spaces, spaces, spaces,
        List.replicate_append_replicate]

/-- Widened blanks show as they did, and so does what follows them. -/
theorem rendered_expand (blank : ∀ c ∈ t, isBlank c) (rest : Text) :
    rendered (max width 1) 0 (Rule.TabIndent.expand width t ++ rest) =
      rendered (max width 1) 0 (t ++ rest) := by
  have shows {u : Text} (blank : ∀ c ∈ u, isBlank c) :
      rendered (max width 1) 0 u = spaces (u.foldl (advance (max width 1)) 0) :=
    spaces_append_rendered (by omega) blank 0
  have reaches : (Rule.TabIndent.expand width t).foldl (advance (max width 1)) 0 =
      t.foldl (advance (max width 1)) 0 := by
    rw [expand_eq_spaces blank, foldl_advance_spaces, Nat.zero_add]
  rw [rendered_append, rendered_append, shows (Linter.isBlank_expand blank), shows blank, reaches]

theorem expand_of_untabbed (blank : ∀ c ∈ t, isBlank c) (untabbed : '\t' ∉ t) :
    Rule.TabIndent.expand width t = t := by
  rw [expand_eq_spaces blank, eq_spaces_of_untabbed blank untabbed, foldl_advance_spaces,
    Nat.zero_add]

/-! ### Widened indentation -/

theorem rendered_expandIndent (width : Nat) (line : Text) :
    rendered (max width 1) 0 (expandIndent width line) = rendered (max width 1) 0 line := by
  have blank : ∀ c ∈ line.takeWhile isBlank, isBlank c := fun _ => List.mem_takeWhile_imp
  rw [expandIndent, rendered_expand blank, List.takeWhile_append_dropWhile]

theorem untabbed_expandIndent (width : Nat) (line : Text) :
    '\t' ∉ (expandIndent width line).takeWhile isBlank := by
  have blank : ∀ c ∈ Rule.TabIndent.expand width (line.takeWhile isBlank), isBlank c :=
    Linter.isBlank_expand fun _ => List.mem_takeWhile_imp
  have rest : (line.dropWhile isBlank).takeWhile isBlank = [] :=
    List.takeWhile_eq_nil_iff.mpr (List.dropWhile_get_zero_not _ _)
  have untabbed : (Rule.TabIndent.expand width (line.takeWhile isBlank)).contains '\t' = false :=
    Linter.contains_expand
  rw [expandIndent, List.takeWhile_append_of_pos blank, rest, List.append_nil]
  simpa using untabbed

theorem expandIndent_ne_nil {line : Text} (some : line ≠ []) : expandIndent width line ≠ [] := by
  intro empty
  obtain ⟨indent, rest⟩ := List.append_eq_nil_iff.mp empty
  have none : line.takeWhile isBlank = [] := by
    by_contra some
    exact Linter.expand_ne_nil some indent
  apply some
  rw [← List.takeWhile_append_dropWhile (p := isBlank) (l := line), none, rest, List.append_nil]

theorem unbroken_expandIndent {line : Text} (unbroken : ∀ c ∈ line, isBreak c = false) :
    ∀ c ∈ expandIndent width line, isBreak c = false := by
  intro c member
  rcases List.mem_append.mp member with indent | rest
  · exact isBreak_of_isBlank (Linter.isBlank_expand (fun _ => List.mem_takeWhile_imp) c indent)
  · exact unbroken c ((List.dropWhile_suffix isBlank).subset rest)

theorem rows_expanded (width : Nat) (text : Text) :
    rows (((rows text).map (Row.expanded width)).flatMap Row.text) =
      (rows text).map (Row.expanded width) := by
  have ruled : Ruled ((rows text).map (Row.expanded width)) :=
    (ruled_rows text).mapLine fun _ => unbroken_expandIndent
  refine ruled.rows_flatMap ?_
  rw [List.isChain_map]
  refine (isChain_rows text).imp fun row next apart => ?_
  rintro ⟨feed, empty, ends⟩
  refine apart ⟨feed, ?_, ends⟩
  by_contra some
  exact expandIndent_ne_nil some empty

end Text

namespace Linter

open Text (isBlank isNewline isBlankRun segment rows rendered expandIndent Row WellCut)

variable {width : Nat} {t terminator : Text} {before tokens tail : List Text}

/-! ### One pass -/

theorem mended_tabs_cons : mended [.tabIndent width] terminator before (t :: tokens) =
    (if t.contains '\t' && isBlankRun t && before.head?.all isNewline then
      Rule.TabIndent.expand width t else t) ::
      mended [.tabIndent width] terminator (t :: before) tokens := by
  rw [mended_alone_cons, Rule.wish]
  split <;> rfl

theorem mended_tabs_inside (inside : before.head?.all isNewline = false)
    (plain : ∀ t ∈ tokens, isNewline t = false) :
    mended [.tabIndent width] terminator before (tokens ++ tail) =
      tokens ++ mended [.tabIndent width] terminator (tokens.reverse ++ before) tail := by
  induction tokens generalizing before with
  | nil => rfl
  | cons t tokens ih =>
    obtain ⟨other, plain⟩ := List.forall_mem_cons.mp plain
    rw [List.cons_append, mended_tabs_cons, inside, Bool.and_false, if_neg Bool.false_ne_true,
      ih (by simpa using other) plain, List.reverse_cons, List.append_assoc tokens.reverse]
    rfl

/-- The blanks that a line starts with are widened, if it follows a terminator or nothing. -/
theorem flatten_mended_indent (cut : WellCut tokens) (plain : ∀ t ∈ tokens, isNewline t = false)
    (opens : before.head?.all isNewline) :
    (mended [.tabIndent width] terminator before (tokens ++ tail)).flatten =
      expandIndent width tokens.flatten ++
        (mended [.tabIndent width] terminator (tokens.reverse ++ before) tail).flatten := by
  have solid {u : Text} (first : u.head?.all fun c => !isBlank c) :
      u.takeWhile isBlank = [] ∧ u.dropWhile isBlank = u := by
    cases u with
    | nil => exact ⟨rfl, rfl⟩
    | cons c u =>
      have first : isBlank c = false := by simpa using first
      simp [first]
  cases tokens with
  | nil => rfl
  | cons t tokens =>
    obtain ⟨-, next, later⟩ := Text.wellCut_cons.mp cut
    obtain ⟨other, plain⟩ := List.forall_mem_cons.mp plain
    have inside : (t :: before).head?.all isNewline = false := other
    rw [List.cons_append, mended_tabs_cons, mended_tabs_inside inside plain, opens, Bool.and_true,
      List.flatten_cons, List.flatten_append, ← List.append_assoc, List.reverse_cons,
      List.append_assoc tokens.reverse, List.singleton_append]
    congr 1
    cases blanks : isBlankRun t with
    | false =>
      have first : (t :: tokens).flatten.head?.all fun c => !isBlank c := by
        rw [cut.head?_flatten.2]
        simpa using blanks
      obtain ⟨none, whole⟩ := solid first
      rw [expandIndent, none, whole, Bool.and_false, if_neg Bool.false_ne_true]
      rfl
    | true =>
      have blank := (Text.isBlankRun_iff.mp blanks).2
      have first : tokens.flatten.head?.all fun c => !isBlank c := by
        rw [later.head?_flatten.2]
        exact Text.head?_of_isBlankRun blanks next
      obtain ⟨none, whole⟩ := solid first
      rw [expandIndent, List.flatten_cons, List.takeWhile_append_of_pos blank,
        List.dropWhile_append_of_pos blank, none, whole, List.append_nil, Bool.and_true]
      split
      · rfl
      · rename_i untabbed
        rw [Text.expand_of_untabbed blank (by simpa using untabbed)]

theorem flatten_mended_expanded (text : Text) :
    (mended [.tabIndent width] terminator [] (segment text)).flatten =
      ((rows text).map (Row.expanded width)).flatMap Row.text :=
  flatten_mended_alone (fun cut plain opens _ => flatten_mended_indent cut plain opens)
    (fun newline => by simp [Rule.wish, Rule.isBlankRun_of_isNewline newline]) text rfl

/-! ### Runs -/

/-- If tabs in the indentation are the only thing to mend, a run leaves every line with its
terminator, without a tab in its indentation, and looking the same with the given tab stops. -/
theorem fixText_renders (text : Text) (config : Config)
    (only : config.rules = [.tabIndent config.tabWidth]) (some : 1 ≤ config.maxPasses) :
    let result := (fixText text config).session.contents
    let shown (row : Row) := rendered (max config.tabWidth 1) 0 row.line
    (rows result).map Row.ending = (rows text).map Row.ending ∧
    (∀ row ∈ rows result, '\t' ∉ row.line.takeWhile isBlank) ∧
    (rows result).map shown = (rows text).map shown := by
  intro result shown
  have expanded : rows result = (rows text).map (Row.expanded config.tabWidth) := by
    rw [show result = _ from fixText_alone text config only some, sweptText,
      flatten_mended_expanded, Text.rows_expanded]
  rw [expanded, List.map_map, List.map_map]
  refine ⟨rfl, fun row member => ?_, ?_⟩
  · obtain ⟨row, -, rfl⟩ := List.mem_map.mp member
    exact Text.untabbed_expandIndent config.tabWidth row.line
  · exact List.map_congr_left fun row _ => Text.rendered_expandIndent config.tabWidth row.line

def untabbing (width : Nat) : Config :=
  { tabWidth := width, enabled := some [(Rule.tabIndent width).code] }

/-- A tab inside a line is still as wide as it was once the tab before it has become spaces. -/
theorem fixText_renders_inner :
    (untabbing 3).rules = [.tabIndent 3] ∧ 1 ≤ (untabbing 3).maxPasses ∧
      (rows (fixText [' ', '\t', 'a', 'b', '\t', 'c', '\r', '\n', '\t', '\r', 'd', '\t', 'e']
        (untabbing 3)).session.contents).map (fun row => rendered 3 0 row.line) =
        [[' ', ' ', ' ', 'a', 'b', ' ', 'c'], [' ', ' ', ' '], ['d', ' ', ' ', 'e']] := by
  have only : (untabbing 3).rules = [.tabIndent 3] := by decide +kernel
  have some : 1 ≤ (untabbing 3).maxPasses := by decide
  refine ⟨only, some, (fixText_renders _ (untabbing 3) only some).2.2.trans ?_⟩
  decide +kernel

end Linter

end Retouch
