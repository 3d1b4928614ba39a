import Retouch.Proofs.Linter.Sweeping

/-!
Trailing blanks alone. With no other rule on, a pass drops the blanks at the end of each line and a
second one finds none. The terminators stay, but they need not stay apart: where a line of blanks
separates a carriage return from a line feed, trimming it makes them one terminator. So the lines of
the result are the trimmed lines of the text iff the text has no such line.
-/

namespace Retouch

namespace Text

variable {t u : Text} {rs : List Row}

def Row.trimmed (row : Row) : Row := { row with line := row.line.rdropWhile isBlank }

theorem Ruled.trimmed (ruled : Ruled rs) : Ruled (rs.map Row.trimmed) :=
  ruled.mapLine fun line unbroken c member =>
    unbroken c ((List.rdropWhile_prefix isBlank line).subset member)

theorem rdropWhile_append_of_solid (solid : ∀ c ∈ t, isBlank c = false) :
    (t ++ u).rdropWhile isBlank = t ++ u.rdropWhile isBlank := by
  by_cases blank : u.rdropWhile isBlank = []
  · rw [rdropWhile_append_of_forall (List.rdropWhile_eq_nil_iff.mp blank), blank, List.append_nil,
      List.rdropWhile_eq_self_iff]
    intro some
    rw [solid _ (List.getLast_mem some)]
    exact Bool.false_ne_true
  · exact rdropWhile_append_of_ne_nil blank

end Text

namespace Linter

open Text (isBlank isBreak isNewline isBlankRun segment rows Row WellCut)

variable {t terminator : Text} {before tokens tail : List Text}

/-! ### One pass -/

theorem mended_trailing_cons : mended [.trailingBlanks] terminator before (t :: tokens) =
    (if isBlankRun t && tokens.head?.all isNewline then [] else t) ::
      mended [.trailingBlanks] terminator (t :: before) tokens := by
  rw [mended_alone_cons, Rule.wish]
  split <;> rfl

theorem flatten_mended_line (cut : WellCut tokens) (plain : ∀ t ∈ tokens, isNewline t = false)
    (ends : tail.head?.all isNewline) :
    (mended [.trailingBlanks] terminator before (tokens ++ tail)).flatten =
      tokens.flatten.rdropWhile isBlank ++
        (mended [.trailingBlanks] terminator (tokens.reverse ++ before) tail).flatten := by
  induction tokens generalizing before with
  | nil => simp
  | cons t tokens ih =>
    obtain ⟨lexeme, next, cut⟩ := Text.wellCut_cons.mp cut
    obtain ⟨other, plain⟩ := List.forall_mem_cons.mp plain
    rw [List.cons_append, mended_trailing_cons, List.flatten_cons, ih cut plain, ← List.append_assoc,
      List.flatten_cons, List.reverse_cons, List.append_assoc tokens.reverse, List.singleton_append]
    congr 1
    cases blanks : isBlankRun t with
    | false =>
      have solid c member := (Text.solid_of_isLexeme lexeme other blanks c member).1
      rw [Text.rdropWhile_append_of_solid solid]
      rfl
    | true =>
      cases tokens with
      | nil =>
        have blank := (Text.isBlankRun_iff.mp blanks).2
        simp [ends, List.rdropWhile_eq_nil_iff.mpr blank]
      | cons u rest =>
        -- The next token is neither a terminator nor blank, so that the blanks do not trail.
        have newline : isNewline u = false := plain u List.mem_cons_self
        have solid : isBlankRun u = false := by simpa using Text.head?_of_isBlankRun blanks next
        have lexeme := (Text.wellCut_cons.mp cut).1
        have keeps : (u :: rest).flatten.rdropWhile isBlank ≠ [] := by
          rw [List.flatten_cons, Text.rdropWhile_append_of_solid fun c member =>
            (Text.solid_of_isLexeme lexeme newline solid c member).1]
          exact List.append_ne_nil_of_left_ne_nil (Text.ne_nil_of_isLexeme lexeme) _
        rw [Text.rdropWhile_append_of_ne_nil keeps]
        simp [newline]

theorem flatten_mended_rows (text : Text) :
    (mended [.trailingBlanks] terminator [] (segment text)).flatten =
      ((rows text).map Row.trimmed).flatMap Row.text :=
  flatten_mended_alone (fun cut plain _ ends => flatten_mended_line cut plain ends)
    (fun newline => by simp [Rule.wish, Rule.isBlankRun_of_isNewline newline]) text rfl

/-! ### Runs -/

/-- A run that mends trailing blanks alone trims the line of every row. These are the rows of the
result iff no line of blanks stands between a carriage return that ends a line and a line feed. -/
theorem fixText_trims (text : Text) (config : Config) (only : config.rules = [.trailingBlanks])
    (some : 1 ≤ config.maxPasses) :
    let result := (fixText text config).session.contents
    result = ((rows text).map Row.trimmed).flatMap Row.text ∧
    ((rows result).map Row.line = (rows text).map (fun row => row.line.rdropWhile isBlank) ↔
      (rows text).IsChain fun row next =>
        ¬(row.ending = ['\r'] ∧ (∀ c ∈ next.line, isBlank c) ∧ next.ending = ['\n'])) := by
  intro result
  have swept : result = ((rows text).map Row.trimmed).flatMap Row.text := by
    rw [show result = _ from fixText_alone text config only some]
    exact flatten_mended_rows text
  have ruled := (Text.ruled_rows text).trimmed
  have lines : (rows text).map (fun row => row.line.rdropWhile isBlank) =
      ((rows text).map Row.trimmed).map Row.line := by
    rw [List.map_map]
    rfl
  have apart : (((rows text).map Row.trimmed).IsChain fun row next => ¬row.Meets next) ↔
      (rows text).IsChain fun row next =>
        ¬(row.ending = ['\r'] ∧ (∀ c ∈ next.line, isBlank c) ∧ next.ending = ['\n']) := by
    rw [List.isChain_map]
    simp only [Row.Meets, Row.trimmed, List.rdropWhile_eq_nil_iff]
  refine ⟨swept, ?_⟩
  rw [lines, ← apart, swept]
  constructor
  · intro same
    have lengths := congrArg List.length same
    rw [List.length_map, List.length_map] at lengths
    exact ruled.length_rows.2 lengths
  · intro chain
    rw [ruled.rows_flatMap chain]

def trimming : Config := { enabled := some [Rule.trailingBlanks.code] }

theorem fixText_trims_mixed :
    trimming.rules = [.trailingBlanks] ∧ 1 ≤ trimming.maxPasses ∧
      (rows (fixText ['a', ' ', '\r', '\t', '\r', '\n', ' ', '\n', 'b', '\t']
        trimming).session.contents).map Row.line = [['a'], [], [], ['b']] := by
  have only : trimming.rules = [.trailingBlanks] := by decide +kernel
  have some : 1 ≤ trimming.maxPasses := by decide
  have cut : rows ['a', ' ', '\r', '\t', '\r', '\n', ' ', '\n', 'b', '\t'] =
      [⟨['a', ' '], ['\r']⟩, ⟨['\t'], ['\r', '\n']⟩, ⟨[' '], ['\n']⟩, ⟨['b', '\t'], []⟩] := by
    decide +kernel
  refine ⟨only, some, ?_⟩
  rw [(fixText_trims _ trimming only some).2.mpr (by simp [cut]), cut]
  decide +kernel

/-- A line of blanks between a carriage return and a line feed is lost with its blanks. -/
theorem fixText_joins_lines :
    rows ['a', '\r', ' ', '\n', 'b'] = [⟨['a'], ['\r']⟩, ⟨[' '], ['\n']⟩, ⟨['b'], []⟩] ∧
      rows (fixText ['a', '\r', ' ', '\n', 'b'] trimming).session.contents =
        [⟨['a'], ['\r', '\n']⟩, ⟨['b'], []⟩] := by
  decide +kernel

end Linter

end Retouch
