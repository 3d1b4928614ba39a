import Retouch.Proofs.Linter.Sweeping
import Retouch.Proofs.Text.Rows

/-!
Terminators of one kind. Texts whose terminators are all of one kind can be put together, since a
carriage return and a line feed that come to read as one terminator are of two kinds. A pass leaves
of a token nothing, blanks, the token or the token with a terminator behind it; so it brings in no
other kind, whichever rules are on and wherever the run stops.
-/

namespace Retouch

namespace Text

variable {kind : Terminator} {t a b line text : Text}

def Uniform (kind : Terminator) (text : Text) : Prop :=
  ∀ row ∈ rows text, row.ending = [] ∨ row.ending = kind.text

instance : Decidable (Uniform kind text) := inferInstanceAs (Decidable (∀ row ∈ rows text, _))

theorem isNewline_kind (kind : Terminator) : isNewline kind.text := by
  cases kind <;> rfl

/-! ### Parts of uniform texts -/

theorem uniform_of_unbroken (unbroken : ∀ c ∈ line, isBreak c = false) : Uniform kind line := by
  rw [Uniform, rows_of_unbroken unbroken]
  exact List.forall_mem_singleton.mpr (Or.inl rfl)

theorem Uniform.cons (unbroken : ∀ c ∈ line, isBreak c = false) (uniform : Uniform kind b) :
    Uniform kind (line ++ kind.text ++ b) := by
  have apart : kind.text = ['\r'] → b.head? ≠ some '\n' := by
    intro feed follows
    obtain ⟨rest, rfl⟩ := List.head?_eq_some_iff.mp follows
    have first := uniform ⟨[], ['\n']⟩ List.mem_cons_self
    rw [feed] at first
    simp at first
  rw [Uniform, rows_append_newline unbroken (isNewline_kind kind) apart]
  exact List.forall_mem_cons.mpr ⟨Or.inr rfl, uniform⟩

theorem Uniform.append (first : Uniform kind a) (second : Uniform kind b) :
    Uniform kind (a ++ b) := by
  induction a using rows_induction with
  | whole line unbroken =>
    rw [Uniform, rows_append unbroken]
    unfold Uniform at second
    cases split : rows b with
    | nil => simp
    | cons row rest =>
      rw [split] at second
      simpa [Row.lead] using second
  | cut line ending rest unbroken newline apart ih =>
    rw [Uniform, rows_append_newline unbroken newline apart] at first
    obtain ⟨here, later⟩ := List.forall_mem_cons.mp first
    have same : ending = kind.text := by
      refine here.resolve_left ?_
      rintro rfl
      cases newline
    rw [same, List.append_assoc]
    exact (ih later).cons unbroken

theorem Uniform.flatten {pieces : List Text} (uniform : ∀ t ∈ pieces, Uniform kind t) :
    Uniform kind pieces.flatten := by
  induction pieces with
  | nil => exact uniform_of_unbroken (by simp)
  | cons t pieces ih =>
    obtain ⟨first, later⟩ := List.forall_mem_cons.mp uniform
    exact first.append (ih later)

theorem Uniform.of_mem_segment (uniform : Uniform kind text) (member : t ∈ segment text) :
    Uniform kind t := by
  rw [segment_eq_flatMap] at member
  obtain ⟨row, listed, member⟩ := List.mem_flatMap.mp member
  rcases List.mem_append.mp member with inner | ends
  · exact uniform_of_unbroken (unbroken_of_mem_segment ((ruled_rows text).unbroken listed) inner)
  · rcases uniform row listed with none | same
    · rw [none] at ends
      cases ends
    · rw [same, segment_of_isNewline (isNewline_kind kind)] at ends
      obtain rfl := List.mem_singleton.mp ends
      have empty : ∀ c ∈ ([] : Text), isBreak c = false := by simp
      simpa using (uniform_of_unbroken empty : Uniform kind []).cons empty

/-! ### The terminator of new lines -/

theorem hasCrLf_iff : hasCrLf text ↔ ∃ row ∈ rows text, row.ending = ['\r', '\n'] := by
  fun_induction rows text with
  | case1 => simp [hasCrLf]
  | case2 => simp [hasCrLf]
  | case3 c rest single _ ih =>
    rw [hasCrLf, ih]
    · simp
    · exact single
  | case4 c rest single _ ih =>
    rw [hasCrLf, ih]
    · cases rows rest <;> simp [Row.lead]
    · exact single

theorem mem_return_iff : '\r' ∈ text ↔ ∃ row ∈ rows text, '\r' ∈ row.ending := by
  have inside : ∀ row ∈ rows text, '\r' ∉ row.line := fun row listed member => by
    cases (ruled_rows text).unbroken listed '\r' member
  nth_rewrite 1 [← flatMap_rows text]
  rw [List.mem_flatMap]
  refine exists_congr fun row => and_congr_right fun listed => ?_
  rw [Row.text, List.mem_append, or_iff_right (inside row listed)]

theorem Uniform.dominantTerminator (uniform : Uniform kind text)
    (default : (∀ row ∈ rows text, row.ending = []) → kind = .lf) :
    dominantTerminator text = kind.text := by
  have shown : kind ≠ .lf → ∃ row ∈ rows text, row.ending = kind.text := by
    intro other
    by_contra none
    refine other (default fun row listed => ?_)
    exact (uniform row listed).resolve_right fun same => none ⟨row, listed, same⟩
  have joined : hasCrLf text → kind.text = ['\r', '\n'] := by
    intro both
    obtain ⟨row, listed, same⟩ := hasCrLf_iff.mp both
    rw [← same]
    exact ((uniform row listed).resolve_left (by simp [same])).symm
  have returns : '\r' ∈ text → '\r' ∈ kind.text := by
    intro member
    obtain ⟨row, listed, member⟩ := mem_return_iff.mp member
    rwa [(uniform row listed).resolve_left (List.ne_nil_of_mem member)] at member
  unfold Text.dominantTerminator
  cases kind with
  | crlf => rw [if_pos (hasCrLf_iff.mpr (shown (by decide))), Terminator.text]
  | lf =>
    have single : ¬hasCrLf text := fun both => absurd (joined both) (by decide)
    have feeds : '\r' ∉ text := fun member => absurd (returns member) (by decide)
    rw [if_neg single, if_neg (by simpa using feeds), Terminator.text]
  | cr =>
    have single : ¬hasCrLf text := fun both => absurd (joined both) (by decide)
    have returns : '\r' ∈ text := by
      obtain ⟨row, listed, same⟩ := shown (by decide)
      exact mem_return_iff.mpr ⟨row, listed, by simp [same, Terminator.text]⟩
    rw [if_neg single, if_pos (by simpa using returns), Terminator.text]

end Text

namespace Linter

open Text (isNewline isBlankRun isLexeme segment Uniform)

variable {kind : Terminator} {rule : Rule} {rules : List Rule} {t c text : Text}
  {before after tokens : List Text}

/-! ### Passes -/

/-- What a rule wants in place of a token has no terminator of another kind. -/
theorem uniform_wish (lexeme : isLexeme t)
    (wished : rule.wish kind.text before t after = some c) : Uniform kind c := by
  have empty : some [] = some c → Uniform kind c := by
    intro same
    obtain rfl := Option.some.inj same
    exact Text.uniform_of_unbroken (by simp)
  cases rule with
  | trailingBlanks =>
    rw [Rule.wish, Option.ite_none_right_eq_some] at wished
    exact empty wished.2
  | tabIndent width =>
    rw [Rule.wish, Option.ite_none_right_eq_some] at wished
    obtain ⟨tabbed, same⟩ := wished
    obtain rfl := Option.some.inj same
    simp only [Bool.and_eq_true] at tabbed
    refine Text.uniform_of_unbroken fun d member => Text.isBreak_of_isBlank ?_
    exact isBlank_expand (Text.isBlankRun_iff.mp tabbed.1.2).2 d member
  | finalNewline =>
    rw [Rule.wish] at wished
    split at wished
    case isTrue =>
      rw [Option.ite_none_right_eq_some] at wished
      exact empty wished.2
    case isFalse other =>
      rw [Option.ite_none_right_eq_some] at wished
      obtain rfl := Option.some.inj wished.2
      have unbroken := Text.unbroken_of_isLexeme lexeme (eq_false_of_ne_true other)
      have closed := (Text.uniform_of_unbroken (by simp) : Uniform kind []).cons unbroken
      rwa [List.append_nil] at closed
  | blankLines =>
    rw [Rule.wish, Option.ite_none_right_eq_some] at wished
    exact empty wished.2

theorem uniform_mended (lexemes : ∀ t ∈ tokens, isLexeme t) (uniform : ∀ t ∈ tokens, Uniform kind t) :
    ∀ t ∈ mended rules kind.text before tokens, Uniform kind t := by
  induction tokens generalizing before with
  | nil => simp [mended]
  | cons t after ih =>
    obtain ⟨lexeme, lexemes⟩ := List.forall_mem_cons.mp lexemes
    obtain ⟨first, uniform⟩ := List.forall_mem_cons.mp uniform
    rw [mended]
    refine List.forall_mem_cons.mpr ⟨?_, ih lexemes uniform⟩
    cases wished : wanted rules kind.text before t after with
    | none => exact first
    | some c =>
      obtain ⟨rule, -, wish⟩ := List.exists_of_findSome?_eq_some wished
      exact uniform_wish lexeme wish

theorem uniform_sweptText (rules : List Rule) (uniform : Uniform kind text) :
    Uniform kind (sweptText rules kind.text text) :=
  Uniform.flatten (uniform_mended (Text.wellCut_segment text).lexemes fun _ => uniform.of_mem_segment)

/-- If all terminators of a text are of one kind, line feeds if there are none, and the settings
name no other, then all terminators that a run leaves are of this kind. -/
theorem fixText_uniform (text : Text) (config : Config) (free : config.terminator = none)
    (uniform : Uniform kind text)
    (default : (∀ row ∈ Text.rows text, row.ending = []) → kind = .lf) :
    Uniform kind (fixText text config).session.contents := by
  have same : ((ofText text config).session config).terminator = kind.text := by
    unfold session
    rw [free]
    show Text.dominantTerminator (segment text).flatten = kind.text
    rw [Text.flatten_segment, uniform.dominantTerminator default]
  rw [fixText_contents, same]
  generalize min config.maxPasses 2 = passes
  induction passes with
  | zero => exact uniform
  | succ passes ih =>
    rw [Function.iterate_succ_apply']
    exact uniform_sweptText config.rules ih

theorem fixText_uniform_pairs :
    Uniform .crlf ['a', '\r', '\n', '\t', '\r', '\n', '\r', '\n', '\t', 'b'] ∧
      (fixText ['a', '\r', '\n', '\t', '\r', '\n', '\r', '\n', '\t', 'b'] {}).session.contents =
        ['a', '\r', '\n', '\r', '\n', ' ', ' ', ' ', ' ', 'b', '\r', '\n'] ∧
      Uniform .crlf ['a', '\r', '\n', '\r', '\n', ' ', ' ', ' ', ' ', 'b', '\r', '\n'] := by
  have uniform : Uniform .crlf ['a', '\r', '\n', '\t', '\r', '\n', '\r', '\n', '\t', 'b'] := by
    decide +kernel
  have contents : (fixText ['a', '\r', '\n', '\t', '\r', '\n', '\r', '\n', '\t', 'b']
      {}).session.contents =
        ['a', '\r', '\n', '\r', '\n', ' ', ' ', ' ', ' ', 'b', '\r', '\n'] := by decide +kernel
  refine ⟨uniform, contents, ?_⟩
  rw [← contents]
  exact fixText_uniform _ {} rfl uniform (by decide +kernel)

end Linter

end Retouch
