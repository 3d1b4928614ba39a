import Retouch.Proofs.Linter.Convergence
import Retouch.Proofs.Text.Rows

/-!
The text that a run leaves. Every pass of a run sweeps the text it finds, since none meets a
conflict, and from the third on there is nothing left to sweep. So whatever the limit is, the text
has been swept twice at the end, or as often as the limit allows; what one sweep keeps, a run keeps.
-/

namespace Retouch.Linter

open Text (isNewline isLexeme segment rows Row WellCut)

variable {on : Rule → Bool} {width : Nat} {l : Linter} {s : Session}

theorem contents_of_clean (fixable left : Nat) (distinct : l.rules.Nodup)
    (clean : Clean l.rules s.contents) :
    (host.loop fixable left s l).session.contents = s.contents := by
  cases left with
  | zero => rfl
  | succ left => exact (loop_of_clean fixable left distinct clean).2

theorem contents_of_tidy (fixable left : Nat) (rules : l.rules = (Rule.all width).filter on)
    (ends : isNewline s.terminator) (tidy : Tidy on width s.contents)
    (records : ∀ q r, s.history.record? q = some r → isLexeme r.previous) :
    (host.loop fixable left s l).session.contents =
      (sweptText l.rules s.terminator)^[min left 1] s.contents := by
  have distinct := nodup_rules rules
  cases left with
  | zero => rfl
  | succ left =>
    rw [show min (left + 1) 1 = 1 by omega, Function.iterate_one]
    by_cases clean : Clean l.rules s.contents
    · rw [contents_of_clean fixable _ distinct clean, sweptText_of_clean clean]
    · have moves := moves_of_tidy rules ends tidy records
      have swept : Clean l.rules (host.pass s l).2.1.contents := by
        rw [pass_contents distinct moves, rules]
        exact tidy.clean_sweptText ends
      rw [(loop_of_dirty fixable left distinct moves clean).2,
        contents_of_clean (l := { l with tokens := segment s.contents }) fixable left distinct swept,
        pass_contents distinct moves]

theorem contents_of_fresh (fixable left : Nat) (rules : l.rules = (Rule.all width).filter on)
    (ends : isNewline s.terminator) (empty : ∀ q, s.history.record? q = none) :
    (host.loop fixable left s l).session.contents =
      (sweptText l.rules s.terminator)^[min left 2] s.contents := by
  have distinct := nodup_rules rules
  have moves : Moves l s := moves_of_empty empty
  by_cases clean : Clean l.rules s.contents
  · rw [contents_of_clean fixable left distinct clean,
      Function.iterate_fixed (sweptText_of_clean clean s.terminator)]
  · cases left with
    | zero => rfl
    | succ left =>
      have ends' : isNewline (host.pass s l).2.1.terminator := by
        rw [pass_terminator distinct moves]
        exact ends
      have later := contents_of_tidy (l := { l with tokens := segment s.contents }) fixable left rules
        ends' (tidy_pass rules ends moves) (fun _ _ => isLexeme_of_pass distinct empty)
      rw [pass_terminator distinct moves, pass_contents distinct moves] at later
      rw [(loop_of_dirty fixable left distinct moves clean).2, later,
        show min (left + 1) 2 = min left 1 + 1 by omega, Function.iterate_succ_apply]

theorem fixText_of_clean (text : Text) (config : Config) (clean : (ofText text config).check = []) :
    (fixText text config).outcome = .nothingToFix ∧
      (fixText text config).session.contents = text := by
  have idle : host.fixable (ofText text config) = 0 := List.length_eq_zero_iff.mpr clean
  rw [fixText, Host.fix_of_idle host _ idle]
  exact ⟨rfl, session_contents text config⟩

/-- A run leaves the text swept twice, or once or not at all if the limit says so. -/
theorem fixText_contents (text : Text) (config : Config) :
    (fixText text config).session.contents =
      (sweptText config.rules ((ofText text config).session config).terminator)^[
        min config.maxPasses 2] text := by
  have contents : ((ofText text config).session config).restart.1.contents = text :=
    session_contents text config
  by_cases clean : (ofText text config).check = []
  · have none : Clean config.rules text := (check_eq_nil_iff _ text rfl).mp clean
    rw [(fixText_of_clean text config clean).2, Function.iterate_fixed (sweptText_of_clean none _)]
  · have busy : host.fixable (ofText text config) ≠ 0 := fun none =>
      clean (List.length_eq_zero_iff.mp none)
    have swept := contents_of_fresh (host.fixable (ofText text config))
      (min config.maxPasses 50) (l := ofText text config)
      (s := ((ofText text config).session config).restart.1)
      (show config.rules = _ from rfl) (session_terminator text config) (fun _ => rfl)
    rw [contents, show min (min config.maxPasses 50) 2 = min config.maxPasses 2 by omega] at swept
    rw [fixText, (Host.fix_of_busy host _ busy).2.1, session_maxPasses]
    exact swept

theorem clean_fixText (text : Text) (config : Config) (enough : 2 ≤ config.maxPasses) :
    Clean config.rules (fixText text config).session.contents := by
  have ends := session_terminator text config
  rw [fixText_contents, Nat.min_eq_right enough]
  exact (tidy_sweptText ends text).clean_sweptText ends

theorem iterate_of_clean {rules : List Rule} {terminator text : Text} {i j : Nat}
    (clean : Clean rules ((sweptText rules terminator)^[i] text)) (le : i ≤ j) :
    (sweptText rules terminator)^[j] text = (sweptText rules terminator)^[i] text := by
  obtain ⟨n, rfl⟩ := Nat.exists_eq_add_of_le' le
  rw [Function.iterate_add_apply]
  exact Function.iterate_fixed (sweptText_of_clean clean terminator) n

/-! ### One rule alone -/

theorem filter_eq_singleton (rule : Rule) :
    ∃ width, (Rule.all width).filter (· == rule) = [rule] := by
  cases rule with
  | tabIndent width => exact ⟨width, by simp [Rule.all]⟩
  | _ => exact ⟨0, by simp [Rule.all]⟩

/-- A rule that is alone finds nothing more after one sweep: a rule about blanks leaves them in
place whatever the text was, and to a rule about terminators every text is tidy. -/
theorem clean_alone (rule : Rule) {terminator : Text} (ends : isNewline terminator) (text : Text) :
    Clean [rule] (sweptText [rule] terminator text) := by
  obtain ⟨width, alone⟩ := filter_eq_singleton rule
  rw [← alone]
  have swept : Tidy (· == rule) width (sweptText ((Rule.all width).filter (· == rule)) terminator text) :=
    tidy_sweptText ends text
  intro r member
  obtain ⟨rfl | rfl | rfl | rfl, same⟩ := cases_of_mem member
  · exact (Rule.check_eq_nil_iff _ terminator _).mpr (swept.trailingBlanks same terminator)
  · exact (Rule.check_eq_nil_iff _ terminator _).mpr (swept.tabIndent same terminator)
  all_goals
    obtain rfl := eq_of_beq same
    exact Tidy.clean_sweptText ⟨by simp, by simp⟩ ends _ member

theorem fixText_alone {rule : Rule} (text : Text) (config : Config) (only : config.rules = [rule])
    (some : 1 ≤ config.maxPasses) : (fixText text config).session.contents =
      sweptText [rule] ((ofText text config).session config).terminator text := by
  have clean := clean_alone rule (session_terminator text config) text
  rw [fixText_contents, only,
    iterate_of_clean (show Clean [rule] ((sweptText [rule] _)^[1] text) from clean) (by omega)]
  rfl

theorem mended_alone_cons {rule : Rule} {terminator t : Text} {before tokens : List Text} :
    mended [rule] terminator before (t :: tokens) =
      (rule.wish terminator before t tokens).getD t ::
        mended [rule] terminator (t :: before) tokens := by
  rw [mended, wanted, List.findSome?_singleton]

/-- A rule that mends every line by itself and no terminator mends a text row by row. -/
theorem flatten_mended_alone {rule : Rule} {terminator : Text} {f : Text → Text}
    (lines : ∀ {before tokens tail}, WellCut tokens → (∀ t ∈ tokens, isNewline t = false) →
      before.head?.all isNewline → tail.head?.all isNewline →
      (mended [rule] terminator before (tokens ++ tail)).flatten =
        f tokens.flatten ++ (mended [rule] terminator (tokens.reverse ++ before) tail).flatten)
    (newlines : ∀ {before t after}, isNewline t → rule.wish terminator before t after = none)
    (text : Text) {before : List Text} (opens : before.head?.all isNewline) :
    (mended [rule] terminator before (segment text)).flatten =
      ((rows text).map fun row => { row with line := f row.line }).flatMap Row.text := by
  induction text using Text.rows_induction generalizing before with
  | whole line unbroken =>
    rw [← List.append_nil (segment line), lines (Text.wellCut_segment line)
      (fun _ => Text.isNewline_of_mem_unbroken unbroken) opens rfl, Text.flatten_segment,
      Text.rows_of_unbroken unbroken]
    simp [Row.text, mended]
  | cut line ending rest unbroken newline apart ih =>
    have ends : (ending :: segment rest).head?.all isNewline := newline
    have reopens : (ending :: ((segment line).reverse ++ before)).head?.all isNewline := newline
    rw [Text.segment_append_newline unbroken newline apart, lines (Text.wellCut_segment line)
      (fun _ => Text.isNewline_of_mem_unbroken unbroken) opens ends, Text.flatten_segment,
      mended_alone_cons, newlines newline, List.flatten_cons, ih reopens,
      Text.rows_append_newline unbroken newline apart]
    simp [Row.text]

/-! ### How a run ends -/

theorem fixText_of_dirty (text : Text) (config : Config) (enough : 3 ≤ config.maxPasses)
    (dirty : (ofText text config).check ≠ []) :
    ∃ n, (fixText text config).outcome = .converged n := by
  have busy : host.fixable (ofText text config) ≠ 0 := fun none =>
    dirty (List.length_eq_zero_iff.mp none)
  have contents : ((ofText text config).session config).restart.1.contents = text :=
    session_contents text config
  have reports : ¬Clean config.rules ((ofText text config).session config).restart.1.contents := by
    rw [contents]
    exact fun clean => dirty ((check_eq_nil_iff _ text rfl).mpr clean)
  obtain ⟨left, passes⟩ : ∃ left, ((ofText text config).session config).maxPasses = left + 3 := by
    rw [session_maxPasses]
    exact ⟨min config.maxPasses 50 - 3, by omega⟩
  obtain ⟨⟨n, outcome, -, -⟩, -⟩ := loop_converges (host.fixable (ofText text config)) left
    (l := ofText text config) (s := ((ofText text config).session config).restart.1)
    (show config.rules = _ from rfl) (session_terminator text config) (fun _ => rfl) reports
  rw [fixText, (Host.fix_of_busy host _ busy).1, passes]
  exact ⟨_, outcome⟩

theorem fixText_changes_iff (text : Text) (config : Config) (enough : 2 ≤ config.maxPasses) :
    (fixText text config).session.contents ≠ text ↔ (ofText text config).check ≠ [] := by
  refine not_congr ⟨fun same => ?_, fun clean => (fixText_of_clean text config clean).2⟩
  have clean := clean_fixText text config enough
  rw [same] at clean
  exact (check_eq_nil_iff _ text rfl).mpr clean

end Retouch.Linter
