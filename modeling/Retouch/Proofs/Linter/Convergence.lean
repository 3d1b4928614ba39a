import Retouch.Proofs.Linter.Thinning
import Retouch.Proofs.Run.Settling

/-!
The linter comes to rest. The first pass puts every blank in place and may bring terminators
together; the second then only thins them out, which brings nothing together; after it there is
nothing to report. No wish of the second pass takes back what the first pass found, since it asks
for no token of a text.
-/

namespace Retouch.Linter

open Text (isNewline isLexeme segment)
open Session (Edited)

variable {on : Rule → Bool} {width : Nat} {terminator text c : Text}

/-! ### Texts between passes -/

def sweptText (rules : List Rule) (terminator text : Text) : Text :=
  (mended rules terminator [] (segment text)).flatten

/-- Blanks are in place as far as the rules look at them. -/
structure Tidy (on : Rule → Bool) (width : Nat) (text : Text) : Prop where
  trimmed : on .trailingBlanks = true → Text.trimmed text = true
  untabbed : on (.tabIndent width) = true → Text.untabbed true text = true

theorem cases_of_mem {rule : Rule} (member : rule ∈ (Rule.all width).filter on) :
    (rule = .trailingBlanks ∨ rule = .tabIndent width ∨ rule = .finalNewline ∨
      rule = .blankLines) ∧ on rule = true := by
  obtain ⟨listed, enabled⟩ := List.mem_filter.mp member
  exact ⟨by simpa [Rule.all] using listed, enabled⟩

theorem tidy_sweptText (ends : isNewline terminator) (text : Text) :
    Tidy on width (sweptText ((Rule.all width).filter on) terminator text) where
  trimmed trailing := trimmed_mended trailing ends (Text.wellCut_segment text)
  untabbed tabs := untabbed_mended tabs ends (Text.wellCut_segment text) fun _ => Or.inl rfl

namespace Tidy

variable (tidy : Tidy on width text)

include tidy

theorem trailingBlanks (trailing : on .trailingBlanks = true) (terminator : Text) :
    ∀ pos, Rule.trailingBlanks.wishAt terminator [] (segment text) pos = none := by
  rw [Rule.trailingBlanks_iff (Text.wellCut_segment text), Text.flatten_segment]
  exact tidy.trimmed trailing

theorem tabIndent (tabs : on (.tabIndent width) = true) (terminator : Text) :
    ∀ pos, (Rule.tabIndent width).wishAt terminator [] (segment text) pos = none := by
  rw [Rule.tabIndent_iff (Text.wellCut_segment text), Text.flatten_segment]
  exact tidy.untabbed tabs

theorem segment_sweptText (ends : isNewline terminator) :
    segment (sweptText ((Rule.all width).filter on) terminator text) =
      thinned on terminator [] (segment text) := by
  rw [sweptText, flatten_mended (fun trailing => tidy.trailingBlanks trailing terminator)
    (fun tabs => tidy.tabIndent tabs terminator)]
  exact (wellCut_thinned ends (Text.wellCut_segment text)).segment_flatten

/-- A pass over a tidy text leaves nothing to report. -/
theorem clean_sweptText (ends : isNewline terminator) :
    Clean ((Rule.all width).filter on)
      (sweptText ((Rule.all width).filter on) terminator text) := by
  intro rule member
  have swept : Tidy on width (sweptText ((Rule.all width).filter on) terminator text) :=
    tidy_sweptText ends text
  rw [Rule.check_eq_nil_iff rule terminator]
  obtain ⟨rfl | rfl | rfl | rfl, enabled⟩ := cases_of_mem member
  · exact swept.trailingBlanks enabled terminator
  · exact swept.tabIndent enabled terminator
  · rw [tidy.segment_sweptText ends]
    exact finalNewline_thinned enabled ends rfl
  · rw [tidy.segment_sweptText ends]
    exact blankLines_thinned enabled ends (Or.inr rfl)

theorem isLexeme_of_wishAt {rule : Rule} (member : rule ∈ (Rule.all width).filter on) {q : Nat}
    (ends : isNewline terminator)
    (wished : rule.wishAt terminator [] (segment text) q = some c) : isLexeme c = false := by
  obtain ⟨rfl | rfl | rfl | rfl, enabled⟩ := cases_of_mem member
  · rw [tidy.trailingBlanks enabled terminator q] at wished
    cases wished
  · rw [tidy.tabIndent enabled terminator q] at wished
    cases wished
  · rcases Rule.wishAt_finalNewline_iff.mp wished with ⟨_, _, _, rfl⟩ | ⟨none, last, t, read, rfl⟩
    · rfl
    · obtain ⟨inside, rfl⟩ := List.getElem?_eq_some_iff.mp read
      have lexeme := (Text.wellCut_segment text).lexemes _ (List.getElem_mem inside)
      have other : isNewline (segment text)[q] = false := by
        by_contra newline
        have all := Rule.all_drop_iff (Nat.le_of_lt inside)
        rw [Rule.all_drop inside, eq_true_of_ne_false newline,
          List.drop_eq_nil_of_le (Nat.le_of_eq last.symm), none] at all
        have none := all.mp rfl
        omega
      exact Text.isLexeme_append_newline lexeme other ends
  · obtain ⟨rfl, -⟩ := Rule.wishAt_blankLines_iff.mp wished
    rfl

end Tidy

theorem sweptText_of_clean {rules : List Rule} (clean : Clean rules text) (terminator : Text) :
    sweptText rules terminator text = text := by
  have same : mended rules terminator [] (segment text) = segment text := by
    apply List.ext_getElem?
    intro pos
    have nothing : (rules.findSome? fun rule =>
        rule.wishAt terminator [] (segment text) pos) = none :=
      List.findSome?_eq_none_iff.mpr fun rule member =>
        (Rule.check_eq_nil_iff rule terminator _).mp (clean rule member) pos
    rw [getElem?_mended, nothing, Option.none_or]
  rw [sweptText, same, Text.flatten_segment]

/-! ### Passes -/

section Passes

variable {l : Linter} {s : Session}

theorem pass_contents (distinct : l.rules.Nodup) (moves : Moves l s) :
    (host.pass s l).2.1.contents = sweptText l.rules s.terminator s.contents := by
  rw [Session.contents, pass_tokens distinct moves, sweptText]

theorem pass_terminator (distinct : l.rules.Nodup) (moves : Moves l s) :
    (host.pass s l).2.1.terminator = s.terminator :=
  (pass_edited distinct moves).terminator_eq

theorem moves_of_clean (clean : Clean l.rules s.contents) : Moves l s := by
  intro rule member q c wished
  rw [(Rule.check_eq_nil_iff rule s.terminator _).mp (clean rule member) q] at wished
  cases wished

theorem moves_of_empty (empty : ∀ q, s.history.record? q = none) : Moves l s := by
  intro rule _ q c _ r recorded
  rw [empty q] at recorded
  cases recorded

theorem isLexeme_of_pass (distinct : l.rules.Nodup)
    (empty : ∀ q, s.history.record? q = none) {q : Nat} {r : Record}
    (recorded : (host.pass s l).2.1.history.record? q = some r) : isLexeme r.previous := by
  have edited := pass_edited distinct (moves_of_empty empty)
  have records := edited.records q
  rw [recorded] at records
  split at records
  case h_1 content wished =>
    obtain ⟨inside, -⟩ := edited.landed.free q (by simp [wished])
    have inside : q < (segment s.contents).length := inside
    have first : (Host.enterPass s (segment s.contents)).1.history.record? q = none := empty q
    have read : (Host.enterPass s (segment s.contents)).1.tokens[q]? =
        some (segment s.contents)[q] := List.getElem?_eq_getElem inside
    rw [Session.nextRecord, first, read] at records
    obtain rfl := Option.some.inj records
    exact (Text.wellCut_segment s.contents).lexemes _ (List.getElem_mem inside)
  case h_2 =>
    have kept : s.history.record? q = some r := records.symm
    rw [empty q] at kept
    cases kept

theorem nodup_rules (rules : l.rules = (Rule.all width).filter on) : l.rules.Nodup := by
  rw [rules]
  exact List.Nodup.filter on (by simp [Rule.all])

/-- Records that hold tokens of an earlier text refuse nothing over a tidy one, since no wish of a
pass over it asks for a token. -/
theorem moves_of_tidy (rules : l.rules = (Rule.all width).filter on) (ends : isNewline s.terminator)
    (tidy : Tidy on width s.contents)
    (records : ∀ q r, s.history.record? q = some r → isLexeme r.previous) : Moves l s := by
  intro rule member q c wished r recorded back
  have token := records q r recorded
  rw [back, tidy.isLexeme_of_wishAt (rules ▸ member) ends wished] at token
  cases token

theorem tidy_pass (rules : l.rules = (Rule.all width).filter on) (ends : isNewline s.terminator)
    (moves : Moves l s) : Tidy on width (host.pass s l).2.1.contents := by
  rw [pass_contents (nodup_rules rules) moves, rules]
  exact tidy_sweptText ends s.contents

/-! ### Runs -/

theorem loop_of_clean (fixable left : Nat) (distinct : l.rules.Nodup)
    (clean : Clean l.rules s.contents) :
    (host.loop fixable (left + 1) s l).outcome = .converged (s.pass + 1) ∧
      (host.loop fixable (left + 1) s l).session.contents = s.contents := by
  have moves := moves_of_clean clean
  have settled := (pass_settled_iff distinct moves).mpr clean
  obtain ⟨outcome, session, -, -⟩ := Host.loop_of_settled host fixable left settled
  rw [outcome, session, Host.pass_number, pass_contents distinct moves]
  exact ⟨rfl, sweptText_of_clean clean s.terminator⟩

theorem loop_of_dirty (fixable left : Nat) (distinct : l.rules.Nodup) (moves : Moves l s)
    (dirty : ¬Clean l.rules s.contents) :
    (host.loop fixable (left + 1) s l).outcome = (host.loop fixable left (host.pass s l).2.1
        { l with tokens := segment s.contents }).outcome ∧
      (host.loop fixable (left + 1) s l).session = (host.loop fixable left (host.pass s l).2.1
        { l with tokens := segment s.contents }).session := by
  have unsettled : Host.settled (host.pass s l).2.1 = false :=
    eq_false_of_ne_true fun settled => dirty ((pass_settled_iff distinct moves).mp settled)
  obtain ⟨outcome, session, -, -⟩ := Host.loop_of_unsettled host fixable left unsettled
  rw [pass_state] at outcome session
  exact ⟨outcome, session⟩

/-- Over a tidy text the next pass settles or the one after it. -/
theorem loop_of_tidy (fixable left : Nat) (rules : l.rules = (Rule.all width).filter on)
    (ends : isNewline s.terminator) (tidy : Tidy on width s.contents)
    (records : ∀ q r, s.history.record? q = some r → isLexeme r.previous) :
    (∃ n, (host.loop fixable (left + 2) s l).outcome = .converged (s.pass + n) ∧ 1 ≤ n ∧ n ≤ 2) ∧
      Clean l.rules (host.loop fixable (left + 2) s l).session.contents := by
  have distinct := nodup_rules rules
  by_cases clean : Clean l.rules s.contents
  · obtain ⟨outcome, contents⟩ := loop_of_clean fixable (left + 1) distinct clean
    rw [contents]
    exact ⟨⟨1, outcome, Nat.le_refl 1, by omega⟩, clean⟩
  · have moves := moves_of_tidy rules ends tidy records
    have swept : Clean l.rules (host.pass s l).2.1.contents := by
      rw [pass_contents distinct moves, rules]
      exact tidy.clean_sweptText ends
    obtain ⟨next, nextSession⟩ := loop_of_dirty fixable (left + 1) distinct moves clean
    obtain ⟨outcome, contents⟩ := loop_of_clean fixable left
      (l := { l with tokens := segment s.contents }) distinct swept
    rw [next, nextSession, outcome, contents, Host.pass_number]
    exact ⟨⟨2, rfl, by omega, Nat.le_refl 2⟩, swept⟩

/-- From a session without records over a text with something to report, the second pass or the
third is the first that settles. -/
theorem loop_converges (fixable left : Nat) (rules : l.rules = (Rule.all width).filter on)
    (ends : isNewline s.terminator) (empty : ∀ q, s.history.record? q = none)
    (dirty : ¬Clean l.rules s.contents) :
    (∃ n, (host.loop fixable (left + 3) s l).outcome = .converged (s.pass + n) ∧ 2 ≤ n ∧ n ≤ 3) ∧
      Clean l.rules (host.loop fixable (left + 3) s l).session.contents := by
  have distinct := nodup_rules rules
  have moves : Moves l s := moves_of_empty empty
  have tidy := tidy_pass rules ends moves
  have ends' : isNewline (host.pass s l).2.1.terminator := by
    rw [pass_terminator distinct moves]
    exact ends
  obtain ⟨next, nextSession⟩ := loop_of_dirty fixable (left + 2) distinct moves dirty
  obtain ⟨⟨n, outcome, lower, upper⟩, clean⟩ := loop_of_tidy fixable left
    (l := { l with tokens := segment s.contents }) rules ends' tidy
    (fun _ _ recorded => isLexeme_of_pass distinct empty recorded)
  rw [next, nextSession, outcome, Host.pass_number]
  exact ⟨⟨n + 1, by rw [Nat.add_assoc, Nat.add_comm 1 n], by omega, by omega⟩, clean⟩

end Passes

/-! ### Fixing a text -/

theorem check_eq_nil_iff (l : Linter) (text : Text) (tokens : l.tokens = segment text) :
    l.check = [] ↔ Clean l.rules text := by
  simp [check, Clean, tokens]

theorem session_terminator (text : Text) (config : Config) :
    isNewline ((ofText text config).session config).terminator := by
  unfold session
  cases config.terminator with
  | none => exact Text.isNewline_dominantTerminator _
  | some terminator => cases terminator <;> rfl

theorem session_contents (text : Text) (config : Config) :
    ((ofText text config).session config).contents = text := by
  unfold session
  cases config.terminator <;> exact Text.flatten_segment text

theorem session_maxPasses (text : Text) (config : Config) :
    ((ofText text config).session config).maxPasses = min config.maxPasses 50 := by
  unfold session
  cases config.terminator <;> rfl

/-- With three passes or more a fix leaves a text that no rule reports anything about. It does
nothing, iff there is nothing to report, or it converges in the second pass or the third. -/
theorem fixText_converges (text : Text) (config : Config) (enough : 3 ≤ config.maxPasses) :
    let run := fixText text config
    (run.outcome = .nothingToFix ↔ (ofText text config).check = []) ∧
    (run.outcome = .nothingToFix → run.session.contents = text) ∧
    (run.outcome = .nothingToFix ∨ ∃ n, run.outcome = .converged n ∧ 2 ≤ n ∧ n ≤ 3) ∧
    (ofText run.session.contents config).check = [] := by
  intro run
  have contents : ((ofText text config).session config).restart.1.contents = text :=
    session_contents text config
  by_cases clean : (ofText text config).check = []
  · have idle : host.fixable (ofText text config) = 0 := List.length_eq_zero_iff.mpr clean
    have nothing : run = _ := Host.fix_of_idle host ((ofText text config).session config) idle
    rw [nothing]
    refine ⟨by simp [clean], fun _ => contents, Or.inl rfl, ?_⟩
    rw [contents]
    exact clean
  · have busy : host.fixable (ofText text config) ≠ 0 := fun none =>
      clean (List.length_eq_zero_iff.mp none)
    have dirty : ¬Clean config.rules text := fun none =>
      clean ((check_eq_nil_iff _ text rfl).mpr none)
    obtain ⟨outcome, session, -, -⟩ :=
      Host.fix_of_busy host ((ofText text config).session config) busy
    obtain ⟨left, passes⟩ : ∃ left,
        ((ofText text config).session config).maxPasses = left + 3 := by
      rw [session_maxPasses]
      exact ⟨min config.maxPasses 50 - 3, by omega⟩
    have rules : (ofText text config).rules =
        (Rule.all config.tabWidth).filter fun rule => config.enables rule.code := rfl
    obtain ⟨⟨n, converged, lower, upper⟩, final⟩ := loop_converges
      (host.fixable (ofText text config)) left (s := ((ofText text config).session config).restart.1)
      rules (session_terminator text config) (fun _ => rfl) (by rw [contents]; exact dirty)
    have outcome : run.outcome = .converged n := by
      rw [show run.outcome = _ from outcome, passes, converged]
      exact congrArg Outcome.converged (Nat.zero_add n)
    have session : run.session = _ := session
    rw [passes] at session
    refine ⟨by simp [outcome, clean], by simp [outcome], Or.inr ⟨n, outcome, lower, upper⟩, ?_⟩
    rw [check_eq_nil_iff _ run.session.contents rfl, session]
    exact final

/-- Emptying a blank line brings a third terminator to a run, so that a third pass is needed. -/
theorem fixText_converges_late :
    3 ≤ ({} : Config).maxPasses ∧
      (fixText ['\n', '\n', '\t', '\n', '\t', 'b'] {}).outcome = .converged 3 ∧
      (fixText ['\n', '\n', '\t', '\n', '\t', 'b'] {}).session.contents =
        ['\n', '\n', ' ', ' ', ' ', ' ', 'b', '\n'] ∧
      (ofText ['\n', '\n', ' ', ' ', ' ', ' ', 'b', '\n'] {}).check = [] := by
  have enough : 3 ≤ ({} : Config).maxPasses := by decide
  have contents : (fixText ['\n', '\n', '\t', '\n', '\t', 'b'] {}).session.contents =
      ['\n', '\n', ' ', ' ', ' ', ' ', 'b', '\n'] := by decide +kernel
  refine ⟨enough, by decide +kernel, contents, ?_⟩
  rw [← contents]
  exact (fixText_converges _ _ enough).2.2.2

end Retouch.Linter
