import Retouch.Proofs.Linter.Sweeping
import Retouch.Proofs.Run.Repetition

/-!
A run that stops at its limit can be resumed. A new run forgets the records of the one before and
finds the linter with the tokens of a text that is one sweep behind. Neither matters: no pass of
either run meets a conflict, and a linter whose tokens have nothing to report is not behind. So the
texts that the runs go through are the sweeps of the first text, whichever run a pass belongs to.
-/

namespace Retouch

namespace Host

variable {σ : Type}

def again (host : Host σ) (run : Run σ) : Run σ := host.fix run.session run.state

end Host

namespace Linter

open Text (isNewline isLexeme segment)

variable {on : Rule → Bool} {width : Nat} {l : Linter} {s : Session} {text : Text}

/-! ### The passes of one run -/

structure Ready (on : Rule → Bool) (width : Nat) (l : Linter) (s : Session) : Prop where
  rules : l.rules = (Rule.all width).filter on
  ends : isNewline s.terminator
  stage : (∀ q, s.history.record? q = none) ∨
    (Tidy on width s.contents ∧ ∀ q r, s.history.record? q = some r → isLexeme r.previous) ∨
    Clean l.rules s.contents

namespace Ready

variable (ready : Ready on width l s)

include ready

theorem moves : Moves l s := by
  rcases ready.stage with empty | ⟨tidy, records⟩ | clean
  · exact moves_of_empty empty
  · exact moves_of_tidy ready.rules ready.ends tidy records
  · exact moves_of_clean clean

theorem pass_contents : (host.pass s l).2.1.contents = sweptText l.rules s.terminator s.contents :=
  Linter.pass_contents (nodup_rules ready.rules) ready.moves

theorem pass_terminator : (host.pass s l).2.1.terminator = s.terminator :=
  Linter.pass_terminator (nodup_rules ready.rules) ready.moves

theorem pass : Ready on width (host.pass s l).2.2.1 (host.pass s l).2.1 := by
  have contents := ready.pass_contents
  rw [pass_state]
  refine ⟨ready.rules, ready.pass_terminator.symm ▸ ready.ends, Or.inr ?_⟩
  rcases ready.stage with empty | ⟨tidy, -⟩ | clean
  · exact Or.inl ⟨tidy_pass ready.rules ready.ends ready.moves,
      fun _ _ recorded => isLexeme_of_pass (nodup_rules ready.rules) empty recorded⟩
  · right
    rw [contents, ready.rules]
    exact tidy.clean_sweptText ready.ends
  · right
    rw [contents, sweptText_of_clean clean]
    exact clean

end Ready

/-! ### How far a run has come -/

section Sweeps

variable {rules : List Rule} {terminator : Text} {i j : Nat}

theorem clean_of_twice (listed : rules = (Rule.all width).filter on) (ends : isNewline terminator)
    (twice : 2 ≤ i) : Clean rules ((sweptText rules terminator)^[i] text) := by
  have clean : Clean rules ((sweptText rules terminator)^[2] text) := by
    rw [listed]
    exact (tidy_sweptText ends text).clean_sweptText ends
  rwa [iterate_of_clean clean twice]

end Sweeps

/-- The linter holds the tokens of the text after `i` sweeps, and the session the text after `j`. -/
structure Stands (rules : List Rule) (terminator text : Text) (i j : Nat) (l : Linter)
    (s : Session) : Prop where
  runs : l.rules = rules
  inserts : s.terminator = terminator
  limit : 0 < s.maxPasses
  tokens : l.tokens = segment ((sweptText rules terminator)^[i] text)
  contents : s.contents = (sweptText rules terminator)^[j] text
  behind : i ≤ j

variable {rules : List Rule} {terminator : Text} {i j : Nat}

namespace Stands

variable (stands : Stands rules terminator text i j l s)

include stands

theorem pass (ready : Ready on width l s) :
    Stands rules terminator text j (j + 1) (host.pass s l).2.2.1 (host.pass s l).2.1 := by
  have limit : (host.pass s l).2.1.maxPasses = s.maxPasses :=
    congrArg Prod.fst (Host.pass_settings host s l)
  have contents := ready.pass_contents
  rw [stands.runs, stands.inserts, stands.contents] at contents
  rw [pass_state]
  refine ⟨stands.runs, ready.pass_terminator.trans stands.inserts, limit.symm ▸ stands.limit,
    congrArg segment stands.contents, ?_, Nat.le_succ j⟩
  rw [contents, Function.iterate_succ_apply']

theorem loop (ready : Ready on width l s) (fixable left : Nat) :
    ∃ i' j', Stands rules terminator text i' j' (host.loop fixable left s l).state
        (host.loop fixable left s l).session ∧
      i ≤ i' ∧ j ≤ j' ∧ (0 < left → j ≤ i' ∧ j + 1 ≤ j') := by
  induction left generalizing i j l s with
  | zero => exact ⟨i, j, stands, Nat.le_refl i, Nat.le_refl j, fun none => by omega⟩
  | succ left ih =>
    have behind := stands.behind
    have next := stands.pass ready
    cases stop : Host.settled (host.pass s l).2.1 with
    | true =>
      obtain ⟨-, session, state, -⟩ := Host.loop_of_settled host fixable left stop
      rw [session, state]
      exact ⟨j, j + 1, next, behind, by omega, fun _ => by omega⟩
    | false =>
      obtain ⟨-, session, state, -⟩ := Host.loop_of_unsettled host fixable left stop
      obtain ⟨i', j', later, first, second, -⟩ := ih next ready.pass
      rw [session, state]
      exact ⟨i', j', later, by omega, by omega, fun _ => ⟨first, second⟩⟩

theorem fixable_eq_zero_iff :
    host.fixable l = 0 ↔ Clean rules ((sweptText rules terminator)^[i] text) := by
  rw [← stands.runs, ← check_eq_nil_iff l _ (stands.runs ▸ stands.tokens)]
  exact List.length_eq_zero_iff

theorem restart : Stands rules terminator text i j l s.restart.1 :=
  ⟨stands.runs, stands.inserts, stands.limit, stands.tokens, stands.contents, stands.behind⟩

theorem fix_of_clean (clean : Clean rules ((sweptText rules terminator)^[i] text)) :
    (host.fix s l).outcome = .nothingToFix ∧
    Stands rules terminator text i j (host.fix s l).state (host.fix s l).session := by
  rw [Host.fix_of_idle host s (stands.fixable_eq_zero_iff.mpr clean)]
  exact ⟨rfl, stands.restart⟩

theorem fix_of_dirty (listed : rules = (Rule.all width).filter on) (ends : isNewline terminator)
    (dirty : ¬Clean rules ((sweptText rules terminator)^[i] text)) :
    ∃ i' j', Stands rules terminator text i' j' (host.fix s l).state (host.fix s l).session ∧
      j ≤ i' ∧ j + 1 ≤ j' := by
  have busy : host.fixable l ≠ 0 := fun idle => dirty (stands.fixable_eq_zero_iff.mp idle)
  have ready : Ready on width l s.restart.1 :=
    ⟨stands.runs.trans listed, stands.inserts.symm ▸ ends, Or.inl fun _ => rfl⟩
  obtain ⟨i', j', later, -, -, moved⟩ := stands.restart.loop ready (host.fixable l) s.maxPasses
  obtain ⟨-, session, state, -⟩ := Host.fix_of_busy host s busy
  rw [session, state]
  exact ⟨i', j', later, moved stands.limit⟩

end Stands

/-! ### Runs one after another -/

theorem config_rules (config : Config) : config.rules =
    (Rule.all config.tabWidth).filter fun rule => config.enables rule.code := rfl

/-- After `n` runs more the linter has come to rest, or it has seen as many sweeps. -/
theorem stands_again (text : Text) (config : Config) (some : 1 ≤ config.maxPasses) (n : Nat) :
    let run := host.again^[n] (fixText text config)
    let terminator := ((ofText text config).session config).terminator
    ∃ i j, Stands config.rules terminator text i j run.state run.session ∧
      (Clean config.rules ((sweptText config.rules terminator)^[i] text) ∨ n ≤ i ∧ n + 1 ≤ j) := by
  have ends := session_terminator text config
  induction n with
  | zero =>
    have start : Stands config.rules ((ofText text config).session config).terminator text 0 0
        (ofText text config) ((ofText text config).session config) := by
      refine ⟨rfl, rfl, ?_, rfl, session_contents text config, Nat.le_refl 0⟩
      rw [session_maxPasses]
      omega
    by_cases clean : Clean config.rules text
    · exact ⟨0, 0, (start.fix_of_clean clean).2, Or.inl clean⟩
    · obtain ⟨i, j, stands, first, second⟩ := start.fix_of_dirty (config_rules config) ends clean
      exact ⟨i, j, stands, Or.inr ⟨first, second⟩⟩
  | succ n ih =>
    obtain ⟨i, j, stands, progress⟩ := ih
    rw [Function.iterate_succ_apply']
    by_cases clean : Clean config.rules
        ((sweptText config.rules ((ofText text config).session config).terminator)^[i] text)
    · exact ⟨i, j, (stands.fix_of_clean clean).2, Or.inl clean⟩
    · obtain ⟨-, far⟩ := progress.resolve_left clean
      obtain ⟨i', j', later, first, second⟩ := stands.fix_of_dirty (config_rules config) ends clean
      exact ⟨i', j', later, Or.inr (by omega)⟩

/-- With two further runs or more the text is swept twice, whatever the limit, and a run after them
finds nothing to do. -/
theorem rests_again (text : Text) (config : Config) (some : 1 ≤ config.maxPasses) (n : Nat) :
    (host.again^[n + 2] (fixText text config)).session.contents =
      (sweptText config.rules ((ofText text config).session config).terminator)^[2] text ∧
    (host.again^[n + 3] (fixText text config)).outcome = .nothingToFix := by
  have ends := session_terminator text config
  obtain ⟨i, j, stands, progress⟩ := stands_again text config some (n + 2)
  have clean : Clean config.rules
      ((sweptText config.rules ((ofText text config).session config).terminator)^[i] text) := by
    rcases progress with clean | ⟨far, -⟩
    · exact clean
    · exact clean_of_twice (config_rules config) ends (Nat.le_of_add_left_le far)
  constructor
  · rw [stands.contents, iterate_of_clean clean stands.behind]
    rcases Nat.le_total i 2 with early | late
    · exact (iterate_of_clean clean early).symm
    · exact iterate_of_clean (clean_of_twice (config_rules config) ends (Nat.le_refl 2)) late
  · rw [Function.iterate_succ_apply']
    exact (stands.fix_of_clean clean).1

/-- Three runs with one pass or more each, one over what the other left, leave the text that a
single run with three passes or more leaves; and every further run finds nothing to do. -/
theorem fixText_in_pieces (text : Text) (config : Config) {k m : Nat} (some : 1 ≤ k)
    (enough : 3 ≤ m) :
    let first := fixText text { config with maxPasses := k }
    let third := host.again (host.again first)
    third.session.contents = (fixText text { config with maxPasses := m }).session.contents ∧
    ∀ n, (host.again^[n + 1] third).outcome = .nothingToFix ∧
      (host.again^[n + 1] third).session.contents = third.session.contents := by
  intro first third
  have terminator : ((ofText text { config with maxPasses := m }).session
      { config with maxPasses := m }).terminator =
        ((ofText text { config with maxPasses := k }).session
          { config with maxPasses := k }).terminator := by
    unfold session
    cases config.terminator <;> rfl
  have whole := fixText_contents text { config with maxPasses := m }
  rw [terminator, show min m 2 = 2 by omega] at whole
  have rests := rests_again text { config with maxPasses := k } some
  have two : host.again^[2] first = third := by
    rw [Function.iterate_succ_apply, Function.iterate_one]
  have twice := (rests 0).1
  rw [two] at twice
  refine ⟨twice.trans whole.symm, fun n => ?_⟩
  rw [← two, ← Function.iterate_add_apply, two]
  exact ⟨(rests n).2, (rests (n + 1)).1.trans twice.symm⟩

def staggered : Text := ['\n', '\n', '\t', '\n', '\t', 'b']

/-- With one pass at a time, the first run fails and leaves the linter with the tokens it began
with; the second sweeps again, and the third only looks. -/
theorem fixText_in_pieces_staggered :
    let first := fixText staggered { ({} : Config) with maxPasses := 1 }
    let third := host.again (host.again first)
    first.outcome = .failed 1 ∧ first.state.tokens = segment staggered ∧
    first.session.contents = ['\n', '\n', '\n', ' ', ' ', ' ', ' ', 'b', '\n'] ∧
    (host.again first).outcome = .failed 1 ∧ third.outcome = .converged 1 ∧
    third.session.contents = ['\n', '\n', ' ', ' ', ' ', ' ', 'b', '\n'] ∧
    (host.again^[1] third).outcome = .nothingToFix := by
  have whole : (fixText staggered { ({} : Config) with maxPasses := 3 }).session.contents =
      ['\n', '\n', ' ', ' ', ' ', ' ', 'b', '\n'] := by decide +kernel
  have pieces := fixText_in_pieces staggered {} (Nat.le_refl 1) (Nat.le_refl 3)
  rw [whole] at pieces
  refine ⟨by decide +kernel, by decide +kernel, by decide +kernel, by decide +kernel,
    by decide +kernel, pieces.1, (pieces.2 0).1⟩

end Linter

end Retouch
