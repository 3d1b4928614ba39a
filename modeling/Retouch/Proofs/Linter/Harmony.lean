import Retouch.Proofs.Linter.Convergence
import Retouch.Proofs.Run.Passes

/-!
The rules do not get in each other's way. Whatever a rule asks for lands unless another rule was
there before, which only happens to single edits: a terminator that is emptied in a batch is wanted
by one rule and one violation. And no pass asks for what the pass before it found, so that there is
never a conflict, every batch is committed, and none is left open.
-/

namespace Retouch

open Script (Orderly)
open Session (Edited)
open Text (isNewline isLexeme segment)

variable {s t : Session} {done : Nat → Option Text}

/-! ### One dispatch -/

namespace Rule

section Fix

variable {rule : Rule} {v : Violation} (reported : v ∈ rule.check s.tokens)
  (edited : Edited done s t) (idle : s.batch = none) (calm : s.conflict = false)
  (lands : ∀ q c, rule.wishAt s.terminator [] s.tokens q = some c → s.Lands q c)
  (untouched : ∀ q, BlankLines.newlineAt s.tokens q →
    (Slots.find q (rule.edits s.terminator s.tokens v.pos)).isSome → done q = none)

include reported edited idle calm lands untouched

theorem clearAll_orderly {positions : List Nat} (source : String)
    (cleared : rule = finalNewline ∧ FinalNewline.finalRun s.tokens ≠ 0 ∨ rule = blankLines)
    (same : rule.edits s.terminator s.tokens v.pos = positions.map fun pos => (pos, [])) :
    Orderly ((Script.clearAll source positions).trace t) := by
  obtain ⟨distinct, wished, free⟩ := clearable reported lands untouched cleared same
  exact edited.clearAll_orderly source idle calm distinct wished free

theorem fix_orderly : Orderly ((rule.fix s.tokens v.pos).trace t) := by
  cases rule with
  | trailingBlanks => exact .single _ (by simp) t
  | tabIndent width =>
    simp only [fix, TabIndent.fix]
    cases s.tokens[v.pos]? with
    | none => exact .nil
    | some token => exact .single _ (by simp) t
  | finalNewline =>
    by_cases none : FinalNewline.finalRun s.tokens = 0
    · simp only [fix, FinalNewline.fix, none, BEq.rfl, if_true]
      exact .single _ (by simp) t
    · simp only [fix, FinalNewline.fix, beq_iff_eq, none, if_false]
      exact clearAll_orderly reported edited idle calm lands untouched _ (Or.inl ⟨rfl, none⟩)
        (by simp [edits, none])
  | blankLines =>
    exact clearAll_orderly reported edited idle calm lands untouched _ (Or.inr rfl) rfl

end Fix

theorem sweep_orderly {rule : Rule} (edited : Edited done s t) (idle : s.batch = none)
    (calm : s.conflict = false)
    (lands : ∀ q c, rule.wishAt s.terminator [] s.tokens q = some c → s.Lands q c)
    (untouched : ∀ q, BlankLines.newlineAt s.tokens q →
      (rule.wishAt s.terminator [] s.tokens q).isSome → done q = none) :
    Orderly ((Script.forEach (Linter.mend s.tokens rule) (rule.check s.tokens)).trace t) := by
  exact edited.forEach_trace (fun v q => Slots.find q (rule.edits s.terminator s.tokens v.pos))
    .nil (fun _ _ => .append)
    (fun v reported done t edited untouched =>
      ⟨fix_edited reported edited idle calm lands untouched,
        fix_orderly reported edited idle calm lands untouched⟩)
    ((pairwise_edits rule s.terminator s.tokens).imp fun apart q _ => apart q)
    (fun v reported q newline asked =>
      untouched q newline (isSome_wishAt reported asked))

end Rule

namespace Linter

variable {on : Rule → Bool} {width fixable left : Nat} {l : Linter} {p : Pass Linter}

theorem mendAll_orderly (distinct : l.rules.Nodup) (tokens : s.tokens = l.tokens)
    (idle : s.batch = none) (calm : s.conflict = false)
    (lands : ∀ rule ∈ l.rules, ∀ q c, rule.wishAt s.terminator [] l.tokens q = some c →
      s.Lands q c) : Orderly (l.mendAll.trace s) := by
  rw [mendAll]
  rw [← tokens] at lands ⊢
  refine (Edited.refl s).forEach_trace
    (fun (rule : Rule) q => rule.wishAt s.terminator [] s.tokens q) .nil (fun _ _ => .append)
    (fun rule member done t edited untouched =>
      ⟨Rule.sweep_edited edited idle calm (lands rule member) untouched,
        Rule.sweep_orderly edited idle calm (lands rule member) untouched⟩) ?_ ?_
  · exact distinct.imp fun different q newline wished =>
      Rule.wishAt_eq_none_of_newlineAt newline different wished
  · exact fun _ _ _ _ _ => rfl

theorem pass_orderly (distinct : l.rules.Nodup) (moves : Moves l s) :
    Orderly (host.pass s l).1.exchanges := by
  have trace : (host.pass s l).1.exchanges =
      (mendAll { l with tokens := segment s.contents }).trace
        (Host.enterPass s (segment s.contents)).1 :=
    (Script.trace_andThen (mendAll { l with tokens := segment s.contents }) _ _).trans
      (List.append_nil _)
  rw [trace]
  exact mendAll_orderly (s := (Host.enterPass s (segment s.contents)).1) distinct rfl rfl rfl
    (lands_of_moves moves)

/-! ### All passes of a run -/

def Granted (p : Pass Linter) : Prop :=
  ∃ l s, l.rules.Nodup ∧ Moves l s ∧ p = (host.pass s l).1

theorem granted_of_clean (distinct : l.rules.Nodup) (clean : Clean l.rules s.contents)
    (member : p ∈ (host.loop fixable left s l).passes) : Granted p := by
  have moves := moves_of_clean clean
  rcases Host.mem_passes_loop member with rfl | ⟨unsettled, -⟩
  · exact ⟨l, s, distinct, moves, rfl⟩
  · rw [(pass_settled_iff distinct moves).mpr clean] at unsettled
    cases unsettled

theorem granted_of_tidy (rules : l.rules = (Rule.all width).filter on)
    (ends : isNewline s.terminator) (tidy : Tidy on width s.contents)
    (records : ∀ q r, s.history.record? q = some r → isLexeme r.previous)
    (member : p ∈ (host.loop fixable left s l).passes) : Granted p := by
  have distinct := nodup_rules rules
  have moves := moves_of_tidy rules ends tidy records
  rcases Host.mem_passes_loop member with rfl | ⟨-, left, later⟩
  · exact ⟨l, s, distinct, moves, rfl⟩
  · have swept : Clean l.rules (host.pass s l).2.1.contents := by
      rw [pass_contents distinct moves, rules]
      exact tidy.clean_sweptText ends
    rw [pass_state] at later
    exact granted_of_clean (l := { l with tokens := segment s.contents }) distinct swept later

theorem granted_of_fresh (rules : l.rules = (Rule.all width).filter on)
    (ends : isNewline s.terminator) (empty : ∀ q, s.history.record? q = none)
    (member : p ∈ (host.loop fixable left s l).passes) : Granted p := by
  have distinct := nodup_rules rules
  have moves : Moves l s := moves_of_empty empty
  rcases Host.mem_passes_loop member with rfl | ⟨-, left, later⟩
  · exact ⟨l, s, distinct, moves, rfl⟩
  · -- The first pass leaves a tidy text and records that hold tokens, for which no wish asks then.
    have ends' : isNewline (host.pass s l).2.1.terminator := by
      rw [pass_terminator distinct moves]
      exact ends
    rw [pass_state] at later
    exact granted_of_tidy (l := { l with tokens := segment s.contents }) rules ends'
      (tidy_pass rules ends moves) (fun _ _ => isLexeme_of_pass distinct empty) later

theorem granted_of_mem {text : Text} {config : Config}
    (member : p ∈ (fixText text config).passes) : Granted p := by
  rw [fixText] at member
  by_cases idle : host.fixable (ofText text config) = 0
  · rw [Host.fix_of_idle host _ idle] at member
    cases member
  · rw [(Host.fix_of_busy host _ idle).2.2.2] at member
    exact granted_of_fresh (l := ofText text config)
      (s := ((ofText text config).session config).restart.1) (show config.rules = _ from rfl)
      (session_terminator text config) (fun _ => rfl) member

/-- No pass of a fix refuses an edit as a conflict, alone or in a batch. Every batch that is opened
is committed with all its edits before anything else is asked. -/
theorem fixText_harmonious (text : Text) (config : Config) (p : Pass Linter)
    (member : p ∈ (fixText text config).passes) :
    (∀ e ∈ p.exchanges, e.step.session.conflict = false ∧
      ∀ n ∈ e.step.notices, n.isConflict = false) ∧
    (∀ front opening back, p.exchanges = front ++ opening :: back →
      opening.request = .beginBatch →
      ∃ queued closing rest, back = queued ++ closing :: rest ∧
        Script.Committed opening queued closing) ∧
    p.session.batch = none := by
  obtain ⟨l, s, distinct, moves, rfl⟩ := granted_of_mem member
  have orderly := pass_orderly distinct moves
  have edited := dispatch_edited distinct moves
  refine ⟨?_, fun _ _ _ split opens => orderly.committed split opens, edited.batch_eq⟩
  intro e asked
  have calm := Script.calm_of_mem_trace orderly.keeps edited.conflict_eq asked
  exact ⟨calm, Script.not_isConflict_of_mem_trace asked calm⟩

/-- Two rules empty terminators of one text, each in a batch of its own. -/
theorem fixText_harmonious_crowded :
    let passes := (fixText ['a', '\n', '\n', '\n', 'b', ' ', '\n', '\n'] {}).passes
    ∃ p ∈ passes.head?, p.exchanges.map (·.request) =
        [.replace 5 [], .beginBatch, .replace 7 [], .endBatch, .beginBatch, .replace 3 [], .endBatch] ∧
      (∀ e ∈ p.exchanges, e.step.session.conflict = false ∧
        ∀ n ∈ e.step.notices, n.isConflict = false) ∧
      (∀ front opening back, p.exchanges = front ++ opening :: back →
        opening.request = .beginBatch →
        ∃ queued closing rest, back = queued ++ closing :: rest ∧
          Script.Committed opening queued closing) ∧
      p.session.batch = none := by
  intro passes
  have busy : passes.head?.isSome := by decide +kernel
  obtain ⟨p, first⟩ := Option.isSome_iff_exists.mp busy
  have requests : passes.head?.map (fun p => p.exchanges.map (·.request)) = some
      [.replace 5 [], .beginBatch, .replace 7 [], .endBatch, .beginBatch, .replace 3 [],
        .endBatch] := by decide +kernel
  rw [first] at requests
  exact ⟨p, first, Option.some.inj requests, fixText_harmonious _ _ p (List.mem_of_mem_head? first)⟩

end Linter

end Retouch
