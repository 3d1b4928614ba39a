import Retouch.Proofs.Run.Settling
import Retouch.Proofs.Session.Sweep
import Retouch.Proofs.Session.Twin

/-!
Converged is a fixed point. A host that only looks at the text and at the editor's answers finds, in
the first pass of a second run, the tokens it found in the last pass of the first. The two sessions
have different records and passes but are twins, and neither can raise a conflict: the earlier pass
settled, and the later one has no records of a pass before it. So the second run settles at once.
-/

namespace Retouch

open Session (Twin)

variable {σ : Type} {host : Host σ} {base : List Text} {s t : Session}
  {cut : Text → List Text} {program : List Text → Script Unit} {state : σ}

namespace Host

/-- The host always sees something to fix, cuts a text by a function of the text that loses nothing,
and edits by a program over the tokens cut: what it remembers has no part in this. -/
structure Forgetful (host : Host σ) (cut : Text → List Text) (program : List Text → Script Unit) :
    Prop where
  busy : ∀ state, 0 < host.fixable state
  cuts : ∀ state text, (host.tokenize state text).1 = cut text
  whole : ∀ text, (cut text).flatten = text
  edits : ∀ state text, (host.dispatch (host.tokenize state text).2).andThen (fun _ => .done ()) =
    program (cut text)

/-! ### One pass -/

theorem twin_enterPass (tokens : List Text) (settings : t.settings.2 = s.settings.2)
    (empty : ∀ pos, t.history.record? pos = none) :
    Twin (enterPass s tokens).1 (enterPass t tokens).1 := by
  simp only [Session.settings, Prod.mk.injEq] at settings
  obtain ⟨limit, terminator, initial⟩ := settings
  refine ⟨⟨t.pass + 1, t.history.records, ?_⟩, fun pos r recorded => ?_⟩
  · simp only [enterPass, Session.load, Session.withPast, History.clearMarks, limit, terminator,
      initial]
  · have recorded : t.history.record? pos = some r := recorded
    rw [empty pos] at recorded
    cases recorded

theorem twin_closeLeftover (twin : Twin s t) :
    Twin (closeLeftover s).1 (closeLeftover t).1 := by
  have same : t.batchOpen = s.batchOpen := congrArg Option.isSome twin.batch_eq
  unfold closeLeftover
  rw [same]
  split
  · exact twin.flags none false
  · exact twin

theorem pass_settings (host : Host σ) (s : Session) (state : σ) :
    (host.pass s state).2.1.settings.2 = s.settings.2 := by
  have closed := closeLeftover_settings (host.pass s state).1.session
  have ran := run_settings (host.pass s state).1.script (host.pass s state).1.entered
  have kept := congrArg Prod.snd (closed.trans ran)
  exact kept

namespace Forgetful

variable (forgetful : host.Forgetful cut program)

include forgetful

theorem pass_session (s : Session) (state : σ) : (host.pass s state).1.session =
    ((program (cut s.contents)).run (enterPass s (cut s.contents)).1).session := by
  rw [← forgetful.edits state s.contents, ← forgetful.cuts state s.contents,
    (Script.run_andThen _ _ _).1]
  rfl

theorem pass_exchanges (s : Session) (state : σ) : (host.pass s state).1.exchanges =
    (program (cut s.contents)).trace (enterPass s (cut s.contents)).1 := by
  rw [← forgetful.edits state s.contents, ← forgetful.cuts state s.contents,
    Script.trace_andThen]
  exact (List.append_nil _).symm

/-- Over the same text, a pass without records ends as one does that raises no conflict. -/
theorem twin_pass (state' : σ) (settings : t.settings.2 = s.settings.2)
    (text : t.contents = s.contents) (empty : ∀ pos, t.history.record? pos = none)
    (keeps : ∀ e ∈ (host.pass s state).1.exchanges, e.request ≠ .rollback)
    (calm : (host.pass s state).1.session.conflict = false) :
    Twin (host.pass s state).2.1 (host.pass t state').2.1 := by
  have entered := twin_enterPass (cut s.contents) settings empty
  rw [forgetful.pass_exchanges] at keeps
  rw [forgetful.pass_session] at calm
  have ran := entered.run keeps calm
  rw [← forgetful.pass_session s state, ← text, ← forgetful.pass_session t state'] at ran
  exact twin_closeLeftover ran

theorem contents_of_settled (reached : Reaches base s)
    (settled : settled (host.pass s state).2.1 = true) :
    (host.pass s state).2.1.contents = s.contents := by
  simp only [Host.settled, Bool.and_eq_true, beq_iff_eq] at settled
  obtain ⟨edits, landed⟩ := (reached.pass host state).landed
  have tokens : (host.pass s state).2.1.tokens = (host.tokenize state s.contents).1 :=
    landed.tokens_of_fixCount settled.1
  rw [Session.contents, tokens, forgetful.cuts, forgetful.whole]

end Forgetful

/-! ### Two runs -/

theorem loop_of_converged (reached : Reaches base s) {fixable left n : Nat}
    (converged : (host.loop fixable left s state).outcome = .converged n) :
    ∃ given before remembered, Reaches given before ∧ before.settings.2 = s.settings.2 ∧ 0 < left ∧
      settled (host.pass before remembered).2.1 = true ∧
      (host.loop fixable left s state).session = (host.pass before remembered).2.1 ∧
      (host.pass before remembered).1 ∈ (host.loop fixable left s state).passes := by
  induction left generalizing base s state with
  | zero => cases converged
  | succ left ih =>
    cases stop : settled (host.pass s state).2.1 with
    | true =>
      obtain ⟨-, session, -, passes⟩ := loop_of_settled host fixable left stop
      refine ⟨base, s, state, reached, rfl, Nat.succ_pos left, stop, session, ?_⟩
      rw [passes]
      exact List.mem_singleton_self _
    | false =>
      obtain ⟨outcome, session, -, passes⟩ := loop_of_unsettled host fixable left stop
      obtain ⟨given, before, remembered, reached', settings, -, settles, final, member⟩ :=
        ih (reached.pass host state) (outcome.symm.trans converged)
      refine ⟨given, before, remembered, reached', settings.trans (pass_settings host s state),
        Nat.succ_pos left, settles, session.trans final, ?_⟩
      rw [passes]
      exact List.mem_cons_of_mem _ member

/-- If a forgetful host asks for no rollback and its run from a reachable session converges, then a
second run from where the first ended converges in its first pass and leaves the text as it is. -/
theorem fix_fixed_point (reached : Reaches base s) (forgetful : host.Forgetful cut program)
    (state : σ)
    (keeps : ∀ p ∈ (host.fix s state).passes, ∀ e ∈ p.exchanges, e.request ≠ .rollback) {n : Nat}
    (converged : (host.fix s state).outcome = .converged n) :
    let run := host.fix s state
    let again := host.fix run.session run.state
    again.outcome = .converged 1 ∧ again.session.contents = run.session.contents := by
  intro run again
  obtain ⟨outcome, session, -, passes⟩ :=
    fix_of_busy host s (Nat.ne_of_gt (forgetful.busy state))
  obtain ⟨given, before, remembered, reached', settings, positive, settles, final, member⟩ :=
    loop_of_converged reached.restart (outcome.symm.trans converged)
  have final : run.session = (host.pass before remembered).2.1 := session.trans final
  have text : run.session.restart.1.contents = before.contents := by
    rw [final]
    exact forgetful.contents_of_settled reached' settles
  have alike : run.session.restart.1.settings.2 = before.settings.2 := by
    rw [final]
    exact pass_settings host before remembered
  -- The last pass of the first run and the first pass of the second start as twins.
  have calm := ((pass_settles host remembered reached').mp settles).2
  have twin := forgetful.twin_pass run.state alike text (fun _ => rfl)
    (keeps _ (passes ▸ member)) calm
  have settles' : settled (host.pass run.session.restart.1 run.state).2.1 = true := by
    have fixes : (host.pass run.session.restart.1 run.state).2.1.fixCount =
        (host.pass before remembered).2.1.fixCount := congrArg View.fixCount twin.view_eq
    unfold settled at settles ⊢
    rw [fixes, twin.conflict_eq]
    exact settles
  obtain ⟨left, limit⟩ : ∃ left, run.session.maxPasses = left + 1 := by
    have same : run.session.maxPasses = s.maxPasses :=
      congrArg Prod.fst (alike.trans settings)
    exact ⟨s.maxPasses - 1, by omega⟩
  obtain ⟨outcome', session', -, -⟩ :=
    fix_of_busy host run.session (Nat.ne_of_gt (forgetful.busy run.state))
  rw [limit] at outcome' session'
  obtain ⟨first, last, -, -⟩ :=
    loop_of_settled host (host.fixable run.state) left settles'
  refine ⟨?_, ?_⟩
  · rw [show again.outcome = _ from outcome', first, pass_number]
    rfl
  · rw [show again.session = _ from session', last, Session.contents, twin.tokens_eq, final]
    rfl

/-- A host that turns a leading `a` into a `b`, and where it finds none tries to bring it back in a
batch that cannot land. -/
def wavering : Host Unit where
  fixable _ := 1
  tokenize _ text := (text.map fun c => [c], ())
  dispatch _ := .look fun view =>
    if view.content 0 = some ['a'] then .ask "rewrite" (.replace 0 ['b']) fun _ => .done ()
    else .ask "restore" .beginBatch fun _ => .ask "restore" (.replace 0 ['a']) fun _ =>
      .ask "restore" (.replace 9 ['c']) fun _ => .ask "restore" .endBatch fun _ => .done ()

theorem fix_fixed_point_wavering :
    Reaches [['a'], ['b']] (.new [['a'], ['b']]) ∧
      (wavering.fix (.new [['a'], ['b']]) ()).outcome = .converged 3 ∧
      (wavering.fix (.new [['a'], ['b']]) ()).session.contents = ['b', 'b'] ∧
      (wavering.fix (wavering.fix (.new [['a'], ['b']]) ()).session ()).outcome = .converged 1 ∧
      (wavering.fix (wavering.fix (.new [['a'], ['b']]) ()).session ()).session.contents =
        ['b', 'b'] := by
  have reached : Reaches [['a'], ['b']] (.new [['a'], ['b']]) := .new _
  have forgetful : wavering.Forgetful (fun text => text.map fun c => [c])
      (fun _ => (wavering.dispatch ()).andThen fun _ => .done ()) :=
    ⟨fun _ => Nat.one_pos, fun _ _ => rfl, List.flatMap_singleton', fun _ _ => rfl⟩
  have keeps : ∀ p ∈ (wavering.fix (.new [['a'], ['b']]) ()).passes, ∀ e ∈ p.exchanges,
      e.request ≠ .rollback := by decide
  have converged : (wavering.fix (.new [['a'], ['b']]) ()).outcome = .converged 3 := rfl
  obtain ⟨outcome, contents⟩ := fix_fixed_point reached forgetful () keeps converged
  exact ⟨reached, converged, rfl, outcome, contents⟩

end Host

end Retouch
