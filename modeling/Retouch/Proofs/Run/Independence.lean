import Retouch.Proofs.Run.Settling
import Retouch.Proofs.Session.Origin

/-!
Runs do not depend on the past of their session. A run starts by forgetting marks, records, batch
and conflict, and its first pass cuts the text anew, so that of what a session holds only its text,
its pass limit and its terminator can reach the host. `fix_independent` compares two runs of one
host that start from sessions with these three in common.
-/

namespace Retouch

variable {σ : Type} {s t : Session}

def Pass.replies (p : Pass σ) : List Reply := p.script.replies p.entered

def Pass.openedOn (p : Pass σ) (text : Text) : Pass σ :=
  { p with entered := p.entered.openedOn text, session := p.session.openedOn text }

theorem Pass.replies_openedOn (p : Pass σ) (text : Text) : (p.openedOn text).replies = p.replies :=
  p.script.replies_openedOn p.entered text

def Run.openedOn (r : Run σ) (text : Text) : Run σ :=
  { r with session := r.session.openedOn text, passes := r.passes.map (·.openedOn text) }

/-- The sessions hold the same text, perhaps cut in different ways, and apart from that they differ
at most in the text they were opened on. -/
structure Alike (s t : Session) : Prop where
  same : ∃ tokens initial, t = { s with tokens := tokens, initial := initial }
  text : t.contents = s.contents

namespace Host

variable (host : Host σ) (state : σ)

/-! ### Passes -/

theorem closeLeftover_openedOn (s : Session) (text : Text) :
    closeLeftover (s.openedOn text) = ((closeLeftover s).1.openedOn text, (closeLeftover s).2) := by
  unfold closeLeftover
  rw [show (s.openedOn text).batchOpen = s.batchOpen from rfl]
  cases s.batchOpen with
  | true => rfl
  | false => rfl

theorem enterPass_alike (alike : Alike s t) (tokens : List Text) :
    enterPass t tokens = ((enterPass s tokens).1.openedOn t.initial, (enterPass s tokens).2) := by
  obtain ⟨_, _, rfl⟩ := alike.same
  rfl

theorem pass_alike (alike : Alike s t) :
    host.pass t state =
      ((host.pass s state).1.openedOn t.initial, (host.pass s state).2.1.openedOn t.initial,
        (host.pass s state).2.2) := by
  unfold pass
  rw [alike.text]
  dsimp only
  rw [enterPass_alike alike, Script.run_openedOn]
  unfold Script.Effect.openedOn
  dsimp only
  rw [closeLeftover_openedOn]
  rfl

theorem alike_openedOn (s : Session) (text : Text) : Alike s (s.openedOn text) :=
  ⟨⟨s.tokens, text, rfl⟩, rfl⟩

theorem settled_openedOn (s : Session) (text : Text) : settled (s.openedOn text) = settled s := rfl

/-! ### Runs -/

theorem loop_succ_alike (alike : Alike s t) {fixable left : Nat}
    (tail : ∀ after state, host.loop fixable left (after.openedOn t.initial) state =
      (host.loop fixable left after state).openedOn t.initial) :
    host.loop fixable (left + 1) t state =
      (host.loop fixable (left + 1) s state).openedOn t.initial := by
  simp only [loop]
  rw [pass_alike host state alike]
  obtain ⟨p, after, state', notices⟩ := host.pass s state
  dsimp only
  rw [tail, settled_openedOn]
  cases settled after with
  | true => rfl
  | false => rfl

theorem loop_openedOn (fixable left : Nat) (s : Session) (text : Text) :
    host.loop fixable left (s.openedOn text) state =
      (host.loop fixable left s state).openedOn text := by
  induction left generalizing s state with
  | zero => rfl
  | succ left ih =>
    exact loop_succ_alike host state (alike_openedOn s text) (fun after state => ih state after)

theorem alike_restart (text : t.contents = s.contents) (limit : t.maxPasses = s.maxPasses)
    (terminator : t.terminator = s.terminator) : Alike s.restart.1 t.restart.1 := by
  refine ⟨⟨t.tokens, t.initial, ?_⟩, text⟩
  unfold Session.restart
  rw [limit, terminator]

/-- Two runs without a pass end alike, and two runs with one differ in the text they were opened on
alone. -/
theorem fix_alike (text : t.contents = s.contents) (limit : t.maxPasses = s.maxPasses)
    (terminator : t.terminator = s.terminator) :
    let run := host.fix s state
    let other := host.fix t state
    other.outcome = run.outcome ∧ other.state = run.state ∧
    other.passes = run.passes.map (·.openedOn t.initial) ∧
    other.session.contents = run.session.contents ∧
    (run.passes ≠ [] → other.session = run.session.openedOn t.initial) := by
  intro run other
  by_cases idle : host.fixable state = 0
  · have nothing : run = _ := fix_of_idle host s idle
    have nothing' : other = _ := fix_of_idle host t idle
    rw [nothing, nothing']
    exact ⟨rfl, rfl, rfl, text, fun ran => (ran rfl).elim⟩
  · obtain ⟨outcome, session, final, passes⟩ := fix_of_busy host s idle
    obtain ⟨outcome', session', final', passes'⟩ := fix_of_busy host t idle
    rw [show run.outcome = _ from outcome, show other.outcome = _ from outcome',
      show run.session = _ from session, show other.session = _ from session',
      show run.state = _ from final, show other.state = _ from final',
      show run.passes = _ from passes, show other.passes = _ from passes', limit]
    -- With a limit of zero no pass cuts the text anew, and the tokens may differ to the end.
    cases s.maxPasses with
    | zero => exact ⟨rfl, rfl, rfl, text, fun ran => (ran rfl).elim⟩
    | succ left =>
      rw [loop_succ_alike host state (alike_restart text limit terminator)
        (fun after state => loop_openedOn host state _ left after _)]
      exact ⟨rfl, rfl, rfl, rfl, fun _ => rfl⟩

/-- Sessions with the same text, pass limit and terminator, whatever else they hold, give a host the
same run: outcome, answers and text, and if a pass ran, also tokens, marks and records. -/
theorem fix_independent (text : t.contents = s.contents) (limit : t.maxPasses = s.maxPasses)
    (terminator : t.terminator = s.terminator) :
    let run := host.fix s state
    let other := host.fix t state
    other.outcome = run.outcome ∧ other.state = run.state ∧
    other.passes.map Pass.text = run.passes.map Pass.text ∧
    other.passes.map Pass.replies = run.passes.map Pass.replies ∧
    other.session.contents = run.session.contents ∧
    (run.passes ≠ [] →
      other.session.tokens = run.session.tokens ∧
      other.session.history = run.session.history ∧
      other.session.pass = run.session.pass ∧
      other.session.conflict = run.session.conflict) := by
  intro run other
  obtain ⟨outcome, final, passes, contents, session⟩ := fix_alike host state text limit terminator
  refine ⟨outcome, final, ?_, ?_, contents, fun ran => ?_⟩
  · rw [show other.passes = _ from passes, List.map_map]
    rfl
  · rw [show other.passes = _ from passes, List.map_map]
    exact List.map_congr_left fun p _ => p.replies_openedOn t.initial
  · rw [show other.session = _ from session ran]
    exact ⟨rfl, rfl, rfl, rfl⟩

def restoring : Host Bool where
  fixable _ := 1
  tokenize asked text := ([text], asked)
  dispatch asked :=
    if asked then .done true else .ask "restore" (.replace 0 ['z', 'b']) fun _ => .done true

/-- A session in its first pass, which was opened on `zb` and has made it `ab`, with another edit
waiting in a batch. -/
def worn : Session :=
  let entered := (enterPass (.new [['z', 'b']]) [['z', 'b']]).1
  let fixed := (entered.perform "rewrite" (.replace 0 ['a', 'b'])).session
  let opened := (fixed.perform "rewrite" .beginBatch).session
  (opened.perform "rewrite" (.replace 0 ['q'])).session

/-- The records of the worn session would refuse what the host asks for, were they not dropped. -/
theorem fix_independent_worn :
    worn.contents = (Session.new [['a'], ['b']]).contents ∧ worn.fixCount = 1 ∧ worn.pass = 1 ∧
      worn.batchOpen = true ∧ { worn with pass := 2 }.BouncesBack 0 ['z', 'b'] ∧
      (restoring.fix worn false).outcome = .converged 2 ∧
      (restoring.fix worn false).passes.map Pass.text = [['a', 'b'], ['z', 'b']] ∧
      (restoring.fix worn false).session.tokens = [['z', 'b']] ∧
      (restoring.fix worn false).session.history.record? 0 = some ⟨['a', 'b'], ['z', 'b'], 1⟩ := by
  obtain ⟨outcome, -, texts, -, -, left⟩ :=
    fix_independent (s := .new [['a'], ['b']]) (t := worn) restoring false rfl rfl rfl
  obtain ⟨tokens, history, -, -⟩ := left (by decide)
  refine ⟨rfl, rfl, rfl, rfl, by decide, outcome, texts, tokens, ?_⟩
  rw [history]
  rfl

end Host

end Retouch
