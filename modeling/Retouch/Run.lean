import Retouch.Outcome
import Retouch.Script

/-!
The driver: running passes to a fixed point. A host tokenizes the text and is dispatched to edit the
tokens, once per pass. The run stops at the first pass after which nothing is fixed and no conflict
stands, or when the pass limit is used up.
-/

namespace Retouch

/-- The party that finds and fixes violations; `σ` is what it remembers between calls. -/
structure Host (σ : Type) where
  /-- How many violations the host sees. -/
  fixable : σ → Nat
  tokenize : σ → Text → List Text × σ
  dispatch : σ → Script σ

/-- One pass: what was tokenized, what came out, what the host did, and where that led. -/
structure Pass (σ : Type) where
  text : Text
  loaded : List Text
  /-- The session that the host was given. -/
  entered : Session
  script : Script σ
  /-- The session when the host had finished. -/
  session : Session

/-- The requests of a pass and their answers, in order. -/
def Pass.exchanges {σ : Type} (p : Pass σ) : List Script.Exchange := p.script.trace p.entered

/-- A run: how it ended, what it left, and its passes in order. -/
structure Run (σ : Type) where
  outcome : Outcome
  session : Session
  state : σ
  passes : List (Pass σ)
  notices : List Notice

namespace Host

variable {σ : Type}

def runSource : String := "driver"

def closeLeftover (s : Session) : Session × List Notice :=
  if s.batchOpen then
    let rolled := s.rollback runSource
    (rolled.1, .batchLeftOpen s.pass :: rolled.2)
  else (s, [])

/-- Start a pass: the session over the given tokens. -/
def enterPass (s : Session) (tokens : List Text) : Session × List Notice :=
  let loaded := { s with conflict := false }.load tokens
  ({ loaded.1 with pass := loaded.1.pass + 1 }, loaded.2)

/-- One pass: tokenize the committed text, let the host edit, close what it left open. -/
def pass (host : Host σ) (s : Session) (state : σ) : Pass σ × Session × σ × List Notice :=
  let cut := host.tokenize state s.contents
  let entered := enterPass s cut.1
  let script := host.dispatch cut.2
  let effect := script.run entered.1
  let closed := closeLeftover effect.session
  (⟨s.contents, cut.1, entered.1, script, effect.session⟩, closed.1, effect.result,
    entered.2 ++ effect.notices ++ closed.2)

def settled (s : Session) : Bool := s.fixCount == 0 && !s.conflict

/-- Run at most so many further passes. -/
def loop (host : Host σ) (fixable : Nat) : Nat → Session → σ → Run σ
  | 0, s, state => ⟨.failed s.pass, s, state, [], [.gaveUp s.pass s.fixCount]⟩
  | left + 1, s, state =>
    let (pass, after, state', notices) := host.pass s state
    let report := notices ++ [.progress after.fixCount fixable after.pass]
    if settled after then ⟨.converged after.pass, after, state', [pass], report⟩
    else
      let tail := host.loop fixable left after state'
      { tail with
        passes := pass :: tail.passes
        notices :=
          report ++ .nextPass after.fixCount after.conflict (after.pass + 1) :: tail.notices }

/-- Fix the session's text: start afresh, then run passes until they settle. -/
def fix (host : Host σ) (s : Session) (state : σ) : Run σ :=
  let started := s.restart
  let fixable := host.fixable state
  if fixable == 0 then
    ⟨.nothingToFix, started.1, state, [], started.2 ++ [.nothingToFix]⟩
  else
    let run := host.loop fixable started.1.maxPasses started.1 state
    { run with notices := started.2 ++ run.notices }

end Host

end Retouch
