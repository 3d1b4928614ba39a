import Retouch.History
import Retouch.Notice

/-!
The fixer: an editing session over a list of tokens. Edits land at once or, while a batch (in logs a
changeset) is open, wait in it until it is committed as a whole. Four rules hold an edit back: a
conflict of this pass, a position out of range, a position fixed before, and a content that would
undo the pass before.
-/

namespace Retouch

/-- A changeset: edits waiting to be committed together, a pending content per position. -/
abbrev Batch := Slots Text

structure Session where
  tokens : List Text
  /-- The text the session was opened on. -/
  initial : Text
  history : History
  batch : Option Batch
  /-- An edit of this pass was refused because it would undo the pass before. -/
  conflict : Bool
  /-- The number of the current pass; zero before the first. -/
  pass : Nat
  maxPasses : Nat
  /-- The line terminator that newline edits insert. -/
  terminator : Text

/-- The answer to a request, the state after it, and what was said on the way. -/
structure Step where
  accepted : Bool
  session : Session
  notices : List Notice

namespace Session

/-- No session runs more passes than this. -/
def passLimit : Nat := 50

def new (tokens : List Text) : Session where
  tokens := tokens
  initial := tokens.flatten
  history := ∅
  batch := none
  conflict := false
  pass := 0
  maxPasses := passLimit
  terminator := Text.dominantTerminator tokens.flatten

/-- Limit the number of passes; the limit of all sessions stays. -/
def withMaxPasses (s : Session) (n : Nat) : Session := { s with maxPasses := min n passLimit }

def withTerminator (s : Session) (terminator : Text) : Session :=
  { s with terminator := terminator }

/-! ### Reading -/

def contents (s : Session) : Text := s.tokens.flatten

def fixCount (s : Session) : Nat := s.history.fixedCount

def batchOpen (s : Session) : Bool := s.batch.isSome

/-- Token content as an editor sees it: pending in the batch, else committed. -/
def content (s : Session) (pos : Nat) : Option Text :=
  (s.batch.bind (·.get? pos)).or s.tokens[pos]?

/-! ### Edits -/

/-- Apply one edit directly, unless a rule holds it back. -/
def apply (s : Session) (source : String) (pos : Nat) (content : Text) : Step :=
  match s.tokens[pos]? with
  | none => ⟨false, s, [.outOfRange source pos s.tokens.length]⟩
  | some current =>
    if s.history.isFixed pos then ⟨false, s, [.alreadyModified source pos]⟩
    else
      match s.history.judge pos current content s.pass with
      | (.conflict, _) =>
        ⟨false, { s with conflict := true }, [.conflict source pos content (s.pass - 1)]⟩
      | (_, history) =>
        ⟨true, { s with tokens := s.tokens.set pos content, history := history.mark pos current },
          [.replaced source pos current content]⟩

/-- Replace a token, in the open batch if there is one. -/
def replace (s : Session) (source : String) (pos : Nat) (content : Text) : Step :=
  if s.conflict then ⟨false, s, [.rejected source pos]⟩
  else
    match s.batch with
    | some batch =>
      ⟨true, { s with batch := some (batch.insert pos content) }, [.buffered source pos content]⟩
    | none => s.apply source pos content

/-- Revert a token: bring a fixed position back to what it held before its fix. -/
def revert (s : Session) (source : String) (pos : Nat) : Step :=
  match s.history.takeMark pos with
  | (none, _) => ⟨false, s, []⟩
  | (some before, history) =>
    ⟨true, { s with tokens := s.tokens.set pos before, history := history },
      [.reverted source pos before]⟩

/-! ### Batches -/

/-- Begin a changeset. -/
def beginBatch (s : Session) (source : String) : Step :=
  if s.conflict then ⟨false, s, []⟩
  else if s.batchOpen then ⟨false, s, [.batchNested source]⟩
  else ⟨true, { s with batch := some ∅ }, [.batchStarted source]⟩

/-- How far a replay came: all entries or not, which positions landed, and the state reached. -/
structure Replay where
  complete : Bool
  landed : List Nat
  session : Session
  notices : List Notice

/-- Apply entries in order up to the first that is held back. -/
def replay (source : String) : List (Nat × Text) → Session → Replay
  | [], s => ⟨true, [], s, []⟩
  | (pos, content) :: rest, s =>
    let step := s.apply source pos content
    if step.accepted then
      let tail := replay source rest step.session
      ⟨tail.complete, pos :: tail.landed, tail.session, step.notices ++ tail.notices⟩
    else ⟨false, [], step.session, step.notices⟩

def revertAll (source : String) : List Nat → Session → Session × List Notice
  | [], s => (s, [])
  | pos :: rest, s =>
    let step := s.revert source pos
    let tail := revertAll source rest step.session
    (tail.1, step.notices ++ tail.2)

/-- End the changeset: commit all of it or nothing. It is closed either way. -/
def endBatch (s : Session) (source : String) : Step :=
  match s.batch with
  | none => ⟨false, s, [.batchMissing source]⟩
  | some batch =>
    let closed := { s with batch := none }
    if s.conflict then ⟨false, closed, [.batchDiscarded source]⟩
    else
      let run := replay source batch.entries closed
      if run.complete then
        ⟨true, run.session, run.notices ++ [.batchCommitted source batch.size]⟩
      else
        let undone := revertAll source run.landed run.session
        ⟨false, undone.1, run.notices ++ undone.2 ++ [.batchUndone source]⟩

/-- Roll back the changeset, and with it the conflict of this pass. -/
def rollback (s : Session) (source : String) : Session × List Notice :=
  ({ s with conflict := false, batch := none },
    match s.batch with
    | some batch => if batch.isEmpty then [] else [.batchRolledBack source]
    | none => [])

/-! ### Tokens and passes -/

/-- Load tokens in place of the old ones; marks go, records stay. -/
def load (s : Session) (tokens : List Text) : Session × List Notice :=
  ({ s with batch := none, tokens := tokens, history := s.history.clearMarks },
    if s.batchOpen then [.batchLostOnLoad] else [])

/-- Start a session anew: forget everything but the committed tokens. -/
def restart (s : Session) : Session × List Notice :=
  ({ s with batch := none, history := ∅, conflict := false, pass := 0 },
    if s.batchOpen then [.batchLostAtStart] else [])

end Session

end Retouch
