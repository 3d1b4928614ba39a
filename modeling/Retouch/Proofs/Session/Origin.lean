import Retouch.Script

/-!
The text a session was opened on. It is kept for comparisons later on and bears on nothing else: a
session that was opened on another text gives the same answers, says the same, and stays the same
session but for that text. `run_openedOn` says so of whole scripts, and `replies_openedOn` of all
that a script gets to see.
-/

namespace Retouch

/-- What a client learns from its editor: a look at the session, or the answer to a request. -/
inductive Reply where
  | seen (view : View)
  | answered (source : String) (request : Request) (accepted : Bool)

def Script.replies {α : Type} : Script α → Session → List Reply
  | done _, _ => []
  | look next, s => .seen s.view :: (next s.view).replies s
  | say _ next, s => next.replies s
  | ask source request next, s =>
    let step := s.perform source request
    .answered source request step.accepted :: (next step.accepted).replies step.session

def Session.openedOn (s : Session) (text : Text) : Session := { s with initial := text }

def Step.openedOn (step : Step) (text : Text) : Step :=
  { step with session := step.session.openedOn text }

def Session.Replay.openedOn (r : Session.Replay) (text : Text) : Session.Replay :=
  { r with session := r.session.openedOn text }

def Script.Effect.openedOn {α : Type} (e : Script.Effect α) (text : Text) : Script.Effect α :=
  { e with session := e.session.openedOn text }

namespace Session

variable (s : Session) (text : Text) (source : String)

/-! ### Edits -/

theorem apply_openedOn (pos : Nat) (content : Text) :
    (s.openedOn text).apply source pos content = (s.apply source pos content).openedOn text := by
  unfold apply openedOn
  dsimp only
  cases s.tokens[pos]? with
  | none => rfl
  | some current =>
    dsimp only
    cases s.history.isFixed pos with
    | true => rfl
    | false =>
      obtain ⟨verdict, history⟩ := s.history.judge pos current content s.pass
      cases verdict <;> rfl

theorem replace_openedOn (pos : Nat) (content : Text) :
    (s.openedOn text).replace source pos content = (s.replace source pos content).openedOn text := by
  unfold replace
  rw [apply_openedOn, show (s.openedOn text).conflict = s.conflict from rfl,
    show (s.openedOn text).batch = s.batch from rfl]
  by_cases raised : s.conflict = true
  · rw [if_pos raised, if_pos raised]
    rfl
  · rw [if_neg raised, if_neg raised]
    cases s.batch with
    | none => rfl
    | some batch => rfl

theorem modify_openedOn (pos : Nat) (f : Text → Text) :
    (s.openedOn text).modify source pos f = (s.modify source pos f).openedOn text := by
  have seen : (s.openedOn text).content pos = s.content pos := rfl
  unfold modify
  rw [seen]
  split
  · rfl
  · exact replace_openedOn s text source pos _

theorem revert_openedOn (pos : Nat) :
    (s.openedOn text).revert source pos = (s.revert source pos).openedOn text := by
  unfold revert History.takeMark openedOn
  dsimp only
  cases s.history.marks.get? pos with
  | none => rfl
  | some before => rfl

/-! ### Batches -/

theorem beginBatch_openedOn :
    (s.openedOn text).beginBatch source = (s.beginBatch source).openedOn text := by
  unfold beginBatch
  rw [show (s.openedOn text).conflict = s.conflict from rfl,
    show (s.openedOn text).batchOpen = s.batchOpen from rfl]
  by_cases raised : s.conflict = true
  · rw [if_pos raised, if_pos raised]
    rfl
  · rw [if_neg raised, if_neg raised]
    cases s.batchOpen with
    | true => rfl
    | false => rfl

theorem replay_openedOn (entries : List (Nat × Text)) :
    replay source entries (s.openedOn text) = (replay source entries s).openedOn text := by
  induction entries generalizing s with
  | nil => rfl
  | cons e rest ih =>
    obtain ⟨pos, content⟩ := e
    simp only [replay, apply_openedOn, Step.openedOn, ih]
    split
    · rfl
    · rfl

theorem revertAll_openedOn (positions : List Nat) :
    revertAll source positions (s.openedOn text) =
      ((revertAll source positions s).1.openedOn text, (revertAll source positions s).2) := by
  induction positions generalizing s with
  | nil => rfl
  | cons pos rest ih => simp only [revertAll, revert_openedOn, Step.openedOn, ih]

theorem endBatch_openedOn :
    (s.openedOn text).endBatch source = (s.endBatch source).openedOn text := by
  unfold endBatch
  rw [show (s.openedOn text).batch = s.batch from rfl]
  cases s.batch with
  | none => rfl
  | some batch =>
    have replayed : replay source batch.entries { s.openedOn text with batch := none } =
        (replay source batch.entries { s with batch := none }).openedOn text :=
      replay_openedOn { s with batch := none } text source batch.entries
    dsimp only
    rw [replayed]
    by_cases raised : s.conflict = true
    · rw [if_pos raised, if_pos (by exact raised)]
      rfl
    · rw [if_neg raised, if_neg (by exact raised)]
      generalize replay source batch.entries { s with batch := none } = run
      unfold Replay.openedOn
      dsimp only
      rw [revertAll_openedOn]
      cases run.complete with
      | true => rfl
      | false => rfl

/-! ### Requests and scripts -/

theorem replaceAll_openedOn (edits : List (Nat × Text)) :
    replaceAll source edits (s.openedOn text) =
      ((replaceAll source edits s).1.openedOn text, (replaceAll source edits s).2) := by
  induction edits generalizing s with
  | nil => rfl
  | cons e rest ih =>
    obtain ⟨pos, content⟩ := e
    simp only [replaceAll, replace_openedOn, Step.openedOn, ih]

theorem reindent_openedOn (first last : Nat) (change : Int) :
    (s.openedOn text).reindent source first last change =
      (s.reindent source first last change).openedOn text := by
  have edits : ((s.openedOn text).range first last).filterMap ((s.openedOn text).shiftAt change) =
      (s.range first last).filterMap (s.shiftAt change) := rfl
  have opened : (s.openedOn text).batchOpen = s.batchOpen := rfl
  simp only [reindent, edits, opened, beginBatch_openedOn, Step.openedOn, replaceAll_openedOn,
    endBatch_openedOn]
  split
  · rfl
  · split
    · rfl
    · rfl

theorem perform_openedOn (request : Request) :
    (s.openedOn text).perform source request = (s.perform source request).openedOn text := by
  cases request with
  | replace pos content => exact replace_openedOn s text source pos content
  | revert pos => exact revert_openedOn s text source pos
  | beginBatch => exact beginBatch_openedOn s text source
  | endBatch => exact endBatch_openedOn s text source
  | rollback => rfl
  | append pos more => exact modify_openedOn s text source pos _
  | prepend pos more => exact modify_openedOn s text source pos _
  | appendNewline pos => exact modify_openedOn s text source pos _
  | prependNewline pos => exact modify_openedOn s text source pos _
  | slice pos start len => exact modify_openedOn s text source pos _
  | reindent first last change => exact reindent_openedOn s text source first last change

end Session

namespace Script

variable {α : Type}

theorem run_openedOn (script : Script α) (s : Session) (text : Text) :
    script.run (s.openedOn text) = (script.run s).openedOn text := by
  induction script generalizing s with
  | done result => rfl
  | look next ih => exact ih _ s
  | say notice next ih => simp only [run, ih, Effect.openedOn]
  | ask source request next ih =>
    simp only [run, Session.perform_openedOn, Step.openedOn, ih, Effect.openedOn]

theorem replies_openedOn (script : Script α) (s : Session) (text : Text) :
    script.replies (s.openedOn text) = script.replies s := by
  induction script generalizing s with
  | done result => rfl
  | look next ih => exact congrArg (List.cons _) (ih _ s)
  | say notice next ih => exact ih s
  | ask source request next ih =>
    simp only [replies, Session.perform_openedOn, Step.openedOn, ih]

end Script

end Retouch
