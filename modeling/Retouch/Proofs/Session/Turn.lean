import Retouch.Proofs.Session.Request

/-!
Requests taken apart. Whatever a request does, it does in turns: an edit lands, an edit clashes with
the pass before, a mark is taken back, or the batch changes. Each turn comes with what is said of
it, so that the notices of a request tell which edits landed and which were refused as conflicts.
-/

namespace Retouch

def Notice.isConflict : Notice → Bool
  | conflict .. => true
  | _ => false

def Notice.isVerdict : Notice → Bool
  | conflict .. => true
  | replaced .. => true
  | _ => false

theorem Notice.isVerdict_of_isConflict {n : Notice} (conflict : n.isConflict) :
    n.isVerdict = true := by
  cases n with
  | conflict source pos content k => rfl
  | _ => cases conflict

namespace Session

variable {s t u : Session} {pos : Nat} {content : Text} {log more : List Notice}

/-- One turn of a session, with what is said of it. -/
inductive Turn : Session → List Notice → Session → Prop where
  | land {s : Session} {pos : Nat} {content : Text} (source : String)
      (lands : s.Lands pos content) :
      Turn s [.replaced source pos ((s.tokens[pos]?).getD []) content] (s.land pos content)
  | clash {s : Session} {pos : Nat} {content : Text} (source : String) (free : s.Free pos)
      (bounces : s.BouncesBack pos content) :
      Turn s [.conflict source pos content (s.pass - 1)] (s.raise true)
  | revert {s : Session} (source : String) (pos : Nat) :
      Turn s (s.revert source pos).notices (s.revert source pos).session
  | aside {s : Session} {notices : List Notice} (batch : Option Batch)
      (plain : ∀ n ∈ notices, n.isVerdict = false) : Turn s notices { s with batch := batch }

inductive Turns : Session → List Notice → Session → Prop where
  | nil (s : Session) : Turns s [] s
  | cons {s t u : Session} {first rest : List Notice} (turn : Turn s first t)
      (others : Turns t rest u) : Turns s (first ++ rest) u

theorem Turn.quiet {notices : List Notice} (s : Session)
    (plain : ∀ n ∈ notices, n.isVerdict = false) : Turn s notices s :=
  .aside s.batch plain

theorem Turns.single (turn : Turn s log t) : Turns s log t := by
  simpa using Turns.cons turn (.nil t)

theorem Turns.trans (first : Turns s log t) (second : Turns t more u) :
    Turns s (log ++ more) u := by
  induction first with
  | nil => exact second
  | cons turn _ ih =>
    rw [List.append_assoc]
    exact .cons turn (ih second)

/-! ### Edits -/

theorem apply_says_of_lands (source : String) (lands : s.Lands pos content) :
    (s.apply source pos content).notices =
      [.replaced source pos ((s.tokens[pos]?).getD []) content] := by
  obtain ⟨⟨inside, unmarked⟩, moves⟩ := lands
  have read : s.tokens[pos]? = some s.tokens[pos] := List.getElem?_eq_getElem inside
  obtain ⟨verdict, accepted, judged⟩ := judge_of_not_bouncesBack s.tokens[pos] moves
  unfold apply
  simp only [read, unmarked, Bool.false_eq_true, if_false, judged]
  cases verdict with
  | conflict => exact (accepted rfl).elim
  | firstFix | updated => rfl

theorem apply_says_of_bounces (source : String) (free : s.Free pos)
    (bounces : s.BouncesBack pos content) :
    (s.apply source pos content).notices = [.conflict source pos content (s.pass - 1)] := by
  obtain ⟨inside, unmarked⟩ := free
  have read : s.tokens[pos]? = some s.tokens[pos] := List.getElem?_eq_getElem inside
  unfold apply
  simp only [read, unmarked, Bool.false_eq_true, if_false, judge_of_bouncesBack _ bounces]

theorem apply_says_of_taken (source : String) (content : Text) (taken : ¬s.Free pos) :
    ∀ n ∈ (s.apply source pos content).notices, n.isVerdict = false := by
  unfold apply
  cases read : s.tokens[pos]? with
  | none => simp [Notice.isVerdict]
  | some current =>
    obtain ⟨inside, -⟩ := List.getElem?_eq_some_iff.mp read
    have marked : s.history.isFixed pos = true := by
      by_contra unmarked
      exact taken ⟨inside, by simpa using unmarked⟩
    simp [marked, Notice.isVerdict]

theorem apply_turn (s : Session) (source : String) (pos : Nat) (content : Text) :
    Turn s (s.apply source pos content).notices (s.apply source pos content).session := by
  by_cases lands : s.Lands pos content
  · rw [apply_says_of_lands source lands, (apply_of_lands source lands).2]
    exact .land source lands
  · rw [(apply_of_not_lands source lands).2]
    by_cases free : s.Free pos
    · have bounces : s.BouncesBack pos content := by
        by_contra moves
        exact lands ⟨free, moves⟩
      rw [apply_says_of_bounces source free bounces, decide_eq_true free]
      exact .clash source free bounces
    · have same : s.raise false = s := by simp [raise]
      rw [decide_eq_false free, same]
      exact .quiet s (apply_says_of_taken source content free)

theorem replace_turn (s : Session) (source : String) (pos : Nat) (content : Text) :
    Turn s (s.replace source pos content).notices (s.replace source pos content).session := by
  unfold replace
  by_cases raised : s.conflict = true
  · rw [if_pos raised]
    exact .quiet s (by simp [Notice.isVerdict])
  · rw [if_neg raised]
    cases opened : s.batch with
    | some batch => exact .aside _ (by simp [Notice.isVerdict])
    | none => exact apply_turn s source pos content

theorem modify_turn (s : Session) (source : String) (pos : Nat) (f : Text → Text) :
    Turn s (s.modify source pos f).notices (s.modify source pos f).session := by
  unfold modify
  cases s.content pos with
  | none => exact .quiet s (by simp)
  | some current => exact replace_turn s source pos (f current)

theorem replaceAll_turns (source : String) (edits : List (Nat × Text)) (s : Session) :
    Turns s (replaceAll source edits s).2 (replaceAll source edits s).1 := by
  induction edits generalizing s with
  | nil => exact .nil s
  | cons e rest ih =>
    obtain ⟨pos, content⟩ := e
    exact .cons (replace_turn s source pos content) (ih _)

/-! ### Batches -/

theorem beginBatch_turn (s : Session) (source : String) :
    Turn s (s.beginBatch source).notices (s.beginBatch source).session := by
  unfold beginBatch
  split
  · exact .quiet s (by simp)
  · split
    · exact .quiet s (by simp [Notice.isVerdict])
    · exact .aside _ (by simp [Notice.isVerdict])

theorem replay_turns (source : String) (entries : List (Nat × Text)) (s : Session) :
    Turns s (replay source entries s).notices (replay source entries s).session := by
  induction entries generalizing s with
  | nil => exact .nil s
  | cons e rest ih =>
    obtain ⟨pos, content⟩ := e
    have first := apply_turn s source pos content
    unfold replay
    dsimp only
    split
    · exact .cons first (ih _)
    · exact .single first

theorem revertAll_turns (source : String) (positions : List Nat) (s : Session) :
    Turns s (revertAll source positions s).2 (revertAll source positions s).1 := by
  induction positions generalizing s with
  | nil => exact .nil s
  | cons pos rest ih => exact .cons (.revert source pos) (ih _)

theorem endBatch_turns (s : Session) (source : String) :
    Turns s (s.endBatch source).notices (s.endBatch source).session := by
  unfold endBatch
  split
  · exact .single (.quiet s (by simp [Notice.isVerdict]))
  · next batch _ =>
    have shut : Turn s [] s.closed := .aside none (by simp)
    have replayed := Turns.cons shut (replay_turns source batch.entries s.closed)
    dsimp only
    split
    · exact .single (.aside none (by simp [Notice.isVerdict]))
    · split
      · exact replayed.trans (.single (.quiet _ (by simp [Notice.isVerdict])))
      · have undone := replayed.trans (revertAll_turns source
          (replay source batch.entries s.closed).landed (replay source batch.entries s.closed).session)
        exact undone.trans (.single (.quiet _ (by simp [Notice.isVerdict])))

theorem reindent_turns (s : Session) (source : String) (first last : Nat) (change : Int) :
    Turns s (s.reindent source first last change).notices
      (s.reindent source first last change).session := by
  unfold reindent
  dsimp only
  split
  · exact replaceAll_turns source _ s
  · have begun : Turns s _ _ := .single (beginBatch_turn s source)
    split
    · exact (begun.trans (replaceAll_turns source _ _)).trans (endBatch_turns _ source)
    · exact begun

theorem perform_turns (s : Session) (source : String) {request : Request}
    (keeps : request ≠ .rollback) :
    Turns s (s.perform source request).notices (s.perform source request).session := by
  cases request with
  | replace pos content => exact .single (replace_turn s source pos content)
  | revert pos => exact .single (.revert source pos)
  | beginBatch => exact .single (beginBatch_turn s source)
  | endBatch => exact endBatch_turns s source
  | rollback => exact (keeps rfl).elim
  | append pos text => exact .single (modify_turn s source pos _)
  | prepend pos text => exact .single (modify_turn s source pos _)
  | appendNewline pos => exact .single (modify_turn s source pos _)
  | prependNewline pos => exact .single (modify_turn s source pos _)
  | slice pos start len => exact .single (modify_turn s source pos _)
  | reindent first last change => exact reindent_turns s source first last change

/-! ### Conflicts -/

theorem revert_plain (s : Session) (source : String) (pos : Nat) :
    ∀ n ∈ (s.revert source pos).notices, n.isVerdict = false := by
  unfold revert
  split
  · simp
  · simp [Notice.isVerdict]

theorem rollback_plain (s : Session) (source : String) :
    ∀ n ∈ (s.perform source .rollback).notices, n.isVerdict = false := by
  unfold perform rollback
  dsimp only
  split
  · split
    · simp
    · simp [Notice.isVerdict]
  · simp

theorem Turn.pass_eq (turn : Turn s log t) : t.pass = s.pass := by
  cases turn with
  | land source lands => rfl
  | clash source free bounces => rfl
  | revert source pos =>
    obtain ⟨_, _, same⟩ := revert_eq s source pos
    rw [same]
  | aside batch plain => rfl

theorem Turn.conflict_eq_true (turn : Turn s log t)
    (raised : s.conflict = true ∨ ∃ n ∈ log, n.isConflict) : t.conflict = true := by
  -- Where nothing of the kind is said, the flag stood before and is kept.
  have standing (plain : ∀ n ∈ log, n.isVerdict = false) : s.conflict = true := by
    rcases raised with standing | ⟨n, said, conflict⟩
    · exact standing
    · have other := plain n said
      rw [Notice.isVerdict_of_isConflict conflict] at other
      cases other
  cases turn with
  | land source lands => simpa [Session.land, Notice.isConflict] using raised
  | clash source free bounces => simp [raise]
  | revert source pos =>
    obtain ⟨_, _, same⟩ := revert_eq s source pos
    rw [same]
    exact standing (revert_plain s source pos)
  | aside batch plain => exact standing plain

theorem Turns.conflict_eq_true (turns : Turns s log t)
    (raised : s.conflict = true ∨ ∃ n ∈ log, n.isConflict) : t.conflict = true := by
  induction turns with
  | nil s => simpa using raised
  | cons turn _ ih =>
    apply ih
    rcases raised with standing | ⟨n, said, conflict⟩
    · exact Or.inl (turn.conflict_eq_true (Or.inl standing))
    · rcases List.mem_append.mp said with here | later
      · exact Or.inl (turn.conflict_eq_true (Or.inr ⟨n, here, conflict⟩))
      · exact Or.inr ⟨n, later, conflict⟩

/-- Nothing but a rollback takes a conflict back within a pass. -/
theorem perform_of_conflict (source : String) {request : Request} (keeps : request ≠ .rollback)
    (raised : s.conflict = true) : (s.perform source request).session.conflict = true :=
  (perform_turns s source keeps).conflict_eq_true (Or.inl raised)

theorem perform_of_isConflict (source : String) {request : Request} {n : Notice}
    (said : n ∈ (s.perform source request).notices) (conflict : n.isConflict) :
    (s.perform source request).session.conflict = true := by
  have keeps : request ≠ .rollback := by
    rintro rfl
    have plain := rollback_plain s source n said
    rw [Notice.isVerdict_of_isConflict conflict] at plain
    cases plain
  exact (perform_turns s source keeps).conflict_eq_true (Or.inr ⟨n, said, conflict⟩)

end Session

end Retouch
