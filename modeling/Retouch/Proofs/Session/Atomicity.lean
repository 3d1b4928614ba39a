import Retouch.Proofs.Session.Reach

/-!
Batches are all or nothing. A batch is committed iff each of its entries, taken alone, would land;
otherwise nothing but the conflict can change. `endBatch_atomic` states both sides, and that the
order of the entries decides neither the answer nor the tokens.
-/

namespace Retouch.Session

variable {s : Session} {batch : Batch}

theorem endBatch_accepted_iff (source : String) (opened : s.batch = some batch)
    (calm : s.conflict = false) :
    (s.endBatch source).accepted = true ↔ ∀ e ∈ batch.entries, s.Lands e.1 e.2 := by
  rcases endBatch_cases source opened calm with
    ⟨all, accepted, _⟩ | ⟨before, held, after, split, _, stop, refused, _⟩
  · exact ⟨fun _ => all, fun _ => accepted⟩
  · have member : held ∈ batch.entries := by
      rw [split]
      exact List.mem_append_right _ List.mem_cons_self
    rw [refused]
    constructor
    · intro accepted
      cases accepted
    · intro all
      exact (stop (all held member)).elim

theorem endBatch_landed (source : String) (opened : s.batch = some batch) (calm : s.conflict = false) :
    Landed (fun pos => if (s.endBatch source).accepted then batch.get? pos else none) s
      (s.endBatch source).session := by
  rcases endBatch_cases source opened calm with
    ⟨_, accepted, landed, _⟩ | ⟨_, _, _, _, _, _, refused, landed, _⟩
  · simpa [accepted] using landed
  · simpa [refused] using landed

/-- A refused batch raises the conflict iff its first entry that does not land is a bounce-back at a
free position. -/
theorem endBatch_conflict_iff (source : String) (opened : s.batch = some batch)
    (calm : s.conflict = false) (refused : (s.endBatch source).accepted = false) :
    (s.endBatch source).session.conflict = true ↔
      ∃ pos content, batch.entries.find? (fun e => !decide (s.Lands e.1 e.2)) = some (pos, content) ∧
        s.Free pos ∧ s.BouncesBack pos content := by
  rcases endBatch_cases source opened calm with
    ⟨_, accepted, _⟩ | ⟨before, held, after, split, front, stop, _, _, _, _, session⟩
  · rw [accepted] at refused
    cases refused
  · have first : batch.entries.find? (fun e => !decide (s.Lands e.1 e.2)) = some held := by
      rw [split, List.find?_append, List.find?_eq_none.mpr (fun e member => by simp [front e member])]
      simp [stop]
    have conflict : (s.endBatch source).session.conflict = decide (s.Free held.1) := by
      rw [session]
      simp [raise, closed, calm]
    rw [conflict, first, decide_eq_true_iff]
    constructor
    · intro free
      refine ⟨held.1, held.2, rfl, free, ?_⟩
      by_contra moves
      exact stop ⟨free, moves⟩
    · rintro ⟨pos, content, same, free, _⟩
      obtain rfl := Option.some.inj same
      exact free

theorem get?_eq_of_perm {other : Batch} (same : other.entries.Perm batch.entries) (pos : Nat) :
    other.get? pos = batch.get? pos := by
  apply Option.ext
  intro content
  rw [← Slots.mem_entries_iff, ← Slots.mem_entries_iff]
  exact same.mem_iff

/-- Closing a batch commits all entries, iff each is in range, unmarked and no bounce-back, or it
commits none and raises the conflict iff the first that does not fit bounces back. -/
theorem endBatch_atomic {base : List Text} (reached : Reaches base s) (opened : s.batch = some batch)
    (source : String) :
    let step := s.endBatch source
    (step.accepted = true ↔ ∀ pos content, (pos, content) ∈ batch.entries →
      pos < s.tokens.length ∧ s.history.isFixed pos = false ∧ ¬s.BouncesBack pos content) ∧
    (step.accepted = true →
      (∀ pos, step.session.tokens[pos]? = (batch.get? pos).or s.tokens[pos]?) ∧
      ∀ pos, step.session.history.marks.get? pos =
        if batch.contains pos then s.tokens[pos]? else s.history.marks.get? pos) ∧
    (step.accepted = false →
      step.session.tokens = s.tokens ∧
      (∀ pos, step.session.history.marks.get? pos = s.history.marks.get? pos) ∧
      step.session.fixCount = s.fixCount ∧
      (step.session.conflict = true ↔ ∃ pos content,
        batch.entries.find? (fun e => !decide (s.Lands e.1 e.2)) = some (pos, content) ∧
        s.Free pos ∧ s.BouncesBack pos content)) ∧
    step.session.batch = none ∧
    ∀ (other : Batch) (name : String), other.entries.Perm batch.entries →
      ({ s with batch := some other }.endBatch name).accepted = step.accepted ∧
      ({ s with batch := some other }.endBatch name).session.tokens = step.session.tokens := by
  intro step
  have calm : s.conflict = false := by
    cases raised : s.conflict with
    | false => rfl
    | true =>
      have idle := reached.exclusive raised
      simp [opened] at idle
  have landed := endBatch_landed source opened calm
  refine ⟨?_, ?_, ?_, endBatch_batch s source, ?_⟩
  · rw [endBatch_accepted_iff source opened calm, Prod.forall]
    simp only [Lands, Free, and_assoc]
  · intro accepted
    have landed : Landed batch.get? s step.session := by
      simpa [show (s.endBatch source).accepted = true from accepted] using landed
    exact ⟨landed.tokens, landed.marks⟩
  · intro refused
    have nothing : ∀ pos, (if (s.endBatch source).accepted then batch.get? pos else none) = none := by
      simp [show (s.endBatch source).accepted = false from refused]
    obtain ⟨tokens, marks⟩ := landed.of_none nothing
    exact ⟨tokens, marks, Slots.size_congr marks, endBatch_conflict_iff source opened calm refused⟩
  · intro other name permuted
    have answer : ({ s with batch := some other }.endBatch name).accepted = step.accepted := by
      rw [Bool.eq_iff_iff, endBatch_accepted_iff source opened calm,
        endBatch_accepted_iff (s := { s with batch := some other }) name rfl calm]
      exact ⟨fun all e member => all e (permuted.mem_iff.mpr member),
        fun all e member => all e (permuted.mem_iff.mp member)⟩
    refine ⟨answer, List.ext_getElem? fun pos => ?_⟩
    have moved := (endBatch_landed (s := { s with batch := some other }) name rfl calm).tokens pos
    rw [moved, answer, get?_eq_of_perm permuted]
    exact (landed.tokens pos).symm

def bouncing : Session :=
  let first := (Host.enterPass (.new [['0'], ['a']]) [['0'], ['a']]).1
  let fixed := (first.perform "rewrite" (.replace 1 ['b'])).session
  let second := (Host.enterPass fixed [['0'], ['b']]).1
  let opened := (second.perform "restore" .beginBatch).session
  let half := (opened.perform "restore" (.replace 0 ['X'])).session
  (half.perform "restore" (.replace 1 ['a'])).session

theorem endBatch_atomic_bouncing :
    Reaches [['0'], ['b']] bouncing ∧ bouncing.batch.isSome ∧
      (bouncing.endBatch "restore").accepted = false ∧
      (bouncing.endBatch "restore").session.tokens = [['0'], ['b']] ∧
      (bouncing.endBatch "restore").session.fixCount = 0 := by
  have reached : Reaches [['0'], ['b']] bouncing :=
    (((((((Reaches.new _).enter _).perform _ _).enter _).perform _ _).perform _ _).perform _ _)
  have refused : (bouncing.endBatch "restore").accepted = false := rfl
  obtain ⟨_, _, undone, _⟩ := endBatch_atomic reached rfl "restore"
  obtain ⟨tokens, _, count, _⟩ := undone refused
  exact ⟨reached, rfl, refused, tokens, count⟩

end Retouch.Session
