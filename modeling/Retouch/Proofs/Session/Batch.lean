import Retouch.Proofs.Session.Landing

/-!
Reverts and batches. Reverting takes a landed edit back, so that a batch whose replay is stopped
leaves tokens and marks as it found them. `endBatch_cases` says all that closing a batch can do.
-/

namespace Retouch.Session

variable {s t : Session} {pos : Nat} {edits : Nat → Option Text}

/-! ### Reverts -/

theorem revert_of_unmarked (source : String) (unmarked : s.history.marks.get? pos = none) :
    (s.revert source pos).session = s := by
  simp [revert, History.takeMark, unmarked]

theorem revert_of_marked (source : String) {before : Text}
    (marked : s.history.marks.get? pos = some before) :
    (s.revert source pos).session =
      { s with
        tokens := s.tokens.set pos before
        history := { s.history with marks := s.history.marks.erase pos } } := by
  simp [revert, History.takeMark, marked]

theorem revert_eq (s : Session) (source : String) (pos : Nat) :
    ∃ tokens marks, (s.revert source pos).session =
      { s with tokens := tokens, history := { s.history with marks := marks } } := by
  cases marked : s.history.marks.get? pos with
  | none => exact ⟨s.tokens, s.history.marks, revert_of_unmarked source marked⟩
  | some before => exact ⟨_, _, revert_of_marked source marked⟩

theorem revertAll_eq (source : String) (positions : List Nat) (s : Session) :
    ∃ tokens marks, (revertAll source positions s).1 =
      { s with tokens := tokens, history := { s.history with marks := marks } } := by
  induction positions generalizing s with
  | nil => exact ⟨s.tokens, s.history.marks, rfl⟩
  | cons pos rest ih =>
    obtain ⟨_, _, first⟩ := revert_eq s source pos
    obtain ⟨tokens, marks, others⟩ := ih (s.revert source pos).session
    refine ⟨tokens, marks, ?_⟩
    rw [revertAll, others, first]

theorem Landed.revert (landed : Landed edits s t) (source : String)
    (unmarked : s.history.marks.get? pos = none) :
    Landed (fun q => if q = pos then none else edits q) s (t.revert source pos).session := by
  cases edited : edits pos with
  | none =>
    have absent := (landed.of_not_edited edited).2.trans unmarked
    rw [revert_of_unmarked source absent]
    apply landed.congr
    intro q
    by_cases here : q = pos
    · simp [here, edited]
    · simp [here]
  | some content =>
    obtain ⟨inside, -⟩ := landed.free pos (by simp [edited])
    have saved : t.history.marks.get? pos = some s.tokens[pos] := by
      rw [landed.marks pos, edited]
      simp [inside]
    have inside' : pos < t.tokens.length := by
      rw [landed.length_eq]
      exact inside
    rw [revert_of_marked source saved]
    refine ⟨?_, ?_, ?_⟩
    · intro q some
      by_cases here : q = pos
      · simp [here] at some
      · exact landed.free q (by simpa [here] using some)
    · intro q
      by_cases here : q = pos
      · subst here
        simp [inside, inside']
      · simp [here, Ne.symm here, landed.tokens q]
    · intro q
      by_cases here : q = pos
      · subst here
        simp [Slots.get?_erase, unmarked]
      · simp [Slots.get?_erase, here, landed.marks q]

/-- Reverts in any order take back exactly the edits of their positions. -/
theorem Landed.revertAll {positions : List Nat} (landed : Landed edits s t) (source : String)
    (unmarked : ∀ pos ∈ positions, s.history.marks.get? pos = none) :
    Landed (fun q => if q ∈ positions then none else edits q) s
      (Session.revertAll source positions t).1 := by
  induction positions generalizing t edits with
  | nil => exact landed.congr (by simp)
  | cons pos rest ih =>
    have first := landed.revert source (unmarked pos List.mem_cons_self)
    have others := ih first (fun q member => unmarked q (List.mem_cons_of_mem pos member))
    apply others.congr
    intro q
    by_cases here : q = pos
    · simp [here]
    · simp [here]

/-! ### Replays -/

def landAll (s : Session) (entries : List (Nat × Text)) : Session :=
  entries.foldl (fun s e => s.land e.1 e.2) s

theorem landAll_eq (s : Session) (entries : List (Nat × Text)) :
    ∃ tokens history, s.landAll entries = { s with tokens := tokens, history := history } := by
  induction entries generalizing s with
  | nil => exact ⟨s.tokens, s.history, rfl⟩
  | cons e rest ih =>
    obtain ⟨tokens, history, same⟩ := ih (s.land e.1 e.2)
    exact ⟨tokens, history, same⟩

theorem Edited.of_landAll {entries : List (Nat × Text)}
    (distinct : (entries.map Prod.fst).Nodup) (free : ∀ e ∈ entries, s.Free e.1) :
    Edited (fun pos => Slots.find pos entries) s (s.landAll entries) := by
  induction entries generalizing s with
  | nil => exact Edited.refl s
  | cons e rest ih =>
    obtain ⟨pos, content⟩ := e
    obtain ⟨fresh, distinct⟩ := List.nodup_cons.mp distinct
    have first : Edited _ s (s.land pos content) := Edited.of_land (free _ List.mem_cons_self)
    have others := ih (s := s.land pos content) distinct (by
      intro e member
      have different : e.1 ≠ pos := fun same => fresh (List.mem_map.mpr ⟨e, member, same⟩)
      exact first.landed.free_iff.mpr
        ⟨free e (List.mem_cons_of_mem _ member), by simp [different]⟩)
    apply (first.trans others).congr
    intro q
    by_cases here : q = pos
    · simp [Slots.find, here]
    · simp [Slots.find, here, Ne.symm here]

/-- A replay lands all entries, or those before the first that is held back. -/
theorem replay_cases (source : String) {entries : List (Nat × Text)}
    (distinct : (entries.map Prod.fst).Nodup) :
    ((∀ e ∈ entries, s.Lands e.1 e.2) ∧ (replay source entries s).complete = true ∧
        (replay source entries s).session = s.landAll entries) ∨
      ∃ before held after, entries = before ++ held :: after ∧
        (∀ e ∈ before, s.Lands e.1 e.2) ∧ ¬s.Lands held.1 held.2 ∧
        (replay source entries s).complete = false ∧
        (replay source entries s).landed = before.map Prod.fst ∧
        (replay source entries s).session =
          (s.landAll before).raise (decide (s.Free held.1)) := by
  induction entries generalizing s with
  | nil => exact Or.inl ⟨by simp, rfl, rfl⟩
  | cons e rest ih =>
    obtain ⟨pos, content⟩ := e
    obtain ⟨fresh, distinct⟩ := List.nodup_cons.mp distinct
    by_cases lands : s.Lands pos content
    · obtain ⟨accepted, session⟩ := apply_of_lands source lands
      have different : ∀ e ∈ rest, e.1 ≠ pos := by
        intro e member same
        exact fresh (List.mem_map.mpr ⟨e, member, same⟩)
      simp only [replay, accepted, if_true, session]
      rcases ih (s := s.land pos content) distinct with
        ⟨all, complete, reached⟩ | ⟨before, held, after, split, front, stop, complete, landed, reached⟩
      · refine Or.inl ⟨?_, complete, reached⟩
        intro e member
        rcases List.mem_cons.mp member with rfl | member
        · exact lands
        · exact (lands_land_iff (different e member)).mp (all e member)
      · have apart : ∀ e ∈ before, e.1 ≠ pos := fun e member =>
          different e (split ▸ List.mem_append_left _ member)
        have heldApart : held.1 ≠ pos := different held (by simp [split])
        have free : (s.land pos content).Free held.1 ↔ s.Free held.1 := by
          rw [(Landed.of_land lands.1).free_iff]
          simp [heldApart]
        refine Or.inr ⟨(pos, content) :: before, held, after, by rw [split]; rfl, ?_, ?_, complete,
          by rw [landed]; rfl, ?_⟩
        · intro e member
          rcases List.mem_cons.mp member with rfl | member
          · exact lands
          · exact (lands_land_iff (apart e member)).mp (front e member)
        · exact fun falls => stop ((lands_land_iff heldApart).mpr falls)
        · rw [reached, decide_eq_decide.mpr free]
          rfl
    · obtain ⟨refused, session⟩ := apply_of_not_lands source lands
      refine Or.inr ⟨[], (pos, content), rest, rfl, by simp, lands, ?_⟩
      simp [replay, refused, session, landAll]

/-! ### Closing a batch -/

def closed (s : Session) : Session := { s with batch := none }

theorem endBatch_of_conflict (source : String) {batch : Batch} (opened : s.batch = some batch)
    (conflict : s.conflict = true) :
    (s.endBatch source).accepted = false ∧ (s.endBatch source).session = s.closed := by
  simp [endBatch, opened, conflict, closed]

theorem endBatch_of_complete {source : String} {batch : Batch} (opened : s.batch = some batch)
    (calm : s.conflict = false) (complete : (replay source batch.entries s.closed).complete = true) :
    (s.endBatch source).accepted = true ∧
      (s.endBatch source).session = (replay source batch.entries s.closed).session := by
  simp only [endBatch, opened]
  rw [if_neg (by simp [calm]), if_pos (by exact complete)]
  exact ⟨rfl, rfl⟩

theorem endBatch_of_incomplete {source : String} {batch : Batch} (opened : s.batch = some batch)
    (calm : s.conflict = false) (stopped : (replay source batch.entries s.closed).complete = false) :
    (s.endBatch source).accepted = false ∧
      (s.endBatch source).session = (revertAll source (replay source batch.entries s.closed).landed
        (replay source batch.entries s.closed).session).1 := by
  simp only [endBatch, opened]
  rw [if_neg (by simp [calm]), if_neg (by exact ne_true_of_eq_false stopped)]
  exact ⟨rfl, rfl⟩

/-- Without conflict, closing a batch lands all entries, or it lands those before the first that is
held back and reverts them. -/
theorem endBatch_replayed (source : String) {batch : Batch} (opened : s.batch = some batch)
    (calm : s.conflict = false) :
    ((∀ e ∈ batch.entries, s.Lands e.1 e.2) ∧ (s.endBatch source).accepted = true ∧
        (s.endBatch source).session = s.closed.landAll batch.entries) ∨
      ∃ before held after, batch.entries = before ++ held :: after ∧
        (∀ e ∈ before, s.Lands e.1 e.2) ∧ ¬s.Lands held.1 held.2 ∧
        (s.endBatch source).accepted = false ∧
        (s.endBatch source).session = (revertAll source (before.map Prod.fst)
          ((s.closed.landAll before).raise (decide (s.Free held.1)))).1 := by
  rcases replay_cases source (s := s.closed) batch.nodup_entries with
    ⟨all, complete, reached⟩ | ⟨before, held, after, split, front, stop, complete, landed, reached⟩
  · obtain ⟨accepted, session⟩ := endBatch_of_complete opened calm complete
    exact Or.inl ⟨all, accepted, session.trans reached⟩
  · obtain ⟨refused, session⟩ := endBatch_of_incomplete opened calm complete
    rw [reached, landed] at session
    exact Or.inr ⟨before, held, after, split, front, stop, refused, session⟩

/-- Without conflict, a batch that is closed lands as a whole, or tokens and marks stay as they are
because of a first entry that is held back; this one raises the conflict if it is free. -/
theorem endBatch_cases (source : String) {batch : Batch} (opened : s.batch = some batch)
    (calm : s.conflict = false) :
    ((∀ e ∈ batch.entries, s.Lands e.1 e.2) ∧ (s.endBatch source).accepted = true ∧
        Landed batch.get? s (s.endBatch source).session ∧
        (s.endBatch source).session = s.closed.landAll batch.entries) ∨
      ∃ before held after, batch.entries = before ++ held :: after ∧
        (∀ e ∈ before, s.Lands e.1 e.2) ∧ ¬s.Lands held.1 held.2 ∧
        (s.endBatch source).accepted = false ∧
        Landed (fun _ => none) s (s.endBatch source).session ∧
        ∃ tokens history, (s.endBatch source).session =
          { s.closed.raise (decide (s.Free held.1)) with tokens := tokens, history := history } := by
  have distinct := batch.nodup_entries
  rcases endBatch_replayed source opened calm with
    ⟨all, accepted, session⟩ | ⟨before, held, after, split, front, stop, refused, session⟩
  · have applied := (Edited.of_landAll (s := s.closed) distinct
      (fun e member => (all e member).1)).landed
    refine Or.inl ⟨all, accepted, ?_, session⟩
    rw [session]
    exact (applied.congr batch.find_entries).transfer rfl rfl rfl rfl
  · rw [split, List.map_append] at distinct
    have applied := (Edited.of_landAll (s := s.closed) distinct.of_append_left
      (fun e member => (front e member).1)).landed
    have unmarked : ∀ pos ∈ before.map Prod.fst, s.history.marks.get? pos = none := by
      intro pos listed
      obtain ⟨e, member, rfl⟩ := List.mem_map.mp listed
      exact (free_iff.mp (front e member).1).2
    have raised : Landed _ s ((s.closed.landAll before).raise (decide (s.Free held.1))) :=
      applied.transfer rfl rfl rfl rfl
    have undone := raised.revertAll source unmarked
    refine Or.inr ⟨before, held, after, split, front, stop, refused, ?_, ?_⟩
    · rw [session]
      apply undone.congr
      intro pos
      by_cases member : pos ∈ before.map Prod.fst
      · rw [if_pos member]
      · rw [if_neg member]
        exact Slots.find_eq_none_iff.mpr member
    · obtain ⟨tokens, marks, kept⟩ := revertAll_eq source (before.map Prod.fst)
        ((s.closed.landAll before).raise (decide (s.Free held.1)))
      obtain ⟨_, history, same⟩ := landAll_eq s.closed before
      refine ⟨tokens, { history with marks := marks }, ?_⟩
      rw [session, kept, same]
      rfl

theorem endBatch_batch (s : Session) (source : String) :
    (s.endBatch source).session.batch = none := by
  cases opened : s.batch with
  | none => simp [endBatch, opened]
  | some batch =>
    cases calm : s.conflict with
    | true => rw [(endBatch_of_conflict source opened calm).2, closed]
    | false =>
      rcases endBatch_cases source opened calm with
        ⟨_, _, _, session⟩ | ⟨_, _, _, _, _, _, _, _, _, _, session⟩
      · obtain ⟨_, _, same⟩ := landAll_eq s.closed batch.entries
        rw [session, same, closed]
      · rw [session, raise, closed]

end Retouch.Session
