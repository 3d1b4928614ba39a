import Retouch.Proofs.Session.Reach

/-!
What a refused batch leaves behind. Its replay records every entry that it lands, and the reverts
that take these entries back restore tokens and marks but no records. So the entries before the
first one that is held back stay recorded as edits of this pass, and in the next pass they count as
such: `endBatch_residue` says which contents are then refused.
-/

namespace Retouch.Session

variable {s : Session} {batch : Batch}

/-- The entries of a batch before the first that is held back. -/
def replayed (s : Session) (batch : Batch) : List (Nat × Text) :=
  batch.entries.takeWhile fun e => decide (s.Lands e.1 e.2)

theorem replayed_of_split {before after : List (Nat × Text)} {held : Nat × Text}
    (split : batch.entries = before ++ held :: after) (front : ∀ e ∈ before, s.Lands e.1 e.2)
    (stop : ¬s.Lands held.1 held.2) : s.replayed batch = before := by
  unfold replayed
  rw [split, List.takeWhile_append_of_pos (by simpa using front),
    List.takeWhile_cons_of_neg (by simpa using stop), List.append_nil]

theorem revertAll_record? (source : String) (positions : List Nat) (s : Session) (pos : Nat) :
    (revertAll source positions s).1.history.record? pos = s.history.record? pos := by
  obtain ⟨_, _, same⟩ := revertAll_eq source positions s
  rw [same]
  rfl

theorem endBatch_record? (source : String) (opened : s.batch = some batch)
    (calm : s.conflict = false) (refused : (s.endBatch source).accepted = false) (pos : Nat) :
    (s.endBatch source).session.history.record? pos =
      match Slots.find pos (s.replayed batch) with
      | some content => some (s.nextRecord pos ((s.tokens[pos]?).getD []) content)
      | none => s.history.record? pos := by
  rcases endBatch_replayed source opened calm with
    ⟨_, accepted, _⟩ | ⟨before, held, after, split, front, stop, _, session⟩
  · rw [refused] at accepted
    cases accepted
  · have distinct := batch.nodup_entries
    rw [split, List.map_append] at distinct
    have landed := Edited.of_landAll (s := s.closed) distinct.of_append_left
      (fun e member => (front e member).1)
    rw [session, revertAll_record?, replayed_of_split split front stop]
    exact landed.records pos

/-- A record of this pass makes exactly its previous content bounce back in the next. -/
theorem bouncesBack_enterPass_iff {r : Record} {pos : Nat} (tokens : List Text) (content : Text)
    (recorded : s.history.record? pos = some r) (now : r.pass = s.pass) :
    (Host.enterPass s tokens).1.BouncesBack pos content ↔ r.previous = content := by
  have found : (Host.enterPass s tokens).1.history.record? pos = some r := recorded
  have next : (Host.enterPass s tokens).1.pass = s.pass + 1 := rfl
  unfold BouncesBack
  rw [found, next]
  constructor
  · rintro ⟨_, same, previous, _⟩
    obtain rfl := Option.some.inj same
    exact previous
  · intro previous
    exact ⟨r, rfl, previous, by rw [now]⟩

theorem nextRecord_pass (s : Session) (pos : Nat) (current content : Text) :
    (s.nextRecord pos current content).pass = s.pass := by
  unfold nextRecord
  split <;> rfl

/-- If a batch is refused, the records of the entries before the first that is held back move on as
if these had landed for good, and the next pass goes by them. All other records stay. -/
theorem endBatch_residue {base : List Text} (reached : Reaches base s)
    (opened : s.batch = some batch) (source : String)
    (refused : (s.endBatch source).accepted = false) :
    let after := (s.endBatch source).session
    (∀ pos, after.history.record? pos = match Slots.find pos (s.replayed batch) with
      | some content => some (s.nextRecord pos ((s.tokens[pos]?).getD []) content)
      | none => s.history.record? pos) ∧
    ∀ tokens pos content, (Host.enterPass after tokens).1.BouncesBack pos content ↔
      match Slots.find pos (s.replayed batch) with
      | some asked => (s.nextRecord pos ((s.tokens[pos]?).getD []) asked).previous = content
      | none => (Host.enterPass s tokens).1.BouncesBack pos content := by
  intro after
  have calm : s.conflict = false := by
    cases raised : s.conflict with
    | false => rfl
    | true =>
      have idle := reached.exclusive raised
      simp [opened] at idle
  have records := endBatch_record? source opened calm refused
  have pass : after.pass = s.pass := congrArg Prod.fst (s.perform_settings source .endBatch)
  refine ⟨records, fun tokens pos content => ?_⟩
  have recorded := records pos
  cases found : Slots.find pos (s.replayed batch) with
  | some asked =>
    rw [found] at recorded
    exact bouncesBack_enterPass_iff tokens content recorded
      ((nextRecord_pass s pos _ asked).trans pass.symm)
  | none =>
    rw [found] at recorded
    have kept : (Host.enterPass after tokens).1.history.record? pos =
        (Host.enterPass s tokens).1.history.record? pos := recorded
    have next : (Host.enterPass after tokens).1.pass = (Host.enterPass s tokens).1.pass :=
      congrArg (· + 1) pass
    simp only [BouncesBack, kept, next]

def doomed : Session :=
  let entered := (Host.enterPass (.new [['a'], ['b']]) [['a'], ['b']]).1
  let fixed := (entered.perform "host" (.replace 1 ['c'])).session
  let opened := (fixed.perform "host" .beginBatch).session
  let half := (opened.perform "host" (.replace 0 ['x'])).session
  (half.perform "host" (.replace 1 ['d'])).session

theorem endBatch_residue_doomed :
    Reaches [['a'], ['b']] doomed ∧ doomed.batch.isSome ∧
      (doomed.endBatch "host").accepted = false ∧
      (doomed.endBatch "host").session.history.record? 0 = some ⟨['a'], ['x'], 1⟩ ∧
      (doomed.endBatch "host").session.history.record? 1 = some ⟨['b'], ['c'], 1⟩ ∧
      (Host.enterPass (doomed.endBatch "host").session [['a'], ['c']]).1.BouncesBack 0 ['a'] := by
  have reached : Reaches [['a'], ['b']] doomed :=
    (((((Reaches.new _).enter _).perform _ _).perform _ _).perform _ _).perform _ _
  have refused : (doomed.endBatch "host").accepted = false := rfl
  obtain ⟨records, bounces⟩ := endBatch_residue reached rfl "host" refused
  exact ⟨reached, rfl, refused, records 0, records 1, (bounces [['a'], ['c']] 0 ['a']).mpr rfl⟩

/-- A refused batch leaves a trace: a token that had no record has one afterwards, so that an edit
of the next pass raises a conflict which is accepted if the batch is dropped instead. -/
theorem endBatch_leaves_trace :
    Reaches [['a'], ['b']] doomed ∧ doomed.batch.isSome ∧
      (doomed.endBatch "host").accepted = false ∧ doomed.history.record? 0 = none ∧
      (doomed.endBatch "host").session.history.record? 0 = some ⟨['a'], ['x'], 1⟩ ∧
      ((Host.enterPass (doomed.endBatch "host").session [['a'], ['c']]).1.replace "host" 0
        ['a']).session.conflict = true ∧
      ((Host.enterPass (doomed.rollback "host").1 [['a'], ['c']]).1.replace "host" 0
        ['a']).accepted = true :=
  ⟨(((((Reaches.new _).enter _).perform _ _).perform _ _).perform _ _).perform _ _,
    rfl, rfl, rfl, rfl, rfl, rfl⟩

end Retouch.Session
