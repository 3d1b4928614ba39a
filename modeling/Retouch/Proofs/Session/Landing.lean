import Mathlib.Data.List.Basic
import Retouch.Proofs.History
import Retouch.Proofs.Slots
import Retouch.Session.Edits

/-!
What an edit does. An edit lands if its position is free and its content is no bounce-back; then
the token changes, the position is marked with what it held, and the record moves on. `Landed`
says the same of any number of edits at once, in whatever order and through whatever requests they
came.
-/

namespace Retouch.Session

variable {s t u : Session} {pos : Nat} {content : Text}

/-! ### One edit -/

def Free (s : Session) (pos : Nat) : Prop :=
  pos < s.tokens.length ∧ s.history.isFixed pos = false

/-- The latest accepted edit of the position is of the pass before, and its record has exactly this
content as the previous one. -/
def BouncesBack (s : Session) (pos : Nat) (content : Text) : Prop :=
  ∃ r, s.history.record? pos = some r ∧ r.previous = content ∧ r.pass + 1 = s.pass

/-- No rule holds the edit back, the conflict of the pass apart. -/
def Lands (s : Session) (pos : Nat) (content : Text) : Prop :=
  s.Free pos ∧ ¬s.BouncesBack pos content

instance (s : Session) (pos : Nat) : Decidable (s.Free pos) :=
  inferInstanceAs (Decidable (_ ∧ _))

instance (s : Session) (pos : Nat) (content : Text) : Decidable (s.BouncesBack pos content) :=
  decidable_of_iff
    (∃ r ∈ (s.history.record? pos).toList, r.previous = content ∧ r.pass + 1 = s.pass)
    (by simp [BouncesBack])

instance (s : Session) (pos : Nat) (content : Text) : Decidable (s.Lands pos content) :=
  inferInstanceAs (Decidable (_ ∧ _))

def nextRecord (s : Session) (pos : Nat) (current content : Text) : Record :=
  match s.history.record? pos with
  | none => ⟨current, content, s.pass⟩
  | some r => ⟨r.recent, content, s.pass⟩

def land (s : Session) (pos : Nat) (content : Text) : Session :=
  let current := (s.tokens[pos]?).getD []
  { s with
    tokens := s.tokens.set pos content
    history :=
      { marks := s.history.marks.insert pos current
        records := s.history.records.insert pos (s.nextRecord pos current content) } }

def raise (s : Session) (clash : Bool) : Session := { s with conflict := s.conflict || clash }

theorem free_iff : s.Free pos ↔ pos < s.tokens.length ∧ s.history.marks.get? pos = none := by
  rw [Free, History.isFixed, Slots.contains_eq_false_iff]

theorem judge_of_bouncesBack (current : Text) (bounces : s.BouncesBack pos content) :
    s.history.judge pos current content s.pass = (.conflict, s.history) := by
  have refused : (s.history.judge pos current content s.pass).1 = .conflict :=
    History.judge_conflict_iff.mpr bounces
  exact Prod.ext refused (History.judge_of_conflict refused)

theorem judge_of_not_bouncesBack (current : Text) (moves : ¬s.BouncesBack pos content) :
    ∃ verdict, verdict ≠ .conflict ∧ s.history.judge pos current content s.pass =
      (verdict, { s.history with
        records := s.history.records.insert pos (s.nextRecord pos current content) }) := by
  unfold History.judge nextRecord History.record?
  cases found : s.history.records.get? pos with
  | none => exact ⟨.firstFix, by decide, rfl⟩
  | some r =>
    have other : ¬(r.previous = content ∧ r.pass + 1 = s.pass) :=
      fun bounces => moves ⟨r, found, bounces⟩
    exact ⟨.updated, by decide, by simp [other]⟩

theorem apply_of_lands (source : String) (lands : s.Lands pos content) :
    (s.apply source pos content).accepted = true ∧
      (s.apply source pos content).session = s.land pos content := by
  obtain ⟨⟨inside, unmarked⟩, moves⟩ := lands
  have read : s.tokens[pos]? = some s.tokens[pos] := List.getElem?_eq_getElem inside
  obtain ⟨verdict, accepted, judged⟩ := judge_of_not_bouncesBack s.tokens[pos] moves
  unfold apply
  simp only [read, unmarked, Bool.false_eq_true, if_false, judged]
  cases verdict with
  | conflict => exact (accepted rfl).elim
  | firstFix | updated => simp [land, read, History.mark]

/-- An edit that is held back raises the conflict if only its content holds it back. -/
theorem apply_of_not_lands (source : String) (held : ¬s.Lands pos content) :
    (s.apply source pos content).accepted = false ∧
      (s.apply source pos content).session = s.raise (decide (s.Free pos)) := by
  by_cases free : s.Free pos
  · have bounces : s.BouncesBack pos content := by
      by_contra moves
      exact held ⟨free, moves⟩
    obtain ⟨inside, unmarked⟩ := id free
    have read : s.tokens[pos]? = some s.tokens[pos] := List.getElem?_eq_getElem inside
    unfold apply
    simp only [read, unmarked, Bool.false_eq_true, if_false, judge_of_bouncesBack _ bounces]
    simp [free, raise]
  · unfold apply
    cases read : s.tokens[pos]? with
    | none => simp [free, raise]
    | some current =>
      obtain ⟨inside, -⟩ := List.getElem?_eq_some_iff.mp read
      have marked : s.history.isFixed pos = true := by
        by_contra unmarked
        exact free ⟨inside, by simpa using unmarked⟩
      simp [free, marked, raise]

theorem land_record? (s : Session) (pos q : Nat) (content : Text) :
    (s.land pos content).history.record? q =
      if q = pos then some (s.nextRecord pos ((s.tokens[pos]?).getD []) content)
      else s.history.record? q :=
  Slots.get?_insert ..

theorem land_get?_marks (s : Session) (pos q : Nat) (content : Text) :
    (s.land pos content).history.marks.get? q =
      if q = pos then some ((s.tokens[pos]?).getD []) else s.history.marks.get? q :=
  Slots.get?_insert ..

theorem lands_new {tokens : List Text} (inside : pos < tokens.length) (content : Text)
    (batch : Option Batch) : ({ new tokens with batch := batch } : Session).Lands pos content := by
  refine ⟨⟨inside, rfl⟩, ?_⟩
  rintro ⟨r, recorded, -⟩
  cases recorded

theorem lands_land_iff {q : Nat} {other : Text} (different : q ≠ pos) :
    (s.land pos content).Lands q other ↔ s.Lands q other := by
  have free : (s.land pos content).Free q ↔ s.Free q := by
    rw [free_iff, free_iff, land_get?_marks, if_neg different]
    simp [land]
  have bounces : (s.land pos content).BouncesBack q other ↔ s.BouncesBack q other := by
    unfold BouncesBack
    rw [land_record?, if_neg different]
    rfl
  rw [Lands, Lands, free, bounces]

/-! ### Any number of edits -/

/-- From `s` to `t` exactly these edits landed: each at a free position, which then holds the
content asked for and a mark with the content it held in `s`. -/
structure Landed (edits : Nat → Option Text) (s t : Session) : Prop where
  free : ∀ pos, (edits pos).isSome → s.Free pos
  tokens : ∀ pos, t.tokens[pos]? = (edits pos).or s.tokens[pos]?
  marks : ∀ pos, t.history.marks.get? pos =
    if (edits pos).isSome then s.tokens[pos]? else s.history.marks.get? pos

namespace Landed

variable {edits later : Nat → Option Text}

theorem refl (s : Session) : Landed (fun _ => none) s s :=
  ⟨fun _ some => by simp at some, fun _ => rfl, fun _ => rfl⟩

theorem of_land (free : s.Free pos) :
    Landed (fun q => if q = pos then some content else none) s (s.land pos content) := by
  obtain ⟨inside, -⟩ := id free
  refine ⟨?_, ?_, ?_⟩
  · intro q edited
    by_cases here : q = pos
    · exact here ▸ free
    · simp [here] at edited
  · intro q
    by_cases here : q = pos
    · subst here
      simp [land, inside]
    · simp [land, here, Ne.symm here]
  · intro q
    rw [land_get?_marks]
    by_cases here : q = pos
    · subst here
      simp [inside]
    · simp [here]

theorem length_eq (landed : Landed edits s t) : t.tokens.length = s.tokens.length := by
  have inside : ∀ pos, pos < t.tokens.length ↔ pos < s.tokens.length := by
    intro pos
    have read := Bool.eq_iff_iff.mp (congrArg Option.isSome (landed.tokens pos))
    cases edited : edits pos with
    | none => simpa [edited] using read
    | some content =>
      obtain ⟨below, -⟩ := landed.free pos (by simp [edited])
      simpa [edited, below] using read
  have upper := inside s.tokens.length
  have lower := inside t.tokens.length
  omega

theorem of_not_edited (landed : Landed edits s t) (untouched : edits pos = none) :
    t.tokens[pos]? = s.tokens[pos]? ∧
      t.history.marks.get? pos = s.history.marks.get? pos := by
  refine ⟨?_, ?_⟩
  · simp [landed.tokens pos, untouched]
  · simp [landed.marks pos, untouched]

theorem not_free (landed : Landed edits s t) {pos : Nat} (edited : (edits pos).isSome) :
    ¬t.Free pos := by
  intro free
  obtain ⟨inside, -⟩ := landed.free pos edited
  have marked := landed.marks pos
  rw [if_pos edited, List.getElem?_eq_getElem inside, (free_iff.mp free).2] at marked
  cases marked

theorem free_iff (landed : Landed edits s t) : t.Free pos ↔ s.Free pos ∧ edits pos = none := by
  cases edited : edits pos with
  | some content =>
    have present : (edits pos).isSome := by simp [edited]
    simp [landed.not_free present]
  | none =>
    rw [Session.free_iff, Session.free_iff, landed.length_eq, (landed.of_not_edited edited).2]
    simp

theorem disjoint (first : Landed edits s t) (second : Landed later t u) {pos : Nat}
    (edited : (edits pos).isSome) : later pos = none := by
  by_contra again
  exact first.not_free edited (second.free pos (Option.isSome_iff_ne_none.mpr again))

theorem trans (first : Landed edits s t) (second : Landed later t u) :
    Landed (fun pos => (edits pos).or (later pos)) s u := by
  refine ⟨?_, ?_, ?_⟩
  · intro pos edited
    cases before : edits pos with
    | some content => exact first.free pos (by simp [before])
    | none =>
      have edited : (later pos).isSome := by simpa [before] using edited
      exact (first.free_iff.mp (second.free pos edited)).1
  · intro pos
    rw [second.tokens pos, first.tokens pos]
    cases before : edits pos with
    | none => simp
    | some content =>
      have present : (edits pos).isSome := by simp [before]
      simp [first.disjoint second present]
  · intro pos
    rw [second.marks pos, first.marks pos, first.tokens pos]
    cases before : edits pos with
    | none => cases later pos <;> rfl
    | some content =>
      have present : (edits pos).isSome := by simp [before]
      simp [first.disjoint second present]

theorem congr (landed : Landed edits s t) (same : ∀ pos, edits pos = later pos) :
    Landed later s t :=
  (funext same : edits = later) ▸ landed

theorem transfer {s' t' : Session} (landed : Landed edits s t) (tokens : s'.tokens = s.tokens)
    (marks : s'.history.marks = s.history.marks) (tokens' : t'.tokens = t.tokens)
    (marks' : t'.history.marks = t.history.marks) : Landed edits s' t' := by
  refine ⟨?_, ?_, ?_⟩
  · intro pos edited
    have free := landed.free pos edited
    rw [Session.free_iff] at free ⊢
    rw [tokens, marks]
    exact free
  · intro pos
    rw [tokens, tokens']
    exact landed.tokens pos
  · intro pos
    rw [tokens, marks, marks']
    exact landed.marks pos

theorem of_none (landed : Landed edits s t) (none : ∀ pos, edits pos = none) :
    t.tokens = s.tokens ∧ ∀ pos, t.history.marks.get? pos = s.history.marks.get? pos := by
  refine ⟨List.ext_getElem? fun pos => ?_, fun pos => ?_⟩
  · exact (landed.of_not_edited (none pos)).1
  · exact (landed.of_not_edited (none pos)).2

end Landed

/-! ### Edits with their records -/

/-- From `s` to `t` exactly these edits landed, their records moved on, and nothing else changed. -/
structure Edited (edits : Nat → Option Text) (s t : Session) : Prop where
  landed : Landed edits s t
  records : ∀ pos, t.history.record? pos = match edits pos with
    | some content => some (s.nextRecord pos ((s.tokens[pos]?).getD []) content)
    | none => s.history.record? pos
  rest : t = { s with tokens := t.tokens, history := t.history }

namespace Edited

variable {edits later : Nat → Option Text}

theorem refl (s : Session) : Edited (fun _ => none) s s :=
  ⟨Landed.refl s, fun _ => rfl, rfl⟩

theorem of_land (free : s.Free pos) :
    Edited (fun q => if q = pos then some content else none) s (s.land pos content) := by
  refine ⟨Landed.of_land free, fun q => ?_, rfl⟩
  rw [land_record?]
  by_cases here : q = pos
  · simp [here]
  · simp [here]

theorem congr (edited : Edited edits s t) (same : ∀ pos, edits pos = later pos) :
    Edited later s t :=
  (funext same : edits = later) ▸ edited

theorem pass_eq (edited : Edited edits s t) : t.pass = s.pass := by
  rw [edited.rest]

theorem batch_eq (edited : Edited edits s t) : t.batch = s.batch := by
  rw [edited.rest]

theorem conflict_eq (edited : Edited edits s t) : t.conflict = s.conflict := by
  rw [edited.rest]

theorem terminator_eq (edited : Edited edits s t) : t.terminator = s.terminator := by
  rw [edited.rest]

theorem record?_of_not_edited (edited : Edited edits s t) (untouched : edits pos = none) :
    t.history.record? pos = s.history.record? pos := by
  rw [edited.records pos, untouched]

theorem lands_iff (edited : Edited edits s t) :
    t.Lands pos content ↔ s.Lands pos content ∧ edits pos = none := by
  rw [Lands, Lands, edited.landed.free_iff, and_right_comm]
  refine and_congr_left fun untouched => and_congr_right fun _ => ?_
  rw [BouncesBack, BouncesBack, edited.record?_of_not_edited untouched, edited.pass_eq]

theorem trans (first : Edited edits s t) (second : Edited later t u) :
    Edited (fun pos => (edits pos).or (later pos)) s u := by
  refine ⟨first.landed.trans second.landed, fun pos => ?_, ?_⟩
  · cases again : later pos with
    | none =>
      rw [second.record?_of_not_edited again, first.records pos, Option.or_none]
    | some content =>
      have untouched : edits pos = none := by
        by_contra before
        rw [first.landed.disjoint second.landed (Option.isSome_iff_ne_none.mpr before)] at again
        cases again
      have same : t.nextRecord pos ((t.tokens[pos]?).getD []) content =
          s.nextRecord pos ((s.tokens[pos]?).getD []) content := by
        unfold nextRecord
        rw [first.record?_of_not_edited untouched, first.pass_eq,
          (first.landed.of_not_edited untouched).1]
      rw [second.records pos, again, untouched, Option.none_or]
      exact congrArg some same
  · rw [second.rest, first.rest]

end Edited

end Retouch.Session
