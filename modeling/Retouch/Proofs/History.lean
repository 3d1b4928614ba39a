import Mathlib.Data.List.Basic
import Retouch.History
import Retouch.Proofs.Slots

/-!
Records over any sequence of calls. A history is asked to judge edits, and in between marks come and
go; `judge_remembers` says that all it remembers of a position for its verdicts are the last two of
the edits that it did not refuse, the first of all edits counting as one that asked for what it
found.
-/

namespace Retouch

/-- A fix of a position: the pass, what it found there and what it asked for. -/
structure Fix where
  pass : Nat
  found : Text
  asked : Text
  deriving DecidableEq, Repr

def recordOf (fixes : List Fix) : Option Record :=
  fixes.getLast?.map fun last =>
    ⟨(fixes.dropLast.getLast?.map Fix.asked).getD last.found, last.asked, last.pass⟩

/-- An edit of the given pass goes back if the latest of these fixes is of the pass before, and the
edit asks for what the fix before that one asked for or, if there is none, for what it found. -/
def GoesBack (fixes : List Fix) (pass : Nat) (content : Text) : Prop :=
  ∃ earlier last, fixes = earlier ++ [last] ∧ last.pass + 1 = pass ∧
    content = (earlier.getLast?.map Fix.asked).getD last.found

theorem recordOf_concat (fixes : List Fix) (fix : Fix) : recordOf (fixes ++ [fix]) =
    some ⟨(fixes.getLast?.map Fix.asked).getD fix.found, fix.asked, fix.pass⟩ := by
  simp [recordOf]

theorem recent_recordOf (fixes : List Fix) :
    (recordOf fixes).map Record.recent = fixes.getLast?.map Fix.asked := by
  simp [recordOf, Function.comp_def]

theorem recordOf_eq_none_iff {fixes : List Fix} : recordOf fixes = none ↔ fixes = [] := by
  simp [recordOf]

theorem goesBack_iff {fixes : List Fix} {pass : Nat} {content : Text} :
    GoesBack fixes pass content ↔
      ∃ r, recordOf fixes = some r ∧ r.previous = content ∧ r.pass + 1 = pass := by
  constructor
  · rintro ⟨earlier, last, rfl, next, rfl⟩
    exact ⟨_, recordOf_concat earlier last, rfl, next⟩
  · rintro ⟨r, recorded, rfl, next⟩
    rcases List.eq_nil_or_concat fixes with rfl | ⟨earlier, last, rfl⟩
    · simp [recordOf] at recorded
    · rw [List.concat_eq_append, recordOf_concat] at recorded
      obtain rfl := Option.some.inj recorded
      exact ⟨earlier, last, List.concat_eq_append, next, rfl⟩

namespace History

inductive Call where
  | judge (pos : Nat) (current content : Text) (pass : Nat)
  | mark (pos : Nat) (before : Text)
  | takeMark (pos : Nat)
  | clearMarks
  deriving DecidableEq, Repr

def perform (h : History) : Call → History
  | .judge pos current content pass => (h.judge pos current content pass).2
  | .mark pos before => h.mark pos before
  | .takeMark pos => (h.takeMark pos).2
  | .clearMarks => h.clearMarks

def after (calls : List Call) : History := calls.foldl perform ∅

/-- The fix that a call leaves at a position: the edit to be judged, unless it is a conflict. -/
def fix? (h : History) (pos : Nat) : Call → Option Fix
  | .judge q current content pass =>
    if q = pos ∧ (h.judge q current content pass).1 ≠ .conflict then some ⟨pass, current, content⟩
    else none
  | _ => none

def fixes (pos : Nat) (h : History) : List Call → List Fix
  | [] => []
  | call :: rest => (h.fix? pos call).toList ++ fixes pos (h.perform call) rest

variable {h : History} {pos q : Nat} {current content : Text} {pass : Nat}

/-! ### One call -/

theorem judge_firstFix_iff :
    (h.judge pos current content pass).1 = .firstFix ↔ h.record? pos = none := by
  unfold judge record?
  cases h.records.get? pos with
  | none => simp
  | some r => by_cases back : r.previous = content ∧ r.pass + 1 = pass <;> simp [back]

theorem judge_conflict_iff : (h.judge pos current content pass).1 = .conflict ↔
    ∃ r, h.record? pos = some r ∧ r.previous = content ∧ r.pass + 1 = pass := by
  unfold judge record?
  cases h.records.get? pos with
  | none => simp
  | some r => by_cases back : r.previous = content ∧ r.pass + 1 = pass <;> simp [back]

theorem judge_of_conflict (refused : (h.judge pos current content pass).1 = .conflict) :
    (h.judge pos current content pass).2 = h := by
  obtain ⟨r, recorded, back⟩ := judge_conflict_iff.mp refused
  have recorded : h.records.get? pos = some r := recorded
  simp [judge, recorded, back]

theorem judge_marks (h : History) (pos : Nat) (current content : Text) (pass : Nat) :
    (h.judge pos current content pass).2.marks = h.marks := by
  unfold judge
  cases h.records.get? pos with
  | none => rfl
  | some r => by_cases back : r.previous = content ∧ r.pass + 1 = pass <;> simp [back]

/-- An edit that is no conflict leaves what it asks for and, as the previous content, what was asked
for before it or, the first time, what it finds. -/
theorem judge_record? (accepted : (h.judge pos current content pass).1 ≠ .conflict) (q : Nat) :
    (h.judge pos current content pass).2.record? q =
      if q = pos then some ⟨((h.record? pos).map Record.recent).getD current, content, pass⟩
      else h.record? q := by
  rw [ne_eq, judge_conflict_iff] at accepted
  unfold judge record? at *
  cases recorded : h.records.get? pos with
  | none => exact Slots.get?_insert ..
  | some r =>
    have onward : ¬(r.previous = content ∧ r.pass + 1 = pass) :=
      fun back => accepted ⟨r, recorded, back⟩
    simp only [onward, if_false]
    exact Slots.get?_insert ..

theorem judge_record?_of_ne (other : q ≠ pos) :
    (h.judge pos current content pass).2.record? q = h.record? q := by
  by_cases refused : (h.judge pos current content pass).1 = .conflict
  · rw [judge_of_conflict refused]
  · rw [judge_record? refused, if_neg other]

theorem perform_record? {past : List Fix} (known : h.record? pos = recordOf past) (call : Call) :
    (h.perform call).record? pos = recordOf (past ++ (h.fix? pos call).toList) := by
  cases call with
  | judge q current content pass =>
    simp only [perform, fix?]
    by_cases refused : (h.judge q current content pass).1 = .conflict
    · simp [judge_of_conflict refused, refused, known]
    · by_cases here : q = pos
      · subst here
        simp [judge_record? refused, refused, known, recordOf_concat, recent_recordOf]
      · simp [judge_record?_of_ne (Ne.symm here), here, known]
  | mark _ _ | takeMark _ | clearMarks =>
    -- Marks are no part of the records.
    simp only [fix?, Option.toList_none, List.append_nil]
    exact known

/-! ### Any number of calls -/

theorem foldl_perform_record? {past : List Fix} (known : h.record? pos = recordOf past)
    (calls : List Call) :
    (calls.foldl perform h).record? pos = recordOf (past ++ fixes pos h calls) := by
  induction calls generalizing h past with
  | nil => simpa [fixes] using known
  | cons call rest ih => simpa [fixes] using ih (perform_record? known call)

/-- After any calls, the record of a position is that of its fixes, and the next edit is the first
fix iff there is none yet, and a conflict iff it goes back. A conflict changes nothing. -/
theorem judge_remembers (calls : List Call) (pos : Nat) :
    (after calls).record? pos = recordOf (fixes pos ∅ calls) ∧
    ∀ current content pass,
      let judged := (after calls).judge pos current content pass
      (judged.1 = .firstFix ↔ fixes pos ∅ calls = []) ∧
      (judged.1 = .conflict ↔ GoesBack (fixes pos ∅ calls) pass content) ∧
      (judged.1 = .updated ↔
        fixes pos ∅ calls ≠ [] ∧ ¬GoesBack (fixes pos ∅ calls) pass content) ∧
      (judged.1 = .conflict → judged.2 = after calls) ∧
      (∀ q, q ≠ pos → judged.2.record? q = (after calls).record? q) ∧
      judged.2.marks = (after calls).marks := by
  have fresh : (∅ : History).record? pos = recordOf [] := rfl
  have recorded : (after calls).record? pos = recordOf (fixes pos ∅ calls) :=
    foldl_perform_record? fresh calls
  refine ⟨recorded, fun current content pass => ?_⟩
  intro judged
  have first : judged.1 = .firstFix ↔ fixes pos ∅ calls = [] := by
    rw [judge_firstFix_iff, recorded, recordOf_eq_none_iff]
  have back : judged.1 = .conflict ↔ GoesBack (fixes pos ∅ calls) pass content := by
    rw [judge_conflict_iff, recorded, goesBack_iff]
  refine ⟨first, back, ?_, judge_of_conflict, fun q => judge_record?_of_ne, judge_marks ..⟩
  rw [ne_eq, ← first, ← back]
  cases judged.1 <;> simp

/-- The second edit pushes what the first one found out of the window, and the third, a conflict,
leaves the window as it is. -/
example :
    let calls : List Call := [.judge 5 ['a'] ['b'] 1, .mark 5 ['a'], .judge 5 ['b'] ['c'] 2,
      .judge 5 ['c'] ['b'] 3, .clearMarks, .judge 0 ['c'] ['b'] 3]
    (after calls).record? 5 = some ⟨['b'], ['c'], 2⟩ := by
  decide

end History

end Retouch
