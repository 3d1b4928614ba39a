import Mathlib.Data.Nat.Find
import Mathlib.Data.List.Basic
import Retouch.Rule

/-!
Runs of line terminators. The scan carries a count of the terminators right before it; `mem_runs`
says that it finds the maximal runs of more than two terminators with a token after them, and
`exists_isRun_iff` that a third terminator with text after it lies in one of these.
-/

namespace Retouch.Rule.BlankLines

open Text (isNewline)

variable {tokens rest : List Text} {pos run start stop q : Nat}

def newlineAt (tokens : List Text) (pos : Nat) : Bool := (tokens[pos]?).any isNewline

/-- A maximal run of more than two terminators, up to a further token at `stop`. -/
structure IsRun (tokens : List Text) (start stop : Nat) : Prop where
  long : start + 3 ≤ stop
  inside : stop < tokens.length
  newlines : ∀ i, start ≤ i → i < stop → newlineAt tokens i
  ends : ¬newlineAt tokens stop
  starts : start = 0 ∨ ¬newlineAt tokens (start - 1)

/-- The run that ends at `pos` is the one that the scan has counted, if it is long enough. -/
theorem isRun_iff_of_counted (inside : pos < tokens.length) (ends : ¬newlineAt tokens pos)
    (short : run ≤ pos) (counted : ∀ i, pos - run ≤ i → i < pos → newlineAt tokens i)
    (edge : pos = run ∨ ¬newlineAt tokens (pos - run - 1)) :
    IsRun tokens start pos ↔ 2 < run ∧ start = pos - run := by
  constructor
  · intro found
    have long := found.long
    have upper : start ≤ pos - run := by
      by_contra above
      rcases found.starts with zero | before
      · omega
      · exact before (counted (start - 1) (by omega) (by omega))
    have lower : pos - run ≤ start := by
      by_contra below
      rcases edge with whole | before
      · omega
      · exact before (found.newlines (pos - run - 1) (by omega) (by omega))
    omega
  · rintro ⟨long, rfl⟩
    exact ⟨by omega, inside, counted, ends, edge.imp (by omega) id⟩

theorem mem_runsFrom (split : tokens.drop pos = rest) (short : run ≤ pos)
    (counted : ∀ i, pos - run ≤ i → i < pos → newlineAt tokens i)
    (edge : pos = run ∨ ¬newlineAt tokens (pos - run - 1)) :
    (start, stop) ∈ runsFrom pos run rest ↔ pos ≤ stop ∧ IsRun tokens start stop := by
  induction rest generalizing pos run with
  | nil =>
    have past : tokens.length ≤ pos := List.drop_eq_nil_iff.mp split
    simp only [runsFrom, List.not_mem_nil, false_iff, not_and]
    intro later found
    have inside := found.inside
    omega
  | cons t rest ih =>
    have read : tokens[pos]? = some t := by
      rw [← List.head?_drop, split, List.head?_cons]
    have inside : pos < tokens.length := (List.getElem?_eq_some_iff.mp read).1
    have next : tokens.drop (pos + 1) = rest := by
      rw [← List.tail_drop, split, List.tail_cons]
    have here : newlineAt tokens pos = isNewline t := by simp [newlineAt, read]
    rw [runsFrom]
    by_cases newline : isNewline t
    · have counted' : ∀ i, pos + 1 - (run + 1) ≤ i → i < pos + 1 → newlineAt tokens i := by
        intro i above below
        rcases Nat.lt_succ_iff_lt_or_eq.mp below with earlier | rfl
        · exact counted i (by omega) earlier
        · rw [here, newline]
      rw [if_pos newline, ih next (by omega) counted' (by
        rw [show pos + 1 - (run + 1) = pos - run by omega]
        exact edge.imp_left (by omega))]
      refine and_congr_left fun found => ⟨by omega, fun later => ?_⟩
      have different : stop ≠ pos := by
        rintro rfl
        exact found.ends (here.trans newline)
      omega
    · -- A run ends here or later; one that ends here is the one counted.
      have ends : ¬newlineAt tokens pos := by rwa [here]
      rw [if_neg newline, List.mem_append,
        ih next (Nat.zero_le _) (by omega) (Or.inr (by simpa using ends))]
      have single : (start, stop) ∈ (if 2 < run then [(pos - run, pos)] else []) ↔
          stop = pos ∧ IsRun tokens start stop := by
        by_cases same : stop = pos
        · subst same
          rw [isRun_iff_of_counted inside ends short counted edge]
          by_cases long : 2 < run <;> simp [long]
        · split <;> simp [same]
      rw [single, ← or_and_right]
      exact and_congr_left fun _ => by omega

theorem mem_runs : (start, stop) ∈ runs tokens ↔ IsRun tokens start stop := by
  rw [runs, mem_runsFrom List.drop_zero (Nat.le_refl 0) (by omega) (Or.inl rfl)]
  simp

theorem start_of_mem_runsFrom (member : (start, stop) ∈ runsFrom pos run rest) :
    pos - run ≤ start := by
  induction rest generalizing pos run with
  | nil => simp [runsFrom] at member
  | cons t rest ih =>
    rw [runsFrom] at member
    split at member
    · have later := ih member
      omega
    · rcases List.mem_append.mp member with here | later
      · split at here
        · simp at here
          omega
        · simp at here
      · have later := ih later
        omega

theorem pairwise_runsFrom (pos run : Nat) (rest : List Text) :
    (runsFrom pos run rest).Pairwise fun a b => a.2 < b.1 := by
  induction rest generalizing pos run with
  | nil => exact List.Pairwise.nil
  | cons t rest ih =>
    rw [runsFrom]
    split
    · exact ih _ _
    · refine List.pairwise_append.mpr ⟨by split <;> simp, ih _ _, ?_⟩
      intro a first b second
      have later := start_of_mem_runsFrom second
      split at first
      · obtain rfl : a = (pos - run, pos) := by simpa using first
        exact Nat.lt_of_succ_le later
      · simp at first

theorem pairwise_runs (tokens : List Text) :
    (runs tokens).Pairwise fun a b => a.2 < b.1 :=
  pairwise_runsFrom 0 0 tokens

/-- A terminator lies in a run as the third or later iff two stand right before it and some token
after it is none. -/
theorem exists_isRun_iff : (∃ start stop, IsRun tokens start stop ∧ start + 2 ≤ q ∧ q < stop) ↔
    2 ≤ q ∧ newlineAt tokens q ∧ newlineAt tokens (q - 1) ∧ newlineAt tokens (q - 2) ∧
      ∃ i, q < i ∧ i < tokens.length ∧ ¬newlineAt tokens i := by
  constructor
  · rintro ⟨start, stop, found, third, before⟩
    have newlines := found.newlines
    exact ⟨by omega, newlines q (by omega) before, newlines _ (by omega) (by omega),
      newlines _ (by omega) (by omega), stop, before, found.inside, found.ends⟩
  · rintro ⟨third, here, first, second, further⟩
    have back : ∃ start, ∀ i, start ≤ i → i ≤ q → newlineAt tokens i :=
      ⟨q, fun i above below => by rwa [Nat.le_antisymm below above]⟩
    have newlines := Nat.find_spec back
    have least := fun i => Nat.find_min back (m := i)
    obtain ⟨later, inside, ends⟩ := Nat.find_spec further
    have nearest := fun i => Nat.find_min further (m := i)
    generalize Nat.find back = start at newlines least
    generalize Nat.find further = stop at later inside ends nearest
    have reaches : start ≤ q - 2 := by
      by_contra after
      refine least (q - 2) (by omega) fun i above below => ?_
      rcases (by omega : i = q - 2 ∨ i = q - 1 ∨ i = q) with rfl | rfl | rfl <;> assumption
    refine ⟨start, stop, ⟨by omega, inside, ?_, ends, ?_⟩, by omega, later⟩
    · intro i above below
      by_cases upto : i ≤ q
      · exact newlines i above upto
      · by_contra none
        exact nearest i below ⟨by omega, by omega, none⟩
    · by_contra neither
      obtain ⟨positive, newline⟩ := not_or.mp neither
      refine least (start - 1) (by omega) fun i above below => ?_
      by_cases edge : i = start - 1
      · rw [edge]
        exact not_not.mp newline
      · exact newlines i (by omega) below

/-! ### Counting by prefixes -/

theorem le_length_takeWhile_iff {α : Type} {p : α → Bool} {l : List α} {n : Nat}
    (inside : n ≤ l.length) : n ≤ (l.takeWhile p).length ↔ (l.take n).all p := by
  induction l generalizing n with
  | nil =>
    obtain rfl : n = 0 := Nat.le_zero.mp inside
    simp
  | cons a l ih =>
    cases n with
    | zero => simp
    | succ n =>
      by_cases holds : p a
      · simp [holds, ih (Nat.le_of_succ_le_succ inside)]
      · simp [holds]

theorem le_length_takeWhile_drop_iff {n : Nat} (inside : q + n ≤ tokens.length) :
    n ≤ ((tokens.drop q).takeWhile isNewline).length ↔ ∀ i < n, newlineAt tokens (q + i) := by
  rw [le_length_takeWhile_iff (by simp; omega), List.all_eq_true, List.forall_mem_iff_getElem]
  have fits : ((tokens.drop q).take n).length = n := by
    simp
    omega
  refine forall_congr' fun i => ⟨fun all below => ?_, fun all below => ?_⟩
  · have within : q + i < tokens.length := by omega
    simpa [newlineAt, within] using all (fits.symm ▸ below)
  · rw [fits] at below
    have within : q + i < tokens.length := by omega
    simpa [newlineAt, within] using all below

theorem IsRun.length_takeWhile (found : IsRun tokens start stop) (above : start ≤ q)
    (below : q ≤ stop) : ((tokens.drop q).takeWhile isNewline).length = stop - q := by
  have inside := found.inside
  apply Nat.le_antisymm
  · by_contra longer
    have newline := (le_length_takeWhile_drop_iff (by omega)).mp
      (by omega : stop - q + 1 ≤ ((tokens.drop q).takeWhile isNewline).length) (stop - q) (by omega)
    rw [Nat.add_sub_cancel' below] at newline
    exact found.ends newline
  · refine (le_length_takeWhile_drop_iff (by omega)).mpr fun i _ => ?_
    exact found.newlines (q + i) (by omega) (by omega)

end Retouch.Rule.BlankLines
