import Retouch.Proofs.Rule.Runs
import Retouch.Proofs.Session.Exchange

/-!
Runs of line terminators by position. `walk` goes over the tokens by two loops, one from run to run
and one to the end of a run; it comes to the same list as the scan that counts terminators. The main
result is `runs_cleared`: the list holds the runs that are too long and nothing else, and mending
one of them asks to empty its terminators from the third one on.
-/

namespace Retouch.Rule.BlankLines

open Script (Exchange)
open Text (isNewline)

variable {tokens : List Text} {pos : Nat}

/-! ### The scan at a position -/

theorem lt_of_newlineAt (newline : newlineAt tokens pos) : pos < tokens.length := by
  by_contra past
  simp [newlineAt, List.getElem?_eq_none (Nat.le_of_not_lt past)] at newline

theorem runsFrom_of_newline (newline : newlineAt tokens pos) (run : Nat) :
    runsFrom pos run (tokens.drop pos) = runsFrom (pos + 1) (run + 1) (tokens.drop (pos + 1)) := by
  have inside := lt_of_newlineAt newline
  have here : isNewline tokens[pos] := by simpa [newlineAt, inside] using newline
  rw [List.drop_eq_getElem_cons inside, runsFrom, if_pos here]

theorem runsFrom_of_other (inside : pos < tokens.length) (other : ¬newlineAt tokens pos)
    (run : Nat) : runsFrom pos run (tokens.drop pos) =
      (if 2 < run then [(pos - run, pos)] else []) ++
        runsFrom (pos + 1) 0 (tokens.drop (pos + 1)) := by
  have here : ¬isNewline tokens[pos] := by simpa [newlineAt, inside] using other
  rw [List.drop_eq_getElem_cons inside, runsFrom, if_neg here]

theorem runsFrom_of_past (past : tokens.length ≤ pos) (run : Nat) :
    runsFrom pos run (tokens.drop pos) = [] := by
  rw [List.drop_eq_nil_of_le past, runsFrom]

/-! ### To the end of a run -/

def runEnd (tokens : List Text) (pos : Nat) : Nat :=
  if newlineAt tokens pos then runEnd tokens (pos + 1) else pos
termination_by tokens.length - pos
decreasing_by
  have inside := lt_of_newlineAt ‹_›
  omega

theorem le_runEnd (tokens : List Text) (pos : Nat) : pos ≤ runEnd tokens pos := by
  fun_induction runEnd tokens pos with
  | case1 pos newline ih => omega
  | case2 pos other => exact Nat.le_refl pos

theorem lt_runEnd (newline : newlineAt tokens pos) : pos < runEnd tokens pos := by
  rw [runEnd, if_pos newline]
  exact le_runEnd tokens (pos + 1)

theorem not_newlineAt_runEnd (tokens : List Text) (pos : Nat) :
    ¬newlineAt tokens (runEnd tokens pos) := by
  fun_induction runEnd tokens pos with
  | case1 pos newline ih => exact ih
  | case2 pos other => exact other

theorem runsFrom_eq_runEnd (tokens : List Text) (pos run : Nat) :
    runsFrom pos run (tokens.drop pos) = runsFrom (runEnd tokens pos)
      (run + (runEnd tokens pos - pos)) (tokens.drop (runEnd tokens pos)) := by
  fun_induction runEnd tokens pos generalizing run with
  | case1 pos newline ih =>
    have later := le_runEnd tokens (pos + 1)
    rw [runsFrom_of_newline newline, ih]
    congr 1
    omega
  | case2 pos other => simp

/-! ### From run to run -/

/-- The runs from `pos` on that are too long: step over a token that is no terminator, else go on to
the end of its run and note the run if it has more than two terminators and a token after it. -/
def walk (tokens : List Text) (pos : Nat) : List (Nat × Nat) :=
  if pos < tokens.length then
    if newlineAt tokens pos then
      let stop := runEnd tokens pos
      if 2 < stop - pos ∧ stop < tokens.length then (pos, stop) :: walk tokens stop
      else walk tokens stop
    else walk tokens (pos + 1)
  else []
termination_by tokens.length - pos
decreasing_by
  · have further := lt_runEnd ‹_›
    omega
  · have further := lt_runEnd ‹_›
    omega
  · omega

theorem runsFrom_eq_append (tokens : List Text) (pos : Nat) :
    runsFrom pos 0 (tokens.drop pos) =
      (if 2 < runEnd tokens pos - pos ∧ runEnd tokens pos < tokens.length then
        [(pos, runEnd tokens pos)] else []) ++
        runsFrom (runEnd tokens pos) 0 (tokens.drop (runEnd tokens pos)) := by
  have later := le_runEnd tokens pos
  have ends := not_newlineAt_runEnd tokens pos
  rw [runsFrom_eq_runEnd]
  -- A run is noted at the token after it, so one at the end of the tokens is not noted at all.
  by_cases inside : runEnd tokens pos < tokens.length
  · rw [runsFrom_of_other inside ends, runsFrom_of_other inside ends]
    simp [inside, Nat.sub_sub_self later]
  · have past := Nat.le_of_not_lt inside
    simp [inside, runsFrom_of_past past]

theorem walk_eq_runsFrom (tokens : List Text) (pos : Nat) :
    walk tokens pos = runsFrom pos 0 (tokens.drop pos) := by
  fun_induction walk tokens pos with
  | case1 pos inside newline stop long ih =>
    rw [runsFrom_eq_append, if_pos long, ih]
    rfl
  | case2 pos inside newline stop short ih =>
    rw [runsFrom_eq_append, if_neg short, ih]
    rfl
  | case3 pos inside other ih =>
    rw [runsFrom_of_other inside other, ih]
    rfl
  | case4 pos past => rw [runsFrom_of_past (Nat.le_of_not_lt past)]

theorem walk_eq_runs (tokens : List Text) : walk tokens 0 = runs tokens := by
  rw [walk_eq_runsFrom, List.drop_zero, runs]

/-! ### What is mended -/

theorem pos_check (tokens : List Text) :
    (check tokens).map Violation.pos = (runs tokens).map fun run => run.1 + 2 := by
  rw [check, List.map_map]
  rfl

/-- The fix looks for the end of the run from its third terminator on, and finds the same one. -/
theorem requests_fix {start stop : Nat} (found : IsRun tokens start stop) (source : String)
    (s : Session) : ((fix source tokens (start + 2)).trace s).map Exchange.request =
      .beginBatch :: if s.conflict || s.batchOpen then []
        else (List.range' (start + 2) (stop - (start + 2))).map (Request.replace · []) ++
          [.endBatch] := by
  have long := found.long
  rw [fix, Script.requests_clearAll, found.length_takeWhile (by omega) (by omega)]

/-- The walk from run to run ends, and both it and the scan give just the runs that are too long, in
order. Mending one asks, in one batch, to empty its terminators from the third on and nothing
else. -/
theorem runs_cleared (tokens : List Text) :
    walk tokens 0 = runs tokens ∧
    (∀ start stop, (start, stop) ∈ runs tokens ↔ IsRun tokens start stop) ∧
    (runs tokens).Pairwise (fun former latter => former.2 < latter.1) ∧
    (check tokens).map Violation.pos = (runs tokens).map (fun run => run.1 + 2) ∧
    ∀ start stop, (start, stop) ∈ runs tokens → start + 2 < tokens.length ∧
      ∀ (source : String) (s : Session),
        ((fix source tokens (start + 2)).trace s).map Exchange.request =
          .beginBatch :: if s.conflict || s.batchOpen then []
            else (List.range' (start + 2) (stop - (start + 2))).map (Request.replace · []) ++
              [.endBatch] := by
  refine ⟨walk_eq_runs tokens, fun start stop => mem_runs, pairwise_runs tokens,
    pos_check tokens, ?_⟩
  intro start stop member
  have found := mem_runs.mp member
  have long := found.long
  have inside := found.inside
  exact ⟨by omega, requests_fix found⟩

/-- A run at the start, one that is short enough, and one that no token ends. -/
example : runs [['\n'], ['\r'], ['\n'], ['a'], ['\n'], ['\n'], ['b'], ['\n'], ['\n'], ['\n']] =
    [(0, 3)] := by
  decide

end Retouch.Rule.BlankLines
