import Retouch.Command
import Retouch.Proofs.Files.Fix

/-!
Fixing and then checking. A fix that writes cleans one file after another; none of its steps moves a
file or spoils one that is clean, so that a check of the same paths finds the same files and nothing
to report. A dry run leaves the workspace at every step.
-/

namespace Retouch.Command

open Transcript Workspace

variable {tool : Workspace → Diff.Tool} {config : Config} {o : FixOptions} {colours : Bool}
  {p : Path} {rest files : List Path} {w after : Workspace} {notices : List Notice}

/-! ### One file, then the rest -/

theorem fixAll_cons_of_error {e : FileError} (t : Tally)
    (failed : w.fixFileBy (tool w) config o colours p = (.error e, after, notices)) :
    (fixAll tool config o colours (p :: rest) t w).2 =
      (after, .error (("fixing " ++ p.display) :: e.chain)) := by
  rw [fixAll, failed]

theorem fixAll_cons_of_ok {report : FileReport} (t : Tally)
    (fixed : w.fixFileBy (tool w) config o colours p = (.ok report, after, notices)) :
    (fixAll tool config o colours (p :: rest) t w).2 =
      (fixAll tool config o colours rest (t.count report.outcome) after).2 := by
  rw [fixAll, fixed]

theorem Tally.failed_count (t : Tally) {outcome : Outcome} (ends : ∀ n, outcome ≠ .failed n) :
    (t.count outcome).failed = t.failed := by
  cases outcome with
  | nothingToFix => rfl
  | converged n => rfl
  | failed n => exact absurd rfl (ends n)

/-- A fix that writes and gets to the end of its files has cleaned them, and none has failed. -/
theorem fixAll_cleans (writing : o.write = true) (enough : 3 ≤ config.maxPasses) {t tally : Tally}
    (finished : (fixAll tool config o colours files t w).2.2 = .ok tally) :
    Cleans config files w (fixAll tool config o colours files t w).2.1 ∧
      tally.failed = t.failed := by
  -- Each file finds the workspace that the one before has left, so `w` is general.
  induction files generalizing t w with
  | nil =>
    obtain rfl := Except.ok.inj finished
    exact ⟨Cleans.nil config w, rfl⟩
  | cons p rest ih =>
    rcases fixFileBy_cases (tool w) w config o colours p with
      ⟨e, notices, failed, -⟩ | ⟨text, report, notices, read, describes, done⟩
    · rw [fixAll_cons_of_error t failed] at finished
      cases finished
    · rw [fixAll_cons_of_ok t done] at finished ⊢
      obtain ⟨later, count⟩ := ih finished
      refine ⟨(cleans_rewrite describes read writing (by omega)).cons later, ?_⟩
      rw [count, Tally.failed_count t (describes.outcome_ne_failed enough)]

theorem fixAll_of_dry (dry : o.write = false) (t : Tally) :
    (fixAll tool config o colours files t w).2.1 = w := by
  induction files generalizing t with
  | nil => rfl
  | cons p rest ih =>
    rcases fixFileBy_cases (tool w) w config o colours p with
      ⟨e, notices, failed, -⟩ | ⟨text, report, notices, read, describes, done⟩
    · rw [fixAll_cons_of_error t failed]
    · have unwritten : ¬report.written = true := by simp [describes.written, dry]
      rw [if_neg unwritten] at done
      rw [fixAll_cons_of_ok t done]
      exact ih _

theorem checkAll_of_clean (clean : ∀ p ∈ files, w.checkFile config p = .ok []) (total : Nat) :
    checkAll config colours w files total = ({}, .ok total) := by
  induction files with
  | nil => rfl
  | cons p rest ih =>
    have later := ih fun q member => clean q (List.mem_cons_of_mem p member)
    rw [checkAll, clean p List.mem_cons_self]
    simp only [List.foldl_nil, List.length_nil, Nat.add_zero, later]
    rfl

/-! ### The commands -/

theorem fix_snd (tool : Workspace → Diff.Tool) (config : Config) (o : FixOptions) (colours : Bool)
    (paths : List Path) (w : Workspace) :
    let fixed := fixAll tool config o colours (w.collect config.extensions paths) {} w
    (fix tool config o colours paths w).2 = (fixed.2.1, fixed.2.2.map fun t => t.failed == 0) := by
  simp only [fix]
  rcases fixAll tool config o colours (w.collect config.extensions paths) {} w with
    ⟨printed, after, e | tally⟩ <;> rfl

theorem check_of_clean {paths : List Path} (colours : Bool)
    (clean : ∀ p ∈ w.collect config.extensions paths, w.checkFile config p = .ok []) :
    check config colours paths w =
      (line "" ++ line (Paint.words colours .green "No fixable violations found"), .ok true) := by
  simp only [check, checkAll_of_clean clean]
  rfl

/-- With three passes or more, a fix that writes and finishes is well, and a check of the same paths
right after it has only good news. A dry run leaves the workspace, whatever becomes of it. -/
theorem check_after_fix (tool : Workspace → Diff.Tool) (config : Config) (o : FixOptions)
    (colours : Bool) (paths : List Path) (w : Workspace) :
    (o.write = true → 3 ≤ config.maxPasses → ∀ well,
      (fix tool config o colours paths w).2.2 = .ok well → well = true ∧ ∀ colours',
        check config colours' paths (fix tool config o colours paths w).2.1 =
          (line "" ++ line (Paint.words colours' .green "No fixable violations found"),
            .ok true)) ∧
    (o.write = false → (fix tool config o colours paths w).2.1 = w) := by
  rw [fix_snd]
  refine ⟨fun writing enough well finished => ?_, fun dry => fixAll_of_dry dry {}⟩
  cases done : (fixAll tool config o colours (w.collect config.extensions paths) {} w).2.2 with
  | error e =>
    rw [done] at finished
    cases finished
  | ok tally =>
    rw [done] at finished
    obtain rfl := Except.ok.inj finished
    obtain ⟨cleans, none⟩ := fixAll_cleans writing enough done
    refine ⟨beq_iff_eq.mpr none, fun colours' => check_of_clean colours' ?_⟩
    rw [cleans.shape.collect]
    exact cleans.clean

theorem check_after_fix_spellings :
    let w : Workspace :=
      { tree :=
          { files :=
              [([['d'], ['a']], (String.ofList ['x', ' ', '\r', '\n', '\t', 'y']).toUTF8),
                ([['d'], ['b']], (String.ofList ['z']).toUTF8)]
            directories := [] }
        cwd := [['d']] }
    let paths : List Path := [⟨['.']⟩, ⟨['.', '.', '/', 'd', '/', 'a']⟩]
    (fix Workspace.tool {} { write := true } false paths w).2.2 = .ok true ∧
      (∀ colours, check {} colours paths
          (fix Workspace.tool {} { write := true } false paths w).2.1 =
        (line "" ++ line (Paint.words colours .green "No fixable violations found"), .ok true)) ∧
      (fix Workspace.tool {} { write := false } false paths w).2.1 = w := by
  intro w paths
  have collected : w.collect [] paths =
      [⟨['.', '/', 'a']⟩, ⟨['.', '/', 'b']⟩, ⟨['.', '.', '/', 'd', '/', 'a']⟩] := by
    have expanded : paths.flatMap (w.expand []) =
        [⟨['.', '/', 'a']⟩, ⟨['.', '/', 'b']⟩, ⟨['.', '.', '/', 'd', '/', 'a']⟩] := by
      decide +kernel
    rw [collect, expanded, List.mergeSort_of_pairwise (by decide +kernel),
      dedup, if_neg (by decide), dedup, if_neg (by decide), dedup]
    simp
  have finished : (fix Workspace.tool {} { write := true } false paths w).2.2 = .ok true := by
    rw [fix_snd, show ({} : Config).extensions = [] from rfl, collected]
    decide +kernel
  have agree := fun o => check_after_fix Workspace.tool {} o false paths w
  exact ⟨finished, ((agree _).1 rfl (by decide) true finished).2, (agree _).2 rfl⟩

end Retouch.Command
