import Retouch.Proofs.Files.Tree
import Retouch.Proofs.Linter.Sweeping

/-!
What fixing a file does to a workspace. Reading and comparing come before writing, so that a failure
finds every file untouched; and what is written is clean, so that there is nothing left to do.
-/

namespace Retouch.Workspace

open Linter (fixText ofText)

variable {w : Workspace} {config : Config} {o : FixOptions} {p : Path} {place : Place} {text : Text}
  {report : FileReport}

structure Describes (config : Config) (o : FixOptions) (p : Path) (text : Text)
    (report : FileReport) : Prop where
  path : report.path = p
  outcome : report.outcome = (fixText text config).outcome
  fixable : report.fixable = (ofText text config).check.length
  remaining : report.remaining =
    (ofText (fixText text config).session.contents config).check.length
  changed : report.changed = true ↔ (fixText text config).session.contents ≠ text
  written : report.written = true ↔ o.write = true ∧ report.changed = true
  diff : report.diff.isSome = true ↔ o.diff = true ∧ report.changed = true

/-! ### The ways a fix can go -/

theorem comparison_cases (tool : Diff.Tool) (config : Config) (o : FixOptions) (colours : Bool)
    (p : Path) (s : Session) (changed : Bool) :
    (∃ cause, comparison tool config o colours p s changed = .error (.noDiff p cause) ∧
      o.diff = true) ∨
    ∃ diff, comparison tool config o colours p s changed = .ok diff ∧
      (diff.isSome = true ↔ o.diff = true ∧ changed = true) := by
  rw [← Bool.and_eq_true]
  unfold comparison
  split
  case isTrue asked =>
    cases s.diffBy tool (config.diffOptions.forFile p.display) o.paint colours with
    | error cause => exact Or.inl ⟨cause, rfl, (Bool.and_eq_true_iff.mp asked).1⟩
    | ok diff => exact Or.inr ⟨some diff, rfl, by simp [asked]⟩
  case isFalse unasked => exact Or.inr ⟨none, rfl, by simp [unasked]⟩

/-- A fix fails and leaves the workspace, or it reports on the text it read and has written what the
run made of it, if that was asked for and is another text. -/
theorem fixFileBy_cases (tool : Diff.Tool) (w : Workspace) (config : Config) (o : FixOptions)
    (colours : Bool) (p : Path) :
    (∃ e notices, w.fixFileBy tool config o colours p = (.error e, w, notices) ∧
      (w.source p = .error e ∨ o.diff = true ∧ ∃ cause, e = .noDiff p cause)) ∨
    ∃ text report notices, w.source p = .ok text ∧ Describes config o p text report ∧
      w.fixFileBy tool config o colours p = (.ok report,
        if report.written then w.writeText p (fixText text config).session.contents else w,
        notices) := by
  unfold fixFileBy
  cases read : w.source p with
  | error e => exact Or.inl ⟨e, [], rfl, Or.inl rfl⟩
  | ok text =>
    simp only
    rcases comparison_cases tool config o colours p (fixText text config).session
        ((fixText text config).session.contents != text) with
      ⟨cause, failed, asked⟩ | ⟨diff, compared, shown⟩
    · rw [failed]
      exact Or.inl ⟨_, _, rfl, Or.inr ⟨asked, cause, rfl⟩⟩
    · rw [compared]
      refine Or.inr ⟨text, _, _, rfl, ?_, rfl⟩
      exact ⟨rfl, rfl, rfl, rfl, bne_iff_ne, Bool.and_eq_true_iff, shown⟩

namespace Describes

variable (describes : Describes config o p text report)

include describes

/-! ### Runs with enough passes -/

theorem remaining_eq_zero (enough : 2 ≤ config.maxPasses) : report.remaining = 0 := by
  rw [describes.remaining, List.length_eq_zero_iff]
  exact (Linter.check_eq_nil_iff _ _ rfl).mpr (Linter.clean_fixText text config enough)

theorem changed_iff_fixable (enough : 2 ≤ config.maxPasses) :
    report.changed = true ↔ 0 < report.fixable := by
  rw [describes.changed, Linter.fixText_changes_iff text config enough, describes.fixable,
    List.length_pos_iff]

theorem changed_iff_converged (enough : 3 ≤ config.maxPasses) :
    report.changed = true ↔ ∃ n, report.outcome = .converged n := by
  rw [describes.changed, Linter.fixText_changes_iff text config (by omega), describes.outcome]
  constructor
  · exact Linter.fixText_of_dirty text config enough
  · rintro ⟨n, converged⟩ clean
    rw [(Linter.fixText_of_clean text config clean).1] at converged
    cases converged

theorem outcome_ne_failed (enough : 3 ≤ config.maxPasses) (n : Nat) :
    report.outcome ≠ .failed n := by
  rw [describes.outcome]
  by_cases clean : (ofText text config).check = []
  · rw [(Linter.fixText_of_clean text config clean).1]
    nofun
  · obtain ⟨m, converged⟩ := Linter.fixText_of_dirty text config enough clean
    rw [converged]
    nofun

end Describes

/-! ### The files afterwards -/

theorem sameShape_rewrite (w : Workspace) (p : Path) (text : Text) (written : Bool) :
    SameShape w (if written then w.writeText p text else w) := by
  cases written
  · exact SameShape.refl w
  · exact sameShape_writeText w p text

theorem source_rewrite (describes : Describes config o p text report) (read : w.source p = .ok text)
    (writing : o.write = true) :
    (if report.written then w.writeText p (fixText text config).session.contents else w).source p =
      .ok (fixText text config).session.contents := by
  split
  case isTrue => exact source_writeText read _
  case isFalse unwritten =>
    have same : (fixText text config).session.contents = text := by
      by_contra different
      exact unwritten (describes.written.mpr ⟨writing, describes.changed.mpr different⟩)
    rw [same]
    exact read

theorem checkFile_eq_ok_iff {reports : List Report} : w.checkFile config p = .ok reports ↔
    ∃ text, w.source p = .ok text ∧ (ofText text config).check = reports := by
  unfold checkFile
  cases w.source p with
  | error e => simp [Except.map]
  | ok text => simp [Except.map]

/-- The second workspace has the shape of the first; the given files are clean in it, and so is
every file that was clean before. -/
structure Cleans (config : Config) (files : List Path) (w v : Workspace) : Prop where
  shape : SameShape w v
  clean : ∀ p ∈ files, v.checkFile config p = .ok []
  keeps : ∀ q, w.checkFile config q = .ok [] → v.checkFile config q = .ok []

namespace Cleans

theorem nil (config : Config) (w : Workspace) : Cleans config [] w w where
  shape := SameShape.refl w
  clean := nofun
  keeps _ clean := clean

theorem cons {files : List Path} {u v : Workspace} (first : Cleans config [p] w v)
    (rest : Cleans config files v u) : Cleans config (p :: files) w u where
  shape := first.shape.trans rest.shape
  clean q member := by
    rcases List.mem_cons.mp member with rfl | later
    · exact rest.keeps q (first.clean q List.mem_cons_self)
    · exact rest.clean q later
  keeps q clean := rest.keeps q (first.keeps q clean)

end Cleans

theorem cleans_rewrite (describes : Describes config o p text report) (read : w.source p = .ok text)
    (writing : o.write = true) (enough : 2 ≤ config.maxPasses) :
    Cleans config [p] w
      (if report.written then w.writeText p (fixText text config).session.contents else w) := by
  have fixed : (ofText (fixText text config).session.contents config).check = [] :=
    (Linter.check_eq_nil_iff _ _ rfl).mpr (Linter.clean_fixText text config enough)
  refine ⟨sameShape_rewrite w p _ _, ?_, ?_⟩
  · intro q member
    obtain rfl := List.mem_singleton.mp member
    exact checkFile_eq_ok_iff.mpr ⟨_, source_rewrite describes read writing, fixed⟩
  · intro q clean
    obtain ⟨other, read', none⟩ := checkFile_eq_ok_iff.mp clean
    split
    case isFalse => exact clean
    case isTrue =>
      -- The path may be another spelling of `p`, and then it leads to the new text.
      rcases source_writeText_or read (fixText text config).session.contents read' with new | old
      · exact checkFile_eq_ok_iff.mpr ⟨_, new, fixed⟩
      · exact checkFile_eq_ok_iff.mpr ⟨_, old, none⟩

theorem fixFileBy_of_clean (clean : w.checkFile config p = .ok []) (tool : Diff.Tool)
    (o : FixOptions) (colours : Bool) :
    ∃ report notices, w.fixFileBy tool config o colours p = (.ok report, w, notices) ∧
      report.outcome = .nothingToFix ∧ report.changed = false := by
  obtain ⟨text, read, none⟩ := checkFile_eq_ok_iff.mp clean
  obtain ⟨outcome, contents⟩ := Linter.fixText_of_clean text config none
  have same : ((fixText text config).session.contents != text) = false := by simp [contents]
  unfold fixFileBy comparison
  rw [read]
  simp only [same, Bool.and_false, Bool.false_eq_true, if_false]
  exact ⟨_, _, rfl, outcome, rfl⟩

/-! ### The contract -/

theorem encode_inj {a b : Text} :
    (String.ofList a).toUTF8 = (String.ofList b).toUTF8 ↔ a = b :=
  String.toByteArray_inj.trans String.ofList_inj

theorem bytes?_rewrite (located : w.locate p = .ok place)
    (held : w.tree.bytes? place = some (String.ofList text).toUTF8) (new : Text) (written : Bool)
    (other : Place) :
    (if written then w.writeText p new else w).tree.bytes? other =
      if written = true ∧ other = place then some (String.ofList new).toUTF8
      else w.tree.bytes? other := by
  cases written
  · simp
  · simp [bytes?_writeText located held]

/-- Fixing a file fails and leaves the workspace, or it reports on the text of the file and changes
only its bytes, iff writing was asked for and the run made another text of it. -/
theorem fixFileBy_contract (tool : Diff.Tool) (w : Workspace) (config : Config) (o : FixOptions)
    (colours : Bool) (p : Path) :
    match w.fixFileBy tool config o colours p with
    | (.error e, after, _) => after = w ∧
      (w.source p = .error e ∨ o.diff = true ∧ ∃ cause, e = .noDiff p cause)
    | (.ok report, after, _) => ∃ place text, w.locate p = .ok place ∧
      w.tree.bytes? place = some (String.ofList text).toUTF8 ∧
      Describes config o p text report ∧ w.SameShape after ∧
      (∀ other, other ≠ place → after.tree.bytes? other = w.tree.bytes? other) ∧
      (after.tree.bytes? place ≠ w.tree.bytes? place ↔ o.write = true ∧ report.changed = true) ∧
      (o.write = true ∧ report.changed = true → after.tree.bytes? place =
        some (String.ofList (fixText text config).session.contents).toUTF8) ∧
      (3 ≤ config.maxPasses → report.remaining = 0 ∧
        (report.changed = true ↔ 0 < report.fixable) ∧
        (report.changed = true ↔ ∃ n, report.outcome = .converged n) ∧
        (o.write = true → after.checkFile config p = .ok [] ∧ ∀ tool' o' colours',
          ∃ report' notices', after.fixFileBy tool' config o' colours' p =
            (.ok report', after, notices') ∧
            report'.outcome = .nothingToFix ∧ report'.changed = false)) := by
  rcases fixFileBy_cases tool w config o colours p with
    ⟨e, notices, failed, cause⟩ | ⟨text, report, notices, read, describes, done⟩
  · rw [failed]
    exact ⟨rfl, cause⟩
  · rw [done]
    obtain ⟨place, located, held⟩ := source_eq_ok_iff.mp read
    have bytes := bytes?_rewrite located held (fixText text config).session.contents report.written
    refine ⟨place, text, located, held, describes, sameShape_rewrite w p _ _, ?_, ?_, ?_, ?_⟩
    · intro other elsewhere
      rw [bytes, if_neg fun here => elsewhere here.2]
    · rw [bytes, ← describes.written]
      by_cases written : report.written = true
      · have changed := describes.changed.mp (describes.written.mp written).2
        rw [if_pos ⟨written, rfl⟩, held, Ne, Option.some.injEq, encode_inj]
        exact iff_of_true changed written
      · rw [if_neg fun here => written here.1]
        exact iff_of_false (fun differs => differs rfl) written
    · intro asked
      rw [bytes, if_pos ⟨describes.written.mpr asked, rfl⟩]
    · intro enough
      refine ⟨describes.remaining_eq_zero (by omega), describes.changed_iff_fixable (by omega),
        describes.changed_iff_converged enough, fun writing => ?_⟩
      have clean := (cleans_rewrite describes read writing (by omega)).clean p List.mem_cons_self
      exact ⟨clean, fixFileBy_of_clean clean⟩

theorem fixFileBy_contract_shelf :
    let w : Workspace :=
      { tree :=
          { files :=
              [([['d'], ['a']], (String.ofList ['x', ' ', '\r', '\n', '\t', 'y']).toUTF8),
                ([['d'], ['b']], ByteArray.empty)]
            directories := [] }
        cwd := [['d']] }
    ∃ report after notices,
      w.fixFileBy w.tool {} { write := true } false ⟨['.', '/', 'a']⟩ =
        (.ok report, after, notices) ∧
      report.changed = true ∧ after.tree.bytes? [['d'], ['a']] =
        some (String.ofList ['x', '\r', '\n', ' ', ' ', ' ', ' ', 'y', '\r', '\n']).toUTF8 ∧
      after.tree.bytes? [['d'], ['b']] = some ByteArray.empty ∧
      after.checkFile {} ⟨['.', '/', 'a']⟩ = .ok [] := by
  intro w
  have located : w.locate ⟨['.', '/', 'a']⟩ = .ok [['d'], ['a']] := by decide +kernel
  have contract := fixFileBy_contract w.tool w {} { write := true } false ⟨['.', '/', 'a']⟩
  rcases done : w.fixFileBy w.tool {} { write := true } false ⟨['.', '/', 'a']⟩ with
    ⟨answer, after, notices⟩
  rw [done] at contract
  cases answer with
  | error e =>
    have read := source_eq_ok_iff.mpr ⟨_, located, rfl⟩
    simp [read] at contract
  | ok report =>
    obtain ⟨place, text, leads, held, describes, -, others, -, bytes, settles⟩ := contract
    obtain rfl := Except.ok.inj (located.symm.trans leads)
    obtain rfl := encode_inj.mp (Option.some.inj held)
    have changed : report.changed = true := describes.changed.mpr (by decide +kernel)
    refine ⟨report, after, notices, rfl, changed, ?_, ?_, ((settles (by decide)).2.2.2 rfl).1⟩
    · rw [bytes ⟨rfl, changed⟩]
      decide +kernel
    · rw [others _ (by decide)]
      rfl

end Retouch.Workspace
